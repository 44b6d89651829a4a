import BusTester.Client.SendHistory
import BusTester.Text.JsObject

/-!
# The form of the send panel

The signals of `SendComponent` that its methods read, with one function for each method. Blurred
fields (`touched`) are left out: only the template reads them. `JSON.stringify` is injective on
the records that the dirty check compares, so a snapshot is kept as the record itself, with the
headers as the list of their entries.
-/

namespace BusTester

/-- A free-form header row. -/
structure HeaderRow (β : Type) where
  key : Utf16
  value : β
deriving DecidableEq

/-- The header editor: the five fixed fields, the free-form rows, and whether any is sent. The
values are strings, unless a record was copied to the fields unchecked. -/
structure HeaderEditor (β : Type) where
  headersEnabled : Bool
  headerTipoMensaje : β
  headerContentType : β
  headerIntencion : β
  headerMessageId : β
  headerCorrelationId : β
  additionalHeaders : List (HeaderRow β)
deriving DecidableEq

/-- `FormSnapshot`. -/
structure FormSnapshot where
  exchange : Utf16
  routingKey : Utf16
  payload : Utf16
  headers : List (Utf16 × Utf16)
deriving DecidableEq

/-- `EMPTY_SNAPSHOT`. -/
def FormSnapshot.empty : FormSnapshot := ⟨[], [], [], []⟩

/-- `ReplyTarget`. -/
structure ReplyTarget where
  routingKey : Utf16
  correlationId : Option Utf16
deriving DecidableEq

/-- `COMUNES_HEADER_KEYS`. -/
structure ComunesHeaderKeys where
  tipoMensaje : Utf16
  contentType : Utf16
  intencion : Utf16
  messageId : Utf16
  correlationId : Utf16

def comunesHeaderKeys : ComunesHeaderKeys where
  tipoMensaje := Utf16.ofString "NServiceBus.EnclosedMessageTypes"
  contentType := Utf16.ofString "NServiceBus.ContentType"
  intencion := Utf16.ofString "NServiceBus.MessageIntent"
  messageId := Utf16.ofString "NServiceBus.MessageId"
  correlationId := Utf16.ofString "NServiceBus.CorrelationId"

/-- The endpoint that a request is posted to. -/
inductive Endpoint where
  /-- `/api/messages`. -/
  | messages
  /-- `/api/messages/with-reply`. -/
  | withReply
deriving DecidableEq

/-- A request as it is posted. -/
structure SendRequest where
  endpoint : Endpoint
  exchange : Utf16
  routingKey : Utf16
  payload : Utf16
  headers : StringMap
  correlationId : Option Utf16
deriving DecidableEq

structure SendComponent extends HeaderEditor Utf16 where
  exchange : Utf16
  routingKey : Utf16
  payload : Utf16
  templateName : Utf16
  expectReply : Bool
  replyMode : Bool
  correlationId : Utf16
  lastAppliedDraftSeq : ℕ
  lastAppliedSnapshot : FormSnapshot
deriving DecidableEq

namespace HeaderEditor

variable {β : Type}

/-- The editor with nothing filled in. -/
def cleared (blank : β) : HeaderEditor β where
  headersEnabled := false
  headerTipoMensaje := blank
  headerContentType := blank
  headerIntencion := blank
  headerMessageId := blank
  headerCorrelationId := blank
  additionalHeaders := []

/-- The five fixed fields with the names they are sent under. -/
def comunes (c : HeaderEditor β) : List (Utf16 × β) :=
  [(comunesHeaderKeys.tipoMensaje, c.headerTipoMensaje),
    (comunesHeaderKeys.contentType, c.headerContentType),
    (comunesHeaderKeys.intencion, c.headerIntencion),
    (comunesHeaderKeys.messageId, c.headerMessageId),
    (comunesHeaderKeys.correlationId, c.headerCorrelationId)]

/-- One turn of the loop of `restoreHeaders`. -/
def restoreHeader (c : HeaderEditor β) (entry : Utf16 × β) : HeaderEditor β :=
  if entry.1 = comunesHeaderKeys.tipoMensaje then { c with headerTipoMensaje := entry.2 }
  else if entry.1 = comunesHeaderKeys.contentType then { c with headerContentType := entry.2 }
  else if entry.1 = comunesHeaderKeys.intencion then { c with headerIntencion := entry.2 }
  else if entry.1 = comunesHeaderKeys.messageId then { c with headerMessageId := entry.2 }
  else if entry.1 = comunesHeaderKeys.correlationId then { c with headerCorrelationId := entry.2 }
  else { c with additionalHeaders := c.additionalHeaders ++ [⟨entry.1, entry.2⟩] }

/-- `restoreHeaders`, the entries of the record being given: everything is cleared first. -/
def restored (blank : β) (entries : List (Utf16 × β)) : HeaderEditor β :=
  { entries.foldl restoreHeader (cleared blank) with
    headersEnabled := decide (0 < entries.length) }

end HeaderEditor

namespace SendComponent

/-- The component as it is created. -/
def initial : SendComponent where
  toHeaderEditor := .cleared []
  exchange := []
  routingKey := []
  payload := []
  templateName := []
  expectReply := false
  replyMode := false
  correlationId := []
  lastAppliedDraftSeq := 0
  lastAppliedSnapshot := .empty

/-! ## Headers -/

/-- `resolvedHeaders`. -/
def resolvedHeaders (c : SendComponent) : StringMap :=
  if c.headersEnabled then
    c.comunes.foldl
      (fun headers entry ↦
        if entry.2.jsTrim ≠ [] then JsObject.assign headers entry.1 entry.2 else headers)
      (c.additionalHeaders.foldl
        (fun headers row ↦
          if row.key.jsTrim ≠ [] ∧ row.value.jsTrim ≠ [] then
            JsObject.assign headers row.key row.value
          else headers)
        .empty)
  else .empty

/-! ## Validation -/

/-- `exchangeError`: only the reply mode accepts an empty exchange, and nothing accepts a blank
one. -/
def exchangeError (c : SendComponent) : Option Utf16 :=
  if c.replyMode ∧ c.exchange = [] then none
  else if c.exchange.jsTrim = [] then some (Utf16.ofString "El exchange es obligatorio.")
  else none

def payloadError (c : SendComponent) : Option Utf16 :=
  if c.payload.jsTrim = [] then some (Utf16.ofString "El payload es obligatorio.") else none

def routingKeyError (c : SendComponent) : Option Utf16 :=
  if c.routingKey ≠ [] ∧ c.routingKey.jsTrim = [] then
    some (Utf16.ofString "La clave de enrutamiento no puede estar en blanco.")
  else none

def hasErrors (c : SendComponent) : Bool :=
  c.exchangeError.isSome || c.payloadError.isSome || c.routingKeyError.isSome

/-! ## The dirty check -/

/-- `currentSnapshot`. -/
def currentSnapshot (c : SendComponent) : FormSnapshot :=
  ⟨c.exchange, c.routingKey, c.payload, JsObject.entries c.resolvedHeaders⟩

def isDirty (c : SendComponent) : Bool := c.currentSnapshot ≠ c.lastAppliedSnapshot

def captureSnapshot (c : SendComponent) : SendComponent :=
  { c with lastAppliedSnapshot := c.currentSnapshot }

/-! ## Sending -/

/-- The `correlationId` of a plain request: the trimmed field, in reply mode and unless it is
blank. -/
def postedCorrelationId (c : SendComponent) : Option Utf16 :=
  if c.replyMode ∧ c.correlationId.jsTrim ≠ [] then some c.correlationId.jsTrim else none

/-- The request that `send` posts; `none` where it returns on an error of the form. -/
def send (c : SendComponent) : Option SendRequest :=
  if c.hasErrors then none
  else if c.expectReply then
    some ⟨.withReply, c.exchange, c.routingKey, c.payload, c.resolvedHeaders, none⟩
  else
    some ⟨.messages, c.exchange, c.routingKey, c.payload, c.resolvedHeaders, c.postedCorrelationId⟩

/-! ## Fills -/

/-- `applyReplyDraft`; `confirmed` is the answer of `confirmOverwrite`, should it be asked. -/
def applyReplyDraft (c : SendComponent) (target : ReplyTarget) (seq : ℕ) (confirmed : Bool) :
    SendComponent :=
  if seq = c.lastAppliedDraftSeq then c
  else if c.isDirty && !confirmed then { c with lastAppliedDraftSeq := seq }
  else
    captureSnapshot { c with
      lastAppliedDraftSeq := seq
      replyMode := true
      exchange := []
      routingKey := target.routingKey
      correlationId := target.correlationId.getD []
      payload := [] }

def restoreHeaders (c : SendComponent) (headers : Option StringMap) : SendComponent :=
  { c with toHeaderEditor := .restored [] ((headers.map JsObject.entries).getD []) }

def useRecent (c : SendComponent) (entry : RecentSend) : SendComponent :=
  captureSnapshot (restoreHeaders { c with
    replyMode := false
    exchange := entry.exchange
    routingKey := entry.routingKey
    payload := entry.payload } entry.headers)

def useTemplate (c : SendComponent) (template : SendTemplate) : SendComponent :=
  captureSnapshot (restoreHeaders { c with
    replyMode := false
    exchange := template.exchange
    routingKey := template.routingKey
    payload := template.payload } template.headers)

/-- The template that `saveTemplate` saves. -/
def template (c : SendComponent) : SendTemplate :=
  ⟨c.templateName, c.exchange, c.routingKey, c.payload, some c.resolvedHeaders⟩

/-! ## Edits -/

/-- What the inputs of the panel can do to the form. -/
inductive Edit where
  | exchange (value : Utf16)
  | routingKey (value : Utf16)
  | payload (value : Utf16)
  | correlationId (value : Utf16)
  | templateName (value : Utf16)
  | expectReply (value : Bool)
  | headersEnabled (value : Bool)
  | headerTipoMensaje (value : Utf16)
  | headerContentType (value : Utf16)
  | headerIntencion (value : Utf16)
  | headerMessageId (value : Utf16)
  | headerCorrelationId (value : Utf16)
  | addHeaderRow
  | removeHeaderRow (index : ℕ)
  | updateHeaderRowKey (index : ℕ) (key : Utf16)
  | updateHeaderRowValue (index : ℕ) (value : Utf16)
deriving DecidableEq

/-- The handlers of the inputs. `generateCorrelationId` is an edit of its field. The template hides
some of the inputs at times, but a handler runs whenever it is called. -/
def edit (c : SendComponent) : Edit → SendComponent
  | .exchange value => { c with exchange := value, replyMode := false }
  | .routingKey value => { c with routingKey := value, replyMode := false }
  | .payload value => { c with payload := value }
  | .correlationId value => { c with correlationId := value }
  | .templateName value => { c with templateName := value }
  | .expectReply value => { c with expectReply := value }
  | .headersEnabled value => { c with headersEnabled := value }
  | .headerTipoMensaje value => { c with headerTipoMensaje := value }
  | .headerContentType value => { c with headerContentType := value }
  | .headerIntencion value => { c with headerIntencion := value }
  | .headerMessageId value => { c with headerMessageId := value }
  | .headerCorrelationId value => { c with headerCorrelationId := value }
  | .addHeaderRow => { c with additionalHeaders := c.additionalHeaders ++ [⟨[], []⟩] }
  | .removeHeaderRow index => { c with additionalHeaders := c.additionalHeaders.eraseIdx index }
  | .updateHeaderRowKey index key =>
    { c with additionalHeaders := c.additionalHeaders.modify index fun row ↦ { row with key } }
  | .updateHeaderRowValue index value =>
    { c with additionalHeaders := c.additionalHeaders.modify index fun row ↦ { row with value } }

/-! ## The four fields that a reply draft overwrites -/

/-- The content of the fields that `applyReplyDraft` overwrites. -/
structure Content where
  exchange : Utf16
  routingKey : Utf16
  payload : Utf16
  correlationId : Utf16
deriving DecidableEq

def content (c : SendComponent) : Content :=
  ⟨c.exchange, c.routingKey, c.payload, c.correlationId⟩

variable {c : SendComponent}

@[simp] theorem currentSnapshot_captureSnapshot :
    c.captureSnapshot.currentSnapshot = c.currentSnapshot := rfl

theorem isDirty_captureSnapshot : c.captureSnapshot.isDirty = false := by
  rw [isDirty, currentSnapshot_captureSnapshot, decide_eq_false_iff_not, not_not]
  rfl

/-- A clean form has the fields that were captured. -/
theorem currentSnapshot_of_clean (h : c.isDirty = false) :
    c.currentSnapshot = c.lastAppliedSnapshot := by
  rw [isDirty, decide_eq_false_iff_not, not_not] at h
  exact h

@[simp] theorem lastAppliedSnapshot_edit {e : Edit} :
    (c.edit e).lastAppliedSnapshot = c.lastAppliedSnapshot := by
  cases e <;> rfl

section ReplyDraft

variable {target : ReplyTarget} {seq : ℕ} {confirmed : Bool}

theorem applyReplyDraft_of_applied (hseq : seq ≠ c.lastAppliedDraftSeq)
    (hasked : (c.isDirty && !confirmed) = false) :
    c.applyReplyDraft target seq confirmed = captureSnapshot { c with
      lastAppliedDraftSeq := seq
      replyMode := true
      exchange := []
      routingKey := target.routingKey
      correlationId := target.correlationId.getD []
      payload := [] } := by
  rw [applyReplyDraft, if_neg hseq, hasked]
  rfl

theorem applyReplyDraft_of_not_applied
    (h : ¬(seq ≠ c.lastAppliedDraftSeq ∧ (c.isDirty && !confirmed) = false)) :
    c.applyReplyDraft target seq confirmed = { c with lastAppliedDraftSeq := seq } := by
  unfold applyReplyDraft
  split
  · rename_i hseq
    rw [hseq]
  · rename_i hseq
    rw [if_pos (by simpa [hseq] using h)]

end ReplyDraft

end SendComponent

end BusTester
