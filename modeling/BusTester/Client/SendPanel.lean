import BusTester.Client.SendComponent
import BusTester.Transition.Run

/-!
# Runs of the send panel

The send panel over time: the user edits the form, sends it and recalls earlier sends, requests are
answered in any order, and the Responder action hands over reply drafts through
`ReplyDraftService`. The draft effect runs at some later moment and applies the draft that is there
then.

## What a pre-fill may discard

`applyReplyDraft` overwrites four fields and asks for confirmation only when the form is dirty. The
content of these fields is *accounted for* when it is what the last programmatic fill put there, or
was posted by a request that has succeeded. Dirty is a comparison with a snapshot, and the snapshot
is not always taken from such a content: the success of a plain send captures the live form, which
the user may have edited since; and it does not contain the reply correlation id.
`sparesEdits_of_cautious` says that nothing else goes wrong.

`moves_of_step` lists what a step can be; everything about a step is derived from it.
-/

namespace BusTester

/-! ## The services of the panel -/

/-- A draft as `ReplyDraftService` holds it. -/
structure ReplyDraft where
  target : ReplyTarget
  seq : ℕ
deriving DecidableEq

structure ReplyDraftService where
  draft : Option ReplyDraft
deriving DecidableEq

namespace ReplyDraftService

def request (s : ReplyDraftService) (target : ReplyTarget) : ReplyDraftService :=
  ⟨some ⟨target, (s.draft.map ReplyDraft.seq).getD 0 + 1⟩⟩

def clear (_ : ReplyDraftService) : ReplyDraftService := ⟨none⟩

end ReplyDraftService

namespace SendPanel

open SendComponent Transition

/-! ## States and steps -/

/-- The panel, the services it uses and the requests it has in flight. Beside them a record of what
has happened: the four fields as the last fill and as the last capture left them, and the requests
that have succeeded. -/
structure State where
  form : SendComponent
  replyDraft : ReplyDraftService
  history : SendHistoryService
  inFlight : List SendRequest
  lastFill : Content
  captured : Content
  succeeded : List SendRequest
deriving DecidableEq

inductive Label where
  | edit (e : Edit)
  | send
  /-- The request at position `k` succeeds; `stored` says whether `localStorage.setItem` did. -/
  | succeeded (k : ℕ) (sentAt : Utf16) (stored : Bool)
  | failed (k : ℕ)
  | useRecent (entry : RecentSend)
  | useTemplate (template : SendTemplate)
  | saveTemplate
  | deleteTemplate (name : Utf16)
  /-- `ReplyDraftService.request`. -/
  | request (target : ReplyTarget)
  /-- `ReplyDraftService.clear`. -/
  | clear
  /-- The draft effect runs; `confirmed` is the answer of the user, should he be asked. -/
  | draftEffect (confirmed : Bool)
deriving DecidableEq

/-- The panel as it is created, with the history that was stored. -/
def State.initial (history : SendHistoryService) : State where
  form := .initial
  replyDraft := ⟨none⟩
  history := history
  inFlight := []
  lastFill := SendComponent.initial.content
  captured := SendComponent.initial.content
  succeeded := []

/-- A programmatic fill: every one of them ends with `captureSnapshot`. -/
def State.fill (s : State) (form : SendComponent) : State :=
  { s with form, lastFill := form.content, captured := form.content }

/-- The request at position `k` has succeeded. -/
def State.settle (s : State) (k : ℕ) (request : SendRequest) : State :=
  { s with inFlight := s.inFlight.eraseIdx k, succeeded := s.succeeded ++ [request] }

/-- The entry that the success callback of `send` records. -/
def recentSendOf (request : SendRequest) (sentAt : Utf16) : RecentSend :=
  ⟨request.exchange, request.routingKey, request.payload, sentAt, some request.headers⟩

/-- The success callback of a plain send; a write that throws ends it before the capture. -/
def State.onSent (s : State) (request : SendRequest) (sentAt : Utf16) (stored : Bool) : State :=
  let recorded := { s with history := s.history.recordSend (recentSendOf request sentAt) }
  if stored then { recorded with form := s.form.captureSnapshot, captured := s.form.content }
  else recorded

/-- The draft is a new one and the form is clean, so `applyReplyDraft` overwrites it without
asking. -/
def State.OverwritesUnprompted (s : State) : Prop :=
  ∃ draft ∈ s.replyDraft.draft,
    draft.seq ≠ s.form.lastAppliedDraftSeq ∧ s.form.isDirty = false

instance (s : State) : Decidable s.OverwritesUnprompted :=
  Option.decidableExistsMem s.replyDraft.draft

/-- One step of the panel. -/
def step (s : State) : Label → Option State
  | .edit e => some { s with form := s.form.edit e }
  | .send =>
    match s.form.send with
    | none => some s
    | some request => some { s with inFlight := s.inFlight ++ [request] }
  | .succeeded k sentAt stored =>
    match s.inFlight[k]? with
    | none => none
    | some request =>
      match request.endpoint with
      | .withReply => some (s.settle k request)
      | .messages => some ((s.settle k request).onSent request sentAt stored)
  | .failed k =>
    if k < s.inFlight.length then some { s with inFlight := s.inFlight.eraseIdx k } else none
  | .useRecent entry =>
    if entry ∈ s.history.recentSends then some (s.fill (s.form.useRecent entry)) else none
  | .useTemplate template =>
    if template ∈ s.history.templates then some (s.fill (s.form.useTemplate template)) else none
  | .saveTemplate => some { s with history := s.history.saveTemplate s.form.template }
  | .deleteTemplate name => some { s with history := s.history.deleteTemplate name }
  | .request target => some { s with replyDraft := s.replyDraft.request target }
  | .clear => some { s with replyDraft := s.replyDraft.clear }
  | .draftEffect confirmed =>
    match s.replyDraft.draft with
    | none => some s
    | some draft =>
      let form := s.form.applyReplyDraft draft.target draft.seq confirmed
      -- Only an application is a fill: an old draft and a declined one leave the fields alone.
      if draft.seq ≠ s.form.lastAppliedDraftSeq ∧ (s.form.isDirty && !confirmed) = false then
        some (s.fill form)
      else some { s with form }

/-! ## The property and the condition -/

/-- The content was posted by a request that has succeeded. The correlation id may also be the one
that was filled in, which the user has not typed. -/
def State.Sent (s : State) (c : Content) : Prop :=
  ∃ request ∈ s.succeeded, request.exchange = c.exchange ∧ request.routingKey = c.routingKey ∧
    request.payload = c.payload ∧
    (c.correlationId = request.correlationId.getD [] ∨
      c.correlationId = s.lastFill.correlationId)

/-- No field of the content was typed after the last fill, unless the content was sent. -/
def State.Accounted (s : State) (c : Content) : Prop := c = s.lastFill ∨ s.Sent c

instance (s : State) (c : Content) : Decidable (s.Sent c) := inferInstanceAs (Decidable (∃ _, _))

instance (s : State) (c : Content) : Decidable (s.Accounted c) :=
  inferInstanceAs (Decidable (_ ∨ _))

/-- A draft that is applied without asking overwrites no edit that was not sent. -/
def SparesEdits (s : State) : Label → Prop
  | .draftEffect _ => s.OverwritesUnprompted → s.Accounted s.form.content
  | _ => True

/-- When the success of a plain send captures the form, nothing unsent has been typed into it; when
a draft is applied without asking, the correlation id is as it was captured or filled in. -/
def Cautious (s : State) : Label → Prop
  | .succeeded k _ stored => ∀ request ∈ s.inFlight[k]?, request.endpoint = .messages →
      stored = true → (s.settle k request).Accounted s.form.content
  | .draftEffect _ => s.OverwritesUnprompted →
      s.form.correlationId = s.captured.correlationId ∨
        s.form.correlationId = s.lastFill.correlationId
  | _ => True

instance (s : State) : DecidablePred (SparesEdits s)
  | .draftEffect _ => inferInstanceAs (Decidable (_ → _))
  | .edit _ | .send | .succeeded .. | .failed _ | .useRecent _ | .useTemplate _ | .saveTemplate
  | .deleteTemplate _ | .request _ | .clear => isTrue trivial

instance (s : State) : DecidablePred (Cautious s)
  | .succeeded k _ stored => inferInstanceAs (Decidable (∀ request ∈ s.inFlight[k]?,
      request.endpoint = .messages → stored = true →
        (s.settle k request).Accounted s.form.content))
  | .draftEffect _ => inferInstanceAs (Decidable (_ → _))
  | .edit _ | .send | .failed _ | .useRecent _ | .useTemplate _ | .saveTemplate
  | .deleteTemplate _ | .request _ | .clear => isTrue trivial

variable {s t : State} {a : Label} {as : List Label}

/-! ## What a step can be -/

/-- The steps of the panel, each with what it needs and what it makes of the state. -/
inductive Moves (s : State) : Label → State → Prop where
  | edits (e : Edit) : Moves s (.edit e) { s with form := s.form.edit e }
  /-- A form with errors posts nothing. -/
  | posts : Moves s .send { s with inFlight := s.inFlight ++ s.form.send.toList }
  | sentWithReply (k : ℕ) (sentAt : Utf16) (stored : Bool) (request : SendRequest)
      (hrequest : request ∈ s.inFlight[k]?) (hendpoint : request.endpoint = .withReply) :
      Moves s (.succeeded k sentAt stored) (s.settle k request)
  | sent (k : ℕ) (sentAt : Utf16) (stored : Bool) (request : SendRequest)
      (hrequest : request ∈ s.inFlight[k]?) (hendpoint : request.endpoint = .messages) :
      Moves s (.succeeded k sentAt stored) ((s.settle k request).onSent request sentAt stored)
  | fails (k : ℕ) (hk : k < s.inFlight.length) :
      Moves s (.failed k) { s with inFlight := s.inFlight.eraseIdx k }
  | recalls (entry : RecentSend) (hentry : entry ∈ s.history.recentSends) :
      Moves s (.useRecent entry) (s.fill (s.form.useRecent entry))
  | loads (template : SendTemplate) (htemplate : template ∈ s.history.templates) :
      Moves s (.useTemplate template) (s.fill (s.form.useTemplate template))
  | saves : Moves s .saveTemplate { s with history := s.history.saveTemplate s.form.template }
  | deletes (name : Utf16) :
      Moves s (.deleteTemplate name) { s with history := s.history.deleteTemplate name }
  | requests (target : ReplyTarget) :
      Moves s (.request target) { s with replyDraft := s.replyDraft.request target }
  | clears : Moves s .clear { s with replyDraft := s.replyDraft.clear }
  /-- There is no draft. -/
  | idles (confirmed : Bool) (hdraft : s.replyDraft.draft = none) :
      Moves s (.draftEffect confirmed) s
  | applies (confirmed : Bool) (draft : ReplyDraft) (hdraft : s.replyDraft.draft = some draft)
      (happlied : draft.seq ≠ s.form.lastAppliedDraftSeq ∧
        (s.form.isDirty && !confirmed) = false) : Moves s (.draftEffect confirmed)
      (s.fill (s.form.applyReplyDraft draft.target draft.seq confirmed))
  /-- The draft was applied before, or it is declined. -/
  | declines (confirmed : Bool) (draft : ReplyDraft) (hdraft : s.replyDraft.draft = some draft)
      (hnot : ¬(draft.seq ≠ s.form.lastAppliedDraftSeq ∧
        (s.form.isDirty && !confirmed) = false)) : Moves s (.draftEffect confirmed)
      { s with form := s.form.applyReplyDraft draft.target draft.seq confirmed }

theorem moves_of_step (hstep : step s a = some t) : Moves s a t := by
  cases a with
  | edit e =>
    cases hstep
    exact .edits e
  | send =>
    simp only [step] at hstep
    have hposts : Moves s .send { s with inFlight := s.inFlight ++ s.form.send.toList } := .posts
    split at hstep <;> rename_i hsend <;> cases hstep <;> rw [hsend] at hposts
    · rw [Option.toList_none, List.append_nil] at hposts
      exact hposts
    · exact hposts
  | succeeded k sentAt stored =>
    simp only [step] at hstep
    split at hstep
    · cases hstep
    · rename_i request hrequest
      split at hstep <;> rename_i hendpoint <;> cases hstep
      · exact .sentWithReply k sentAt stored request hrequest hendpoint
      · exact .sent k sentAt stored request hrequest hendpoint
  | failed k =>
    obtain ⟨hk, ht⟩ := Option.ite_none_right_eq_some.mp hstep
    cases ht
    exact .fails k hk
  | useRecent entry =>
    obtain ⟨hentry, ht⟩ := Option.ite_none_right_eq_some.mp hstep
    cases ht
    exact .recalls entry hentry
  | useTemplate template =>
    obtain ⟨htemplate, ht⟩ := Option.ite_none_right_eq_some.mp hstep
    cases ht
    exact .loads template htemplate
  | saveTemplate =>
    cases hstep
    exact .saves
  | deleteTemplate name =>
    cases hstep
    exact .deletes name
  | request target =>
    cases hstep
    exact .requests target
  | clear =>
    cases hstep
    exact .clears
  | draftEffect confirmed =>
    simp only [step] at hstep
    split at hstep
    · rename_i hdraft
      cases hstep
      exact .idles confirmed hdraft
    · rename_i draft hdraft
      split at hstep <;> rename_i happlied <;> cases hstep
      · exact .applies confirmed draft hdraft happlied
      · exact .declines confirmed draft hdraft happlied

/-! ## What a step does to the baseline -/

/-- A step leaves the baseline alone, moves it with a fill, or moves it to the live form because a
plain send has succeeded. -/
inductive Effect (s : State) (a : Label) (t : State) : Prop where
  | keeps (hsnapshot : t.form.lastAppliedSnapshot = s.form.lastAppliedSnapshot)
      (hcaptured : t.captured = s.captured) (hfill : t.lastFill = s.lastFill)
      (hsucceeded : s.succeeded ⊆ t.succeeded)
  | fills (hsnapshot : t.form.lastAppliedSnapshot = t.form.currentSnapshot)
      (hcaptured : t.captured = t.form.content) (hfill : t.lastFill = t.form.content)
  | captures (k : ℕ) (sentAt : Utf16) (request : SendRequest) (ha : a = .succeeded k sentAt true)
      (hrequest : request ∈ s.inFlight[k]?) (hendpoint : request.endpoint = .messages)
      (hsnapshot : t.form.lastAppliedSnapshot = t.form.currentSnapshot)
      (hcaptured : t.captured = t.form.content) (hcontent : t.form.content = s.form.content)
      (hfill : t.lastFill = s.lastFill) (hsucceeded : t.succeeded = s.succeeded ++ [request])

private theorem Effect.of_eq (hsnapshot : t.form.lastAppliedSnapshot = s.form.lastAppliedSnapshot)
    (hcaptured : t.captured = s.captured) (hfill : t.lastFill = s.lastFill)
    (hsucceeded : t.succeeded = s.succeeded) : Effect s a t :=
  .keeps hsnapshot hcaptured hfill (by rw [hsucceeded]; exact List.Subset.refl _)

theorem effect_of_step (hstep : step s a = some t) : Effect s a t := by
  cases moves_of_step hstep with
  | edits e => exact .of_eq lastAppliedSnapshot_edit rfl rfl rfl
  | sentWithReply k sentAt stored request hrequest hendpoint =>
    exact .keeps rfl rfl rfl (List.subset_append_left ..)
  | sent k sentAt stored request hrequest hendpoint =>
    cases stored with
    | false => exact .keeps rfl rfl rfl (List.subset_append_left ..)
    | true => exact .captures k sentAt request rfl hrequest hendpoint rfl rfl rfl rfl rfl
  | recalls entry hentry => exact .fills rfl rfl rfl
  | loads template htemplate => exact .fills rfl rfl rfl
  | applies confirmed draft hdraft happlied =>
    rw [applyReplyDraft_of_applied happlied.1 happlied.2]
    exact .fills rfl rfl rfl
  | declines confirmed draft hdraft hnot =>
    rw [applyReplyDraft_of_not_applied hnot]
    exact .of_eq rfl rfl rfl rfl
  | posts | fails | saves | deletes | requests | clears | idles => exact .of_eq rfl rfl rfl rfl

/-! ## The baseline of a cautious run -/

/-- The snapshot has the fields of the last capture, and these were accounted for. -/
structure Baseline (s : State) : Prop where
  exchange : s.form.lastAppliedSnapshot.exchange = s.captured.exchange
  routingKey : s.form.lastAppliedSnapshot.routingKey = s.captured.routingKey
  payload : s.form.lastAppliedSnapshot.payload = s.captured.payload
  accounted : s.Accounted s.captured

/-- A content stays accounted for as long as no fill intervenes. -/
theorem State.Accounted.mono {c : Content} (h : s.Accounted c) (hfill : t.lastFill = s.lastFill)
    (hsucceeded : s.succeeded ⊆ t.succeeded) : t.Accounted c := by
  rcases h with rfl | ⟨request, hrequest, hexchange, hroutingKey, hpayload, hcorrelation⟩
  · exact Or.inl hfill.symm
  · rw [← hfill] at hcorrelation
    exact Or.inr ⟨request, hsucceeded hrequest, hexchange, hroutingKey, hpayload, hcorrelation⟩

theorem Baseline.of_captured (hsnapshot : t.form.lastAppliedSnapshot = t.form.currentSnapshot)
    (hcaptured : t.captured = t.form.content) (haccounted : t.Accounted t.form.content) :
    Baseline t := by
  refine ⟨?_, ?_, ?_, hcaptured ▸ haccounted⟩
  all_goals rw [hsnapshot, hcaptured]; rfl

theorem baseline_initial {history : SendHistoryService} : Baseline (State.initial history) :=
  ⟨rfl, rfl, rfl, Or.inl rfl⟩

theorem baseline_step (hs : Baseline s) (hcautious : Cautious s a) (hstep : step s a = some t) :
    Baseline t := by
  cases effect_of_step hstep with
  | keeps hsnapshot hcaptured hfill hsucceeded =>
    refine ⟨?_, ?_, ?_, ?_⟩
    · rw [hsnapshot, hcaptured, hs.exchange]
    · rw [hsnapshot, hcaptured, hs.routingKey]
    · rw [hsnapshot, hcaptured, hs.payload]
    · rw [hcaptured]
      exact hs.accounted.mono hfill hsucceeded
  | fills hsnapshot hcaptured hfill =>
    exact .of_captured hsnapshot hcaptured (Or.inl hfill.symm)
  | captures k sentAt request ha hrequest hendpoint hsnapshot hcaptured hcontent hfill
      hsucceeded =>
    subst ha
    have haccounted : (s.settle k request).Accounted s.form.content :=
      hcautious request hrequest hendpoint rfl
    refine .of_captured hsnapshot hcaptured ?_
    rw [hcontent]
    refine haccounted.mono hfill ?_
    rw [hsucceeded]
    exact List.Subset.refl _

/-- A clean form over an accounted baseline is accounted for, up to its correlation id. -/
theorem accounted_of_clean (hs : Baseline s) (hclean : s.form.isDirty = false)
    (hcorrelation : s.form.correlationId = s.captured.correlationId ∨
      s.form.correlationId = s.lastFill.correlationId) : s.Accounted s.form.content := by
  have hsame : s.form.currentSnapshot = s.form.lastAppliedSnapshot :=
    currentSnapshot_of_clean hclean
  have hexchange : s.form.exchange = s.captured.exchange := by
    rw [← hs.exchange, ← hsame]
    rfl
  have hroutingKey : s.form.routingKey = s.captured.routingKey := by
    rw [← hs.routingKey, ← hsame]
    rfl
  have hpayload : s.form.payload = s.captured.payload := by
    rw [← hs.payload, ← hsame]
    rfl
  rcases hcorrelation with hcorrelation | hcorrelation
  · have hcontent : s.form.content = s.captured := by
      rw [content, hexchange, hroutingKey, hpayload, hcorrelation]
    rw [hcontent]
    exact hs.accounted
  · rcases hs.accounted with hfilled | ⟨request, hrequest, hex, hrk, hpl, -⟩
    · refine Or.inl ?_
      rw [content, hexchange, hroutingKey, hpayload, hcorrelation, hfilled]
    · exact Or.inr ⟨request, hrequest, hex.trans hexchange.symm, hrk.trans hroutingKey.symm,
        hpl.trans hpayload.symm, Or.inr hcorrelation⟩

/-- **A pre-fill spares unsent edits in every cautious run.** -/
theorem sparesEdits_of_cautious {history : SendHistoryService}
    (h : Guarded step Cautious (State.initial history) as) :
    Guarded step SparesEdits (State.initial history) as := by
  refine Guarded.of_invariant (P := Baseline) baseline_initial
    (fun _ _ _ hs hcautious hstep ↦ baseline_step hs hcautious hstep) (fun s a hs hcautious ↦ ?_) h
  cases a with
  | draftEffect confirmed =>
    intro hunprompted
    obtain ⟨draft, hdraft, hseq, hclean⟩ := hunprompted
    exact accounted_of_clean hs hclean (hcautious ⟨draft, hdraft, hseq, hclean⟩)
  | _ => trivial

/-! ## The condition on captures is not too strong -/

/-- A clean form is overwritten without a prompt once a reply draft is handed over. One request may
not be enough: after a `clear` its number can be the one that was applied last. -/
theorem exists_request_overwriting (target : ReplyTarget) (hclean : s.form.isDirty = false) :
    ∃ n u, run step s (List.replicate n (.request target)) = some u ∧ u.OverwritesUnprompted ∧
      u.form = s.form ∧ u.lastFill = s.lastFill ∧ u.succeeded = s.succeeded := by
  by_cases hseq : (s.replyDraft.draft.map ReplyDraft.seq).getD 0 + 1 = s.form.lastAppliedDraftSeq
  · refine ⟨2, _, rfl, ⟨_, rfl, ?_, hclean⟩, rfl, rfl, rfl⟩
    change (s.replyDraft.draft.map ReplyDraft.seq).getD 0 + 1 + 1 ≠ s.form.lastAppliedDraftSeq
    omega
  · exact ⟨1, _, rfl, ⟨_, rfl, hseq, hclean⟩, rfl, rfl, rfl⟩

/-- **A capture that is not cautious can be followed by a loss**: the next reply draft overwrites
the form, unsent edits included, without asking. -/
theorem exists_loss_of_capture {k : ℕ} {sentAt : Utf16} {stored : Bool} (target : ReplyTarget)
    (hstep : step s (.succeeded k sentAt stored) = some t)
    (hnot : ¬Cautious s (.succeeded k sentAt stored)) :
    ∃ as, ¬Guarded step SparesEdits t as := by
  have hcapture : t.form = s.form.captureSnapshot ∧ ¬t.Accounted s.form.content := by
    simp only [Cautious, not_forall] at hnot
    obtain ⟨request, hrequest, hendpoint, rfl, haccounted⟩ := hnot
    rw [Option.mem_def] at hrequest
    simp only [step, hrequest, hendpoint] at hstep
    cases hstep
    exact ⟨rfl, haccounted⟩
  obtain ⟨hform, haccounted⟩ := hcapture
  have hclean : t.form.isDirty = false := by
    rw [hform]
    exact isDirty_captureSnapshot
  obtain ⟨n, u, hrun, hunprompted, huform, hufill, husucceeded⟩ :=
    exists_request_overwriting target hclean
  refine ⟨List.replicate n (.request target) ++ [.draftEffect false], fun hguard ↦ ?_⟩
  have hspared : u.Accounted u.form.content := ((guarded_concat hrun).mp hguard).2 hunprompted
  rw [huform, hform] at hspared
  exact haccounted (hspared.mono hufill.symm (by rw [husucceeded]; exact List.Subset.refl _))

/-! ## An edit before and after the answer -/

/-- The user fills in a message and sends it. -/
private def sendOrders : List Label :=
  [.edit (.exchange (Utf16.ofString "ex")), .edit (.routingKey (Utf16.ofString "rk")),
    .edit (.payload (Utf16.ofString "1")), .send]

/-- The tester responds to a message. -/
private def respond : List Label :=
  [.request ⟨Utf16.ofString "amq.gen-1", none⟩, .draftEffect false]

/-- The answer arrives before the next edit, so the edited form is dirty and the draft is declined;
a second send makes it clean again. -/
theorem sparesEdits_of_answered_sends :
    Guarded step SparesEdits (State.initial ⟨[], []⟩)
      (sendOrders ++ [.succeeded 0 [] true, .edit (.payload (Utf16.ofString "2"))] ++ respond
        ++ [.send, .succeeded 0 [] true] ++ respond) :=
  sparesEdits_of_cautious (by decide)

/-- The payload is edited while the request is in flight. Its success captures the edited form,
which the draft then overwrites without a prompt. -/
theorem not_sparesEdits_of_edit_in_flight :
    ¬Guarded step SparesEdits (State.initial ⟨[], []⟩)
      (sendOrders ++ [.edit (.payload (Utf16.ofString "2")), .succeeded 0 [] true] ++ respond) ∧
    ∃ t, run step (State.initial ⟨[], []⟩)
      (sendOrders ++ [.edit (.payload (Utf16.ofString "2")), .succeeded 0 [] true] ++ respond)
        = some t ∧ t.form.payload = [] ∧
      t.succeeded.map SendRequest.payload = [Utf16.ofString "1"] :=
  ⟨by decide, _, rfl, rfl, rfl⟩

end SendPanel

end BusTester
