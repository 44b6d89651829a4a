import BusTester.Backend.Publications
import BusTester.Client.ReplyLoop
import BusTester.Live.Session

/-!
# What the send panel reports and what the broker has

The send panel against the backend. A request that the panel posts reaches its controller at some
time, or never; it succeeds when its use case has returned, and it may fail at whatever point of its
way. Any number of requests are in flight, next to whatever else the backend does.

The broker has at most one message of each request, and one with the content of the form for every
request that was reported as sent: `delivers_of_run`. A request that has failed may have been
published all the same, and one whose message `BusMessage` refuses is not published.
-/

namespace BusTester

namespace Sending

open RabbitMqAdapter (Publication BasicProperties publicationOf replyTo_publicationOf
  correlationId_publicationOf headers_publicationOf)
open SendPanel (recentSendOf)
open Session (Source)
open Transition
open UseCases (UseCase)

/-! ## States and steps -/

/-- Requests are numbered in the order in which they are posted. `inFlight` has the numbers of the
requests that the panel waits for, `underway` of those that have not reached the controller, and
`succeeded` of those whose success callback has run. -/
structure State where
  panel : SendPanel.State
  useCases : UseCases.State Source
  posted : List SendRequest
  inFlight : List ℕ
  underway : List ℕ
  succeeded : List ℕ

def State.initial (history : SendHistoryService) : State where
  panel := .initial history
  useCases := .initial
  posted := []
  inFlight := []
  underway := []
  succeeded := []

/-- The use case that the controller calls, once the message of a plain send is built. -/
def useCaseOf (request : SendRequest) : Except BusException UseCase :=
  match request.endpoint with
  | .messages => (SendMessageUseCase.message (MessagesController.send request.bound)).map .send
  | .withReply => .ok (.sendWithReply (MessagesController.sendWithReply request.boundWithReply))

inductive Label where
  /-- The user, or the reply draft. -/
  | panel (a : SendPanel.Label)
  /-- The request `n` reaches its controller. -/
  | arrive (n : ℕ)
  /-- A use case on behalf of another client or panel begins. -/
  | other (n : ℕ) (useCase : UseCase)
  /-- A step of the backend, other than the beginning of a use case. -/
  | server (a : UseCases.Label Source)
  /-- The `k`th request in flight succeeds. -/
  | succeeded (k : ℕ) (sentAt : Utf16) (stored : Bool)
  | failed (k : ℕ)

/-- The request that a step of the panel posts. -/
def postedBy (s : SendPanel.State) : SendPanel.Label → Option SendRequest
  | .send => s.form.send
  | _ => none

namespace State

/-- The panel has moved, and has posted the request, if any. -/
def post (s : State) (panel : SendPanel.State) (request : Option SendRequest) : State :=
  { s with
    panel
    posted := s.posted ++ request.toList
    inFlight := s.inFlight ++ request.toList.map fun _ ↦ s.posted.length
    underway := s.underway ++ request.toList.map fun _ ↦ s.posted.length }

/-- The use case of the request `n` has returned. -/
def hasReturned (s : State) (n : ℕ) : Bool :=
  match s.useCases.progress (.request n) with
  | .returned _ => true
  | _ => false

end State

/-- One step. -/
def step (s : State) : Label → Option State
  | .panel a =>
    match a with
    | .succeeded .. | .failed _ => none
    | _ => (SendPanel.step s.panel a).map fun panel ↦ s.post panel (postedBy s.panel a)
  | .arrive n =>
    if n ∈ s.underway then
      match s.posted[n]? with
      | none => none
      | some request =>
        match useCaseOf request with
        -- `BusMessage` throws before the adapter is called.
        | .error _ => some { s with underway := s.underway.erase n }
        | .ok useCase =>
          (UseCases.step s.useCases (.begin (.request n) useCase)).map fun useCases ↦
            { s with useCases, underway := s.underway.erase n }
    else none
  | .other n useCase =>
    (UseCases.step s.useCases (.begin (.other n) useCase)).map fun useCases ↦ { s with useCases }
  | .server a =>
    match a with
    | .begin .. => none
    | .proceed .. | .adapter _ | .dispatch .. =>
      (UseCases.step s.useCases a).map fun useCases ↦ { s with useCases }
  | .succeeded k sentAt stored =>
    match s.inFlight[k]? with
    | none => none
    | some n =>
      if s.hasReturned n then
        (SendPanel.step s.panel (.succeeded k sentAt stored)).map fun panel ↦
          { s with
            panel
            inFlight := s.inFlight.eraseIdx k
            succeeded := s.succeeded ++ [n] }
      else none
  | .failed k =>
    (SendPanel.step s.panel (.failed k)).map fun panel ↦
      { s with panel, inFlight := s.inFlight.eraseIdx k }

variable {s t : State} {a : Label} {as : List Label} {n : ℕ} {request : SendRequest}
  {history : SendHistoryService} {p : Publication}

/-! ## The property -/

/-- The step of the use cases that a step runs. -/
def useCasesLabel (s : State) : Label → Option (UseCases.Label Source)
  | .arrive n =>
    match s.posted[n]? with
    | none => none
    | some request =>
      match useCaseOf request with
      | .error _ => none
      | .ok useCase => some (.begin (.request n) useCase)
  | .other n useCase => some (.begin (.other n) useCase)
  | .server a => some a
  | .panel _ | .succeeded .. | .failed _ => none

def useCasesLabels (history : SendHistoryService) (as : List Label) :
    List (UseCases.Label Source) :=
  observed step useCasesLabel (State.initial history) as

/-- What has been published in the run, each with who has asked for it. -/
def publications (history : SendHistoryService) (as : List Label) : List (Source × Publication) :=
  UseCases.publications (useCasesLabels history as)

/-- The publication has the content of the form that was posted. -/
structure Carries (request : SendRequest) (p : Publication) : Prop where
  exchange : p.exchange = request.exchange
  routingKey : p.routingKey = request.routingKey
  body : p.body = Utf8.getBytes request.payload
  headers : (p.properties.bind BasicProperties.headers).getD .empty = request.headers
  /-- A plain request has the correlation id of the form, and no reply address. -/
  plain : request.endpoint = .messages → p.properties.bind BasicProperties.replyTo = none ∧
    p.properties.bind BasicProperties.correlationId = request.correlationId
  /-- A request that expects a reply has both. -/
  withReply : request.endpoint = .withReply →
    (p.properties.bind BasicProperties.replyTo).isSome = true ∧
      (p.properties.bind BasicProperties.correlationId).isSome = true

/-- What the panel reports as sent has reached the broker. -/
structure Delivers (history : SendHistoryService) (as : List Label) (t : State) : Prop where
  /-- One publication for every request that was reported as sent. -/
  delivered : ∃ ps, List.Forall₂ Carries t.panel.succeeded ps ∧
    List.Subperm ps t.useCases.backend.adapter.published
  /-- Nothing is published twice. -/
  once : ((publications history as).map Prod.fst).Nodup
  published : t.useCases.backend.adapter.published = (publications history as).map Prod.snd
  /-- Nothing is published that was not posted. -/
  posted : ∀ {n p}, (.request n, p) ∈ publications history as →
    ∃ request ∈ t.posted[n]?, Carries request p
  /-- The history holds nothing that was not sent. -/
  recorded : ∀ entry ∈ t.panel.history.recentSends, entry ∈ history.recentSends ∨
    ∃ request ∈ t.panel.succeeded, ∃ sentAt,
      request.endpoint = .messages ∧ entry = recentSendOf request sentAt

/-! ## The content of a publication -/

theorem useCaseOf_spec {useCase : UseCase} (h : useCaseOf request = .ok useCase) :
    (request.endpoint = .messages ∧ ∃ message, useCase = .send message ∧
      SendMessageUseCase.message (MessagesController.send request.bound) = .ok message) ∨
    (request.endpoint = .withReply ∧
      useCase = .sendWithReply (MessagesController.sendWithReply request.boundWithReply)) := by
  unfold useCaseOf at h
  split at h
  · rename_i hendpoint
    cases hbuilt : SendMessageUseCase.message (MessagesController.send request.bound) with
    | error ex =>
      rw [hbuilt] at h
      cases h
    | ok message =>
      rw [hbuilt] at h
      cases h
      exact Or.inl ⟨hendpoint, message, rfl, rfl⟩
  · rename_i hendpoint
    cases h
    exact Or.inr ⟨hendpoint, rfl⟩

/-- What the controller makes of a request carries its content. -/
theorem carries_of_makes {useCase : UseCase} {useCases : UseCases.State Source} {i : Source}
    {message : BusMessage} (huseCase : useCaseOf request = .ok useCase)
    (hmakes : UseCases.Makes useCases i useCase message) :
    Carries request (publicationOf message) := by
  rcases useCaseOf_spec huseCase with ⟨hendpoint, built, rfl, hbuilt⟩ | ⟨hendpoint, rfl⟩
  · cases hmakes with
    | send =>
      obtain ⟨htarget, hroutingKey, hpayload, hreplyTo, hcorrelationId, hheaders⟩ :=
        BusMessage.create_eq_ok hbuilt
      have hkey : message.routingKey = some request.routingKey := hroutingKey.symm
      refine ⟨(Option.some.inj htarget).symm, ?_, ?_, ?_, fun _ ↦ ⟨?_, ?_⟩, fun hother ↦ ?_⟩
      · rw [publicationOf, hkey]
        rfl
      · rw [publicationOf, ← Option.some.inj hpayload]
      · rw [headers_publicationOf, hheaders]
        rfl
      · rw [replyTo_publicationOf, ← hreplyTo]
        rfl
      · rw [correlationId_publicationOf, ← hcorrelationId]
        rfl
      · cases hendpoint.symm.trans hother
  · cases hmakes with
    | sendWithReply _ handle queueName correlationId _ hdeclared hmessage =>
      obtain ⟨htarget, hroutingKey, hpayload, hreplyTo, hcorrelationId, hheaders⟩ :=
        BusMessage.create_eq_ok hmessage
      have hkey : message.routingKey = some request.routingKey := hroutingKey.symm
      refine ⟨(Option.some.inj htarget).symm, ?_, ?_, ?_, fun hother ↦ ?_, fun _ ↦ ⟨?_, ?_⟩⟩
      · rw [publicationOf, hkey]
        rfl
      · rw [publicationOf, ← Option.some.inj hpayload]
      · rw [headers_publicationOf, hheaders]
        rfl
      · cases hendpoint.symm.trans hother
      · rw [replyTo_publicationOf, ← hreplyTo]
        rfl
      · rw [correlationId_publicationOf, ← hcorrelationId]
        rfl

/-! ## The steps of the panel -/

theorem panel_spec {panel : SendPanel.State} {b : SendPanel.Label}
    (hstep : SendPanel.step s.panel b = some panel)
    (hsucceeded : ∀ k sentAt stored, b ≠ .succeeded k sentAt stored)
    (hfailed : ∀ k, b ≠ .failed k) :
    panel.inFlight = s.panel.inFlight ++ (postedBy s.panel b).toList ∧
      panel.succeeded = s.panel.succeeded ∧
        panel.history.recentSends = s.panel.history.recentSends := by
  cases SendPanel.moves_of_step hstep with
  | posts => exact ⟨rfl, rfl, rfl⟩
  | sentWithReply k sentAt stored => exact absurd rfl (hsucceeded k sentAt stored)
  | sent k sentAt stored => exact absurd rfl (hsucceeded k sentAt stored)
  | fails k => exact absurd rfl (hfailed k)
  | edits | recalls | loads | saves | deletes | requests | clears | idles | applies | declines =>
    exact ⟨(List.append_nil _).symm, rfl, rfl⟩

theorem succeeded_spec {panel : SendPanel.State} {k : ℕ} {sentAt : Utf16} {stored : Bool}
    (hstep : SendPanel.step s.panel (.succeeded k sentAt stored) = some panel) :
    ∃ request ∈ s.panel.inFlight[k]?, panel.inFlight = s.panel.inFlight.eraseIdx k ∧
      panel.succeeded = s.panel.succeeded ++ [request] ∧
        ∀ entry ∈ panel.history.recentSends, entry ∈ s.panel.history.recentSends ∨
          request.endpoint = .messages ∧ entry = recentSendOf request sentAt := by
  cases SendPanel.moves_of_step hstep with
  | sentWithReply _ _ _ request hrequest hendpoint =>
    exact ⟨request, hrequest, rfl, rfl, fun entry hentry ↦ Or.inl hentry⟩
  | sent _ _ _ request hrequest hendpoint =>
    refine ⟨request, hrequest, ?_, ?_, fun entry hentry ↦ ?_⟩
    · cases stored <;> rfl
    · cases stored <;> rfl
    · have hhistory : ((s.panel.settle k request).onSent request sentAt stored).history
          = s.panel.history.recordSend (recentSendOf request sentAt) := by
        cases stored <;> rfl
      rw [hhistory] at hentry
      rcases List.mem_cons.mp (List.mem_of_mem_take hentry) with rfl | hentry
      · exact Or.inr ⟨hendpoint, rfl⟩
      · exact Or.inl hentry

/-! ## The steps, sorted -/

/-- What a step can be, with the step of the use cases that it runs. -/
inductive StepCases (s : State) (a : Label) (t : State) : Prop where
  | panel (b : SendPanel.Label) (ha : a = .panel b)
    (hsucceeded : ∀ k sentAt stored, b ≠ .succeeded k sentAt stored) (hfailed : ∀ k, b ≠ .failed k)
    (hstep : SendPanel.step s.panel b = some t.panel)
    (ht : t = s.post t.panel (postedBy s.panel b)) (hlabel : useCasesLabel s a = none)
  | refuses (n : ℕ) (ht : t = { s with underway := s.underway.erase n })
    (hlabel : useCasesLabel s a = none)
  | arrives (n : ℕ) (request : SendRequest) (useCase : UseCase)
    (hposted : s.posted[n]? = some request) (huseCase : useCaseOf request = .ok useCase)
    (hstep : UseCases.step s.useCases (.begin (.request n) useCase) = some t.useCases)
    (ht : t = { s with useCases := t.useCases, underway := s.underway.erase n })
    (hlabel : useCasesLabel s a = some (.begin (.request n) useCase))
  | serves (b : UseCases.Label Source) (hb : ∀ n useCase, b ≠ .begin (.request n) useCase)
    (hstep : UseCases.step s.useCases b = some t.useCases)
    (ht : t = { s with useCases := t.useCases }) (hlabel : useCasesLabel s a = some b)
  | succeeds (k : ℕ) (sentAt : Utf16) (stored : Bool) (n : ℕ) (hn : s.inFlight[k]? = some n)
    (hreturned : s.hasReturned n = true)
    (hstep : SendPanel.step s.panel (.succeeded k sentAt stored) = some t.panel)
    (ht : t = { s with
      panel := t.panel
      inFlight := s.inFlight.eraseIdx k
      succeeded := s.succeeded ++ [n] }) (hlabel : useCasesLabel s a = none)
  | fails (k : ℕ) (hstep : SendPanel.step s.panel (.failed k) = some t.panel)
    (ht : t = { s with panel := t.panel, inFlight := s.inFlight.eraseIdx k })
    (hlabel : useCasesLabel s a = none)

theorem step_cases (hstep : step s a = some t) : StepCases s a t := by
  cases a with
  | panel b =>
    have hmoves : (SendPanel.step s.panel b).map (fun panel ↦ s.post panel (postedBy s.panel b))
        = some t → SendPanel.step s.panel b = some t.panel ∧
          t = s.post t.panel (postedBy s.panel b) := by
      intro hmap
      obtain ⟨panel, hpanel, rfl⟩ := Option.map_eq_some_iff.mp hmap
      exact ⟨hpanel, rfl⟩
    cases b with
    | succeeded | failed => cases hstep
    | _ =>
      obtain ⟨hpanel, ht⟩ := hmoves hstep
      exact .panel _ rfl nofun nofun hpanel ht rfl
  | arrive n =>
    obtain ⟨-, hstep⟩ := Option.ite_none_right_eq_some.mp hstep
    split at hstep
    · cases hstep
    · rename_i request hposted
      split at hstep
      · rename_i ex huseCase
        cases hstep
        exact .refuses n rfl (by simp only [useCasesLabel, hposted, huseCase])
      · rename_i useCase huseCase
        obtain ⟨useCases, huseCases, rfl⟩ := Option.map_eq_some_iff.mp hstep
        exact .arrives n request useCase hposted huseCase huseCases rfl
          (by simp only [useCasesLabel, hposted, huseCase])
  | other n useCase =>
    obtain ⟨useCases, huseCases, rfl⟩ := Option.map_eq_some_iff.mp hstep
    refine .serves _ ?_ huseCases rfl rfl
    rintro m u ⟨⟩
  | server b =>
    cases b with
    | begin => cases hstep
    | _ =>
      obtain ⟨useCases, huseCases, rfl⟩ := Option.map_eq_some_iff.mp hstep
      refine .serves _ ?_ huseCases rfl rfl
      rintro m u ⟨⟩
  | succeeded k sentAt stored =>
    simp only [step] at hstep
    split at hstep
    · cases hstep
    · rename_i n hn
      obtain ⟨hreturned, hmap⟩ := Option.ite_none_right_eq_some.mp hstep
      obtain ⟨panel, hpanel, rfl⟩ := Option.map_eq_some_iff.mp hmap
      exact .succeeds k sentAt stored n hn hreturned hpanel rfl rfl
  | failed k =>
    obtain ⟨panel, hpanel, rfl⟩ := Option.map_eq_some_iff.mp hstep
    exact .fails k hpanel rfl rfl

/-- **A run of the panel and the backend is a run of the use cases.** -/
theorem projects_useCases : Projects step UseCases.step State.useCases useCasesLabel := by
  intro s a t hstep
  cases step_cases hstep with
  | panel b ha hsucceeded hfailed hpanel ht hlabel =>
    rw [ht]
    exact Or.inl ⟨hlabel, rfl⟩
  | refuses n ht hlabel =>
    rw [ht]
    exact Or.inl ⟨hlabel, rfl⟩
  | arrives n request useCase hposted huseCase huseCases ht hlabel =>
    exact Or.inr ⟨_, hlabel, huseCases⟩
  | serves b hb huseCases ht hlabel => exact Or.inr ⟨_, hlabel, huseCases⟩
  | succeeds k sentAt stored n hn hreturned hpanel ht hlabel =>
    rw [ht]
    exact Or.inl ⟨hlabel, rfl⟩
  | fails k hpanel ht hlabel =>
    rw [ht]
    exact Or.inl ⟨hlabel, rfl⟩

/-! ## Numbers and requests -/

theorem hasReturned_iff : s.hasReturned n = true ↔
    ∃ outcome, s.useCases.progress (.request n) = .returned outcome := by
  unfold State.hasReturned
  split
  · rename_i outcome hprogress
    exact iff_of_true rfl ⟨outcome, hprogress⟩
  · rename_i hnot
    exact iff_of_false nofun fun ⟨outcome, hprogress⟩ ↦ hnot outcome hprogress

theorem hasReturned_of_step (hstep : step s a = some t) (h : s.hasReturned n = true) :
    t.hasReturned n = true := by
  obtain ⟨outcome, hprogress⟩ := hasReturned_iff.mp h
  refine hasReturned_iff.mpr ⟨outcome, ?_⟩
  rcases projects_useCases hstep with ⟨-, hsame⟩ | ⟨b, -, hb⟩
  · rw [hsame]
    exact hprogress
  · exact UseCases.returned_of_step hb hprogress

/-- The requests with these numbers. -/
def Numbers (posted : List SendRequest) (ns : List ℕ) (requests : List SendRequest) : Prop :=
  requests.map some = ns.map (posted[·]?)

theorem Numbers.lt {posted requests : List SendRequest} {ns : List ℕ}
    (h : Numbers posted ns requests) (hn : n ∈ ns) : n < posted.length := by
  have hmem : posted[n]? ∈ requests.map some := by
    rw [h]
    exact List.mem_map.mpr ⟨n, hn, rfl⟩
  obtain ⟨request, -, hrequest⟩ := List.mem_map.mp hmem
  exact (List.getElem?_eq_some_iff.mp hrequest.symm).1

theorem Numbers.append {posted requests : List SendRequest} {ns : List ℕ}
    (h : Numbers posted ns requests) (more : List SendRequest) :
    Numbers (posted ++ more) ns requests := by
  refine h.trans (List.map_congr_left fun n hn ↦ ?_)
  exact (List.getElem?_append_left (h.lt hn)).symm

theorem Numbers.post {posted requests : List SendRequest} {ns : List ℕ}
    (h : Numbers posted ns requests) (new : Option SendRequest) :
    Numbers (posted ++ new.toList) (ns ++ new.toList.map fun _ ↦ posted.length)
      (requests ++ new.toList) := by
  cases new with
  | none =>
    simp only [Option.toList_none, List.map_nil, List.append_nil]
    exact h
  | some request =>
    have hlast : (posted ++ [request])[posted.length]? = some request :=
      List.getElem?_concat_length
    have hold : requests.map some = ns.map ((posted ++ [request])[·]?) := h.append [request]
    simp only [Numbers, Option.toList_some, List.map_append, List.map_singleton, hold, hlast]

theorem Numbers.eraseIdx {posted requests : List SendRequest} {ns : List ℕ}
    (h : Numbers posted ns requests) (k : ℕ) :
    Numbers posted (ns.eraseIdx k) (requests.eraseIdx k) := by
  rw [Numbers, ← List.eraseIdx_map, ← List.eraseIdx_map, h]

theorem Numbers.getElem? {posted requests : List SendRequest} {ns : List ℕ} {k : ℕ}
    (h : Numbers posted ns requests) (hn : ns[k]? = some n) : requests[k]? = posted[n]? := by
  have hk : (requests.map some)[k]? = (ns.map (posted[·]?))[k]? := by rw [h]
  rw [List.getElem?_map, List.getElem?_map, hn, Option.map_some] at hk
  obtain ⟨request, hrequest, heq⟩ := Option.map_eq_some_iff.mp hk
  rw [hrequest, heq]

theorem Numbers.concat {posted requests : List SendRequest} {ns : List ℕ}
    (h : Numbers posted ns requests) (hn : posted[n]? = some request) :
    Numbers posted (ns ++ [n]) (requests ++ [request]) := by
  rw [Numbers, List.map_append, List.map_append, h, List.map_singleton, List.map_singleton, hn]

/-! ## What every run keeps -/

/-- The panel and the record of its requests agree, and a request comes before its use case. -/
structure Kept (history : SendHistoryService) (as : List Label) (s : State) : Prop where
  waiting : Numbers s.posted s.inFlight s.panel.inFlight
  settled : Numbers s.posted s.succeeded s.panel.succeeded
  nodup : (s.inFlight ++ s.succeeded).Nodup
  returned : ∀ n ∈ s.succeeded, s.hasReturned n = true
  begun : ∀ {n useCase}, .begin (.request n) useCase ∈ useCasesLabels history as →
    ∃ request, s.posted[n]? = some request ∧ useCaseOf request = .ok useCase
  recorded : ∀ entry ∈ s.panel.history.recentSends, entry ∈ history.recentSends ∨
    ∃ request ∈ s.panel.succeeded, ∃ sentAt,
      request.endpoint = .messages ∧ entry = recentSendOf request sentAt

theorem kept_initial : Kept history [] (State.initial history) where
  waiting := rfl
  settled := rfl
  nodup := List.nodup_nil
  returned := nofun
  begun h := absurd h List.not_mem_nil
  recorded _ hentry := Or.inl hentry

theorem useCasesLabels_concat (hrun : run step (State.initial history) as = some s) :
    useCasesLabels history (as ++ [a])
      = useCasesLabels history as ++ (useCasesLabel s a).toList :=
  observed_concat hrun

private theorem Kept.begun_of_step (hs : Kept history as s)
    (hrun : run step (State.initial history) as = some s)
    (hposted : ∃ more, t.posted = s.posted ++ more)
    (hnew : ∀ n useCase, useCasesLabel s a = some (.begin (.request n) useCase) →
      ∃ request, s.posted[n]? = some request ∧ useCaseOf request = .ok useCase)
    {useCase : UseCase}
    (hmem : .begin (.request n) useCase ∈ useCasesLabels history (as ++ [a])) :
    ∃ request, t.posted[n]? = some request ∧ useCaseOf request = .ok useCase := by
  have hbefore : ∃ request, s.posted[n]? = some request ∧ useCaseOf request = .ok useCase := by
    rw [useCasesLabels_concat hrun, List.mem_append, Option.mem_toList] at hmem
    rcases hmem with hmem | hmem
    · exact hs.begun hmem
    · exact hnew n useCase hmem
  obtain ⟨request, hrequest, huseCase⟩ := hbefore
  obtain ⟨more, hmore⟩ := hposted
  refine ⟨request, ?_, huseCase⟩
  rw [hmore, List.getElem?_append_left (List.getElem?_eq_some_iff.mp hrequest).1]
  exact hrequest

private theorem Kept.of_rest (hs : Kept history as s)
    (hrun : run step (State.initial history) as = some s) (hstep : step s a = some t)
    (hpanel : t.panel = s.panel) (hposted : t.posted = s.posted)
    (hinFlight : t.inFlight = s.inFlight) (hsucceeded : t.succeeded = s.succeeded)
    (hnew : ∀ n useCase, useCasesLabel s a = some (.begin (.request n) useCase) →
      ∃ request, s.posted[n]? = some request ∧ useCaseOf request = .ok useCase) :
    Kept history (as ++ [a]) t := by
  refine ⟨?_, ?_, ?_, fun n hn ↦ ?_, fun hmem ↦ ?_, ?_⟩
  · rw [hposted, hinFlight, hpanel]
    exact hs.waiting
  · rw [hposted, hsucceeded, hpanel]
    exact hs.settled
  · rw [hinFlight, hsucceeded]
    exact hs.nodup
  · exact hasReturned_of_step hstep (hs.returned n (hsucceeded ▸ hn))
  · exact hs.begun_of_step hrun ⟨[], by rw [hposted, List.append_nil]⟩ hnew hmem
  · rw [hpanel]
    exact hs.recorded

private theorem Kept.of_post {panel : SendPanel.State} {b : SendPanel.Label}
    (hs : Kept history as s) (hrun : run step (State.initial history) as = some s)
    (hpanel : SendPanel.step s.panel b = some panel)
    (hsucceeded : ∀ k sentAt stored, b ≠ .succeeded k sentAt stored) (hfailed : ∀ k, b ≠ .failed k)
    (hlabel : useCasesLabel s a = none) :
    Kept history (as ++ [a]) (s.post panel (postedBy s.panel b)) := by
  obtain ⟨hinFlight, hsettled, hrecent⟩ := panel_spec hpanel hsucceeded hfailed
  refine ⟨?_, ?_, ?_, hs.returned, fun hmem ↦ ?_, fun entry hentry ↦ ?_⟩
  · exact hinFlight ▸ hs.waiting.post _
  · exact hsettled ▸ hs.settled.append _
  · cases postedBy s.panel b with
    | none =>
      simp only [State.post, Option.toList_none, List.map_nil, List.append_nil]
      exact hs.nodup
    | some request =>
      simp only [State.post, Option.toList_some, List.map_singleton, List.append_assoc,
        List.singleton_append]
      refine List.nodup_middle.mpr (List.nodup_cons.mpr ⟨fun hmem ↦ ?_, hs.nodup⟩)
      rcases List.mem_append.mp hmem with hmem | hmem
      · exact absurd (hs.waiting.lt hmem) (Nat.lt_irrefl _)
      · exact absurd (hs.settled.lt hmem) (Nat.lt_irrefl _)
  · refine hs.begun_of_step hrun ⟨_, rfl⟩ (fun m u hbegin ↦ ?_) hmem
    cases hlabel.symm.trans hbegin
  · have hmem : entry ∈ s.panel.history.recentSends := hrecent ▸ hentry
    refine (hs.recorded entry hmem).imp_right ?_
    rintro ⟨request, hrequest, h⟩
    exact ⟨request, hsettled.symm ▸ hrequest, h⟩

/-- A success moves its number from the requests in flight to those that have succeeded. -/
private theorem Kept.of_success {panel : SendPanel.State} {k : ℕ} {sentAt : Utf16} {stored : Bool}
    (hs : Kept history as s) (hrun : run step (State.initial history) as = some s)
    (hn : s.inFlight[k]? = some n) (hended : s.hasReturned n = true)
    (hpanel : SendPanel.step s.panel (.succeeded k sentAt stored) = some panel)
    (hlabel : useCasesLabel s a = none) : Kept history (as ++ [a]) { s with
      panel
      inFlight := s.inFlight.eraseIdx k
      succeeded := s.succeeded ++ [n] } := by
  obtain ⟨request, hrequest, hinFlight, hsettled, hrecent⟩ := succeeded_spec hpanel
  have hposted : s.posted[n]? = some request := (hs.waiting.getElem? hn).symm.trans hrequest
  obtain ⟨hk, hget⟩ := List.getElem?_eq_some_iff.mp hn
  have hperm : (s.inFlight.eraseIdx k ++ (s.succeeded ++ [n])).Perm
      (s.inFlight ++ s.succeeded) := by
    have hcons : (n :: s.inFlight.eraseIdx k).Perm s.inFlight :=
      hget ▸ List.getElem_cons_eraseIdx_perm hk
    rw [← List.append_assoc]
    exact (List.perm_append_singleton n _).trans (hcons.append_right s.succeeded)
  refine ⟨?_, ?_, hperm.nodup_iff.mpr hs.nodup, fun m hm ↦ ?_, fun hmem ↦ ?_,
    fun entry hentry ↦ ?_⟩
  · exact hinFlight ▸ hs.waiting.eraseIdx k
  · exact hsettled ▸ hs.settled.concat hposted
  · rcases List.mem_append.mp hm with hm | hm
    · exact hs.returned m hm
    · rw [List.mem_singleton.mp hm]
      exact hended
  · refine hs.begun_of_step (t := s) hrun ⟨[], (List.append_nil _).symm⟩ (fun m u hbegin ↦ ?_) hmem
    cases hlabel.symm.trans hbegin
  · change _ ∨ ∃ request' ∈ panel.succeeded, _
    rw [hsettled]
    rcases hrecent entry hentry with hentry | ⟨hendpoint, rfl⟩
    · refine (hs.recorded entry hentry).imp_right ?_
      rintro ⟨request', hrequest', h⟩
      exact ⟨request', List.mem_append_left _ hrequest', h⟩
    · exact Or.inr ⟨request, List.mem_append_right _ (List.mem_singleton_self _), sentAt,
        hendpoint, rfl⟩

private theorem Kept.of_failure {panel : SendPanel.State} {k : ℕ} (hs : Kept history as s)
    (hrun : run step (State.initial history) as = some s)
    (hpanel : SendPanel.step s.panel (.failed k) = some panel)
    (hlabel : useCasesLabel s a = none) :
    Kept history (as ++ [a]) { s with panel, inFlight := s.inFlight.eraseIdx k } := by
  cases SendPanel.moves_of_step hpanel with
  | fails _ hk =>
    refine ⟨hs.waiting.eraseIdx k, hs.settled, ?_, hs.returned, fun hmem ↦ ?_, hs.recorded⟩
    · exact hs.nodup.sublist (List.Sublist.append_right (List.eraseIdx_sublist ..) _)
    · refine hs.begun_of_step (t := s) hrun ⟨[], (List.append_nil _).symm⟩ (fun m u hbegin ↦ ?_)
        hmem
      cases hlabel.symm.trans hbegin

theorem kept_step (hs : Kept history as s) (hrun : run step (State.initial history) as = some s)
    (hstep : step s a = some t) : Kept history (as ++ [a]) t := by
  cases step_cases hstep with
  | panel b ha hsucceeded hfailed hpanel ht hlabel =>
    rw [ht]
    exact hs.of_post hrun hpanel hsucceeded hfailed hlabel
  | refuses n ht hlabel =>
    refine hs.of_rest hrun hstep (by rw [ht]) (by rw [ht]) (by rw [ht]) (by rw [ht])
      fun m u hbegin ↦ ?_
    cases hlabel.symm.trans hbegin
  | arrives n request useCase hposted huseCase huseCases ht hlabel =>
    refine hs.of_rest hrun hstep (by rw [ht]) (by rw [ht]) (by rw [ht]) (by rw [ht])
      fun m u hbegin ↦ ?_
    cases hlabel.symm.trans hbegin
    exact ⟨request, hposted, huseCase⟩
  | serves b hb huseCases ht hlabel =>
    refine hs.of_rest hrun hstep (by rw [ht]) (by rw [ht]) (by rw [ht]) (by rw [ht])
      fun m u hbegin ↦ ?_
    cases hlabel.symm.trans hbegin
    exact absurd rfl (hb m u)
  | succeeds k sentAt stored n hn hended hpanel ht hlabel =>
    rw [ht]
    exact hs.of_success hrun hn hended hpanel hlabel
  | fails k hpanel ht hlabel =>
    rw [ht]
    exact hs.of_failure hrun hpanel hlabel

theorem kept_of_run (hrun : run step (State.initial history) as = some t) :
    Kept history as t :=
  run_induction (motive := fun as t ↦ Kept history as t) kept_initial
    (fun _ _ _ _ hrun hs hstep ↦ kept_step hs hrun hstep) hrun

/-! ## Reported and published -/

/-- A request that was reported as sent has been published. -/
theorem published_of_succeeded (hrun : run step (State.initial history) as = some t)
    (hn : n ∈ t.succeeded) : ∃ p, (.request n, p) ∈ publications history as ∧
      ∃ request ∈ t.posted[n]?, Carries request p := by
  have hkept : Kept history as t := kept_of_run hrun
  have huseCases : run UseCases.step .initial (useCasesLabels history as) = some t.useCases :=
    run_observed projects_useCases hrun
  have hfollowed := UseCases.followed_of_run huseCases
  have honce := UseCases.executionsPublishOnce_of_run huseCases
  obtain ⟨outcome, hprogress⟩ := hasReturned_iff.mp (hkept.returned n hn)
  obtain ⟨useCase, hbegin⟩ : ∃ useCase, .begin (.request n) useCase ∈ useCasesLabels history as :=
    hfollowed.begun (by simp [hprogress])
  obtain ⟨request, hposted, huseCase⟩ := hkept.begun hbegin
  have hfollows := hfollowed.follows hbegin
  rw [hprogress] at hfollows
  have hpublished : ∃ p, (.request n, p) ∈ publications history as := by
    rcases useCaseOf_spec huseCase with ⟨-, message, rfl, -⟩ | ⟨-, rfl⟩
    · exact ⟨_, honce.sent hbegin hprogress⟩
    · cases hfollows with
      | replied =>
        obtain ⟨queueName, message, -, -, hmem⟩ := honce.replied hbegin hprogress
        exact ⟨_, hmem⟩
  obtain ⟨p, hp⟩ := hpublished
  obtain ⟨useCase', message, hbegin', hmakes, rfl⟩ := honce.made hp
  obtain rfl := hfollowed.unique hbegin hbegin'
  exact ⟨_, hp, request, hposted, carries_of_makes huseCase hmakes⟩

private theorem exists_forall₂_subperm {entries : List (Source × Publication)}
    {posted requests : List SendRequest} {ns : List ℕ} (hnodup : ns.Nodup)
    (hnumbers : Numbers posted ns requests)
    (h : ∀ n ∈ ns, ∃ p, (.request n, p) ∈ entries ∧ ∃ request ∈ posted[n]?, Carries request p) :
    ∃ ps, List.Forall₂ Carries requests ps ∧ List.Subperm ps (entries.map Prod.snd) := by
  have hchosen : ∃ chosen : List (Source × Publication), chosen.map Prod.fst = ns.map .request ∧
      chosen ⊆ entries ∧ List.Forall₂ Carries requests (chosen.map Prod.snd) := by
    induction ns generalizing requests with
    | nil =>
      obtain rfl : requests = [] := List.map_eq_nil_iff.mp hnumbers
      exact ⟨[], rfl, List.nil_subset _, .nil⟩
    | cons n ns ih =>
      obtain ⟨request, rest, rfl, hrequest, hrest⟩ := List.map_eq_cons_iff.mp hnumbers
      obtain ⟨chosen, hkeys, hsub, hcarries⟩ := ih (List.nodup_cons.mp hnodup).2 hrest
        fun m hm ↦ h m (List.mem_cons_of_mem n hm)
      obtain ⟨p, hp, request', hrequest', hcarried⟩ := h n List.mem_cons_self
      obtain rfl : request = request' := Option.some.inj (hrequest.trans hrequest')
      refine ⟨(.request n, p) :: chosen, ?_, List.cons_subset.mpr ⟨hp, hsub⟩,
        .cons hcarried hcarries⟩
      rw [List.map_cons, List.map_cons, hkeys]
  obtain ⟨chosen, hkeys, hsub, hcarries⟩ := hchosen
  have hdistinct : (chosen.map Prod.fst).Nodup := by
    rw [hkeys]
    refine hnodup.map ?_
    rintro n m ⟨⟩
    rfl
  obtain ⟨part, hperm, hpart⟩ := (List.Nodup.of_map _ hdistinct).subperm hsub
  exact ⟨_, hcarries, part.map Prod.snd, hperm.map Prod.snd, hpart.map Prod.snd⟩

/-- **What is reported as sent is sent, once.** Over any interleaving of the panel, its requests and
the backend, the requests whose success was reported have each a publication of their own with the
content that was posted, no request is published twice, and nothing is published for the panel that
it has not posted. -/
theorem delivers_of_run (hrun : run step (State.initial history) as = some t) :
    Delivers history as t := by
  have hkept : Kept history as t := kept_of_run hrun
  have huseCases : run UseCases.step .initial (useCasesLabels history as) = some t.useCases :=
    run_observed projects_useCases hrun
  have honce := UseCases.executionsPublishOnce_of_run huseCases
  refine ⟨?_, honce.once, honce.published, fun {n p} hmem ↦ ?_, hkept.recorded⟩
  · rw [honce.published]
    exact exists_forall₂_subperm (List.nodup_append.mp hkept.nodup).2.1 hkept.settled
      fun n hn ↦ published_of_succeeded hrun hn
  · obtain ⟨useCase, message, hbegin, hmakes, rfl⟩ := honce.made hmem
    obtain ⟨request, hposted, huseCase⟩ := hkept.begun hbegin
    exact ⟨request, hposted, carries_of_makes huseCase hmakes⟩

open RabbitMqAdapter.Label (succeed)

/-- The steps of a plain send to a named exchange, from the controller to the end of its use
case. -/
private def serve (n : ℕ) : List Label :=
  [.arrive n, .server (.adapter (succeed (.request n, .first))),
    .server (.adapter (succeed (.request n, .first))),
    .server (.adapter (succeed (.request n, .first))),
    .server (.adapter (succeed (.request n, .first))), .server (.proceed (.request n) ⟨0⟩)]

/-- A connection is opened and the form is sent twice. Both messages are published, and the answer
to the first request is lost. -/
private def answerLost : List Label :=
  [.other 0 (.teardown (.connect .localhost)), .server (.adapter (succeed (.other 0, .first))),
    .server (.adapter (succeed (.other 0, .first))), .server (.proceed (.other 0) ⟨0⟩),
    .panel (.edit (.exchange (Utf16.ofString "orders"))),
    .panel (.edit (.routingKey (Utf16.ofString "created"))),
    .panel (.edit (.payload (Utf16.ofString "1"))), .panel .send,
    .panel (.edit (.payload (Utf16.ofString "2"))), .panel .send]
    ++ serve 1 ++ serve 0 ++ [.succeeded 1 [] true, .failed 0]

theorem delivers_of_answerLost : ∃ t, run step (State.initial ⟨[], []⟩) answerLost = some t ∧
    t.panel.succeeded.map SendRequest.payload = [Utf16.ofString "2"] ∧
      t.useCases.backend.adapter.published.map Publication.body
        = [Utf8.getBytes (Utf16.ofString "2"), Utf8.getBytes (Utf16.ofString "1")] ∧
        Delivers ⟨[], []⟩ answerLost t :=
  ⟨_, rfl, rfl, rfl, delivers_of_run rfl⟩

end Sending

end BusTester
