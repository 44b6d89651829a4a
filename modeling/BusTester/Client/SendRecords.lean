import BusTester.Client.SendPanel

/-!
# What the panel posts, records and recalls

Three results about whole runs of the send panel.

In reply mode the exchange is empty and the routing key is that of the draft that was applied last,
so every request posted in reply mode goes to the reply queue through the default exchange.

The success of a plain send records it, the success of a send with reply does not.
`recordsSends_iff` says exactly when the recent sends are nevertheless what has succeeded.

An entry does not tell whether the request was posted in reply mode, and recalling it leaves the
mode. `recallable_iff` says that this is the only obstacle to sending it again.
-/

namespace BusTester

namespace SendPanel

open SendComponent Transition

variable {s t : State} {a : Label} {as : List Label} {history : SendHistoryService}

/-! ## Reply mode -/

/-- The target of the draft that the step applies. -/
def appliedTarget (s : State) : Label → Option ReplyTarget
  | .draftEffect confirmed => s.replyDraft.draft.bind fun draft ↦
    if draft.seq ≠ s.form.lastAppliedDraftSeq ∧ (s.form.isDirty && !confirmed) = false then
      some draft.target
    else none
  | _ => none

/-- The targets of the drafts that the run has applied to a new panel. -/
def appliedTargets (history : SendHistoryService) (as : List Label) : List ReplyTarget :=
  observed step appliedTarget (State.initial history) as

/-- What a step does to the mode and the two fields that the mode is about. -/
inductive Routing (s : State) (a : Label) (t : State) : Prop where
  | keeps (happlied : appliedTarget s a = none) (hmode : t.form.replyMode = s.form.replyMode)
      (hexchange : t.form.exchange = s.form.exchange)
      (hroutingKey : t.form.routingKey = s.form.routingKey)
  | leaves (happlied : appliedTarget s a = none) (hmode : t.form.replyMode = false)
  | applies (target : ReplyTarget) (happlied : appliedTarget s a = some target)
      (hexchange : t.form.exchange = []) (hroutingKey : t.form.routingKey = target.routingKey)

theorem routing_of_step (hstep : step s a = some t) : Routing s a t := by
  cases moves_of_step hstep with
  | edits e =>
    cases e with
    | exchange value | routingKey value => exact .leaves rfl rfl
    | _ => exact .keeps rfl rfl rfl rfl
  | sent k sentAt stored request hrequest hendpoint =>
    cases stored <;> exact .keeps rfl rfl rfl rfl
  | recalls entry hentry => exact .leaves rfl rfl
  | loads template htemplate => exact .leaves rfl rfl
  | idles confirmed hdraft => exact .keeps (by rw [appliedTarget, hdraft]; rfl) rfl rfl rfl
  | applies confirmed draft hdraft happlied =>
    have htarget : appliedTarget s (.draftEffect confirmed) = some draft.target := by
      rw [appliedTarget, hdraft, Option.bind_some, if_pos happlied]
    rw [applyReplyDraft_of_applied happlied.1 happlied.2]
    exact .applies draft.target htarget rfl rfl
  | declines confirmed draft hdraft hnot =>
    have htarget : appliedTarget s (.draftEffect confirmed) = none := by
      rw [appliedTarget, hdraft, Option.bind_some, if_neg hnot]
    rw [applyReplyDraft_of_not_applied hnot]
    exact .keeps htarget rfl rfl rfl
  | posts | sentWithReply | fails | saves | deletes | requests | clears =>
    exact .keeps rfl rfl rfl rfl

/-- In reply mode the form targets the reply queue of the last draft. -/
structure TargetsReplyQueue (target : ReplyTarget) (form : SendComponent) : Prop where
  exchange : form.exchange = []
  routingKey : form.routingKey = target.routingKey

theorem TargetsReplyQueue.of_send {target : ReplyTarget} {form : SendComponent}
    {request : SendRequest} (hform : TargetsReplyQueue target form)
    (hsend : form.send = some request) :
    request.exchange = [] ∧ request.routingKey = target.routingKey := by
  unfold SendComponent.send at hsend
  split at hsend
  · cases hsend
  · split at hsend <;> cases hsend <;> exact ⟨hform.exchange, hform.routingKey⟩

theorem exists_target_of_run (hrun : run step (State.initial history) as = some s)
    (hmode : s.form.replyMode = true) :
    ∃ target ∈ (appliedTargets history as).getLast?, TargetsReplyQueue target s.form := by
  refine run_induction (motive := fun as s ↦ s.form.replyMode = true →
    ∃ target ∈ (appliedTargets history as).getLast?, TargetsReplyQueue target s.form)
    (fun hnot ↦ absurd hnot Bool.false_ne_true) (fun as t a u hm ih hlast hmode ↦ ?_) hrun hmode
  have happlied : appliedTargets history (as ++ [a])
      = appliedTargets history as ++ (appliedTarget t a).toList := observed_concat hm
  cases routing_of_step hlast with
  | keeps hnone hsame hexchange hroutingKey =>
    obtain ⟨target, htarget, hform⟩ := ih (hsame ▸ hmode)
    rw [happlied, hnone, Option.toList_none, List.append_nil]
    exact ⟨target, htarget, hexchange.trans hform.exchange,
      hroutingKey.trans hform.routingKey⟩
  | leaves hnone hleft => cases hleft.symm.trans hmode
  | applies target hsome hexchange hroutingKey =>
    rw [happlied, hsome]
    exact ⟨target, List.getLast?_concat, hexchange, hroutingKey⟩

/-- **Reply mode targets the reply queue** of the draft that was applied last, and so does every
request that is posted in it. -/
theorem targetsReplyQueue_of_replyMode (hrun : run step (State.initial history) as = some s)
    (hmode : s.form.replyMode = true) :
    ∃ target ∈ (appliedTargets history as).getLast?, TargetsReplyQueue target s.form ∧
      ∀ request ∈ s.form.send, request.exchange = [] ∧
        request.routingKey = target.routingKey := by
  obtain ⟨target, htarget, hform⟩ := exists_target_of_run hrun hmode
  exact ⟨target, htarget, hform, fun request hsend ↦ hform.of_send hsend⟩

/-- A draft is applied, the next one is declined. -/
private def declined : List Label :=
  [.request ⟨Utf16.ofString "amq.gen-1", some (Utf16.ofString "c1")⟩, .draftEffect false,
    .edit (.payload (Utf16.ofString "pong")), .request ⟨Utf16.ofString "amq.gen-2", none⟩,
    .draftEffect false]

theorem targetsReplyQueue_of_declined : ∃ s,
    run step (State.initial ⟨[], []⟩) declined = some s ∧ s.form.replyMode = true ∧
      s.form.routingKey = Utf16.ofString "amq.gen-1" ∧
      ∃ target ∈ (appliedTargets ⟨[], []⟩ declined).getLast?, TargetsReplyQueue target s.form ∧
        ∀ request ∈ s.form.send, request.exchange = [] ∧
          request.routingKey = target.routingKey := by
  obtain ⟨s, hrun, hmode, hroutingKey⟩ : ∃ s,
      run step (State.initial ⟨[], []⟩) declined = some s ∧ s.form.replyMode = true ∧
        s.form.routingKey = Utf16.ofString "amq.gen-1" := ⟨_, rfl, rfl, rfl⟩
  exact ⟨s, hrun, hmode, hroutingKey, targetsReplyQueue_of_replyMode hrun hmode⟩

/-! ## The recent sends -/

/-- An entry apart from its time. -/
def undated (entry : RecentSend) : RecentSend := { entry with sentAt := [] }

/-- The recent sends, apart from their times, are the sends that have succeeded, the latest success
first, as far as the cap allows. -/
def RecordsSends (s : State) : Prop :=
  s.history.recentSends.map undated
    = (s.succeeded.reverse.take SendHistoryService.recentSendsCap).map (recentSendOf · [])

/-- A send with reply succeeds only when the recent sends are twenty entries just like it. -/
def AlreadyListed (s : State) : Label → Prop
  | .succeeded k _ _ => ∀ request ∈ s.inFlight[k]?, request.endpoint = .withReply →
      s.history.recentSends.map undated
        = List.replicate SendHistoryService.recentSendsCap (recentSendOf request [])
  | _ => True

instance (s : State) : Decidable (RecordsSends s) := inferInstanceAs (Decidable (_ = _))

instance (s : State) : DecidablePred (AlreadyListed s)
  | .succeeded k _ _ => inferInstanceAs (Decidable (∀ request ∈ s.inFlight[k]?,
      request.endpoint = .withReply → s.history.recentSends.map undated
        = List.replicate SendHistoryService.recentSendsCap (recentSendOf request [])))
  | .edit _ | .send | .failed _ | .useRecent _ | .useTemplate _ | .saveTemplate
  | .deleteTemplate _ | .request _ | .clear | .draftEffect _ => isTrue trivial

/-- What a step does to the recent sends and to the record of the successes. -/
inductive Recording (s : State) (a : Label) (t : State) : Prop where
  | keeps (hrecent : t.history.recentSends = s.history.recentSends)
      (hsucceeded : t.succeeded = s.succeeded)
      (ha : ∀ k sentAt stored, a ≠ .succeeded k sentAt stored)
  | succeeds (k : ℕ) (sentAt : Utf16) (stored : Bool) (request : SendRequest)
      (ha : a = .succeeded k sentAt stored) (hrequest : request ∈ s.inFlight[k]?)
      (hsucceeded : t.succeeded = s.succeeded ++ [request])
      (hrecent : t.history.recentSends = match request.endpoint with
        | .withReply => s.history.recentSends
        | .messages =>
          (s.history.recordSend (recentSendOf request sentAt)).recentSends)

theorem recording_of_step (hstep : step s a = some t) : Recording s a t := by
  cases moves_of_step hstep with
  | sentWithReply k sentAt stored request hrequest hendpoint =>
    exact .succeeds k sentAt stored request rfl hrequest rfl (by rw [hendpoint]; rfl)
  | sent k sentAt stored request hrequest hendpoint =>
    refine .succeeds k sentAt stored request rfl hrequest ?_ ?_
    · cases stored <;> rfl
    · rw [hendpoint]
      cases stored <;> rfl
  | edits | posts | fails | recalls | loads | saves | deletes | requests | clears | idles | applies
  | declines => exact .keeps rfl rfl fun _ _ _ h ↦ by cases h

section Capped

variable {β γ : Type*} {x : β} {n : ℕ} {xs : List β}

/-- The newest `n` elements after one more, from the newest `n` before. -/
theorem map_take_reverse_concat (f : β → γ) :
    ((xs ++ [x]).reverse.take n).map f = (f x :: (xs.reverse.take n).map f).take n := by
  have htake : (x :: xs.reverse).take n = (x :: xs.reverse.take n).take n := by
    cases n with
    | zero => rfl
    | succ n => rw [List.take_succ_cons, List.take_succ_cons, List.take_take, Nat.min_eq_left
        (Nat.le_succ n)]
  rw [List.reverse_append, List.reverse_singleton, List.singleton_append, htake, List.map_take,
    List.map_cons]

end Capped

/-- When a request succeeds, the recent sends are right afterwards exactly if the request is
recorded, or the recent sends are full of entries just like it. -/
theorem recordsSends_of_succeeds {k : ℕ} {sentAt : Utf16} {stored : Bool} {request : SendRequest}
    (hs : RecordsSends s) (ha : a = .succeeded k sentAt stored)
    (hrequest : request ∈ s.inFlight[k]?) (hsucceeded : t.succeeded = s.succeeded ++ [request])
    (hrecent : t.history.recentSends = match request.endpoint with
      | .withReply => s.history.recentSends
      | .messages => (s.history.recordSend (recentSendOf request sentAt)).recentSends) :
    RecordsSends t ↔ AlreadyListed s a := by
  subst ha
  have hlisted : AlreadyListed s (.succeeded k sentAt stored) ↔
      (request.endpoint = .withReply → s.history.recentSends.map undated
        = List.replicate SendHistoryService.recentSendsCap (recentSendOf request [])) := by
    constructor
    · exact fun h ↦ h request hrequest
    · intro h request' hrequest'
      obtain rfl : request = request' := Option.some.inj (hrequest.symm.trans hrequest')
      exact h
  rw [RecordsSends, hsucceeded, map_take_reverse_concat, ← hs, hrecent, hlisted]
  cases hendpoint : request.endpoint with
  | withReply =>
    rw [eq_comm, SendHistoryService.take_cons_eq_self_iff]
    exact ⟨fun h _ ↦ h, fun h ↦ h rfl⟩
  | messages =>
    refine iff_of_true ?_ nofun
    simp only [SendHistoryService.recordSend, List.map_take, List.map_cons]
    rfl

theorem recordsSends_step (hlisted : AlreadyListed s a) (hs : RecordsSends s)
    (hstep : step s a = some t) : RecordsSends t := by
  cases recording_of_step hstep with
  | keeps hrecent hsucceeded =>
    rw [RecordsSends, hrecent, hsucceeded]
    exact hs
  | succeeds k sentAt stored request ha hrequest hsucceeded hrecent =>
    exact (recordsSends_of_succeeds hs ha hrequest hsucceeded hrecent).mpr hlisted

theorem not_recordsSends_of_step (hlisted : ¬AlreadyListed s a) (hs : RecordsSends s)
    (hstep : step s a = some t) : ¬RecordsSends t := by
  cases recording_of_step hstep with
  | keeps hrecent hsucceeded ha =>
    cases a with
    | succeeded k sentAt stored => exact absurd rfl (ha k sentAt stored)
    | _ => exact absurd trivial hlisted
  | succeeds k sentAt stored request ha hrequest hsucceeded hrecent =>
    rwa [recordsSends_of_succeeds hs ha hrequest hsucceeded hrecent]

/-- **The recent sends are the sends that have succeeded** exactly in the runs where a send with
reply succeeds only when it makes no difference. -/
theorem recordsSends_iff (hrun : run step (State.initial ⟨[], []⟩) as = some t) :
    Along step RecordsSends (State.initial ⟨[], []⟩) as ↔
      Guarded step AlreadyListed (State.initial ⟨[], []⟩) as := by
  refine along_iff_guarded (P := RecordsSends) rfl (fun s a t _ hlisted hs hstep ↦ ?_)
    (fun s a t _ hlisted hs hstep ↦ ?_) (fun _ hs ↦ hs) guarded_true hrun
  · exact recordsSends_step hlisted hs hstep
  · exact not_recordsSends_of_step hlisted hs hstep

/-- The user fills in a message, which is to be sent with a reply or without. -/
private def fillPing (expectReply : Bool) : List Label :=
  [.edit (.exchange (Utf16.ofString "ex")), .edit (.payload (Utf16.ofString "ping")),
    .edit (.expectReply expectReply)]

/-- Two plain sends, answered in the opposite order; one more fails. -/
theorem recordsSends_of_plain_sends : Along step RecordsSends (State.initial ⟨[], []⟩)
    (fillPing false ++ [.send, .edit (.payload (Utf16.ofString "pong")), .send,
      .succeeded 1 (Utf16.ofString "10:00") true, .succeeded 0 (Utf16.ofString "10:01") true,
      .send, .failed 0]) :=
  (recordsSends_iff rfl).mpr (by decide)

/-- A send with reply succeeds, and nothing is recorded. -/
theorem not_recordsSends_of_withReply : ∃ t, run step (State.initial ⟨[], []⟩)
      (fillPing true ++ [.send, .succeeded 0 (Utf16.ofString "10:00") true]) = some t ∧
    t.succeeded.length = 1 ∧ t.history.recentSends = [] ∧ ¬RecordsSends t :=
  ⟨_, rfl, rfl, rfl, by decide⟩

/-! ## Recalling an entry -/

/-- Recalling the entry fills the form so that `send` posts the request again. -/
def Recallable (form : SendComponent) (entry : RecentSend) (request : SendRequest) : Prop :=
  ∃ again ∈ (form.useRecent entry).send, again.exchange = request.exchange ∧
    again.routingKey = request.routingKey ∧ again.payload = request.payload ∧
      again.correlationId = request.correlationId

instance (form : SendComponent) (entry : RecentSend) (request : SendRequest) :
    Decidable (Recallable form entry request) :=
  Option.decidableExistsMem (form.useRecent entry).send

theorem useRecent_fields (form : SendComponent) (entry : RecentSend) :
    (form.useRecent entry).replyMode = false ∧
      (form.useRecent entry).exchange = entry.exchange ∧
      (form.useRecent entry).routingKey = entry.routingKey ∧
      (form.useRecent entry).payload = entry.payload :=
  ⟨rfl, rfl, rfl, rfl⟩

theorem send_spec {form : SendComponent} {request : SendRequest}
    (hsend : form.send = some request) :
    form.hasErrors = false ∧ request.exchange = form.exchange ∧
      request.routingKey = form.routingKey ∧ request.payload = form.payload ∧
      (form.expectReply = false → request.endpoint = .messages ∧
        request.correlationId = form.postedCorrelationId) := by
  unfold SendComponent.send at hsend
  split at hsend
  · cases hsend
  · rename_i hnot
    rw [Bool.not_eq_true] at hnot
    split at hsend
    · rename_i hexpect
      cases hsend
      exact ⟨hnot, rfl, rfl, rfl, fun h ↦ by rw [h] at hexpect; cases hexpect⟩
    · cases hsend
      exact ⟨hnot, rfl, rfl, rfl, fun _ ↦ ⟨rfl, rfl⟩⟩

theorem postedCorrelationId_of_not_replyMode {form : SendComponent}
    (hmode : form.replyMode = false) : form.postedCorrelationId = none := by
  rw [postedCorrelationId, hmode]
  exact if_neg fun h ↦ absurd h.1 Bool.false_ne_true

theorem exists_send_of_valid {form : SendComponent} (hmode : form.replyMode = false)
    (hvalid : form.hasErrors = false) :
    ∃ request ∈ form.send, request.exchange = form.exchange ∧
      request.routingKey = form.routingKey ∧ request.payload = form.payload ∧
      request.correlationId = none := by
  rw [SendComponent.send, hvalid]
  cases form.expectReply with
  | true => exact ⟨_, rfl, rfl, rfl, rfl, rfl⟩
  | false => exact ⟨_, rfl, rfl, rfl, rfl, postedCorrelationId_of_not_replyMode hmode⟩

theorem send_of_exchange_empty {form : SendComponent} (hmode : form.replyMode = false)
    (hexchange : form.exchange = []) : form.send = none := by
  have herrors : form.hasErrors = true := by
    rw [hasErrors, exchangeError, hmode, hexchange]
    rfl
  rw [SendComponent.send, if_pos herrors]

theorem hasErrors_congr {form form' : SendComponent} (hmode : form'.replyMode = form.replyMode)
    (hexchange : form'.exchange = form.exchange) (hroutingKey : form'.routingKey = form.routingKey)
    (hpayload : form'.payload = form.payload) : form'.hasErrors = form.hasErrors := by
  simp only [hasErrors, exchangeError, routingKeyError, payloadError, hmode, hexchange,
    hroutingKey, hpayload]

/-- **A recorded send can be sent again exactly if it was not posted in reply mode**, whatever the
form holds when the entry is recalled. -/
theorem recallable_iff {k : ℕ} {sentAt : Utf16} {stored : Bool} {request : SendRequest}
    {u : State} {entry : RecentSend} (form : SendComponent)
    (hrun : run step (State.initial history) as = some s) (hplain : s.form.expectReply = false)
    (hsend : s.form.send = some request) (hflight : t.inFlight[k]? = some request)
    (hsucceeded : step t (.succeeded k sentAt stored) = some u)
    (hentry : u.history.recentSends.head? = some entry) :
    Recallable form entry request ↔ s.form.replyMode = false := by
  obtain ⟨hvalid, hexchange, hroutingKey, hpayload, hposted⟩ := send_spec hsend
  obtain ⟨hendpoint, hcorrelation⟩ := hposted hplain
  obtain rfl : recentSendOf request sentAt = entry := by
    cases recording_of_step hsucceeded with
    | keeps hrecent hsame ha => exact absurd rfl (ha k sentAt stored)
    | succeeds k' sentAt' stored' request' ha hrequest hmore hrecent =>
      cases ha
      obtain rfl : request = request' := Option.some.inj (hflight.symm.trans hrequest)
      rw [hrecent, hendpoint] at hentry
      exact Option.some.inj hentry
  obtain ⟨hmode', hexchange', hroutingKey', hpayload'⟩ :=
    useRecent_fields form (recentSendOf request sentAt)
  cases hmode : s.form.replyMode with
  | true =>
    -- The exchange was empty, which is an error now.
    obtain ⟨target, -, htargets⟩ := exists_target_of_run hrun hmode
    have hempty : (form.useRecent (recentSendOf request sentAt)).exchange = [] :=
      hexchange'.trans (hexchange.trans htargets.exchange)
    refine iff_of_false ?_ (by decide)
    rintro ⟨again, hagain, -⟩
    rw [send_of_exchange_empty hmode' hempty] at hagain
    cases hagain
  | false =>
    have hvalid' : (form.useRecent (recentSendOf request sentAt)).hasErrors = false := by
      rw [hasErrors_congr (hmode'.trans hmode.symm) (hexchange'.trans hexchange)
        (hroutingKey'.trans hroutingKey) (hpayload'.trans hpayload), hvalid]
    obtain ⟨again, hagain, hex, hrk, hpl, hnone⟩ := exists_send_of_valid hmode' hvalid'
    refine iff_of_true ⟨again, hagain, hex.trans hexchange', hrk.trans hroutingKey',
      hpl.trans hpayload', ?_⟩ rfl
    rw [hnone, hcorrelation, postedCorrelationId_of_not_replyMode hmode]

/-- The user responds to a message. -/
private def respondToPing : List Label :=
  [.request ⟨Utf16.ofString "amq.gen-1", some (Utf16.ofString "c1")⟩, .draftEffect false,
    .edit (.payload (Utf16.ofString "pong"))]

/-- A plain send is recalled into a form that is in reply mode by then. -/
theorem recallable_of_plain_send : ∃ s t u entry request form,
    run step (State.initial ⟨[], []⟩) (fillPing false) = some s ∧ s.form.send = some request ∧
      step s .send = some t ∧ step t (.succeeded 0 (Utf16.ofString "10:00") true) = some u ∧
      u.history.recentSends.head? = some entry ∧
      (run step u respondToPing).map State.form = some form ∧ form.replyMode = true ∧
      Recallable form entry request := by
  obtain ⟨s, t, u, entry, request, form, hrun, hplain, hmode, hsend, ht, hflight, hu, hentry, hform,
      hreply⟩ : ∃ s t u entry request form,
      run step (State.initial ⟨[], []⟩) (fillPing false) = some s ∧ s.form.expectReply = false ∧
        s.form.replyMode = false ∧ s.form.send = some request ∧ step s .send = some t ∧
        t.inFlight[0]? = some request ∧
        step t (.succeeded 0 (Utf16.ofString "10:00") true) = some u ∧
        u.history.recentSends.head? = some entry ∧
        (run step u respondToPing).map State.form = some form ∧ form.replyMode = true :=
    ⟨_, _, _, _, _, _, rfl, rfl, rfl, rfl, rfl, rfl, rfl, rfl, rfl, rfl⟩
  have hrecallable : Recallable form entry request :=
    (recallable_iff form hrun hplain hsend hflight hu hentry).mpr hmode
  exact ⟨s, t, u, entry, request, form, hrun, hsend, ht, hu, hentry, hform, hreply, hrecallable⟩

/-- A reply is posted and recorded; when it is recalled, the form has an error. -/
theorem not_recallable_of_reply : ∃ s t u entry request,
    run step (State.initial ⟨[], []⟩) respondToPing = some s ∧ s.form.expectReply = false ∧
      s.form.send = some request ∧ step s .send = some t ∧
      step t (.succeeded 0 (Utf16.ofString "10:00") true) = some u ∧
      u.history.recentSends.head? = some entry ∧
      (u.form.useRecent entry).exchangeError = some (Utf16.ofString "El exchange es obligatorio.") ∧
      ¬Recallable u.form entry request :=
  ⟨_, _, _, _, _, rfl, rfl, rfl, rfl, rfl, rfl, rfl, by decide⟩

end SendPanel

end BusTester
