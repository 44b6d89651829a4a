import BusTester.Client.SendPanel

/-!
# Reply drafts and the requests sent from them

Two things about the reply mode of the send panel over whole runs.

What `send` posts in reply mode is to carry the correlation id of the reply. `sendWithReply` builds
its body without it, so this holds as long as no reply is sent with `expectReply` on.

A draft that `ReplyDraftService.request` hands over is to be decided on once: applied, or declined
by the user. Service and panel number the drafts separately. The service counts from the draft it
holds, so that it starts again at 1 after a `clear`, and the panel skips the number it has seen
last. A request is skipped exactly when there is no draft and the panel has seen number 1 last.
-/

namespace BusTester

namespace SendPanel

open SendComponent Transition

variable {s t : State}

/-! ## The correlation id of a reply -/

/-- The form is a reply that can be sent, with a correlation id. -/
def State.ReadyReply (s : State) : Prop :=
  s.form.replyMode = true ∧ s.form.correlationId.jsTrim ≠ [] ∧ s.form.hasErrors = false

instance (s : State) : Decidable s.ReadyReply := inferInstanceAs (Decidable (_ ∧ _))

/-- The body that `send` posts for a reply contains its correlation id, on either endpoint. -/
def CarriesReply (s : State) : Prop :=
  s.ReadyReply → ∃ request ∈ s.form.send,
    request.endpoint = (if s.form.expectReply then .withReply else .messages) ∧
      request.correlationId = some s.form.correlationId.jsTrim

/-- A reply does not expect a reply itself. -/
def RepliesPlainly (s : State) : Prop := s.ReadyReply → s.form.expectReply = false

theorem send_of_readyReply (h : s.ReadyReply) : ∃ request ∈ s.form.send,
    request.endpoint = (if s.form.expectReply then .withReply else .messages) ∧
      request.correlationId =
        if s.form.expectReply then none else some s.form.correlationId.jsTrim := by
  obtain ⟨hmode, hcorrelation, herrors⟩ := h
  have hposted : s.form.postedCorrelationId = some s.form.correlationId.jsTrim :=
    if_pos ⟨hmode, hcorrelation⟩
  rw [SendComponent.send, herrors, hposted]
  cases s.form.expectReply <;> exact ⟨_, rfl, rfl, rfl⟩

theorem carriesReply_iff : CarriesReply s ↔ RepliesPlainly s := by
  refine forall_congr' fun hready ↦ ?_
  obtain ⟨request, hrequest, hendpoint, hcorrelation⟩ := send_of_readyReply hready
  constructor
  · rintro ⟨request', hrequest', -, hcarried⟩
    obtain rfl : request = request' := Option.mem_unique hrequest hrequest'
    rw [hcorrelation] at hcarried
    cases hexpect : s.form.expectReply with
    | false => rfl
    | true => simp [hexpect] at hcarried
  · intro hexpect
    refine ⟨request, hrequest, hendpoint, ?_⟩
    rw [hcorrelation, hexpect]
    rfl

/-- **Replies carry their correlation id exactly as long as none of them expects a reply.** -/
theorem along_carriesReply_iff (history : SendHistoryService) (as : List Label) :
    Along step CarriesReply (State.initial history) as ↔
      Along step RepliesPlainly (State.initial history) as :=
  forall_congr' fun _ ↦ forall_congr' fun _ ↦ forall_congr' fun _ ↦ forall_congr' fun _ ↦
    carriesReply_iff

/-- The tester answers a message with a correlation id and asks for a reply in turn: the request
goes out without the correlation id. -/
theorem not_along_carriesReply : ∃ t, run step (State.initial ⟨[], []⟩)
      [.request ⟨Utf16.ofString "amq.gen-1", some (Utf16.ofString "c-1")⟩, .draftEffect true,
        .edit (.payload (Utf16.ofString "1")), .edit (.expectReply true)] = some t ∧
    t.ReadyReply ∧ t.form.send.map SendRequest.correlationId = some none ∧
    ¬Along step CarriesReply (State.initial ⟨[], []⟩)
      [.request ⟨Utf16.ofString "amq.gen-1", some (Utf16.ofString "c-1")⟩, .draftEffect true,
        .edit (.payload (Utf16.ofString "1")), .edit (.expectReply true)] := by
  refine ⟨_, rfl, by decide, by decide, fun h ↦ ?_⟩
  have hlast := carriesReply_iff.mp (h.last rfl) (by decide)
  exact absurd hlast (by decide)

/-! ## Decisions on drafts -/

/-- What `applyReplyDraft` decides on a draft that it does not skip. -/
inductive Decision where
  | applied (target : ReplyTarget)
  | declined (target : ReplyTarget)
deriving DecidableEq

def Decision.target : Decision → ReplyTarget
  | applied target => target
  | declined target => target

/-- What the decision makes of the form. -/
def Decision.Outcome (before after : SendComponent) : Decision → Prop
  | applied target => after.replyMode = true ∧
      after.content = ⟨[], target.routingKey, [], target.correlationId.getD []⟩
  | declined _ => after = { before with lastAppliedDraftSeq := after.lastAppliedDraftSeq }

/-- The decision of the draft effect, when it runs now. -/
def State.decision (s : State) (confirmed : Bool) : Option Decision :=
  match s.replyDraft.draft with
  | none => none
  | some draft =>
    if draft.seq = s.form.lastAppliedDraftSeq then none
    else if s.form.isDirty && !confirmed then some (.declined draft.target)
    else some (.applied draft.target)

/-- A call of the draft service, after which the draft effect runs, or a step of the panel that
leaves the drafts alone. -/
inductive Turn where
  | request (target : ReplyTarget) (confirmed : Bool)
  | clear (confirmed : Bool)
  | other (a : Label)
deriving DecidableEq

/-- The step is one of the draft service or of its effect. -/
def Label.aboutDrafts : Label → Bool
  | .request _ | .clear | .draftEffect _ => true
  | _ => false

def turn (s : State) : Turn → Option State
  | .request target confirmed => run step s [.request target, .draftEffect confirmed]
  | .clear confirmed => run step s [.clear, .draftEffect confirmed]
  | .other a => if a.aboutDrafts then none else step s a

/-- The decisions made in a turn. -/
def decisions (s : State) : Turn → List Decision
  | .request target confirmed =>
    ({ s with replyDraft := s.replyDraft.request target }.decision confirmed).toList
  | .clear confirmed => ({ s with replyDraft := s.replyDraft.clear }.decision confirmed).toList
  | .other _ => []

/-- A request leads to one decision, on its own target and with the outcome it says; nothing else
leads to any. -/
def HandledOnce (s : State) : Turn → Prop
  | .request target confirmed => ∃ decision, decisions s (.request target confirmed) = [decision] ∧
      decision.target = target ∧
      ∃ t ∈ turn s (.request target confirmed), decision.Outcome s.form t.form
  | a => decisions s a = []

/-- A request without a draft does not find the number 1 as the last one seen. -/
def FreshNumber (s : State) : Turn → Prop
  | .request _ _ => s.replyDraft.draft = none → s.form.lastAppliedDraftSeq ≠ 1
  | _ => True

instance (s : State) : DecidablePred (FreshNumber s)
  | .request _ _ => inferInstanceAs (Decidable (_ → _))
  | .clear _ | .other _ => isTrue trivial

variable {a : Turn} {turns : List Turn}

/-- The panel has seen the number of the draft that is there. -/
def Seen (s : State) : Prop :=
  ∀ draft ∈ s.replyDraft.draft, draft.seq = s.form.lastAppliedDraftSeq

theorem drafts_of_step {a : Label} (ha : a.aboutDrafts = false) (hstep : step s a = some t) :
    t.replyDraft = s.replyDraft ∧ t.form.lastAppliedDraftSeq = s.form.lastAppliedDraftSeq := by
  cases moves_of_step hstep with
  | edits e =>
    refine ⟨rfl, ?_⟩
    cases e <;> rfl
  | sent k sentAt stored request hrequest hendpoint => cases stored <;> exact ⟨rfl, rfl⟩
  | requests | clears | idles | applies | declines => cases ha
  | posts | sentWithReply | fails | recalls | loads | saves | deletes => exact ⟨rfl, rfl⟩

theorem seen_of_draftEffect {confirmed : Bool} (hstep : step s (.draftEffect confirmed) = some t) :
    Seen t := by
  cases moves_of_step hstep with
  | idles _ hnone => simp [Seen, hnone]
  | applies _ draft hdraft happlied =>
    intro draft' hdraft'
    obtain rfl : draft = draft' := Option.mem_unique hdraft hdraft'
    change draft.seq = (applyReplyDraft _ _ _ _).lastAppliedDraftSeq
    rw [applyReplyDraft_of_applied happlied.1 happlied.2]
    rfl
  | declines _ draft hdraft hnot =>
    intro draft' hdraft'
    obtain rfl : draft = draft' := Option.mem_unique hdraft hdraft'
    change draft.seq = (applyReplyDraft _ _ _ _).lastAppliedDraftSeq
    rw [applyReplyDraft_of_not_applied hnot]

theorem outcome_of_draftEffect {confirmed : Bool} {decision : Decision}
    (hstep : step s (.draftEffect confirmed) = some t)
    (hdecision : s.decision confirmed = some decision) : decision.Outcome s.form t.form := by
  unfold State.decision at hdecision
  cases moves_of_step hstep with
  | idles _ hnone => simp [hnone] at hdecision
  | applies _ draft hdraft happlied =>
    simp only [hdraft, if_neg happlied.1, happlied.2, Bool.false_eq_true, if_false,
      Option.some.injEq] at hdecision
    subst hdecision
    change Decision.Outcome s.form (applyReplyDraft _ _ _ _) _
    rw [applyReplyDraft_of_applied happlied.1 happlied.2]
    exact ⟨rfl, rfl⟩
  | declines _ draft hdraft hnot =>
    by_cases hseq : draft.seq = s.form.lastAppliedDraftSeq
    · simp [hdraft, hseq] at hdecision
    · have hasked : (s.form.isDirty && !confirmed) = true := by simpa [hseq] using hnot
      simp only [hdraft, if_neg hseq, hasked, if_true, Option.some.injEq] at hdecision
      subst hdecision
      change Decision.Outcome s.form (applyReplyDraft _ _ _ _) _
      rw [applyReplyDraft_of_not_applied hnot]
      rfl

theorem exists_draftEffect (s : State) (confirmed : Bool) :
    ∃ t, step s (.draftEffect confirmed) = some t := by
  rw [← Option.isSome_iff_exists]
  cases hdraft : s.replyDraft.draft with
  | none => simp [step, hdraft]
  | some draft =>
    simp only [step, hdraft]
    split_ifs <;> rfl

theorem decision_eq_none_iff (confirmed : Bool) {draft : ReplyDraft}
    (hdraft : s.replyDraft.draft = some draft) :
    s.decision confirmed = none ↔ draft.seq = s.form.lastAppliedDraftSeq := by
  simp only [State.decision, hdraft]
  split_ifs with hseq <;> simp [hseq]

theorem target_of_decision {confirmed : Bool} {draft : ReplyDraft} {decision : Decision}
    (hdraft : s.replyDraft.draft = some draft) (hdecision : s.decision confirmed = some decision) :
    decision.target = draft.target := by
  simp only [State.decision, hdraft] at hdecision
  split_ifs at hdecision <;> cases hdecision <;> rfl

/-! ## Turns -/

theorem seen_turn (hs : Seen s) (hturn : turn s a = some t) : Seen t := by
  cases a with
  | request target confirmed =>
    obtain ⟨u, -, hlast⟩ := run_concat.mp (show run step s ([_] ++ [_]) = some t from hturn)
    exact seen_of_draftEffect hlast
  | clear confirmed =>
    obtain ⟨u, -, hlast⟩ := run_concat.mp (show run step s ([_] ++ [_]) = some t from hturn)
    exact seen_of_draftEffect hlast
  | other a =>
    obtain ⟨ha, hstep⟩ := Option.ite_none_left_eq_some.mp hturn
    obtain ⟨hdraft, hseq⟩ := drafts_of_step (Bool.eq_false_iff.mpr ha) hstep
    intro draft hmem
    rw [hseq]
    exact hs draft (hdraft ▸ hmem)

/-- **When a request is skipped**: the number it gets was seen last. -/
theorem handledOnce_request_iff {target : ReplyTarget} {confirmed : Bool} :
    HandledOnce s (.request target confirmed) ↔
      (s.replyDraft.draft.map ReplyDraft.seq).getD 0 + 1 ≠ s.form.lastAppliedDraftSeq := by
  let u : State := { s with replyDraft := s.replyDraft.request target }
  have hdraft : u.replyDraft.draft
      = some ⟨target, (s.replyDraft.draft.map ReplyDraft.seq).getD 0 + 1⟩ := rfl
  have hskip : u.decision confirmed = none ↔
      (s.replyDraft.draft.map ReplyDraft.seq).getD 0 + 1 = s.form.lastAppliedDraftSeq :=
    decision_eq_none_iff confirmed hdraft
  constructor
  · rintro ⟨decision, hdecisions, -⟩ hseq
    change (u.decision confirmed).toList = [decision] at hdecisions
    rw [hskip.mpr hseq] at hdecisions
    cases hdecisions
  · intro hseq
    obtain ⟨decision, hdecision⟩ := Option.ne_none_iff_exists'.mp fun h ↦ hseq (hskip.mp h)
    obtain ⟨t, hstep⟩ := exists_draftEffect u confirmed
    have hturn : turn s (.request target confirmed) = some t := by
      change (step u (.draftEffect confirmed)).bind _ = _
      rw [hstep]
      rfl
    refine ⟨decision, ?_, target_of_decision hdraft hdecision, t, hturn,
      outcome_of_draftEffect (s := u) hstep hdecision⟩
    change (u.decision confirmed).toList = [decision]
    rw [hdecision]
    rfl

/-- While the panel has seen every draft, a request is skipped only when it is the first after a
`clear` and number 1 was seen last. -/
theorem handledOnce_iff_of_seen (hs : Seen s) : HandledOnce s a ↔ FreshNumber s a := by
  cases a with
  | request target confirmed =>
    rw [handledOnce_request_iff]
    cases hdraft : s.replyDraft.draft with
    | none => simp [FreshNumber, hdraft, eq_comm]
    | some draft =>
      have hseq : draft.seq = s.form.lastAppliedDraftSeq := hs draft hdraft
      simp [FreshNumber, hdraft, hseq]
  | clear confirmed => exact iff_of_true rfl trivial
  | other a => exact iff_of_true rfl trivial

/-- **Every request is handled once exactly in the runs** in which no request comes without a
draft while number 1 is the last one seen. -/
theorem guarded_handledOnce_iff (history : SendHistoryService) (turns : List Turn) :
    Guarded turn HandledOnce (State.initial history) turns ↔
      Guarded turn FreshNumber (State.initial history) turns := by
  have hinit : Seen (State.initial history) := fun _ hdraft ↦ by cases hdraft
  constructor
  · exact Guarded.of_invariant hinit (fun _ _ _ hs _ hturn ↦ seen_turn hs hturn)
      fun _ _ hs ↦ (handledOnce_iff_of_seen hs).mp
  · exact Guarded.of_invariant hinit (fun _ _ _ hs _ hturn ↦ seen_turn hs hturn)
      fun _ _ hs ↦ (handledOnce_iff_of_seen hs).mpr

/-- A message is answered, the draft is cleared, and the message is answered again: the second
request gets number 1 once more and is skipped. -/
theorem not_guarded_handledOnce :
    ¬Guarded turn HandledOnce (State.initial ⟨[], []⟩)
      [.request ⟨Utf16.ofString "amq.gen-1", none⟩ true, .clear true,
        .request ⟨Utf16.ofString "amq.gen-2", none⟩ true] := by
  intro h
  have hthird := ((h.2 _ rfl).2 _ rfl).1
  rw [handledOnce_request_iff] at hthird
  exact absurd hthird (by decide)

/-- Without a `clear` in between, a second request for the same target is handled again. -/
example : Guarded turn FreshNumber (State.initial ⟨[], []⟩)
    [.request ⟨Utf16.ofString "amq.gen-1", none⟩ true,
      .request ⟨Utf16.ofString "amq.gen-1", none⟩ true] := by decide

end SendPanel

end BusTester
