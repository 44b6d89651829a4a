import BusTester.Client.Invocations
import BusTester.Client.MessageStore
import BusTester.Live.Reconnect

/-!
# Pushes that arrive late

`finishUnsubscribe` clears the messages of its subscription once, when the leave has only been
invoked and pushes may be on their way. The handler of `MessageReceived` stores whatever arrives,
and of what arrives for a subscription that has ended nothing is ever cleared: no view shows it, and
no DELETE will come for it.

`forGood_iff` says that this is the only way for such a message to be in the store. What a push is
for was joined, and what was joined was listed, so it is still shown or it was finished.
-/

namespace BusTester

namespace Live

open Page (Invocation Request Response)
open Transition

variable {s t : State} {a : Label} {as : List Label} {h : Guid} {ids : List Guid}

/-! ## The property and the condition -/

/-- The subscription for which the step runs `finishUnsubscribe` or `finishUnsubscribeReply`. -/
def finishedId (s : State) : Label → Option Guid
  | .respond n _ => ((s.page.requests n).bind Request.leaves).map Prod.snd
  | _ => none

/-- The subscriptions that were finished in the course of a run. -/
def finishedIds (as : List Label) : List Guid := observed step finishedId .initial as

/-- No message of a subscription that was finished is in `messages`, in any later state of the
run. -/
def ForGood (as : List Label) : Prop :=
  ∀ pre s, pre <+: as → run step .initial pre = some s →
    ∀ m ∈ s.page.hub.messages, m.subscriptionId ∉ finishedIds pre

/-- A push that arrives is for an entry that is shown. -/
def PushesShown (s : State) : Label → Prop
  | .push => ∀ message ∈ s.wire.head?, message.subscriptionId ∈ s.page.shown
  | _ => True

instance (s : State) : DecidablePred (PushesShown s)
  | .push => inferInstanceAs (Decidable (∀ message ∈ s.wire.head?, _))
  | .page _ | .serve .. | .respond .. | .execute _ | .complete | .deliver .. => isTrue trivial

theorem finishedIds_concat (hrun : run step .initial as = some s) :
    finishedIds (as ++ [a]) = finishedIds as ++ (finishedId s a).toList :=
  observed_concat hrun

theorem finishedId_eq_some : finishedId s a = some h ↔
    ∃ n response request flow, a = .respond n response ∧ s.page.requests n = some request ∧
      request.leaves = some (flow, h) := by
  constructor
  · intro hfinished
    cases a with
    | respond n response =>
      obtain ⟨⟨flow, id⟩, hleaves, rfl⟩ := Option.map_eq_some_iff.mp hfinished
      obtain ⟨request, hrequest, hleaves⟩ := Option.bind_eq_some_iff.mp hleaves
      exact ⟨n, response, request, flow, rfl, hrequest, hleaves⟩
    | _ => cases hfinished
  · rintro ⟨n, response, request, flow, rfl, hrequest, hleaves⟩
    simp [finishedId, hrequest, hleaves]

/-! ## Entries that are finished -/

/-- An entry that disappears is finished by the step. -/
theorem shown_or_finished (hstep : step s a = some t) (hh : h ∈ s.page.shown) :
    h ∈ t.page.shown ∨ finishedId s a = some h := by
  rcases page_of_step hstep with hpage | ⟨b, hpage, hb⟩
  · exact Or.inl (hpage ▸ hh)
  · refine (Page.shown_or_finishes hpage hh).imp_right ?_
    rintro ⟨flow, n, response, request, rfl, hrequest, hleaves⟩
    exact finishedId_eq_some.mpr ⟨n, response, request, flow, hb n response rfl, hrequest, hleaves⟩

theorem Known.of_finished (hs : Known s) (hstep : step s a = some t)
    (hfinished : finishedId s a = some h) : Returned t h ∧ h ∉ t.page.shown := by
  have ht := known_step hs hstep
  obtain ⟨n, response, request, flow, rfl, hrequest, hleaves⟩ := finishedId_eq_some.mp hfinished
  have hissued := hs.leaving hrequest hleaves
  have hreturned : Returned s h :=
    ⟨by rw [hissued]; exact Option.some_ne_none flow, fun m response' flow' hm hhandle ↦
      (hs.answered hm hhandle).2.2.1 n request flow hrequest hleaves⟩
  refine ⟨hreturned.step hstep, fun hh ↦ ?_⟩
  obtain ⟨page, hpage, -, rfl⟩ := respond_spec hstep
  obtain ⟨flow', hlisted⟩ := Page.mem_shown.mp hh
  obtain rfl : flow' = flow := Option.some.inj ((ht.listed hlisted).symm.trans hissued)
  exact (Page.effect_of_step hpage).finished ⟨n, response, request, rfl, hrequest, hleaves⟩ hlisted

/-- What was returned and is not shown will not be shown again. -/
theorem Known.not_shown_of_returned (hs : Known s) (hreturned : Returned s h)
    (hh : h ∉ s.page.shown) (hstep : step s a = some t) : h ∉ t.page.shown := by
  intro hshown
  obtain ⟨flow, hlisted⟩ := Page.mem_shown.mp hshown
  rcases page_of_step hstep with hpage | ⟨b, hpage, hb⟩
  · exact hh (hpage ▸ hshown)
  · rcases (Page.effect_of_step hpage).listed hlisted with hold | ⟨n, response, heq, hhandle⟩
    · exact hh (Page.mem_shown.mpr ⟨flow, hold⟩)
    · obtain rfl := hb n response heq
      exact (returned_of_lists hs hstep hhandle).2 hreturned

/-! ## Where a push comes from -/

theorem joins_of_step (hstep : step s a = some t) (hh : t.page.Joins h) :
    s.page.Joins h ∨ h ∈ t.page.shown := by
  rcases page_of_step hstep with hpage | ⟨b, hpage, -⟩
  · exact Or.inl (hpage ▸ hh)
  · rcases (Page.effect_of_step hpage).joins hh with hold | ⟨flow, hlists⟩
    · exact Or.inl hold
    · exact Or.inr (Page.mem_shown.mpr ⟨flow, Page.listed_of_lists hpage hlists⟩)

/-- A group is entered by a join that was invoked. -/
theorem groups_of_step (hstep : step s a = some t) (hh : h ∈ t.groups) :
    h ∈ s.groups ∨ s.page.Joins h := by
  cases a with
  | page b =>
    obtain ⟨page, -, ⟨rfl, -⟩ | ⟨rfl, -⟩, -⟩ := stepPage_spec hstep
    · exact Or.inl hh
    · exact absurd hh (Finset.notMem_empty h)
  | serve n response =>
    obtain ⟨flow, id, -, -, rfl⟩ | ⟨request, flow, id, -, -, -, rfl⟩ := serve_spec hstep
    · exact Or.inl hh
    · exact Or.inl hh
  | respond n response =>
    obtain ⟨page, -, -, rfl⟩ := respond_spec hstep
    exact Or.inl hh
  | execute ok =>
    obtain ⟨invocation, hinvocation, rfl⟩ := execute_spec hstep
    change h ∈ (if ok then invocation.apply s.groups else s.groups) at hh
    split at hh
    · cases invocation with
      | joinSubscription join =>
        rcases Finset.mem_insert.mp hh with rfl | hh
        · exact Or.inr (Or.inr ⟨join, List.mem_of_getElem? hinvocation, rfl⟩)
        · exact Or.inl hh
      | leaveSubscription id => exact Or.inl (Finset.mem_of_mem_erase hh)
    · exact Or.inl hh
  | complete =>
    obtain ⟨ok, rest, invocation, invocations, page, -, -, -, rfl⟩ := complete_spec hstep
    exact Or.inl hh
  | deliver id message =>
    cases hstep
    exact Or.inl hh
  | push =>
    obtain ⟨message, rest, -, rfl⟩ := push_spec hstep
    exact Or.inl hh

theorem wire_of_step (hstep : step s a = some t) {m : MessageReceivedDto} (hm : m ∈ t.wire) :
    m ∈ s.wire ∨ m.subscriptionId ∈ s.groups := by
  cases a with
  | page b =>
    obtain ⟨page, -, ⟨rfl, -⟩ | ⟨rfl, -⟩, -⟩ := stepPage_spec hstep
    · exact Or.inl hm
    · exact absurd hm List.not_mem_nil
  | serve n response =>
    obtain ⟨flow, id, -, -, rfl⟩ | ⟨request, flow, id, -, -, -, rfl⟩ := serve_spec hstep
    · exact Or.inl hm
    · exact Or.inl hm
  | respond n response =>
    obtain ⟨page, -, -, rfl⟩ := respond_spec hstep
    exact Or.inl hm
  | execute ok =>
    obtain ⟨invocation, -, rfl⟩ := execute_spec hstep
    exact Or.inl hm
  | complete =>
    obtain ⟨ok, rest, invocation, invocations, page, -, -, -, rfl⟩ := complete_spec hstep
    exact Or.inl hm
  | deliver id message =>
    cases hstep
    refine (List.mem_append.mp hm).imp_right fun hm ↦ ?_
    unfold State.broadcast at hm
    split at hm
    · rename_i hgroup
      obtain ⟨accepted, -, rfl⟩ := List.mem_map.mp hm
      exact hgroup
    · exact absurd hm List.not_mem_nil
  | push =>
    obtain ⟨message, rest, hwire, rfl⟩ := push_spec hstep
    exact Or.inl (hwire ▸ List.mem_cons_of_mem message hm)

/-- What is joined and what is pushed is shown or was finished, and what was finished is gone from
the lists. -/
structure Heard (ids : List Guid) (s : State) : Prop where
  known : Known s
  finished : ∀ h ∈ ids, Returned s h ∧ h ∉ s.page.shown
  joins : ∀ h, s.page.Joins h → h ∈ s.page.shown ∨ h ∈ ids
  groups : ∀ h ∈ s.groups, h ∈ s.page.shown ∨ h ∈ ids
  wire : ∀ m ∈ s.wire, m.subscriptionId ∈ s.page.shown ∨ m.subscriptionId ∈ ids

theorem heard_initial : Heard [] State.initial where
  known := known_initial
  finished _ hh := absurd hh List.not_mem_nil
  joins := by rintro h (⟨join, hjoin, -⟩ | ⟨join, hjoin, -⟩) <;> cases hjoin
  groups _ hh := absurd hh (Finset.notMem_empty _)
  wire _ hm := absurd hm List.not_mem_nil

theorem Heard.step (hs : Heard ids s) (hstep : step s a = some t) :
    Heard (ids ++ (finishedId s a).toList) t := by
  have hkeeps : ∀ h, h ∈ s.page.shown ∨ h ∈ ids →
      h ∈ t.page.shown ∨ h ∈ ids ++ (finishedId s a).toList := by
    rintro h (hh | hh)
    · refine (shown_or_finished hstep hh).imp_right fun hfinished ↦ ?_
      exact List.mem_append_right _ (Option.mem_toList.mpr hfinished)
    · exact Or.inr (List.mem_append_left _ hh)
  refine ⟨known_step hs.known hstep, fun h hh ↦ ?_, fun h hh ↦ ?_, fun h hh ↦ ?_, fun m hm ↦ ?_⟩
  · rcases List.mem_append.mp hh with hh | hh
    · obtain ⟨hreturned, hgone⟩ := hs.finished h hh
      exact ⟨hreturned.step hstep, hs.known.not_shown_of_returned hreturned hgone hstep⟩
    · exact hs.known.of_finished hstep (Option.mem_toList.mp hh)
  · rcases joins_of_step hstep hh with hh | hh
    · exact hkeeps h (hs.joins h hh)
    · exact Or.inl hh
  · exact hkeeps h ((groups_of_step hstep hh).elim (hs.groups h) (hs.joins h))
  · exact hkeeps _ ((wire_of_step hstep hm).elim (hs.wire m) (hs.groups _))

theorem heard_of_run (hrun : run step .initial as = some s) : Heard (finishedIds as) s := by
  refine run_induction (motive := fun as s ↦ Heard (finishedIds as) s) heard_initial
    (fun as s a t hprefix hs hstep ↦ ?_) hrun
  rw [finishedIds_concat hprefix]
  exact hs.step hstep

/-! ## What is stored -/

theorem messages_of_page {b : Page.Label} {p q : Page.State} {m : ReceivedMessage}
    (hstep : Page.step p b = some q) (hb : ∀ message, b ≠ .messageReceived message)
    (hm : m ∈ q.hub.messages) : m ∈ p.hub.messages ∧ ∀ n response request flow,
      b = .respond n response → p.requests n = some request →
        request.leaves ≠ some (flow, m.subscriptionId) := by
  cases Page.stores_of_step hstep with
  | receives message ha => exact absurd ha (hb message)
  | clears n response flow id ha hrequest hhub =>
    rw [hhub] at hm
    obtain ⟨hold, hne⟩ := List.mem_filter.mp hm
    refine ⟨hold, fun n' response' request flow' heq hrequest' hleaves ↦ ?_⟩
    cases ha.symm.trans heq
    cases hrequest.symm.trans hrequest'
    cases hleaves
    exact of_decide_eq_true hne rfl
  | subscribes n id queueName ha hrequest hhub =>
    refine ⟨hhub ▸ hm, fun n' response' request flow' heq hrequest' hleaves ↦ ?_⟩
    cases ha.symm.trans heq
    cases hrequest.symm.trans hrequest'
    cases hleaves
  | sends n body id correlationId ha hrequest hhub =>
    refine ⟨hhub ▸ hm, fun n' response' request flow' heq hrequest' hleaves ↦ ?_⟩
    cases ha.symm.trans heq
    cases hrequest.symm.trans hrequest'
    cases hleaves
  | rests hsets hevent hmessages =>
    refine ⟨hmessages ▸ hm, fun n' response' request flow' heq hrequest' hleaves ↦ ?_⟩
    subst heq
    cases request with
    | unsubscribe flow'' id =>
      simp only [Page.storeEvent, hrequest'] at hevent
      cases hevent
    | subscribe | sendWithReply => cases hleaves

theorem messages_of_step {m : ReceivedMessage} (hstep : step s a = some t)
    (hm : m ∈ t.page.hub.messages) :
    (m ∈ s.page.hub.messages ∧ finishedId s a ≠ some m.subscriptionId) ∨
      (a = .push ∧ s.wire.head? = some m.toMessageReceivedDto) := by
  cases a with
  | page b =>
    obtain ⟨page, hpage, ht, -, -, hb, -⟩ := stepPage_spec hstep
    have hsame : t.page = page := by
      rcases ht with ⟨rfl, -⟩ | ⟨rfl, -⟩ <;> rfl
    rw [hsame] at hm
    exact Or.inl ⟨(messages_of_page hpage hb hm).1, nofun⟩
  | serve n response =>
    obtain ⟨flow, id, -, -, rfl⟩ | ⟨request, flow, id, -, -, -, rfl⟩ := serve_spec hstep
    · exact Or.inl ⟨hm, nofun⟩
    · exact Or.inl ⟨hm, nofun⟩
  | respond n response =>
    obtain ⟨page, hpage, -, rfl⟩ := respond_spec hstep
    obtain ⟨hold, hother⟩ := messages_of_page hpage nofun hm
    refine Or.inl ⟨hold, fun hfinished ↦ ?_⟩
    obtain ⟨n', response', request, flow, heq, hrequest, hleaves⟩ :=
      finishedId_eq_some.mp hfinished
    cases heq
    exact hother n response request flow rfl hrequest hleaves
  | execute ok =>
    obtain ⟨invocation, -, rfl⟩ := execute_spec hstep
    exact Or.inl ⟨hm, nofun⟩
  | complete =>
    obtain ⟨ok, rest, invocation, invocations, page, -, -, hpage, rfl⟩ := complete_spec hstep
    exact Or.inl ⟨(messages_of_page hpage nofun hm).1, nofun⟩
  | deliver id message =>
    cases hstep
    exact Or.inl ⟨hm, nofun⟩
  | push =>
    obtain ⟨message, rest, hwire, rfl⟩ := push_spec hstep
    rcases List.mem_cons.mp hm with rfl | hm
    · exact Or.inr ⟨rfl, by rw [hwire]; rfl⟩
    · exact Or.inl ⟨hm, nofun⟩

/-! ## The result -/

theorem forGood_concat (hrun : run step .initial as = some s) (hstep : step s a = some t) :
    ForGood (as ++ [a]) ↔ ForGood as ∧
      ∀ m ∈ t.page.hub.messages, m.subscriptionId ∉ finishedIds (as ++ [a]) := by
  have hlast : run step .initial (as ++ [a]) = some t := run_concat.mpr ⟨s, hrun, hstep⟩
  constructor
  · intro h
    exact ⟨fun pre u hpre ↦ h pre u (hpre.trans (List.prefix_append as [a])),
      h _ t (List.prefix_refl _) hlast⟩
  · rintro ⟨hold, hnew⟩ pre u hpre hu
    rcases List.prefix_concat_iff.mp hpre with rfl | hpre
    · obtain rfl : u = t := Option.some.inj (hu.symm.trans hlast)
      exact hnew
    · exact hold pre u hpre hu

/-- **Messages of a subscription that was finished stay away for good exactly if no push for it
arrives any more.** -/
theorem forGood_iff (hrun : run step .initial as = some t) :
    ForGood as ↔ Guarded step PushesShown .initial as := by
  refine run_induction (motive := fun as _ ↦ ForGood as ↔ Guarded step PushesShown .initial as)
    ?_ (fun as s a t hprefix ih hstep ↦ ?_) hrun
  · refine iff_of_true (fun pre s hpre hs ↦ ?_) trivial
    obtain rfl := List.prefix_nil.mp hpre
    cases hs
    exact fun m hm ↦ absurd hm List.not_mem_nil
  · have hheard := heard_of_run hprefix
    rw [forGood_concat hprefix hstep, guarded_concat hprefix, ih, finishedIds_concat hprefix]
    refine and_congr_right fun hguarded ↦ ?_
    have hclean := ih.mpr hguarded as s (List.prefix_refl as) hprefix
    constructor
    · intro hlast
      cases a with
      | push =>
        intro message hmessage
        obtain ⟨message', rest, hwire, rfl⟩ := push_spec hstep
        obtain rfl : message' = message := by
          rw [hwire] at hmessage
          exact Option.some.inj hmessage
        have harrived := hheard.wire message' (hwire ▸ List.mem_cons_self)
        exact harrived.resolve_right fun hfinished ↦
          hlast _ List.mem_cons_self (List.mem_append_left _ hfinished)
      | _ => trivial
    · intro hpushes m hm hfinished
      rcases messages_of_step hstep hm with ⟨hold, hother⟩ | ⟨rfl, hhead⟩
      · rcases List.mem_append.mp hfinished with hfinished | hfinished
        · exact hclean m hold hfinished
        · exact hother (Option.mem_toList.mp hfinished)
      · rcases List.mem_append.mp hfinished with hfinished | hfinished
        · exact (hheard.finished _ hfinished).2 (hpushes _ hhead)
        · exact absurd hfinished List.not_mem_nil

/-! ## A push before and after the response to the DELETE -/

/-- An order. -/
private def order : BusMessage where
  target := Utf16.ofString "orders"
  routingKey := none
  payload := Utf16.ofString "42"
  replyTo := none
  correlationId := none
  headers := .empty
  target_valid := by decide
  payload_valid := by decide

/-- A subscription is joined, and a push for it is on its way. -/
private def underway : List Label :=
  [.page (.editQueueName (Utf16.ofString "orders")), .page .subscribeToQueue, .page (.started true),
    .serve 0 (.subscribed ⟨7⟩), .respond 0 (.subscribed ⟨7⟩), .page .startSettled, .execute true,
    .complete, .deliver ⟨7⟩ order]

/-- It arrives before the subscription is ended. -/
private def arrivesInTime : List Label :=
  underway ++ [.push, .page (.unsubscribe .subscribe ⟨7⟩), .serve 1 .unsubscribed,
    .respond 1 .unsubscribed, .execute true, .complete]

/-- It arrives when the DELETE has been answered. -/
private def arrivesLate : List Label :=
  underway ++ [.page (.unsubscribe .subscribe ⟨7⟩), .serve 1 .unsubscribed,
    .respond 1 .unsubscribed, .push, .execute true, .complete]

theorem forGood_of_arrivesInTime :
    ∃ t, run step .initial arrivesInTime = some t ∧ ForGood arrivesInTime :=
  ⟨_, rfl, (forGood_iff rfl).mpr (by decide)⟩

/-- In the end nothing is shown and nothing is on its way, but the message is there. -/
theorem not_forGood_of_arrivesLate : ∃ t, run step .initial arrivesLate = some t ∧
    t.page.shown = [] ∧ t.groups = ∅ ∧ t.wire = [] ∧ t.page.invocations = [] ∧
      t.page.hub.received ⟨7⟩ = [.fromDomain ⟨7⟩ order] ∧ ¬ForGood arrivesLate := by
  refine ⟨_, rfl, rfl, rfl, rfl, rfl, rfl, fun h ↦ ?_⟩
  exact h arrivesLate _ (List.prefix_refl _) rfl _ List.mem_cons_self (by decide)

end Live

end BusTester
