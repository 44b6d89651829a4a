import BusTester.Client.PageEffects
import BusTester.Collections.ReceiptLog

/-!
# The message store of the client

The third summary of a step of the page, `stores_of_step`, is about what the views of the messages
panel are computed from: the messages of the hub service and the two lists of entries. A push is
stored, the answer to a DELETE clears one subscription and removes its entry, a response may list an
entry, and nothing else touches any of the three.

The store is therefore the log of receipts without what was cleared (`Holds.step`).
-/

namespace BusTester

namespace Page

open ReceiptLog (Event held received)
open Transition

variable {s t : State} {a : Label} {as : List Label}

/-! ## What a step stores -/

/-- The step sets `messages` or `subscriptions`, the signals that the feed depends on. -/
def setsFeed (s : State) : Label → Bool
  | .messageReceived _ => true
  | .respond n response =>
    match s.requests n, response with
    | some (.subscribe _), .subscribed _ => true
    | some (.unsubscribe _ _), _ => true
    | _, _ => false
  | _ => false

/-- The step as an event of the store. -/
def storeEvent (s : State) : Label → Option (Event MessageReceivedDto Guid)
  | .messageReceived message => some (.receive message)
  | .respond n _ =>
    match s.requests n with
    | some (.unsubscribe _ id) => some (.clear id)
    | _ => none
  | _ => none

/-- The subscription that the step returns to the page. -/
def Label.returnedId : Label → Option Guid
  | .respond _ response => response.handle.map Prod.snd
  | _ => none

/-- What a step does to the messages and to the entries. -/
inductive Stores (s : State) (a : Label) (t : State) : Prop where
  | receives (message : MessageReceivedDto) (ha : a = .messageReceived message)
      (hhub : t.hub = s.hub.onMessageReceived message)
      (hchips : t.component.subscriptions = s.component.subscriptions)
      (hpending : t.pending = s.pending)
  | clears (n : ℕ) (response : Response) (flow : Flow) (id : Guid) (ha : a = .respond n response)
      (hrequest : s.requests n = some (.unsubscribe flow id))
      (hhub : t.hub = s.hub.clearSubscription id)
      (hchips : t.component.subscriptions = (s.drop flow id).component.subscriptions)
      (hpending : t.pending = (s.drop flow id).pending)
  | subscribes (n : ℕ) (id : Guid) (queueName : Utf16) (ha : a = .respond n (.subscribed id))
      (hrequest : s.requests n = some (.subscribe queueName)) (hhub : t.hub = s.hub)
      (hchips : t.component.subscriptions = s.component.subscriptions ++ [⟨id, queueName⟩])
      (hpending : t.pending = s.pending)
  | sends (n : ℕ) (body : SendRequest) (id : Guid) (correlationId : Utf16)
      (ha : a = .respond n (.sent id correlationId))
      (hrequest : s.requests n = some (.sendWithReply body)) (hhub : t.hub = s.hub)
      (hchips : t.component.subscriptions = s.component.subscriptions)
      (hpending : t.pending = s.pending ++ [⟨id, correlationId⟩])
  | rests (hsets : setsFeed s a = false) (hevent : storeEvent s a = none)
      (hmessages : t.hub.messages = s.hub.messages) (hnext : t.hub.nextSeq = s.hub.nextSeq)
      (hchips : t.component.subscriptions = s.component.subscriptions)
      (hpending : t.pending = s.pending)

private theorem Stores.of_same (hsets : setsFeed s a = false) (hevent : storeEvent s a = none)
    (hhub : t.hub = s.hub) (hchips : t.component.subscriptions = s.component.subscriptions)
    (hpending : t.pending = s.pending) : Stores s a t :=
  .rests hsets hevent (by rw [hhub]) (by rw [hhub]) hchips hpending

private theorem Stores.of_loses {u : State} (hsets : setsFeed s a = false)
    (hevent : storeEvent s a = none) (hmessages : u.hub.messages = s.hub.messages)
    (hnext : u.hub.nextSeq = s.hub.nextSeq)
    (hchips : u.component.subscriptions = s.component.subscriptions)
    (hpending : u.pending = s.pending) : Stores s a u.rejectAll := by
  have hsame := (sameLists_rejectAll u).1
  exact .rests hsets hevent (by rw [hsame.hub, hmessages]) (by rw [hsame.hub, hnext])
    (hsame.subscriptions.trans hchips) (hsame.pending.trans hpending)

/-- **The step lemma of the store.** -/
theorem stores_of_step (hstep : step s a = some t) : Stores s a t := by
  have hmoves := moves_of_step hstep
  cases hmoves with
  | edits | refuses | unsubscribes | restores => exact .rests rfl rfl rfl rfl rfl rfl
  | subscribes | sends =>
    exact .rests rfl rfl BusHubService.messages_start BusHubService.nextSeq_start rfl rfl
  | started ok =>
    exact .rests rfl rfl BusHubService.messages_onStarted BusHubService.nextSeq_onStarted rfl rfl
  | subscribed n queueName id hrequest => exact .subscribes n id queueName rfl hrequest rfl rfl rfl
  | sent n body id correlationId hrequest =>
    exact .sends n body id correlationId rfl hrequest rfl rfl rfl
  | notSubscribed n queueName detail hrequest =>
    exact .rests (by simp only [setsFeed, hrequest]) (by simp only [storeEvent, hrequest]) rfl rfl
      rfl rfl
  | notSent n body detail hrequest =>
    exact .rests (by simp only [setsFeed, hrequest]) (by simp only [storeEvent, hrequest]) rfl rfl
      rfl rfl
  | finishes n flow id response hrequest =>
    have hsame : SameLists (s.answered n) ((s.answered n).invoke (.leaveSubscription id)) :=
      (sameLists_invoke _ _).1
    have hhub : ((s.answered n).invoke (.leaveSubscription id)).hub = s.hub := hsame.hub
    refine .clears n response flow id rfl hrequest ?_ ?_ ?_
    · rw [← hhub]
      cases flow <;> rfl
    · cases flow with
      | subscribe =>
        exact congrArg (List.filter fun c : Subscription ↦ c.id ≠ id) hsame.subscriptions
      | withReply => exact hsame.subscriptions
    · cases flow with
      | subscribe => exact hsame.pending
      | withReply =>
        exact congrArg (List.filter fun p : ReplySubscription ↦ p.subscriptionId ≠ id) hsame.pending
  | joins | skips =>
    obtain ⟨join, rest, -, hsame, -⟩ := startSettled_of_step hstep
    exact .of_same rfl rfl hsame.hub hsame.subscriptions hsame.pending
  | succeeds | fails =>
    obtain ⟨-, -, hsame⟩ := settles_of_step hstep
    exact .of_same rfl rfl hsame.hub hsame.subscriptions hsame.pending
  | receives message => exact .receives message rfl rfl rfl rfl
  | loses | closes => exact .of_loses rfl rfl rfl rfl rfl rfl

theorem lists_of_step (ha : ∀ n response, a ≠ .respond n response) (hstep : step s a = some t) :
    t.component.subscriptions = s.component.subscriptions ∧ t.pending = s.pending := by
  cases stores_of_step hstep with
  | receives message heq hhub hchips hpending => exact ⟨hchips, hpending⟩
  | rests hsets hevent hmessages hnext hchips hpending => exact ⟨hchips, hpending⟩
  | clears n response flow id heq => exact absurd heq (ha n response)
  | subscribes n id queueName heq => exact absurd heq (ha n _)
  | sends n body id correlationId heq => exact absurd heq (ha n _)

theorem shown_or_finishes {h : Guid} (hstep : step s a = some t) (hh : h ∈ s.shown) :
    h ∈ t.shown ∨ ∃ flow, s.Finishes a flow h := by
  cases stores_of_step hstep with
  | receives message ha hhub hchips hpending => exact Or.inl (Page.shown_eq hchips hpending ▸ hh)
  | rests hsets hevent hmessages hnext hchips hpending =>
    exact Or.inl (Page.shown_eq hchips hpending ▸ hh)
  | clears n response flow id ha hrequest hhub hchips hpending =>
    by_cases hid : h = id
    · subst hid
      exact Or.inr ⟨flow, n, response, _, ha, hrequest, rfl⟩
    · exact Or.inl (Page.shown_eq hchips hpending ▸ mem_shown_drop hh hid)
  | subscribes n id queueName ha hrequest hhub hchips hpending =>
    refine Or.inl ?_
    rw [State.shown, State.listed, State.listed, hchips, hpending]
    simp only [List.map_append, List.mem_append]
    exact (List.mem_append.mp hh).imp_left Or.inl
  | sends n body id correlationId ha hrequest hhub hchips hpending =>
    refine Or.inl ?_
    rw [State.shown, State.listed, State.listed, hchips, hpending]
    simp only [List.map_append, List.mem_append]
    exact (List.mem_append.mp hh).imp_right Or.inl

/-! ## The store as a log -/

/-- The messages that a sequence of receipts and clearances leaves. -/
def stored (es : List (Event MessageReceivedDto Guid)) : List ReceivedMessage :=
  (held MessageReceivedDto.subscriptionId es).map fun r ↦ ⟨r.1, r.2⟩

/-- The store holds what the events have left, and the next number is theirs. -/
structure Holds (hub : BusHubService) (es : List (Event MessageReceivedDto Guid)) : Prop where
  messages : hub.messages = stored es
  nextSeq : hub.nextSeq = received es

theorem holds_initial : Holds BusHubService.initial [] := ⟨rfl, rfl⟩

theorem Holds.step {es : List (Event MessageReceivedDto Guid)} (hs : Holds s.hub es)
    (hstores : Stores s a t) : Holds t.hub (es ++ (storeEvent s a).toList) := by
  cases hstores with
  | receives message ha hhub =>
    subst ha
    rw [hhub, storeEvent, Option.toList_some]
    refine ⟨?_, ?_⟩
    · rw [stored, ReceiptLog.held_receive, List.map_cons, ← stored, ← hs.messages, ← hs.nextSeq]
      rfl
    · rw [ReceiptLog.received_append, ← hs.nextSeq]
      rfl
  | clears n response flow id ha hrequest hhub =>
    subst ha
    simp only [storeEvent, hrequest, Option.toList_some]
    rw [hhub]
    refine ⟨?_, ?_⟩
    · rw [stored, ReceiptLog.held_clear, BusHubService.clearSubscription, hs.messages, stored,
        List.filter_map]
      rfl
    · rw [ReceiptLog.received_append, ← hs.nextSeq]
      rfl
  | subscribes n id queueName ha hrequest hhub =>
    subst ha
    simp only [storeEvent, hrequest, Option.toList_none, List.append_nil]
    rwa [hhub]
  | sends n body id correlationId ha hrequest hhub =>
    subst ha
    simp only [storeEvent, hrequest, Option.toList_none, List.append_nil]
    rwa [hhub]
  | rests hsets hevent hmessages hnext =>
    rw [hevent, Option.toList_none, List.append_nil]
    exact ⟨hmessages.trans hs.messages, hnext.trans hs.nextSeq⟩

/-- Rows from the newest to the oldest, each with its own number. -/
def Decreasing (rows : List ReceivedMessage) : Prop := rows.Pairwise fun m m' ↦ m'.seq < m.seq

theorem Holds.decreasing {hub : BusHubService} {es : List (Event MessageReceivedDto Guid)}
    (h : Holds hub es) : Decreasing hub.messages ∧ ∀ m ∈ hub.messages, m.seq < hub.nextSeq := by
  obtain ⟨hpairwise, hlt⟩ := ReceiptLog.pairwise_held MessageReceivedDto.subscriptionId es
  rw [h.messages, h.nextSeq]
  refine ⟨List.pairwise_map.mpr hpairwise, fun m hm ↦ ?_⟩
  obtain ⟨r, hr, rfl⟩ := List.mem_map.mp hm
  exact hlt r hr

end Page

end BusTester
