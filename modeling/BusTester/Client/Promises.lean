import BusTester.Client.Invocations
import BusTester.Reactive.PromiseHeap

/-!
# The promises of the page

The page with the promises that its flows make. All flows share the promise that `start` caches.
Where a POST has succeeded, `then` is called on it and `catch` on what `then` returns; `catch` is
also called on what `leaveSubscription` returns. The handlers do not throw, so what `catch` returns
is fulfilled in the end.

So everything is handled but the start promise itself, on which nothing is called unless a POST
succeeds (`allHandled_iff`).
-/

namespace BusTester

namespace PagePromises

open Page (Label)
open Transition

/-! ## The ledger -/

/-- A promise on which `catch` has been called, and the promise that it returned. -/
structure Chain where
  promise : ℕ
  caught : ℕ
deriving DecidableEq

/-- The promises of the flows. The chains stand in the order of the continuations of the start
promise and of the pending invocations that will settle them. -/
structure Ledger where
  heap : PromiseHeap
  /-- `startPromise` of the hub service. -/
  startPromise : Option ℕ
  awaitingStart : List Chain
  invocations : List Chain

namespace Ledger

def empty : Ledger := ⟨.empty, none, [], []⟩

/-- `start`: the promise is made once. -/
def start (l : Ledger) : Ledger :=
  match l.startPromise with
  | none => { l with heap := l.heap.create, startPromise := some l.heap.next }
  | some _ => l

/-- The next promise that is made, and the one that `catch` returns for it. -/
def nextChain (l : Ledger) : Chain := ⟨l.heap.next, l.heap.next + 1⟩

/-- A promise is made, and `catch` is called on it. -/
def catchNew (l : Ledger) : Ledger :=
  { l with heap := (l.heap.create.attach l.heap.next).create }

/-- The promise settles, and with it the one that `catch` has returned: its handler does not
throw. -/
def settle (l : Ledger) (chain : Chain) (ok : Bool) : Ledger :=
  { l with heap := (l.heap.settle chain.promise ok).settle chain.caught true }

/-- `hubReady.then(() => joinSubscription(...)).catch(...)`. -/
def join (l : Ledger) : Ledger :=
  match l.startPromise with
  | none => l
  | some hubReady =>
    { catchNew { l with heap := l.heap.attach hubReady } with
      awaitingStart := l.awaitingStart ++ [l.nextChain] }

/-- `leaveSubscription(...).catch(...)`; the invocation is rejected at once on a connection that is
not up. -/
def leave (l : Ledger) (connected : Bool) : Ledger :=
  if connected then { l.catchNew with invocations := l.invocations ++ [l.nextChain] }
  else l.catchNew.settle l.nextChain false

/-- The oldest continuation of the start promise runs. -/
def startSettled (l : Ledger) (invokes : Bool) : Ledger :=
  match l.awaitingStart with
  | [] => l
  | chain :: rest =>
    if invokes then { l with awaitingStart := rest, invocations := l.invocations ++ [chain] }
    else settle { l with awaitingStart := rest } chain false

/-- The oldest pending invocation settles. -/
def settled (l : Ledger) (ok : Bool) : Ledger :=
  match l.invocations with
  | [] => l
  | chain :: rest => settle { l with invocations := rest } chain ok

/-- The connection is lost. -/
def rejectAll (l : Ledger) : Ledger :=
  l.invocations.foldl (fun l chain ↦ l.settle chain false) { l with invocations := [] }

/-- What a step of the page does to the promises. -/
def track (l : Ledger) (s : Page.State) : Label → Ledger
  | .subscribeToQueue => if s.component.isDuplicateQueue then l else l.start
  | .sendWithReply _ => l.start
  | .respond n response =>
    match s.requests n, response with
    | some (.subscribe _), .subscribed _ | some (.sendWithReply _), .sent _ _ => l.join
    | some (.unsubscribe _ _), _ => l.leave s.IsConnected
    | _, _ => l
  | .started ok =>
    match l.startPromise with
    | none => l
    | some hubReady => { l with heap := l.heap.settle hubReady ok }
  | .startSettled => l.startSettled (s.hub.startPromise = some .resolved ∧ s.IsConnected)
  | .settled ok => l.settled ok
  | .onreconnecting | .onclose => l.rejectAll
  | .editQueueName _ | .unsubscribe _ _ | .messageReceived _ | .onreconnected => l

end Ledger

structure State where
  page : Page.State
  ledger : Ledger

def State.initial : State := ⟨.initial, .empty⟩

/-- One step of the page, with its promises. -/
def step (s : State) (a : Label) : Option State :=
  (Page.step s.page a).map fun page ↦ ⟨page, s.ledger.track s.page a⟩

/-- The step is the success of a POST: the flow calls `then` on the start promise. -/
def succeeds : Label → Bool
  | .respond _ response => response.handle.isSome
  | _ => false

/-! ## What is always handled -/

/-- The chain is not the start promise, and a handler is attached to it. -/
structure Ledger.Catches (l : Ledger) (chain : Chain) : Prop where
  promise : chain.promise < l.heap.next ∧ l.startPromise ≠ some chain.promise
  caught : chain.caught < l.heap.next ∧ l.startPromise ≠ some chain.caught
  handled : (l.heap.promise chain.promise).handled = true

/-- Everything but the start promise is handled, now and when it settles. -/
structure Ledger.Orderly (l : Ledger) : Prop where
  start : ∀ n, l.startPromise = some n → n < l.heap.next
  awaitingStart : ∀ chain ∈ l.awaitingStart, l.Catches chain
  invocations : ∀ chain ∈ l.invocations, l.Catches chain
  handled : ∀ n, l.startPromise ≠ some n → ¬(l.heap.promise n).Unhandled

/-- The start promise, if it has been made. -/
def Ledger.hubReady (l : Ledger) : Option Promise := l.startPromise.map l.heap.promise

namespace Ledger

variable {l l' : Ledger} {chain other : Chain} {ok : Bool} {n : ℕ}

theorem orderly_empty : Orderly .empty :=
  ⟨nofun, fun _ h ↦ absurd h List.not_mem_nil, fun _ h ↦ absurd h List.not_mem_nil,
    fun _ _ h ↦ by cases h.1⟩

theorem hubReady_eq (h : l.startPromise = some n) : l.hubReady = some (l.heap.promise n) := by
  rw [hubReady, h, Option.map_some]

theorem hubReady_of_none (h : l.startPromise = none) : l.hubReady = none := by
  rw [hubReady, h, Option.map_none]

/-- **The start promise decides.** -/
theorem Orderly.allHandled_iff_hubReady (hl : l.Orderly) :
    l.heap.AllHandled ↔ ∀ promise ∈ l.hubReady, ¬promise.Unhandled := by
  constructor
  · intro hall promise hpromise
    obtain ⟨n, -, rfl⟩ := Option.map_eq_some_iff.mp hpromise
    exact hall n
  · intro hstart n
    by_cases hn : l.startPromise = some n
    · exact hstart _ (hubReady_eq hn)
    · exact hl.handled n hn

theorem Orderly.move {awaitingStart invocations : List Chain} (hl : l.Orderly)
    (hawaiting : ∀ chain ∈ awaitingStart, l.Catches chain)
    (hinvocations : ∀ chain ∈ invocations, l.Catches chain) :
    Orderly { l with awaitingStart, invocations } where
  start := hl.start
  awaitingStart chain h := ⟨(hawaiting chain h).1, (hawaiting chain h).2, (hawaiting chain h).3⟩
  invocations chain h :=
    ⟨(hinvocations chain h).1, (hinvocations chain h).2, (hinvocations chain h).3⟩
  handled := hl.handled

/-! ### Making the start promise -/

theorem orderly_start (hl : l.Orderly) : l.start.Orderly := by
  cases hnone : l.startPromise with
  | some n => rwa [Ledger.start, hnone]
  | none =>
    have hstart : l.start = { l with heap := l.heap.create, startPromise := some l.heap.next } := by
      rw [Ledger.start, hnone]
    have hcatches : ∀ {chain}, l.Catches chain → l.start.Catches chain := by
      intro chain hchain
      have hpromise := hchain.promise.1
      have hcaught := hchain.caught.1
      rw [hstart]
      refine ⟨⟨Nat.lt_succ_of_lt hpromise, ?_⟩, ⟨Nat.lt_succ_of_lt hcaught, ?_⟩, ?_⟩
      · exact fun h ↦ hpromise.ne' (Option.some.inj h)
      · exact fun h ↦ hcaught.ne' (Option.some.inj h)
      · rw [PromiseHeap.promise_create_of_ne hpromise.ne]
        exact hchain.handled
    refine ⟨fun n hn ↦ ?_, fun chain h ↦ hcatches (hl.awaitingStart chain ?_),
      fun chain h ↦ hcatches (hl.invocations chain ?_), fun n _ ↦ ?_⟩
    · rw [hstart] at hn ⊢
      cases hn
      exact Nat.lt_succ_self _
    · rwa [hstart] at h
    · rwa [hstart] at h
    · rw [hstart]
      exact PromiseHeap.not_unhandled_create (hl.handled n (by rw [hnone]; exact nofun))

theorem hubReady_start : l.start.hubReady = some (l.hubReady.getD .fresh) := by
  unfold hubReady Ledger.start
  cases hstart : l.startPromise with
  | none => simp
  | some n => simp [hstart]

/-! ### Making a chain -/

theorem Catches.catchNew (h : l.Catches other) : l.catchNew.Catches other := by
  have hpromise := h.promise.1
  refine ⟨⟨?_, h.promise.2⟩, ⟨?_, h.caught.2⟩, ?_⟩
  · exact Nat.lt_succ_of_lt (Nat.lt_succ_of_lt hpromise)
  · exact Nat.lt_succ_of_lt (Nat.lt_succ_of_lt h.caught.1)
  · have hfirst : other.promise ≠ (l.heap.create.attach l.heap.next).next :=
      (Nat.lt_succ_of_lt hpromise).ne
    rw [Ledger.catchNew, PromiseHeap.promise_create_of_ne hfirst,
      PromiseHeap.promise_attach_of_ne hpromise.ne, PromiseHeap.promise_create_of_ne hpromise.ne]
    exact h.handled

theorem Orderly.catchNew (hl : l.Orderly) : l.catchNew.Orderly where
  start n hn := Nat.lt_succ_of_lt (Nat.lt_succ_of_lt (hl.start n hn))
  awaitingStart chain h := (hl.awaitingStart chain h).catchNew
  invocations chain h := (hl.invocations chain h).catchNew
  handled n hn := PromiseHeap.not_unhandled_create (PromiseHeap.not_unhandled_attach
    (PromiseHeap.not_unhandled_create (hl.handled n hn)))

theorem Orderly.catches_nextChain (hl : l.Orderly) : l.catchNew.Catches l.nextChain := by
  refine ⟨⟨Nat.lt_succ_of_lt (Nat.lt_succ_self _), fun h ↦ ?_⟩,
    ⟨Nat.lt_succ_self _, fun h ↦ ?_⟩, ?_⟩
  · exact (hl.start _ h).ne rfl
  · exact (hl.start _ h).not_ge (Nat.le_succ _)
  · have hne : l.heap.next ≠ (l.heap.create.attach l.heap.next).next := (Nat.lt_succ_self _).ne
    rw [Ledger.catchNew, nextChain, PromiseHeap.promise_create_of_ne hne,
      PromiseHeap.promise_attach_self]

theorem Orderly.hubReady_catchNew (hl : l.Orderly) : l.catchNew.hubReady = l.hubReady := by
  cases hstart : l.startPromise with
  | none => rw [hubReady_of_none hstart, hubReady_of_none (l := l.catchNew) hstart]
  | some n =>
    have hn := hl.start n hstart
    have hfirst : n ≠ (l.heap.create.attach l.heap.next).next := (Nat.lt_succ_of_lt hn).ne
    rw [hubReady_eq hstart, hubReady_eq (l := l.catchNew) hstart, Ledger.catchNew,
      PromiseHeap.promise_create_of_ne hfirst, PromiseHeap.promise_attach_of_ne hn.ne,
      PromiseHeap.promise_create_of_ne hn.ne]

/-! ### Settling a chain -/

theorem Catches.settle (h : l.Catches other) : (l.settle chain ok).Catches other :=
  ⟨h.promise, h.caught, by simpa [Ledger.settle] using h.handled⟩

theorem Orderly.settle (hl : l.Orderly) (hchain : l.Catches chain) :
    (l.settle chain ok).Orderly where
  start := hl.start
  awaitingStart other h := (hl.awaitingStart other h).settle
  invocations other h := (hl.invocations other h).settle
  handled n hn := by
    have hfirst : ¬((l.heap.settle chain.promise ok).promise n).Unhandled :=
      PromiseHeap.not_unhandled_settle (hl.handled n hn) (Or.inl hchain.handled)
    exact PromiseHeap.not_unhandled_settle hfirst (Or.inr rfl)

theorem hubReady_settle (hchain : l.Catches chain) : (l.settle chain ok).hubReady = l.hubReady := by
  cases hstart : l.startPromise with
  | none =>
    rw [hubReady_of_none hstart, hubReady_of_none (l := l.settle chain ok) hstart]
  | some n =>
    have hpromise : n ≠ chain.promise := fun h ↦ hchain.promise.2 (h ▸ hstart)
    have hcaught : n ≠ chain.caught := fun h ↦ hchain.caught.2 (h ▸ hstart)
    rw [hubReady_eq hstart, hubReady_eq (l := l.settle chain ok) hstart, Ledger.settle,
      PromiseHeap.promise_settle_of_ne hcaught, PromiseHeap.promise_settle_of_ne hpromise]

/-! ### The flows -/

theorem Catches.attach (h : l.Catches other) :
    Catches { l with heap := l.heap.attach n } other :=
  ⟨h.promise, h.caught, PromiseHeap.handled_attach h.handled⟩

theorem Orderly.attach (hl : l.Orderly) : Orderly { l with heap := l.heap.attach n } where
  start := hl.start
  awaitingStart chain h := (hl.awaitingStart chain h).attach
  invocations chain h := (hl.invocations chain h).attach
  handled m hm := PromiseHeap.not_unhandled_attach (hl.handled m hm)

theorem orderly_join (hl : l.Orderly) : l.join.Orderly := by
  unfold Ledger.join
  split
  · exact hl
  · rename_i hubReady hstart
    let attached : Ledger := { l with heap := l.heap.attach hubReady }
    have hattached : attached.Orderly := hl.attach
    refine hattached.catchNew.move (fun chain h ↦ ?_) hattached.catchNew.invocations
    rcases List.mem_append.mp h with h | h
    · exact hattached.catchNew.awaitingStart chain h
    · rw [List.mem_singleton.mp h]
      exact hattached.catches_nextChain

theorem hubReady_join (hl : l.Orderly) :
    l.join.hubReady = l.hubReady.map fun promise ↦ { promise with handled := true } := by
  cases hstart : l.startPromise with
  | none =>
    rw [Ledger.join, hstart, hubReady_of_none hstart, Option.map_none]
  | some n =>
    have hjoin : l.join.hubReady = hubReady { l with heap := l.heap.attach n } := by
      rw [← hl.attach.hubReady_catchNew, Ledger.join, hstart]
      rfl
    rw [hjoin, hubReady_eq hstart, hubReady_eq (l := { l with heap := l.heap.attach n }) hstart,
      PromiseHeap.promise_attach_self, Option.map_some]

theorem orderly_leave {connected : Bool} (hl : l.Orderly) :
    (l.leave connected).Orderly ∧ (l.leave connected).hubReady = l.hubReady := by
  cases connected with
  | false =>
    exact ⟨hl.catchNew.settle hl.catches_nextChain,
      (hubReady_settle hl.catches_nextChain).trans hl.hubReady_catchNew⟩
  | true =>
    refine ⟨hl.catchNew.move hl.catchNew.awaitingStart fun chain h ↦ ?_, hl.hubReady_catchNew⟩
    rcases List.mem_append.mp h with h | h
    · exact hl.catchNew.invocations chain h
    · rw [List.mem_singleton.mp h]
      exact hl.catches_nextChain

theorem orderly_startSettled {invokes : Bool} (hl : l.Orderly) :
    (l.startSettled invokes).Orderly ∧ (l.startSettled invokes).hubReady = l.hubReady := by
  unfold Ledger.startSettled
  split
  · exact ⟨hl, rfl⟩
  · rename_i chain rest hawaiting
    have hchain : l.Catches chain := hl.awaitingStart chain (hawaiting ▸ List.mem_cons_self)
    have hrest : ∀ other ∈ rest, l.Catches other := fun other h ↦
      hl.awaitingStart other (hawaiting ▸ List.mem_cons_of_mem _ h)
    cases invokes with
    | false =>
      have hmoved := hl.move hrest hl.invocations
      have hcatches : Catches { l with awaitingStart := rest } chain :=
        ⟨hchain.promise, hchain.caught, hchain.handled⟩
      exact ⟨hmoved.settle hcatches, hubReady_settle hcatches⟩
    | true =>
      refine ⟨hl.move hrest fun other h ↦ ?_, rfl⟩
      rcases List.mem_append.mp h with h | h
      · exact hl.invocations other h
      · rwa [List.mem_singleton.mp h]

theorem orderly_settled (hl : l.Orderly) :
    (l.settled ok).Orderly ∧ (l.settled ok).hubReady = l.hubReady := by
  unfold Ledger.settled
  split
  · exact ⟨hl, rfl⟩
  · rename_i chain rest hinvocations
    have hchain : l.Catches chain := hl.invocations chain (hinvocations ▸ List.mem_cons_self)
    have hmoved := hl.move hl.awaitingStart fun other h ↦
      hl.invocations other (hinvocations ▸ List.mem_cons_of_mem chain h)
    have hcatches : Catches { l with invocations := rest } chain :=
      ⟨hchain.promise, hchain.caught, hchain.handled⟩
    exact ⟨hmoved.settle hcatches, hubReady_settle hcatches⟩

theorem orderly_foldl_settle {chains : List Chain} (hl : l.Orderly)
    (hchains : ∀ chain ∈ chains, l.Catches chain) :
    (chains.foldl (fun l chain ↦ l.settle chain false) l).Orderly ∧
      (chains.foldl (fun l chain ↦ l.settle chain false) l).hubReady = l.hubReady := by
  induction chains generalizing l with
  | nil => exact ⟨hl, rfl⟩
  | cons chain rest ih =>
    have hchain := hchains chain List.mem_cons_self
    obtain ⟨horderly, hready⟩ := ih (hl.settle hchain) fun other h ↦
      (hchains other (List.mem_cons_of_mem _ h)).settle
    exact ⟨horderly, hready.trans (hubReady_settle hchain)⟩

theorem orderly_rejectAll (hl : l.Orderly) :
    l.rejectAll.Orderly ∧ l.rejectAll.hubReady = l.hubReady := by
  have hmoved : Orderly { l with invocations := [] } := hl.move hl.awaitingStart fun _ h ↦
    absurd h List.not_mem_nil
  exact orderly_foldl_settle hmoved fun chain h ↦
    ⟨(hl.invocations chain h).1, (hl.invocations chain h).2, (hl.invocations chain h).3⟩

end Ledger

/-! ## What a step does to the start promise -/

/-- The outcome of the promise that `start` caches. -/
def outcome : StartPromise → Option Bool
  | .pending => none
  | .resolved => some true
  | .rejected => some false

/-- The start promise before and after a step, for the hub service and for the ledger. -/
inductive Tracks (s : Page.State) (a : Label) (t : Page.State) (l l' : Ledger) : Prop where
  | stays (ha : a ≠ .started false) (hnot : succeeds a = false)
      (hpromise : t.hub.startPromise = s.hub.startPromise) (hready : l'.hubReady = l.hubReady)
  /-- `start` is called. -/
  | calls (ha : a ≠ .started false) (hnot : succeeds a = false) (hhub : t.hub = s.hub.start)
      (hready : l'.hubReady = some (l.hubReady.getD .fresh))
  | succeeds (hyes : succeeds a = true) {n : ℕ} {request : Page.Request}
      (hrequest : s.requests n = some request) (hleaves : request.leaves = none)
      (hpromise : t.hub.startPromise = s.hub.startPromise)
      (hready : l'.hubReady = l.hubReady.map fun promise ↦ { promise with handled := true })
  | settles (ok : Bool) (ha : a = .started ok) (hpending : s.hub.startPromise = some .pending)
      (hhub : t.hub = s.hub.onStarted ok)
      (hready : l'.hubReady = l.hubReady.map fun promise ↦ { promise with outcome := some ok })

section Steps

open Page (State Moves moves_of_step)

variable {s t : Page.State} {l : Ledger} {a : Label}

theorem Ledger.orderly_started {ok : Bool} (hl : l.Orderly) :
    (l.track s (.started ok)).Orderly ∧ (l.track s (.started ok)).hubReady
      = l.hubReady.map fun promise ↦ { promise with outcome := some ok } := by
  cases hstart : l.startPromise with
  | none =>
    have htrack : l.track s (.started ok) = l := by rw [Ledger.track, hstart]
    rw [htrack, hubReady_of_none hstart]
    exact ⟨hl, rfl⟩
  | some hubReady =>
    have htrack : l.track s (.started ok) = { l with heap := l.heap.settle hubReady ok } := by
      rw [Ledger.track, hstart]
    have hkeeps : ∀ {chain}, l.Catches chain → Catches { l with heap := l.heap.settle hubReady ok }
        chain := fun h ↦ ⟨h.1, h.2, PromiseHeap.handled_settle.trans h.3⟩
    rw [htrack]
    refine ⟨⟨hl.start, fun chain h ↦ hkeeps (hl.awaitingStart chain h),
      fun chain h ↦ hkeeps (hl.invocations chain h), fun n hn ↦ ?_⟩, ?_⟩
    · have hne : n ≠ hubReady := fun h ↦ hn (h ▸ hstart)
      change ¬((l.heap.settle hubReady ok).promise n).Unhandled
      rw [PromiseHeap.promise_settle_of_ne hne]
      exact hl.handled n hn
    · have hsettled : Ledger.hubReady { l with heap := l.heap.settle hubReady ok }
          = some ((l.heap.settle hubReady ok).promise hubReady) := hubReady_eq hstart
      rw [hsettled, hubReady_eq hstart, PromiseHeap.promise_settle_self, Option.map_some]

/-- **The step lemma.** -/
theorem tracks_of_step (hl : l.Orderly) (hstep : Page.step s a = some t) :
    (l.track s a).Orderly ∧ Tracks s a t l (l.track s a) := by
  have hmoves := moves_of_step hstep
  cases hmoves with
  | edits | unsubscribes | receives | restores => exact ⟨hl, .stays nofun rfl rfl rfl⟩
  | refuses hduplicate =>
    have htrack : l.track s .subscribeToQueue = l := by rw [Ledger.track, if_pos hduplicate]
    rw [htrack]
    exact ⟨hl, .stays nofun rfl rfl rfl⟩
  | subscribes hnot =>
    have htrack : l.track s .subscribeToQueue = l.start := by
      rw [Ledger.track, if_neg (Bool.eq_false_iff.mp hnot)]
    rw [htrack]
    exact ⟨Ledger.orderly_start hl, .calls nofun rfl rfl Ledger.hubReady_start⟩
  | sends => exact ⟨Ledger.orderly_start hl, .calls nofun rfl rfl Ledger.hubReady_start⟩
  | subscribed n queueName id hrequest =>
    have htrack : l.track s (.respond n (.subscribed id)) = l.join := by
      simp only [Ledger.track, hrequest]
    rw [htrack]
    exact ⟨Ledger.orderly_join hl, .succeeds rfl hrequest rfl rfl (Ledger.hubReady_join hl)⟩
  | sent n body id correlationId hrequest =>
    have htrack : l.track s (.respond n (.sent id correlationId)) = l.join := by
      simp only [Ledger.track, hrequest]
    rw [htrack]
    exact ⟨Ledger.orderly_join hl, .succeeds rfl hrequest rfl rfl (Ledger.hubReady_join hl)⟩
  | notSubscribed n queueName detail hrequest =>
    have htrack : l.track s (.respond n (.failed detail)) = l := by
      simp only [Ledger.track, hrequest]
    rw [htrack]
    exact ⟨hl, .stays nofun rfl rfl rfl⟩
  | notSent n body detail hrequest =>
    have htrack : l.track s (.respond n (.failed detail)) = l := by
      simp only [Ledger.track, hrequest]
    rw [htrack]
    exact ⟨hl, .stays nofun rfl rfl rfl⟩
  | finishes n flow id response hrequest =>
    have htrack : l.track s (.respond n response) = l.leave s.IsConnected := by
      simp only [Ledger.track, hrequest]
    have hhandle := Page.handle_of_unsubscribe hrequest hstep
    obtain ⟨horderly, hready⟩ := Ledger.orderly_leave hl
    rw [htrack]
    refine ⟨horderly, .stays nofun (congrArg Option.isSome hhandle) ?_ hready⟩
    have hleft : ((s.answered n).invoke (.leaveSubscription id)).hub.startPromise
        = s.hub.startPromise :=
      congrArg BusHubService.startPromise (Page.sameLists_invoke _ _).1.hub
    cases flow <;> exact hleft
  | started ok hpending =>
    obtain ⟨horderly, hready⟩ := Ledger.orderly_started hl
    exact ⟨horderly, .settles ok rfl hpending rfl hready⟩
  | joins join rest hpromise hawaiting =>
    have hhub := (Page.sameLists_invoke { s with awaitingStart := rest } (.joinSubscription join)).1
    obtain ⟨horderly, hready⟩ := Ledger.orderly_startSettled hl
    exact ⟨horderly, .stays nofun rfl (congrArg BusHubService.startPromise hhub.hub) hready⟩
  | skips join rest hpromise hawaiting =>
    have hhub := (Page.sameLists_reject { s with awaitingStart := rest } (.joinSubscription join)).1
    obtain ⟨horderly, hready⟩ := Ledger.orderly_startSettled hl
    exact ⟨horderly, .stays nofun rfl (congrArg BusHubService.startPromise hhub.hub) hready⟩
  | succeeds invocation rest hinvocations =>
    obtain ⟨horderly, hready⟩ := Ledger.orderly_settled hl
    exact ⟨horderly, .stays nofun rfl rfl hready⟩
  | fails invocation rest hinvocations =>
    have hhub := (Page.sameLists_reject { s with invocations := rest } invocation).1.hub
    obtain ⟨horderly, hready⟩ := Ledger.orderly_settled hl
    exact ⟨horderly, .stays nofun rfl (congrArg BusHubService.startPromise hhub) hready⟩
  | loses =>
    obtain ⟨-, -, hpromise, -⟩ := Page.loses_of_step (Or.inl rfl) hstep
    obtain ⟨horderly, hready⟩ := Ledger.orderly_rejectAll hl
    exact ⟨horderly, .stays nofun rfl hpromise hready⟩
  | closes =>
    obtain ⟨-, -, hpromise, -⟩ := Page.loses_of_step (Or.inr rfl) hstep
    obtain ⟨horderly, hready⟩ := Ledger.orderly_rejectAll hl
    exact ⟨horderly, .stays nofun rfl hpromise hready⟩

end Steps

/-! ## Runs -/

/-- What the labels of a run say about the start promise. -/
structure Recorded (as : List Label) (s : State) : Prop where
  orderly : s.ledger.Orderly
  hubReady : s.ledger.hubReady
    = s.page.hub.startPromise.map fun promise ↦ ⟨outcome promise, as.any succeeds⟩
  idle : s.page.hub.startPromise = none → as.any succeeds = false
  /-- Every flow has called `start`. -/
  posted : ∀ n request, s.page.requests n = some request → request.leaves = none →
    s.page.hub.startPromise ≠ none
  rejected : s.page.hub.startPromise = some .rejected ↔ .started false ∈ as

theorem recorded_initial : Recorded [] .initial :=
  ⟨Ledger.orderly_empty, rfl, fun _ ↦ rfl, nofun, nofun, fun h ↦ absurd h List.not_mem_nil⟩

variable {s t : State} {a : Label} {as : List Label}

/-- Whoever makes a request of a flow has called `start`. -/
theorem startPromise_of_posts {p q : Page.State} {request : Page.Request}
    (hposts : p.Posts a request) (hleaves : request.leaves = none)
    (hstep : Page.step p a = some q) : q.hub.startPromise ≠ none := by
  have hstart : p.hub.start.startPromise ≠ none := by
    unfold BusHubService.start
    split
    · exact nofun
    · rename_i promise hpromise
      rw [hpromise]
      exact nofun
  cases Page.moves_of_step hstep with
  | subscribes | sends => exact hstart
  | refuses hduplicate =>
    cases hposts with
    | subscribe hnot => cases hduplicate.symm.trans hnot
  | unsubscribes =>
    cases hposts
    cases hleaves
  | _ => cases hposts

theorem Recorded.posted_of_step (hs : Recorded as s) (hstep : step s a = some t)
    (hkeeps : s.page.hub.startPromise ≠ none → t.page.hub.startPromise ≠ none) :
    ∀ n request, t.page.requests n = some request → request.leaves = none →
      t.page.hub.startPromise ≠ none := by
  obtain ⟨page, hpage, rfl⟩ := Option.map_eq_some_iff.mp hstep
  intro n request hn hleaves
  rcases (Page.effect_of_step hpage).requests hn with ⟨hn, -⟩ | ⟨-, hposts⟩
  · exact hkeeps (hs.posted n request hn hleaves)
  · exact startPromise_of_posts hposts hleaves hpage

/-- **One step.** -/
theorem Recorded.step (hs : Recorded as s) (hstep : step s a = some t) :
    Recorded (as ++ [a]) t := by
  have hposted := hs.posted_of_step hstep
  obtain ⟨page, hpage, rfl⟩ := Option.map_eq_some_iff.mp hstep
  obtain ⟨horderly, htracks⟩ := tracks_of_step hs.orderly hpage
  have hany : (as ++ [a]).any succeeds = (as.any succeeds || succeeds a) := by simp
  have hmem : .started false ∈ as ++ [a] ↔ .started false ∈ as ∨ .started false = a := by
    rw [List.mem_append, List.mem_singleton]
  cases htracks with
  | stays ha hnot hpromise hready =>
    rw [hnot, Bool.or_false] at hany
    refine ⟨horderly, ?_, fun h ↦ ?_, hposted fun h ↦ hpromise ▸ h, ?_⟩
    · rw [hany, hready, hpromise, hs.hubReady]
    · exact hany.trans (hs.idle (hpromise ▸ h))
    · rw [hmem, hpromise, hs.rejected]
      exact ⟨Or.inl, fun h ↦ h.resolve_right ha.symm⟩
  | calls ha hnot hhub hready =>
    rw [hnot, Bool.or_false] at hany
    cases hidle : s.page.hub.startPromise with
    | none =>
      have hpending : page.hub.startPromise = some .pending := by
        rw [hhub, BusHubService.start, hidle]
      have hnever := mt hs.rejected.mpr (by simp [hidle])
      refine ⟨horderly, ?_, fun h ↦ ?_, hposted fun h ↦ absurd hidle h, ?_⟩
      · rw [hany, hs.idle hidle, hready, hs.hubReady, hidle, hpending]
        rfl
      · cases hpending.symm.trans h
      · rw [hmem, hpending]
        refine ⟨fun h ↦ ?_, fun h ↦ absurd (h.resolve_right ha.symm) hnever⟩
        cases h
    | some promise =>
      have hpromise : page.hub.startPromise = s.page.hub.startPromise := by
        rw [hhub, BusHubService.start, hidle, hidle]
      refine ⟨horderly, ?_, fun h ↦ ?_, hposted fun h ↦ hpromise ▸ h, ?_⟩
      · rw [hany, hready, hpromise, hs.hubReady, hidle]
        rfl
      · cases hidle.symm.trans (hpromise.symm.trans h)
      · rw [hmem, hpromise, hs.rejected]
        exact ⟨Or.inl, fun h ↦ h.resolve_right ha.symm⟩
  | succeeds hyes hrequest hleaves hpromise hready =>
    rw [hyes, Bool.or_true] at hany
    have hstarted := hs.posted _ _ hrequest hleaves
    refine ⟨horderly, ?_, fun h ↦ absurd (hpromise ▸ h) hstarted, hposted fun h ↦ hpromise ▸ h, ?_⟩
    · rw [hany, hready, hpromise, hs.hubReady, Option.map_map]
      rfl
    · rw [hmem, hpromise, hs.rejected]
      refine ⟨Or.inl, fun h ↦ h.resolve_right ?_⟩
      rintro rfl
      cases hyes
  | settles ok ha hpending hhub hready =>
    subst ha
    rw [show succeeds (.started ok) = false from rfl, Bool.or_false] at hany
    have hnever := mt hs.rejected.mpr (by simp [hpending])
    have hpromise : page.hub.startPromise = some (if ok then .resolved else .rejected) := by
      rw [hhub]
      cases ok <;> rfl
    refine ⟨horderly, ?_, fun h ↦ ?_, hposted fun _ ↦ ?_, ?_⟩
    · rw [hany, hready, hs.hubReady, hpending, hpromise]
      cases ok <;> rfl
    · cases hpromise.symm.trans h
    · simp [hpromise]
    · rw [hmem, hpromise]
      cases ok with
      | true =>
        refine ⟨fun h ↦ ?_, fun h ↦ absurd (h.resolve_right fun heq ↦ ?_) hnever⟩
        · cases h
        · cases heq
      | false => exact ⟨fun _ ↦ Or.inr rfl, fun _ ↦ rfl⟩

theorem recorded_of_run (hrun : run step .initial as = some s) : Recorded as s :=
  run_induction recorded_initial (fun _ _ _ _ _ hs hstep ↦ hs.step hstep) hrun

/-! ### The chains and what will settle them -/

/-- As many chains as continuations of the start promise, and as pending invocations. -/
structure Aligned (l : Ledger) (p : Page.State) : Prop where
  awaitingStart : l.awaitingStart.length = p.awaitingStart.length
  invocations : l.invocations.length = p.invocations.length

namespace Aligned

variable {l : Ledger} {p q : Page.State}

theorem of_eq (hl : Aligned l p) (hawaiting : q.awaitingStart = p.awaitingStart)
    (hinvocations : q.invocations = p.invocations) : Aligned l q :=
  ⟨hawaiting ▸ hl.awaitingStart, hinvocations ▸ hl.invocations⟩

theorem start (hl : Aligned l p) : Aligned l.start p := by
  unfold Ledger.start
  split <;> exact ⟨hl.awaitingStart, hl.invocations⟩

theorem join (hl : Aligned l p) (hstart : l.startPromise ≠ none) {join : Page.Join}
    (hawaiting : q.awaitingStart = p.awaitingStart ++ [join])
    (hinvocations : q.invocations = p.invocations) : Aligned l.join q := by
  obtain ⟨n, hn⟩ := Option.ne_none_iff_exists'.mp hstart
  have hjoin : l.join.awaitingStart = l.awaitingStart ++ [l.nextChain] ∧
      l.join.invocations = l.invocations := by
    rw [Ledger.join, hn]
    exact ⟨rfl, rfl⟩
  refine ⟨?_, ?_⟩
  · rw [hjoin.1, hawaiting, List.length_append, List.length_append, hl.awaitingStart]
    rfl
  · rw [hjoin.2, hinvocations, hl.invocations]

theorem leave (hl : Aligned l p) {invocation : Page.Invocation}
    (hawaiting : q.awaitingStart = p.awaitingStart)
    (hinvocations : q.invocations = (p.invoke invocation).invocations) :
    Aligned (l.leave p.IsConnected) q := by
  rw [Page.invocations_invoke] at hinvocations
  unfold Ledger.leave
  split at hinvocations <;> rename_i hup
  · rw [if_pos (decide_eq_true hup)]
    refine ⟨hawaiting ▸ hl.awaitingStart, ?_⟩
    rw [hinvocations, List.length_append, List.length_append, ← hl.invocations]
    rfl
  · rw [if_neg (by simpa using hup)]
    exact ⟨hawaiting ▸ hl.awaitingStart, hinvocations ▸ hl.invocations⟩

theorem startSettled (hl : Aligned l p) {invokes : Bool} {join : Page.Join}
    (hawaiting : p.awaitingStart = join :: q.awaitingStart)
    (hinvocations : q.invocations
      = if invokes then p.invocations ++ [.joinSubscription join] else p.invocations) :
    Aligned (l.startSettled invokes) q := by
  have hlength := hl.awaitingStart
  rw [hawaiting, List.length_cons] at hlength
  obtain ⟨chain, rest, hchains⟩ := List.exists_cons_of_length_eq_add_one hlength
  rw [hchains, List.length_cons, Nat.succ_inj] at hlength
  have hinvoked : (l.startSettled invokes).awaitingStart = rest ∧
      (l.startSettled invokes).invocations
        = if invokes then l.invocations ++ [chain] else l.invocations := by
    rw [Ledger.startSettled, hchains]
    cases invokes <;> exact ⟨rfl, rfl⟩
  refine ⟨hinvoked.1 ▸ hlength, ?_⟩
  rw [hinvoked.2, hinvocations]
  cases invokes
  · exact hl.invocations
  · simpa using hl.invocations

theorem settled (hl : Aligned l p) {ok : Bool} {invocation : Page.Invocation}
    (hawaiting : q.awaitingStart = p.awaitingStart)
    (hinvocations : p.invocations = invocation :: q.invocations) : Aligned (l.settled ok) q := by
  have hlength := hl.invocations
  rw [hinvocations, List.length_cons] at hlength
  obtain ⟨chain, rest, hchains⟩ := List.exists_cons_of_length_eq_add_one hlength
  rw [hchains, List.length_cons, Nat.succ_inj] at hlength
  rw [Ledger.settled, hchains]
  exact ⟨hawaiting ▸ hl.awaitingStart, hlength⟩

theorem rejectAll (hl : Aligned l p) (hawaiting : q.awaitingStart = p.awaitingStart)
    (hinvocations : q.invocations = []) : Aligned l.rejectAll q := by
  have hfold : ∀ (chains : List Chain) (l : Ledger),
      (chains.foldl (fun l chain ↦ l.settle chain false) l).awaitingStart = l.awaitingStart ∧
      (chains.foldl (fun l chain ↦ l.settle chain false) l).invocations = l.invocations := by
    intro chains
    induction chains with
    | nil => exact fun l ↦ ⟨rfl, rfl⟩
    | cons chain rest ih => exact fun l ↦ ih (l.settle chain false)
  obtain ⟨hsame, hnone⟩ := hfold l.invocations { l with invocations := [] }
  refine ⟨?_, ?_⟩
  · rw [hawaiting, ← hl.awaitingStart]
    exact congrArg List.length hsame
  · rw [hinvocations]
    exact congrArg List.length hnone

end Aligned

theorem Recorded.aligned_of_step (hs : Recorded as s) (hl : Aligned s.ledger s.page)
    (hstep : PagePromises.step s a = some t) : Aligned t.ledger t.page := by
  obtain ⟨page, hpage, rfl⟩ := Option.map_eq_some_iff.mp hstep
  have hstarted : ∀ n request, s.page.requests n = some request → request.leaves = none →
      s.ledger.startPromise ≠ none := by
    intro n request hn hleaves hnone
    have hready := hs.hubReady
    rw [Ledger.hubReady_of_none hnone, eq_comm, Option.map_eq_none_iff] at hready
    exact hs.posted n request hn hleaves hready
  cases Page.moves_of_step hpage with
  | edits | unsubscribes | receives | restores => exact hl.of_eq rfl rfl
  | refuses hduplicate =>
    simp only [Ledger.track, hduplicate, if_true]
    exact hl
  | subscribes hnot =>
    simp only [Ledger.track, hnot, Bool.false_eq_true, if_false]
    exact hl.start.of_eq rfl rfl
  | sends => exact hl.start.of_eq rfl rfl
  | subscribed n queueName id hrequest =>
    simp only [Ledger.track, hrequest]
    exact hl.join (hstarted n _ hrequest rfl) rfl rfl
  | sent n body id correlationId hrequest =>
    simp only [Ledger.track, hrequest]
    exact hl.join (hstarted n _ hrequest rfl) rfl rfl
  | notSubscribed n queueName detail hrequest =>
    simp only [Ledger.track, hrequest]
    exact hl.of_eq rfl rfl
  | notSent n body detail hrequest =>
    simp only [Ledger.track, hrequest]
    exact hl.of_eq rfl rfl
  | finishes n flow id response hrequest =>
    simp only [Ledger.track, hrequest]
    have hsame := (Page.sameLists_invoke (s.page.answered n) (.leaveSubscription id)).1
    have hanswered : Aligned s.ledger (s.page.answered n) := hl.of_eq rfl rfl
    cases flow <;> exact hanswered.leave hsame.awaitingStart rfl
  | started ok hpromise =>
    simp only [Ledger.track]
    split <;> exact ⟨hl.awaitingStart, hl.invocations⟩
  | joins join rest hpromise hawaiting =>
    have hsame :=
      (Page.sameLists_invoke { s.page with awaitingStart := rest } (.joinSubscription join)).1
    simp only [Ledger.track]
    refine hl.startSettled (?_ : _ = join :: _) ?_
    · rw [hsame.awaitingStart]
      exact hawaiting
    · rw [Page.invocations_invoke]
      simp only [hpromise, true_and, decide_eq_true_eq]
      rfl
  | skips join rest hpromise hawaiting =>
    obtain ⟨hsame, hinvocations⟩ :=
      Page.sameLists_reject { s.page with awaitingStart := rest } (.joinSubscription join)
    simp only [Ledger.track]
    refine hl.startSettled (?_ : _ = join :: _) ?_
    · rw [hsame.awaitingStart]
      exact hawaiting
    · rw [hinvocations]
      simp [hpromise]
  | succeeds invocation rest hinvocations => exact hl.settled rfl hinvocations
  | fails invocation rest hinvocations =>
    obtain ⟨hsame, hrest⟩ := Page.sameLists_reject { s.page with invocations := rest } invocation
    exact hl.settled hsame.awaitingStart (hinvocations.trans (by rw [hrest]))
  | loses =>
    obtain ⟨hsame, hnone⟩ :=
      Page.sameLists_rejectAll { s.page with hub := s.page.hub.onreconnecting }
    exact hl.rejectAll hsame.awaitingStart hnone
  | closes =>
    obtain ⟨hsame, hnone⟩ := Page.sameLists_rejectAll { s.page with hub := s.page.hub.onclose }
    exact hl.rejectAll hsame.awaitingStart hnone

/-- **Every chain is settled by what the page waits for**, in every run. -/
theorem aligned_of_run (hrun : run step .initial as = some s) : Aligned s.ledger s.page := by
  refine (run_induction (motive := fun as s ↦ Recorded as s ∧ Aligned s.ledger s.page)
    ⟨recorded_initial, rfl, rfl⟩ (fun _ _ _ _ _ hs hstep ↦ ?_) hrun).2
  exact ⟨hs.1.step hstep, hs.1.aligned_of_step hs.2 hstep⟩

/-! ### The result -/

/-- **No rejection goes unhandled, unless `connection.start()` has failed and no POST has
succeeded.** -/
theorem allHandled_iff (hrun : run step .initial as = some s) : s.ledger.heap.AllHandled ↔
    (.started false ∈ as → ∃ a ∈ as, succeeds a = true) := by
  have hs := recorded_of_run hrun
  rw [hs.orderly.allHandled_iff_hubReady, hs.hubReady, ← hs.rejected, ← List.any_eq_true]
  constructor
  · intro hall hrejected
    refine Bool.of_not_eq_false fun hnone ↦ ?_
    exact hall ⟨outcome .rejected, as.any succeeds⟩ (by rw [hrejected]; rfl) ⟨rfl, hnone⟩
  · intro hsome promise hpromise hunhandled
    obtain ⟨start, hstart, rfl⟩ := Option.map_eq_some_iff.mp hpromise
    have hrejected : start = .rejected := by
      cases start with
      | rejected => rfl
      | pending | resolved => cases hunhandled.1
    rw [hrejected] at hstart
    cases (hsome hstart).symm.trans hunhandled.2

/-- The hub cannot be reached, but the API can. -/
theorem allHandled_of_subscribed : ∃ s,
    run step .initial [.editQueueName (Utf16.ofString "orders"), .subscribeToQueue, .started false,
      .respond 0 (.subscribed ⟨1⟩), .startSettled] = some s ∧ s.ledger.heap.AllHandled := by
  obtain ⟨s, hrun⟩ : ∃ s, run step .initial [.editQueueName (Utf16.ofString "orders"),
      .subscribeToQueue, .started false, .respond 0 (.subscribed ⟨1⟩), .startSettled] = some s :=
    ⟨_, rfl⟩
  exact ⟨s, hrun, (allHandled_iff hrun).mpr fun _ ↦ ⟨.respond 0 (.subscribed ⟨1⟩), by simp, rfl⟩⟩

/-- Neither can be reached: the rejected start promise has no handler, and nothing is pending. -/
theorem not_allHandled_of_failed : ∃ s,
    run step .initial [.editQueueName (Utf16.ofString "orders"), .subscribeToQueue,
      .respond 0 (.failed none), .started false] = some s ∧ s.page.requests 0 = none ∧
      s.page.awaitingStart = [] ∧ s.page.invocations = [] ∧ ¬s.ledger.heap.AllHandled :=
  ⟨_, rfl, rfl, rfl, rfl, fun h ↦ h 0 (by decide)⟩

end PagePromises

end BusTester
