import BusTester.Client.PageEffects

/-!
# One chip for each queue

`subscribeToQueue` looks for a chip of the queue when the request is made, and the chip appears when
the response arrives. Between the two a second request for the same queue passes the check, and two
chips of one queue are the result.

The queue names of the chips and of the subscribe requests in flight are kept apart as long as no
request is made for a queue for which one is in flight already.
-/

namespace BusTester

namespace Page

open Transition

/-- The queues that have a chip. -/
def State.chipQueues (s : State) : List Utf16 :=
  s.component.subscriptions.map Subscription.queueName

def DistinctQueues (s : State) : Prop := s.chipQueues.Nodup

instance (s : State) : Decidable (DistinctQueues s) := inferInstanceAs (Decidable (List.Nodup _))

/-- `subscribeToQueue` is not called for a queue while a subscribe request for it is in flight;
where the queue has a chip the call does nothing. -/
def SubscribesOnce (s : State) : Label → Prop
  | .subscribeToQueue => s.component.isDuplicateQueue = false →
      ∀ n < s.nextRequest, s.requests n ≠ some (.subscribe s.component.queueName)
  | _ => True

instance (s : State) : DecidablePred (SubscribesOnce s)
  | .subscribeToQueue => inferInstanceAs (Decidable (_ → _))
  | .editQueueName _ | .sendWithReply _ | .unsubscribe .. | .respond .. | .started _ | .startSettled
  | .settled _ | .messageReceived _ | .onreconnecting | .onreconnected | .onclose => isTrue trivial

variable {s t : State} {a : Label} {as : List Label}

theorem not_mem_chipQueues_of_not_duplicate (h : s.component.isDuplicateQueue = false) :
    s.component.queueName ∉ s.chipQueues := by
  intro hmem
  obtain ⟨chip, hchip, hqueue⟩ := List.mem_map.mp hmem
  rw [MessagesComponent.isDuplicateQueue, List.any_eq_false] at h
  exact h chip hchip (decide_eq_true hqueue)

/-- Each queue has one chip, or one subscribe request in flight, or neither. -/
structure OnceEach (s : State) : Prop where
  numbered : Numbered s
  distinct : DistinctQueues s
  apart : ∀ n queueName, s.requests n = some (.subscribe queueName) → queueName ∉ s.chipQueues
  single : ∀ n m queueName, s.requests n = some (.subscribe queueName) →
    s.requests m = some (.subscribe queueName) → n = m

theorem onceEach_initial : OnceEach State.initial :=
  ⟨numbered_initial, List.nodup_nil, nofun, nofun⟩

theorem chipQueues_of_effect (e : Effect s a t) :
    t.chipQueues.Sublist s.chipQueues ∨ ∃ n id queueName, a = .respond n (.subscribed id) ∧
      s.requests n = some (.subscribe queueName) ∧ t.chipQueues = s.chipQueues ++ [queueName] := by
  rcases e.chips with hsub | ⟨n, id, queueName, ha, hrequest, hchips⟩
  · exact Or.inl (hsub.map _)
  · refine Or.inr ⟨n, id, queueName, ha, hrequest, ?_⟩
    rw [State.chipQueues, hchips, List.map_append]
    rfl

theorem onceEach_step (hs : OnceEach s) (honce : SubscribesOnce s a) (hstep : step s a = some t) :
    OnceEach t := by
  have e : Effect s a t := effect_of_step hstep
  have hchips := chipQueues_of_effect e
  -- A request that is new was made for a queue without a chip and without a request.
  have hnew : ∀ {queueName}, s.Posts a (.subscribe queueName) →
      queueName ∉ t.chipQueues ∧ ∀ n, s.requests n ≠ some (.subscribe queueName) := by
    rintro queueName ⟨hnot⟩
    constructor
    · rcases hchips with hsub | ⟨n, id, queueName, ha, -, -⟩
      · exact fun hmem ↦ not_mem_chipQueues_of_not_duplicate hnot (hsub.subset hmem)
      · cases ha
    · intro n hn
      exact honce hnot n (hs.numbered n _ hn) hn
  refine ⟨hs.numbered.of_effect e, ?_, ?_, ?_⟩
  · rcases hchips with hsub | ⟨n, id, queueName, -, hrequest, hqueues⟩
    · exact hs.distinct.sublist hsub
    · rw [DistinctQueues, hqueues]
      exact List.nodup_append.mpr ⟨hs.distinct, List.nodup_singleton _, fun x hx y hy ↦ by
        rw [List.mem_singleton.mp hy]
        exact fun heq ↦ hs.apart n queueName hrequest (heq ▸ hx)⟩
  · intro n queueName hn
    rcases e.requests hn with ⟨hn, hother⟩ | ⟨-, hposts⟩
    · rcases hchips with hsub | ⟨m, id, queueName', ha, hm, hqueues⟩
      · exact fun hmem ↦ hs.apart n queueName hn (hsub.subset hmem)
      · rw [hqueues, List.mem_append, List.mem_singleton, not_or]
        refine ⟨hs.apart n queueName hn, ?_⟩
        rintro rfl
        obtain rfl : n = m := hs.single n m queueName hn hm
        exact hother _ ha
    · exact (hnew hposts).1
  · intro n m queueName hn hm
    rcases e.requests hn with ⟨hn, -⟩ | ⟨rfl, hposts⟩
    · rcases e.requests hm with ⟨hm, -⟩ | ⟨rfl, hposts⟩
      · exact hs.single n m queueName hn hm
      · exact absurd hn ((hnew hposts).2 n)
    · rcases e.requests hm with ⟨hm, -⟩ | ⟨rfl, -⟩
      · exact absurd hm ((hnew hposts).2 m)
      · rfl

/-- **No two chips share a queue**, in every state of a run that subscribes to each queue once at a
time. -/
theorem distinctQueues_of_subscribesOnce (h : Guarded step SubscribesOnce State.initial as) :
    Along step DistinctQueues State.initial as :=
  along_of_guarded onceEach_initial (fun _ _ _ hs honce hstep ↦ onceEach_step hs honce hstep)
    (fun _ hs ↦ hs.distinct) h

/-! ## The condition is not too strong -/

theorem step_subscribed {n : ℕ} {queueName : Utf16}
    (hn : s.requests n = some (.subscribe queueName)) (id : Guid) :
    ∃ t, step s (.respond n (.subscribed id)) = some t ∧
      t.chipQueues = s.chipQueues ++ [queueName] ∧
      t.requests = Function.update s.requests n none := by
  rw [step, hn]
  refine ⟨_, rfl, ?_, rfl⟩
  rw [State.chipQueues, MessagesComponent.onSubscribed, List.map_append]
  rfl

/-- **An overlap can always end in two chips**: both requests succeed. -/
theorem exists_duplicate_of_overlap (hs : Numbered s) (hstep : step s .subscribeToQueue = some t)
    (hnot : ¬SubscribesOnce s .subscribeToQueue) (id id' : Guid) :
    ∃ n m u, run step t [.respond n (.subscribed id), .respond m (.subscribed id')] = some u ∧
      ¬DistinctQueues u := by
  simp only [SubscribesOnce, not_forall, not_not] at hnot
  obtain ⟨hduplicate, n, -, hn⟩ := hnot
  have hne : n ≠ s.nextRequest := (hs n _ hn).ne
  have hrequests : t.requests
      = Function.update s.requests s.nextRequest (some (.subscribe s.component.queueName)) := by
    rw [step, hduplicate] at hstep
    cases hstep
    rfl
  obtain ⟨u, hu, hfirst, hrequests'⟩ := step_subscribed (s := t) (n := n)
    (by rw [hrequests, Function.update_of_ne hne, hn]) id
  obtain ⟨v, hv, hsecond, -⟩ := step_subscribed (s := u) (n := s.nextRequest)
    (by rw [hrequests', Function.update_of_ne hne.symm, hrequests, Function.update_self]) id'
  refine ⟨n, s.nextRequest, v, by simp [hu, hv], fun hdistinct ↦ ?_⟩
  rw [DistinctQueues, hsecond, hfirst] at hdistinct
  exact (List.nodup_append.mp hdistinct).2.2 _
    (List.mem_append_right _ (List.mem_singleton_self _)) _ (List.mem_singleton_self _) rfl

/-! ## Two subscriptions, one after the other and at once -/

/-- The second request is made after the first chip has gone again. -/
theorem distinctQueues_of_resubscribe :
    Along step DistinctQueues State.initial
      [.editQueueName (Utf16.ofString "orders"), .subscribeToQueue, .respond 0 (.subscribed ⟨1⟩),
        .subscribeToQueue, .unsubscribe .subscribe ⟨1⟩, .respond 1 .unsubscribed, .subscribeToQueue,
        .respond 2 (.subscribed ⟨2⟩)] :=
  distinctQueues_of_subscribesOnce (by decide)

/-- The second request is made before the first is answered. -/
theorem not_distinctQueues_of_overlap :
    ∃ t, run step State.initial
      [.editQueueName (Utf16.ofString "orders"), .subscribeToQueue, .subscribeToQueue,
        .respond 0 (.subscribed ⟨1⟩), .respond 1 (.subscribed ⟨2⟩)] = some t ∧
      t.chipQueues = [Utf16.ofString "orders", Utf16.ofString "orders"] ∧ ¬DistinctQueues t :=
  ⟨_, rfl, rfl, by decide⟩

end Page

end BusTester
