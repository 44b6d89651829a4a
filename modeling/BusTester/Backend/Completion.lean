import BusTester.Backend.Awaiting
import BusTester.Backend.Publications
import BusTester.Backend.Unsubscribing
import BusTester.Infrastructure.Endings

/-!
# Every use case comes to its end

An execution awaits one call of the adapter after the other, and a failed send with reply makes a
further call to clean up after itself. None of this can get stuck: the call that an execution awaits
has been made, and was not made before (`Poised`), so as soon as it has ended the next statement can
run. With what is known of the calls themselves (`RabbitMqAdapter.resumable_of_locked`), an
execution that is under way can always go on, or waits for the semaphore, whose holder can; and both
its statements and its awaits are counted. `completes_of_run` is about every run, and so about every
order in which other executions, the broker and the client library act.
-/

namespace BusTester

namespace UseCases

open Transition
open RabbitMqAdapter (Call Caller Consumption Pc Locked)

variable {κ : Type} [DecidableEq κ] {s t : State κ} {i j : κ} {x : Await} {a : Label κ}
  {as : List (Label κ)} {u : UseCase} {call : Call} {newGuid : Guid} {n : ℕ}

/-! ## The property -/

/-- The call can go on: the library answers in some way, or the semaphore is entered. -/
def Resumable (s : State κ) (c : κ × Await) : Prop :=
  ∃ awaited newGuid t, step s (.adapter (.resume c awaited newGuid)) = some t ∧
    ((s.backend.adapter.calls c).awaitsLock = true → awaited = .completed)

/-- The label runs a statement of the execution. -/
def Label.isStatement (i : κ) : Label κ → Bool
  | .proceed j _ => j = i
  | _ => false

/-- The label resumes a call of the execution. -/
def Label.isAwait (i : κ) : Label κ → Bool
  | .adapter (.resume c _ _) => c.1 = i
  | _ => false

/-- The label runs a statement of the execution, or is an answer of the library to some call. -/
def Label.continues (i : κ) : Label κ → Bool
  | .proceed j _ => j = i
  | .adapter b => b.resumes
  | _ => false

/-- How many statements an execution has, from its first suspension on. -/
def UseCase.statements : UseCase → ℕ
  | .teardown _ | .send _ | .unsubscribe _ => 1
  | .subscribe _ => 2
  | .sendWithReply _ => 5

/-- How often the calls of an execution are resumed at most, if `n` subscriptions are registered. -/
def UseCase.awaits (n : ℕ) : UseCase → ℕ
  | .teardown _ => 2 * n + 4
  | .send _ | .subscribe _ => 4
  | .sendWithReply _ => 11
  | .unsubscribe _ => 3

/-- The subscriptions that were registered with the adapter in the course of the run. -/
def registrations [Inhabited κ] (as : List (Label κ)) : List SubscriptionHandle :=
  RabbitMqAdapter.registrations (adapterLabels as)

/-- Every execution comes to its end. -/
structure Completes [Inhabited κ] (as : List (Label κ)) (t : State κ) : Prop where
  /-- An execution under way can run its next statement, or it awaits a call; the call can go on, or
  it waits for one that can. -/
  advances : ∀ {i}, (t.progress i).isOver = false →
    (∀ newGuid, ∃ u, step t (.proceed i newGuid) = some u) ∨
      ∃ x, (t.backend.adapter.calls (i, x)).atRest = false ∧ (Resumable t (i, x) ∨
        ((t.backend.adapter.calls (i, x)).awaitsLock = true ∧
          ∃ c, t.backend.adapter.lockHolder = some c ∧ Resumable t c))
  statements : ∀ {i u}, .begin i u ∈ as → as.countP (Label.isStatement i) ≤ u.statements
  awaits : ∀ {i u}, .begin i u ∈ as →
    as.countP (Label.isAwait i) ≤ u.awaits (registrations as).length
  /-- The library can bring the execution to its end with nothing else beginning. -/
  finishes : ∀ {i}, t.progress i ≠ .idle → ∃ bs v, run step t bs = some v ∧
    (∀ b ∈ bs, b.continues i = true) ∧ (v.progress i).hasEnded = true

/-! ## Calls that were made -/

/-- The call that an execution at this place awaits. -/
def Progress.awaited : Progress → Option Await
  | .calling | .subscribing | .declaring _ | .unsubscribing _ => some .first
  | .sending .. => some .send
  | .cleaningUp .. => some .cleanUp
  | .idle | .subscribeAssigned _ | .replyAssigned .. | .replyRegistered .. | .returned _
  | .threw _ => none

/-- The execution may still make the call. -/
def Progress.owes : Progress → Await → Bool
  | .idle, _ | .declaring _, .send | .declaring _, .cleanUp | .replyAssigned .., .send
  | .replyAssigned .., .cleanUp | .replyRegistered .., .send | .replyRegistered .., .cleanUp
  | .sending .., .cleanUp => true
  | _, _ => false

/-- The executions have made the calls that they await, and not yet those that they owe. -/
structure Poised (s : State κ) : Prop where
  owed : ∀ {i x}, (s.progress i).owes x = true →
    s.backend.adapter.calls (i, x) = .idle ∧ s.backend.executions (i, x) = .idle
  awaited : ∀ {i x}, (s.progress i).awaited = some x → ∃ call, (s.progress i).Awaits x call ∧
    (s.backend.adapter.calls (i, x)).Answers call ∧
      s.backend.executions (i, x) = Backend.executionOf call

omit [DecidableEq κ] in
theorem poised_initial [Inhabited κ] : Poised (State.initial : State κ) where
  owed _ := ⟨rfl, rfl⟩
  awaited := nofun

theorem Poised.of_back {b : Backend.Label (κ × Await)} (hs : Poised s)
    (hback : Backend.step s.backend b = some t.backend)
    (howes : ∀ i x, (t.progress i).owes x = true →
      (s.progress i).owes x = true ∧ b.mover ≠ some (i, x))
    (hawaits : ∀ i x, (t.progress i).awaited = some x →
      (∃ call, b = .start (i, x) call ∧ (t.progress i).Awaits x call) ∨
        (t.progress i = s.progress i ∧ b.mover ≠ some (i, x))) : Poised t := by
  refine ⟨fun {i x} howed ↦ ?_, fun {i x} hawaited ↦ ?_⟩
  · obtain ⟨howed', hmover⟩ := howes i x howed
    obtain ⟨hidle, hexecution⟩ := hs.owed howed'
    refine ⟨?_, (Backend.executions_of_step hback hmover).trans hexecution⟩
    rcases Backend.idle_of_step hback hidle with hidle' | ⟨call, rfl⟩
    · exact hidle'
    · exact absurd rfl hmover
  · rcases hawaits i x hawaited with ⟨call, rfl, hmade⟩ | ⟨hsame, hmover⟩
    · obtain ⟨-, adapter, hadapter, ht⟩ := Backend.start_spec hback
      obtain ⟨-, hstart⟩ := Option.ite_none_right_eq_some.mp hadapter
      rw [ht]
      refine ⟨call, hmade, ?_, Function.update_self ..⟩
      cases hstart
      exact RabbitMqAdapter.answers_start call
    · rw [hsame] at hawaited ⊢
      obtain ⟨call, hmade, hanswers, hexecution⟩ := hs.awaited hawaited
      refine ⟨call, hmade, ?_, (Backend.executions_of_step hback hmover).trans hexecution⟩
      rcases adapter_of_back hback with ⟨-, hadapter⟩ | ⟨l, hl, -⟩
      · rw [hadapter]
        exact hanswers
      · exact hanswers.of_step hl

omit [DecidableEq κ] in
theorem Moves.mover {b : Backend.Label (κ × Await)} {p : Progress} (h : Moves s i (some b) p) :
    ∃ x, b.mover = some (i, x) := by
  cases h <;> exact ⟨_, rfl⟩

theorem Poised.of_execution {b : Backend.Label (κ × Await)} {k : κ} {p : Progress} (hs : Poised s)
    (hback : Backend.step s.backend b = some t.backend)
    (hprogress : t.progress = Function.update s.progress k p)
    (hmover : ∀ i x, i ≠ k → b.mover ≠ some (i, x))
    (howes : ∀ x, p.owes x = true → (s.progress k).owes x = true ∧ b.mover ≠ some (k, x))
    (hawaits : ∀ x, p.awaited = some x → ∃ call, b = .start (k, x) call ∧ p.Awaits x call) :
    Poised t := by
  refine hs.of_back hback (fun i x howed ↦ ?_) fun i x hawaited ↦ ?_
  · rw [hprogress] at howed
    by_cases hik : i = k
    · subst hik
      rw [Function.update_self] at howed
      exact howes x howed
    · rw [Function.update_of_ne hik] at howed
      exact ⟨howed, hmover i x hik⟩
  · rw [hprogress] at hawaited ⊢
    by_cases hik : i = k
    · subst hik
      rw [Function.update_self] at hawaited ⊢
      exact Or.inl (hawaits x hawaited)
    · rw [Function.update_of_ne hik]
      exact Or.inr ⟨rfl, hmover i x hik⟩

theorem Poised.of_begin {k : κ} {u : UseCase} (hs : Poised s) (hidle : s.progress k = .idle)
    (hback : Backend.step s.backend (.start (k, .first) u.call) = some t.backend)
    (hprogress : t.progress = Function.update s.progress k u.awaiting) : Poised t := by
  refine hs.of_execution hback hprogress ?_ (fun x howed ↦ ?_) fun x hawaited ↦ ?_
  · rintro i x hik ⟨⟩
    exact hik rfl
  · refine ⟨by rw [hidle]; rfl, ?_⟩
    rintro ⟨⟩
    cases u <;> cases howed
  · obtain rfl : x = .first := by cases u <;> cases hawaited <;> rfl
    exact ⟨u.call, rfl, awaits_awaiting u⟩

theorem Poised.of_others {b : Backend.Label (κ × Await)} (hs : Poised s)
    (hback : Backend.step s.backend b = some t.backend) (hprogress : t.progress = s.progress)
    (hmover : b.mover = none) : Poised t := by
  have hnone : ∀ c, b.mover ≠ some c := by simp [hmover]
  exact hs.of_back hback (fun i x howed ↦ ⟨hprogress ▸ howed, hnone _⟩)
    fun i x _ ↦ Or.inr ⟨by rw [hprogress], hnone _⟩

theorem Poised.of_statement {b : Backend.Label (κ × Await)} {k : κ} {p : Progress} (hs : Poised s)
    (hmoves : Moves s k (some b) p) (hback : Backend.step s.backend b = some t.backend)
    (hprogress : t.progress = Function.update s.progress k p) : Poised t := by
  refine hs.of_execution hback hprogress (fun i x hik heq ↦ ?_) (fun x howed ↦ ?_)
    fun x hawaited ↦ ?_
  · obtain ⟨y, hmover⟩ := hmoves.mover
    rw [hmover] at heq
    cases heq
    exact hik rfl
  · cases hmoves with
    | assignsReply command handle queueName hfrom
    | registersReply command handle queueName hfrom
    | sends command handle queueName correlationId message hfrom =>
      rw [hfrom]
      cases x <;> cases howed <;> exact ⟨rfl, nofun⟩
    | assigns | registers | cleansUp | drops | unsubscribes => cases howed
  · cases hmoves with
    | sends command handle queueName correlationId message =>
      cases hawaited
      exact ⟨_, rfl, .sending handle correlationId message⟩
    | cleansUp handle correlationId ex =>
      cases hawaited
      exact ⟨_, rfl, .cleaningUp handle ex⟩
    | assigns | registers | assignsReply | registersReply | drops | unsubscribes => cases hawaited

/-- A statement of an execution leaves the backend as it is: the execution has ended with it. -/
theorem Poised.of_end {k : κ} {p : Progress} (hs : Poised s) (hmoves : Moves s k none p)
    (hback : t.backend = s.backend) (hprogress : t.progress = Function.update s.progress k p) :
    Poised t := by
  have hrests : ∀ x, p.owes x = false ∧ p.awaited = none := by
    cases hmoves <;> exact fun _ ↦ ⟨rfl, rfl⟩
  refine ⟨fun {i x} howed ↦ ?_, fun {i x} hawaited ↦ ?_⟩
  · rw [hprogress] at howed
    by_cases hik : i = k
    · rw [hik, Function.update_self, (hrests x).1] at howed
      cases howed
    · rw [Function.update_of_ne hik] at howed
      rw [hback]
      exact hs.owed howed
  · rw [hprogress] at hawaited ⊢
    by_cases hik : i = k
    · rw [hik, Function.update_self, (hrests x).2] at hawaited
      cases hawaited
    · rw [Function.update_of_ne hik] at hawaited ⊢
      rw [hback]
      exact hs.awaited hawaited

theorem poised_step (hs : Poised s) (hstep : step s a = some t) : Poised t := by
  cases step_cases hstep with
  | begins k u ha hidle hback hprogress => exact hs.of_begin hidle hback hprogress
  | adapter b ha hback hprogress => exact hs.of_others hback hprogress rfl
  | dispatches ch delivery ha hback hprogress => exact hs.of_others hback hprogress rfl
  | proceeds k newGuid b p ha hmoves hback hprogress =>
    cases b with
    | none => exact hs.of_end hmoves hback hprogress
    | some b => exact hs.of_statement hmoves hback hprogress

/-! ## The next statement -/

theorem exists_along_start {p : Progress} (hcall : s.backend.adapter.calls (i, x) = .idle)
    (hexecution : s.backend.executions (i, x) = .idle) (call : Call) :
    ∃ t, s.along (.start (i, x) call) i p = some t := by
  rw [State.along, Backend.step, if_pos hexecution, RabbitMqAdapter.step, if_pos hcall]
  exact ⟨_, rfl⟩

theorem exists_along_assign {p : Progress} {result : RabbitMqAdapter.Result}
    {handle : SubscriptionHandle} (hexecution : s.backend.executions (i, x) = .subscribing)
    (hcall : s.backend.adapter.calls (i, x) = .ended (.ok result))
    (hreturned : RabbitMqAdapter.returnedHandle (.ok result) = some handle) :
    ∃ t, s.along (.assign (i, x)) i p = some t := by
  simp only [State.along, Backend.step, hexecution, hcall, hreturned]
  exact ⟨_, rfl⟩

theorem exists_along_register {p : Progress} {handle : SubscriptionHandle}
    (hexecution : s.backend.executions (i, x) = .assigned handle) :
    ∃ t, s.along (.register (i, x)) i p = some t := by
  simp only [State.along, Backend.step, hexecution]
  exact ⟨_, rfl⟩

theorem exists_along_unregister {p : Progress} {result : RabbitMqAdapter.Result}
    {handle : SubscriptionHandle} (hexecution : s.backend.executions (i, x) = .unsubscribing handle)
    (hcall : s.backend.adapter.calls (i, x) = .ended (.ok result)) :
    ∃ t, s.along (.unregister (i, x)) i p = some t := by
  simp only [State.along, Backend.step, hexecution, hcall]
  exact ⟨_, rfl⟩

omit [DecidableEq κ] in
theorem Poised.exists_ended (hs : Poised s) (hawaited : (s.progress i).awaited = some x)
    (hrest : (s.backend.adapter.calls (i, x)).atRest = true) :
    ∃ call result, (s.progress i).Awaits x call ∧
      s.backend.adapter.calls (i, x) = .ended result ∧
        s.backend.executions (i, x) = Backend.executionOf call ∧
          ∀ {method value}, call = .consume method → result = .ok value →
            ∃ handle queueName, value = RabbitMqAdapter.consumeResult handle queueName method := by
  obtain ⟨call, hmade, hanswers, hexecution⟩ := hs.awaited hawaited
  have hwithin := hanswers.within
  cases hcall : s.backend.adapter.calls (i, x) <;> rw [hcall] at hrest hwithin
  case idle => cases hwithin
  case ended result =>
    refine ⟨call, result, hmade, rfl, hexecution, fun hmethod hvalue ↦ ?_⟩
    exact hanswers.result hmethod (hvalue ▸ hcall)
  all_goals cases hrest

theorem exists_proceed_of_calling {result : Except BusException RabbitMqAdapter.Result}
    (hp : s.progress i = .calling)
    (hcall : s.backend.adapter.calls (i, .first) = .ended result) :
    ∃ t, proceed s i newGuid = some t := by
  cases result <;> simp only [proceed, hp, hcall] <;> exact ⟨_, rfl⟩

/-- The handle of a consuming call is assigned, or its exception passes on. -/
theorem Poised.exists_proceed_of_consuming (hs : Poised s)
    (hfrom : s.progress i = .subscribing ∨ ∃ command, s.progress i = .declaring command)
    (hrest : (s.backend.adapter.calls (i, .first)).atRest = true) :
    ∃ t, proceed s i newGuid = some t := by
  rcases hfrom with hp | ⟨command, hp⟩
  all_goals
    obtain ⟨call, result, hmade, hcall, hexecution, hresult⟩ :=
      hs.exists_ended (by rw [hp]; rfl) hrest
    rw [hp] at hmade
    cases hmade
    cases result with
    | error ex =>
      simp only [proceed, hp, hcall]
      exact ⟨_, rfl⟩
    | ok value =>
      obtain ⟨handle, queueName, rfl⟩ := hresult rfl rfl
      simp only [proceed, hp, hcall, RabbitMqAdapter.consumeResult]
      exact exists_along_assign hexecution hcall rfl

theorem Poised.exists_proceed_of_replyRegistered {command : SendMessageWithReplyCommand}
    {handle : SubscriptionHandle} {queueName : Utf16} (hs : Poised s)
    (hp : s.progress i = .replyRegistered command handle queueName) :
    ∃ t, proceed s i newGuid = some t := by
  obtain ⟨hidle, hexecution⟩ := hs.owed (i := i) (x := .send) (by rw [hp]; rfl)
  simp only [proceed, hp]
  split
  · exact ⟨_, rfl⟩
  · exact exists_along_start hidle hexecution _

theorem Poised.exists_proceed_of_sending {handle : SubscriptionHandle} {correlationId : Utf16}
    (hs : Poised s) {result : Except BusException RabbitMqAdapter.Result}
    (hp : s.progress i = .sending handle correlationId)
    (hcall : s.backend.adapter.calls (i, .send) = .ended result) :
    ∃ t, proceed s i newGuid = some t := by
  obtain ⟨hidle, hexecution⟩ := hs.owed (i := i) (x := .cleanUp) (by rw [hp]; rfl)
  cases result with
  | ok value =>
    simp only [proceed, hp, hcall]
    exact ⟨_, rfl⟩
  | error ex =>
    simp only [proceed, hp, hcall]
    exact exists_along_start hidle hexecution _

/-- An execution that has unsubscribed a handle drops its buffer, or an exception passes on. -/
theorem exists_proceed_of_dropping {handle : SubscriptionHandle}
    {result : Except BusException RabbitMqAdapter.Result}
    (hfrom : (∃ ex, s.progress i = .cleaningUp handle ex ∧ x = .cleanUp) ∨
      (s.progress i = .unsubscribing handle ∧ x = .first))
    (hcall : s.backend.adapter.calls (i, x) = .ended result)
    (hexecution : s.backend.executions (i, x) = .unsubscribing handle) :
    ∃ t, proceed s i newGuid = some t := by
  rcases hfrom with ⟨ex, hp, rfl⟩ | ⟨hp, rfl⟩
  all_goals
    cases result with
    | ok value =>
      simp only [proceed, hp, hcall]
      exact exists_along_unregister hexecution hcall
    | error ex' =>
      simp only [proceed, hp, hcall]
      exact ⟨_, rfl⟩

/-- **The next statement can run as soon as the awaited call has ended.** -/
theorem exists_proceed (hs : Poised s) (hordered : Ordered s)
    (hbusy : (s.progress i).isOver = false)
    (hrest : ∀ x, (s.progress i).awaited = some x →
      (s.backend.adapter.calls (i, x)).atRest = true) (newGuid : Guid) :
    ∃ t, step s (.proceed i newGuid) = some t := by
  have hended : ∀ {x}, (s.progress i).awaited = some x →
      ∃ result, s.backend.adapter.calls (i, x) = .ended result := by
    intro x hawaited
    obtain ⟨-, result, -, hcall, -⟩ := hs.exists_ended hawaited (hrest x hawaited)
    exact ⟨result, hcall⟩
  cases hp : s.progress i with
  | idle | returned | threw =>
    rw [hp] at hbusy
    cases hbusy
  | calling =>
    obtain ⟨result, hcall⟩ := hended (x := .first) (by rw [hp]; rfl)
    exact exists_proceed_of_calling hp hcall
  | subscribing => exact hs.exists_proceed_of_consuming (Or.inl hp) (hrest .first (by rw [hp]; rfl))
  | subscribeAssigned handle =>
    simp only [step, proceed, hp]
    exact exists_along_register (hordered.reached (by rw [hp]; rfl))
  | declaring command =>
    exact hs.exists_proceed_of_consuming (Or.inr ⟨command, hp⟩) (hrest .first (by rw [hp]; rfl))
  | replyAssigned command handle queueName =>
    simp only [step, proceed, hp]
    exact exists_along_register (hordered.reached (by rw [hp]; rfl))
  | replyRegistered command handle queueName => exact hs.exists_proceed_of_replyRegistered hp
  | sending handle correlationId =>
    obtain ⟨result, hcall⟩ := hended (x := .send) (by rw [hp]; rfl)
    exact hs.exists_proceed_of_sending hp hcall
  | cleaningUp handle ex =>
    obtain ⟨result, hcall⟩ := hended (x := .cleanUp) (by rw [hp]; rfl)
    exact exists_proceed_of_dropping (Or.inl ⟨ex, hp, rfl⟩) hcall
      (hordered.reached (by rw [hp]; rfl))
  | unsubscribing handle =>
    obtain ⟨result, hcall⟩ := hended (x := .first) (by rw [hp]; rfl)
    exact exists_proceed_of_dropping (Or.inr ⟨hp, rfl⟩) hcall (hordered.reached (by rw [hp]; rfl))

/-! ## The statements that are left -/

/-- How many statements an execution at this place has left, at most. -/
def Progress.left : Progress → ℕ
  | .returned _ | .threw _ => 0
  | .calling | .subscribeAssigned _ | .cleaningUp .. | .unsubscribing _ => 1
  | .subscribing | .sending .. => 2
  | .replyRegistered .. => 3
  | .replyAssigned .. => 4
  | .idle | .declaring _ => 5

omit [DecidableEq κ] in
theorem Moves.left_lt {b : Option (Backend.Label (κ × Await))} {p : Progress}
    (h : Moves s i b p) (hbusy : (s.progress i).isOver = false) :
    p.left < (s.progress i).left := by
  cases h with
  | throws =>
    generalize s.progress i = q at hbusy
    cases q
    case idle | returned | threw => cases hbusy
    all_goals simp [Progress.left]
  | assigns handle hfrom | registers handle hfrom | assignsReply command handle queueName hfrom
  | registersReply command handle queueName hfrom
  | sends command handle queueName correlationId message hfrom
  | returns handle correlationId hfrom | cleansUp handle correlationId ex hfrom
  | drops handle ex hfrom | unsubscribes handle hfrom | ends hfrom =>
    rw [hfrom]
    simp [Progress.left]

theorem isOver_of_proceed (hstep : proceed s i newGuid = some t) :
    (s.progress i).isOver = false := by
  cases hp : s.progress i <;> first | rfl | simp [proceed, hp] at hstep

/-- **A statement leaves fewer statements**, and nothing else touches them. -/
theorem left_of_step (hstep : step s a = some t) :
    (t.progress i).left + (a.isStatement i).toNat ≤ (s.progress i).left := by
  cases step_cases hstep with
  | begins k u ha hidle hback hprogress =>
    subst ha
    rw [hprogress]
    by_cases hik : i = k
    · subst hik
      rw [Function.update_self, hidle]
      cases u <;> simp [UseCase.awaiting, Progress.left, Label.isStatement]
    · rw [Function.update_of_ne hik]
      exact le_rfl
  | adapter b ha hback hprogress =>
    subst ha
    rw [hprogress]
    exact le_rfl
  | dispatches ch delivery ha hback hprogress =>
    subst ha
    rw [hprogress]
    exact le_rfl
  | proceeds k newGuid b p ha hmoves hback hprogress =>
    subst ha
    rw [hprogress]
    by_cases hik : i = k
    · subst hik
      have hless := hmoves.left_lt (isOver_of_proceed hstep)
      rw [Function.update_self, Label.isStatement, decide_eq_true rfl]
      exact hless
    · rw [Function.update_of_ne hik]
      simp [Label.isStatement, Ne.symm hik]

theorem statements_le [Inhabited κ] (hrun : run step State.initial as = some t)
    (hmem : .begin i u ∈ as) : as.countP (Label.isStatement i) ≤ u.statements := by
  obtain ⟨before, after, rfl⟩ := List.append_of_mem hmem
  rw [run_append] at hrun
  obtain ⟨m, hbefore, hrest⟩ := Option.bind_eq_some_iff.mp hrun
  obtain ⟨m', hbegin, hafter⟩ := Option.bind_eq_some_iff.mp hrest
  have hcounts := countP_add_rank_le (r := fun s ↦ (s.progress i).left)
    (fun hstep ↦ left_of_step hstep) hbefore
  have hcounts' := countP_add_rank_le (r := fun s ↦ (s.progress i).left)
    (fun hstep ↦ left_of_step hstep) hafter
  cases step_cases hbegin with
  | begins k u' ha hidle hback hprogress =>
    cases ha
    have hleft : (m'.progress i).left = u.statements := by
      rw [hprogress, Function.update_self]
      cases u <;> rfl
    have hnone : (State.initial : State κ).progress i = .idle := rfl
    rw [List.countP_append, List.countP_cons]
    simp only [hidle, hnone, Progress.left] at hcounts
    simp only [Label.isStatement, Bool.false_eq_true, if_false]
    omega
  | proceeds k newGuid b p ha => cases ha
  | adapter b ha => cases ha
  | dispatches ch delivery ha => cases ha

/-! ## The awaits -/

theorem countP_isAwait [Inhabited κ] (hrun : run step State.initial as = some t) (i : κ) :
    as.countP (Label.isAwait i) = RabbitMqAdapter.resumptions (i, .first) (adapterLabels as)
      + RabbitMqAdapter.resumptions (i, .send) (adapterLabels as)
      + RabbitMqAdapter.resumptions (i, .cleanUp) (adapterLabels as) := by
  refine run_induction (motive := fun as _ ↦ as.countP (Label.isAwait i)
    = RabbitMqAdapter.resumptions (i, .first) (adapterLabels as)
      + RabbitMqAdapter.resumptions (i, .send) (adapterLabels as)
      + RabbitMqAdapter.resumptions (i, .cleanUp) (adapterLabels as)) rfl ?_ hrun
  intro as m a v hm ih hstep
  rw [adapterLabels_concat hm, List.countP_append, ih]
  simp only [RabbitMqAdapter.resumptions, List.countP_append]
  suffices [a].countP (Label.isAwait i)
      = RabbitMqAdapter.resumptions (i, .first) (adapterLabel m a).toList
        + RabbitMqAdapter.resumptions (i, .send) (adapterLabel m a).toList
        + RabbitMqAdapter.resumptions (i, .cleanUp) (adapterLabel m a).toList by
    simp only [RabbitMqAdapter.resumptions] at this
    omega
  cases a with
  | begin k u => rfl
  | dispatch ch delivery => rfl
  | proceed k newGuid =>
    -- a statement makes calls and resumes none
    have hnone : ∀ x, RabbitMqAdapter.resumptions (i, x)
        (adapterLabel m (.proceed k newGuid)).toList = 0 := by
      intro x
      unfold adapterLabel
      dsimp only
      repeat' split
      all_goals rfl
    rw [hnone, hnone, hnone]
    rfl
  | adapter b =>
    cases b with
    | resume c awaited newGuid =>
      obtain ⟨k, y⟩ := c
      by_cases hik : k = i
      · subst hik
        cases y <;> simp [adapterLabel, RabbitMqAdapter.resumptions, Label.isAwait]
      · simp [adapterLabel, RabbitMqAdapter.resumptions, Label.isAwait, hik]
    | start | brokerConsumes | connectionLost | channelLost => rfl

/-- How often the call is resumed at most, if `n` subscriptions are registered. -/
def UseCase.limit (n : ℕ) : UseCase → Await → ℕ
  | u, .first => u.call.awaits n
  | .sendWithReply _, .send => 4
  | .sendWithReply _, .cleanUp => 3
  | _, _ => 0

theorem resumptions_le_limit [Inhabited κ] (hrun : run step State.initial as = some t)
    (hmem : .begin i u ∈ as) (x : Await) :
    RabbitMqAdapter.resumptions (i, x) (adapterLabels as)
      ≤ u.limit (registrations as).length x := by
  have hfollowed : Followed as t := followed_of_run hrun
  have hadapter := run_observed projects_adapter hrun
  by_cases hmade : ∃ call, .start (i, x) call ∈ adapterLabels as
  · obtain ⟨call, hcall⟩ := hmade
    refine (RabbitMqAdapter.resumptions_le_awaits hadapter hcall).trans ?_
    obtain ⟨u', hmem', hasks⟩ := hfollowed.asked hcall
    obtain rfl := hfollowed.unique hmem hmem'
    cases hasks <;> exact le_rfl
  · have hzero := RabbitMqAdapter.resumptions_eq_zero hadapter fun call hcall ↦ hmade ⟨call, hcall⟩
    exact hzero.trans_le (Nat.zero_le _)

theorem awaits_le [Inhabited κ] (hrun : run step State.initial as = some t)
    (hmem : .begin i u ∈ as) :
    as.countP (Label.isAwait i) ≤ u.awaits (registrations as).length := by
  rw [countP_isAwait hrun]
  have hfirst := resumptions_le_limit hrun hmem .first
  have hsend := resumptions_le_limit hrun hmem .send
  have hcleanUp := resumptions_le_limit hrun hmem .cleanUp
  cases u <;> simp only [UseCase.limit, UseCase.call, Call.awaits, UseCase.awaits]
    at hfirst hsend hcleanUp ⊢ <;> omega

/-! ## Bringing an execution to its end -/

/-- What holds in every reachable state. -/
structure Ready (s : State κ) : Prop where
  poised : Poised s
  ordered : Ordered s
  locked : Locked s.backend.adapter

theorem ready_step (hs : Ready s) (hstep : step s a = some t) : Ready t := by
  refine ⟨poised_step hs.poised hstep, ordered_step hs.ordered hstep, ?_⟩
  rcases projects_adapter hstep with ⟨-, hsame⟩ | ⟨b, -, hb⟩
  · have hadapter : t.backend.adapter = s.backend.adapter := hsame
    rw [hadapter]
    exact hs.locked
  · exact RabbitMqAdapter.locked_step hs.locked hb

theorem ready_of_run [Inhabited κ] (hrun : run step State.initial as = some t) : Ready t := by
  refine invariant_of_step (P := Ready) ⟨poised_initial, ordered_initial, ?_⟩
    (fun _ _ _ ↦ ready_step) hrun
  exact fun i ↦ iff_of_false nofun nofun

theorem step_adapter {b : RabbitMqAdapter.Label (κ × Await)}
    {adapter : RabbitMqAdapter.State (κ × Await)} (hb : b.resumes = true)
    (hstep : RabbitMqAdapter.step s.backend.adapter b = some adapter) :
    step s (.adapter b) = some { s with backend := { s.backend with adapter } } := by
  cases b with
  | resume c awaited newGuid => simp only [step, Backend.step, hstep, Option.map_some]
  | start | brokerConsumes | connectionLost | channelLost => cases hb

theorem run_adapter {bs : List (RabbitMqAdapter.Label (κ × Await))}
    {adapter : RabbitMqAdapter.State (κ × Await)} (hbs : ∀ b ∈ bs, b.resumes = true)
    (hrun : run RabbitMqAdapter.step s.backend.adapter bs = some adapter) :
    run step s (bs.map .adapter) = some { s with backend := { s.backend with adapter } } := by
  induction bs generalizing s with
  | nil =>
    cases hrun
    rfl
  | cons b bs ih =>
    obtain ⟨m, hm, hrest⟩ := Option.bind_eq_some_iff.mp hrun
    rw [List.map_cons, run_cons, step_adapter (hbs b List.mem_cons_self) hm]
    exact ih (fun b' hb' ↦ hbs b' (List.mem_cons_of_mem b hb')) hrest

theorem resumable_of_adapter {c : κ × Await}
    (h : RabbitMqAdapter.Resumable s.backend.adapter c) : Resumable s c := by
  obtain ⟨awaited, newGuid, adapter, hstep, hlock⟩ := h
  exact ⟨awaited, newGuid, _, step_adapter rfl hstep, hlock⟩

theorem exists_statement (hs : Ready s) (hbusy : (s.progress i).isOver = false) :
    ∃ bs v, run step s bs = some v ∧ (∀ b ∈ bs, b.continues i = true) ∧
      ((Ready v ∧ v.progress i ≠ .idle) ∧ (v.progress i).left < (s.progress i).left) := by
  have hproceeds : ∀ {m : State κ}, Ready m → m.progress i = s.progress i →
      (∀ x, (m.progress i).awaited = some x → (m.backend.adapter.calls (i, x)).atRest = true) →
      ∃ bs v, run step m bs = some v ∧ (∀ b ∈ bs, b.continues i = true) ∧
        ((Ready v ∧ v.progress i ≠ .idle) ∧ (v.progress i).left < (s.progress i).left) := by
    intro m hm hsame hrest
    obtain ⟨v, hstep⟩ := exists_proceed hm.poised hm.ordered (hsame ▸ hbusy) hrest ⟨0⟩
    obtain ⟨p, hp, -, hprogress⟩ := proceeds_of_proceed hstep
    have hleft := left_of_step (i := i) hstep
    refine ⟨[.proceed i ⟨0⟩], v, ?_, ?_, ⟨ready_step hm hstep, ?_⟩, ?_⟩
    · rw [run_cons, hstep]
      rfl
    · intro b hb
      rw [List.mem_singleton.mp hb]
      exact decide_eq_true rfl
    · rw [hprogress, Function.update_self]
      exact hp.ne_idle
    · rw [Label.isStatement, decide_eq_true rfl, hsame] at hleft
      exact hleft
  cases hawaited : (s.progress i).awaited with
  | none =>
    refine hproceeds hs rfl fun x hx ↦ ?_
    cases hawaited.symm.trans hx
  | some x =>
    obtain ⟨bs, adapter, hrun, hbs, -, hrest⟩ := RabbitMqAdapter.exists_atRest hs.locked (i, x)
    have hlift := run_adapter hbs hrun
    refine exists_run_append hlift ?_ (hproceeds ?_ rfl fun y hy ↦ ?_)
    · intro b hb
      obtain ⟨b', hb', rfl⟩ := List.mem_map.mp hb
      exact hbs b' hb'
    · exact invariant_of_step hs (fun _ _ _ ↦ ready_step) hlift
    · cases hawaited.symm.trans hy
      exact hrest

theorem exists_hasEnded (hs : Ready s) (hbegun : s.progress i ≠ .idle) :
    ∃ bs v, run step s bs = some v ∧ (∀ b ∈ bs, b.continues i = true) ∧
      ((Ready v ∧ v.progress i ≠ .idle) ∧ (v.progress i).hasEnded = true) := by
  refine exists_run_of_descends (r := fun s ↦ (s.progress i).left) ?_ ⟨hs, hbegun⟩
  rintro s ⟨hs, hbegun⟩ hended
  refine exists_statement hs ?_
  cases hp : s.progress i <;> rw [hp] at hbegun hended
  case idle => exact absurd rfl hbegun
  case returned | threw => exact absurd rfl hended
  all_goals rfl

/-- **Every use case comes to its end**: it can always go on, or waits for the semaphore, whose
holder can; and its statements and its awaits are bounded. -/
theorem completes_of_run [Inhabited κ] (hrun : run step State.initial as = some t) :
    Completes as t := by
  have hready : Ready t := ready_of_run hrun
  refine ⟨fun {i} hbusy ↦ ?_, statements_le hrun, awaits_le hrun, fun hbegun ↦ ?_⟩
  · by_cases hflight : ∃ x, (t.backend.adapter.calls (i, x)).atRest = false
    · obtain ⟨x, hflight⟩ := hflight
      refine Or.inr ⟨x, hflight, ?_⟩
      refine (RabbitMqAdapter.resumable_of_locked hready.locked hflight).imp
        resumable_of_adapter ?_
      rintro ⟨hwaits, c, hholder, hresumable⟩
      exact ⟨hwaits, c, hholder, resumable_of_adapter hresumable⟩
    · refine Or.inl (exists_proceed hready.poised hready.ordered hbusy fun x _ ↦ ?_)
      by_contra hrest
      exact hflight ⟨x, Bool.not_eq_true _ ▸ hrest⟩
  · obtain ⟨bs, v, hbs, hcontinues, -, hended⟩ := exists_hasEnded hready hbegun
    exact ⟨bs, v, hbs, hcontinues, hended⟩

open RabbitMqAdapter.Label (succeed)

private def undeliverable : SendMessageWithReplyCommand where
  target := some (Utf16.ofString "nowhere")
  routingKey := some (Utf16.ofString "lost")
  payload := some (Utf16.ofString "ping")
  correlationId := none
  headers := none

/-- A send with reply fails, and its clean-up waits for a disconnect that is closing its channel. -/
private def cleansUpMeanwhile : List (Label ℕ) :=
  [.begin 0 (.teardown (.connect .localhost)), .adapter (succeed (0, .first)),
    .adapter (succeed (0, .first)), .proceed 0 ⟨0⟩,
    .begin 1 (.sendWithReply undeliverable), .adapter (succeed (1, .first)),
    .adapter (.resume (1, .first) (.declared (Utf16.ofString "amq.gen-1")) ⟨0⟩),
    .adapter (.brokerConsumes 0), .adapter (.resume (1, .first) .completed ⟨7⟩),
    .adapter (succeed (1, .first)), .proceed 1 ⟨0⟩, .proceed 1 ⟨0⟩, .proceed 1 ⟨8⟩,
    .adapter (succeed (1, .send)),
    .adapter (.resume (1, .send) (.failed .operationInterrupted) ⟨0⟩),
    .adapter (succeed (1, .send)), .begin 2 (.teardown .disconnect),
    .adapter (succeed (2, .first)), .proceed 1 ⟨0⟩]

theorem completes_of_cleansUpMeanwhile : ∃ t,
    run step State.initial cleansUpMeanwhile = some t ∧
      t.backend.adapter.calls (1, .cleanUp) = .waitingToUnsubscribe ⟨⟨7⟩⟩ ∧
        t.backend.adapter.lockHolder = some (2, .first) ∧ Completes cleansUpMeanwhile t :=
  ⟨_, rfl, rfl, rfl, completes_of_run rfl⟩

end UseCases

end BusTester
