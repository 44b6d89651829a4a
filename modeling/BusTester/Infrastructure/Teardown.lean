import BusTester.Infrastructure.ConnectionLifecycle
import BusTester.Infrastructure.Methods
import Mathlib.Data.Fintype.Option

/-!
# What `TeardownAsync` relies on, and what it leaves when it fails

`TeardownAsync` uses the connection field in three places. Two of them follow the check for `null`
without a suspension in between. The third, `DisposeAsync`, comes after the `await` of `CloseAsync`,
and nothing keeps another call from clearing the field meanwhile. `neverNull_of_disposesAlone` says
when that does not happen.

A single `ConnectAsync` or `DisconnectAsync` that nothing interleaves with has other troubles. The
`foreach` closes and disposes one channel after the other, the dictionary is cleared only after it,
and the connection is let go of later still. `leftIntact_iff` lists the failures that leave the
adapter as it was, or disconnected.
-/

namespace BusTester

namespace RabbitMqAdapter

open Transition

variable {ι : Type} {s t u : State ι} {i j : ι} {a : Label ι} {as : List (Label ι)}
  {awaited : Awaited} {newGuid : Guid} {caller : Caller} {rest pre : List ChannelId}
  {ch : ChannelId} {failure : Failure}

/-! ## The uses of the connection field -/

/-- The connection whose close is awaited. -/
def Pc.closing : Pc → Option ConnectionId
  | .closingConnection _ c => some c
  | _ => none

/-- What the field holds where the code after the `try` block uses it: nowhere if it is `null`, else
for `IsOpen`, and for `CloseAsync` or `DisposeAsync`. -/
def usesAfterTry (connection : Option ConnectionId) : List (Option ConnectionId) :=
  if connection = none then [] else [connection, connection]

/-- What `_connection` holds at each of its uses in `TeardownAsync` that the step makes. -/
def connectionUses (s : State ι) : Label ι → List (Option ConnectionId)
  | .resume i .completed _ =>
    match s.calls i with
    | .waitingToTearDown _ =>
      if s.subscriptionChannels = [] then usesAfterTry s.connection else []
    | .disposingChannel _ _ [] => usesAfterTry s.connection
    -- `DisposeAsync`, once `CloseAsync` has completed.
    | .closingConnection _ _ => [s.connection]
    | _ => []
  | _ => []

/-- No use finds `null`. -/
def NeverNull (s : State ι) (a : Label ι) : Prop := none ∉ connectionUses s a

/-- A disposal of the connection completes only while no call awaits its close. -/
def DisposesAlone (s : State ι) : Label ι → Prop
  | .resume i .completed _ => (s.calls i).disposing ≠ none → ∀ j, (s.calls j).closing = none
  | _ => True

/-- A call that awaits the close of the connection finds it in the field. -/
def HoldsClosing (s : State ι) : Prop := ∀ i, (s.calls i).closing ≠ none → s.connection ≠ none

instance (s : State ι) (a : Label ι) : Decidable (NeverNull s a) :=
  inferInstanceAs (Decidable (none ∉ connectionUses s a))

instance [Fintype ι] (s : State ι) : DecidablePred (DisposesAlone s)
  | .resume i .completed _ => inferInstanceAs (Decidable
      ((s.calls i).disposing ≠ none → ∀ j, (s.calls j).closing = none))
  | .resume _ (.failed _) _ | .resume _ (.declared _) _ | .start _ _ | .brokerConsumes _
  | .connectionLost _ | .channelLost _ => isTrue trivial

theorem none_notMem_usesAfterTry {connection : Option ConnectionId} :
    none ∉ usesAfterTry connection := by
  unfold usesAfterTry
  split
  · exact List.not_mem_nil
  · rename_i hsome
    simp only [List.mem_cons, List.not_mem_nil, or_false, or_self]
    exact fun hnone ↦ hsome hnone.symm

theorem holdsClosing_initial [Inhabited ι] : HoldsClosing (State.initial : State ι) :=
  fun _ h ↦ absurd rfl h

/-- **The uses that follow the check are safe**; the one after the close needs the field. -/
theorem HoldsClosing.neverNull (hs : HoldsClosing s) : NeverNull s a := by
  unfold NeverNull connectionUses
  split
  · rename_i i newGuid
    split
    · split
      · exact none_notMem_usesAfterTry
      · exact List.not_mem_nil
    · exact none_notMem_usesAfterTry
    · rename_i caller c hcall
      rw [List.mem_singleton]
      exact fun hnone ↦ hs i (by rw [hcall]; exact nofun) hnone.symm
    · exact List.not_mem_nil
  · exact List.not_mem_nil

theorem Pc.Fits.of_closing {pc : Pc} {connection : Option ConnectionId}
    (hfits : pc.Fits connection) (h : pc.closing ≠ none) : connection ≠ none := by
  cases pc with
  | closingConnection caller c =>
    obtain rfl : connection = some c := hfits
    exact nofun
  | _ => exact absurd rfl h

section Steps

variable [DecidableEq ι]

theorem HoldsClosing.goto {pc : Pc} (hs : HoldsClosing s)
    (hconnection : t.connection = s.connection) (hcalls : t.calls = Function.update s.calls i pc)
    (hfits : pc.Fits s.connection) : HoldsClosing t := by
  intro j hj
  rw [hconnection]
  by_cases hji : j = i
  · rw [hcalls, hji, Function.update_self] at hj
    exact hfits.of_closing hj
  · rw [hcalls, Function.update_of_ne hji] at hj
    exact hs j hj

theorem holdsClosing_step (hs : HoldsClosing s) (halone : DisposesAlone s a)
    (hstep : step s a = some t) : HoldsClosing t := by
  cases step_cases hstep with
  | starts i call pc' ha hidle ht hbare =>
    exact hs.goto (by rw [ht]; rfl) (by rw [ht]; rfl) hbare.fits
  | moves i awaited newGuid ha hframe =>
    obtain ⟨pc', hcalls, -, hfits, -⟩ := hframe.calls
    exact hs.goto hframe.connection hcalls hfits
  | registers i awaited newGuid ha hframe =>
    obtain ⟨pc', hcalls, -, hfits, -⟩ := hframe.calls
    exact hs.goto hframe.connection hcalls hfits
  | disposes i awaited newGuid ha hdisposes =>
    subst ha
    obtain ⟨caller, c, hcall, rfl, ht⟩ := hdisposes
    have hnone : ∀ j, (s.calls j).closing = none := halone (by rw [hcall]; exact nofun)
    obtain ⟨pc', hgoto, hbare⟩ := exists_goto_teardownReturn
      (s := { s.disposeConnection c with connection := none }) i caller rfl
    rw [hgoto] at ht
    subst ht
    have hempty : HoldsClosing { s.disposeConnection c with connection := none } :=
      fun j hj ↦ absurd (hnone j) hj
    exact hempty.goto rfl rfl hbare.fits
  | connects i awaited newGuid ha hconnects =>
    obtain ⟨config, -, -, rfl⟩ := hconnects
    exact fun _ _ ↦ nofun
  | environment ha hquiet =>
    intro j hj
    rw [hquiet.calls] at hj
    rw [hquiet.connection]
    exact hs j hj

/-- **No use of the field finds `null`**, in runs in which the connection is not disposed while
another call awaits its close. -/
theorem neverNull_of_disposesAlone [Inhabited ι]
    (halone : Guarded step DisposesAlone (State.initial : State ι) as) :
    Guarded step NeverNull State.initial as :=
  halone.of_invariant holdsClosing_initial
    (fun _ _ _ hs halone hstep ↦ holdsClosing_step hs halone hstep) fun _ _ hs _ ↦ hs.neverNull

/-- After a disposal that was not alone, a close that completes next finds `null`. -/
theorem not_neverNull_of_disposes {c : ConnectionId}
    (hcall : s.calls i = .disposingConnection caller c) (hclosing : (s.calls j).closing ≠ none)
    (hstep : step s (.resume i .completed newGuid) = some t) :
    ¬NeverNull t (.resume j .completed newGuid) := by
  simp only [step, resume, hcall, resumeTeardown, Option.some.injEq] at hstep
  obtain ⟨pc', hgoto, -⟩ := exists_goto_teardownReturn
    (s := { s.disposeConnection c with connection := none }) i caller rfl
  rw [hgoto] at hstep
  have hji : j ≠ i := by
    rintro rfl
    rw [hcall] at hclosing
    exact hclosing rfl
  have hsame : t.calls j = s.calls j := by
    rw [← hstep, State.goto_calls, Function.update_of_ne hji]
    rfl
  have hnone : t.connection = none := by rw [← hstep]; rfl
  cases hpc : s.calls j with
  | closingConnection caller' c' =>
    rw [NeverNull, connectionUses, hsame, hpc, hnone]
    exact fun h ↦ h (List.mem_singleton_self _)
  | _ =>
    rw [hpc] at hclosing
    exact absurd rfl hclosing

/-- `ConnectAsync`, and two calls of `DisconnectAsync`, the first of which awaits the close of the
connection. -/
private def firstCloses : List (Label (Option Bool)) :=
  [.start none (.teardown (.connect .localhost)), .succeed none, .succeed none,
    .start (some false) (.teardown .disconnect), .start (some true) (.teardown .disconnect),
    .succeed (some false)]

/-- The second call starts when the first has ended. -/
theorem neverNull_of_repeated_disconnect :
    Guarded step NeverNull State.initial
      (firstCloses ++ [.succeed (some false), .succeed (some false), .succeed (some true)]) :=
  neverNull_of_disposesAlone (by decide)

/-- The connection is not open any more when the second call gets there, so that it is disposed
first. -/
theorem not_neverNull_of_overlappingDisconnects : ∃ s t : State (Option Bool),
    run step State.initial
        (firstCloses ++ [.connectionLost 0, .succeed (some true), .succeed (some true)]) = some s ∧
      step s (.succeed (some false)) = some t ∧ ¬NeverNull s (.succeed (some false)) ∧
        t.calls (some false) = .ended (.error .nullReference) :=
  ⟨_, _, rfl, rfl, by decide, rfl⟩

end Steps

/-! ## A single call that fails -/

/-- The channels in the dictionary, in the order of the `foreach`. -/
def State.registered (s : State ι) : List ChannelId := s.subscriptionChannels.map Prod.snd

/-- The channels that the `foreach` has passed when it is at the one before `rest`. -/
def State.passed (s : State ι) (rest : List ChannelId) : List ChannelId :=
  s.registered.take (s.registered.length - (rest.length + 1))

/-- The channel is closed and disposed. -/
def State.Spent (s : State ι) (ch : ChannelId) : Prop :=
  (s.channels ch).isOpen = false ∧ (s.channels ch).disposed = true

/-- The channels once those in the list have been closed and disposed. -/
def State.tornDown (s : State ι) (pre : List ChannelId) (ch : ChannelId) : Channel ι :=
  if ch ∈ pre then { s.channels ch with isOpen := false, disposed := true } else s.channels ch

/-- Everything but the calls is as it was. -/
def Unchanged (s t : State ι) : Prop := ∃ calls, t = { s with calls }

/-- Nothing is connected any more. -/
structure Disconnected (s t : State ι) : Prop where
  registry : t.subscriptionChannels = []
  connection : t.connection = none
  channels : ∀ ch ∈ s.registered, (t.channels ch).isOpen = false
  closed : ∀ c, s.connection = some c → (t.connections c).isOpen = false

/-- The adapter is as it was, or disconnected. -/
def LeftIntact (s t : State ι) : Prop := Unchanged s t ∨ Disconnected s t

/-- A call that began in the state `s` has done nothing to it so far, or everything, and the failure
of what it awaits does nothing to it either. -/
def Pc.Harmless (s : State ι) (failure : Failure) : Pc → Prop
  | .closingChannel _ _ rest =>
    (∀ ch ∈ s.passed rest, s.Spent ch) ∧ failure ≠ .operationInterrupted
  | .disposingChannel _ ch rest =>
    (∀ ch ∈ s.passed rest, s.Spent ch) ∧ (s.channels ch).isOpen = false
  | .closingConnection _ _ => s.registered = [] ∧ failure ≠ .operationInterrupted
  | .disposingConnection _ c => s.registered = [] ∧ (s.connections c).isOpen = false
  | _ => True

/-- An operation fails only where that is harmless for the call that awaits it, which began in the
state `s`. -/
def FailsHarmlessly (s u : State ι) : Label ι → Prop
  | .resume i (.failed failure) _ => (u.calls i).Harmless s failure
  | _ => True

instance (s : State ι) : DecidablePred s.Spent :=
  fun _ ↦ inferInstanceAs (Decidable (_ ∧ _))

instance (s : State ι) (failure : Failure) : DecidablePred (Pc.Harmless s failure)
  | .closingChannel _ _ rest => inferInstanceAs
      (Decidable ((∀ ch ∈ s.passed rest, s.Spent ch) ∧ failure ≠ .operationInterrupted))
  | .disposingChannel _ ch rest => inferInstanceAs
      (Decidable ((∀ ch ∈ s.passed rest, s.Spent ch) ∧ (s.channels ch).isOpen = false))
  | .closingConnection _ _ =>
    inferInstanceAs (Decidable (s.registered = [] ∧ failure ≠ .operationInterrupted))
  | .disposingConnection _ c =>
    inferInstanceAs (Decidable (s.registered = [] ∧ (s.connections c).isOpen = false))
  | .idle | .waitingToTearDown _ | .creatingConnection _ | .openingToSend _ _
  | .declaringExchange _ _ | .publishing _ _ | .disposingAfterSend _ _ _ | .openingToConsume _ _
  | .declaringQueue _ | .consuming _ _ _ | .waitingToRegister _ _ _ _ | .waitingToUnsubscribe _
  | .closingUnsubscribed _ | .disposingUnsubscribed _ | .ended _ => isTrue trivial

instance (s u : State ι) : DecidablePred (FailsHarmlessly s u)
  | .resume i (.failed failure) _ => inferInstanceAs (Decidable ((u.calls i).Harmless s failure))
  | .resume _ .completed _ | .resume _ (.declared _) _ | .start _ _ | .brokerConsumes _
  | .connectionLost _ | .channelLost _ => isTrue trivial

/-- One call that nothing interleaves with, each of its awaits settled as the list says. -/
def alone (i : ι) (caller : Caller) (settled : List (Awaited × Guid)) : List (Label ι) :=
  .start i (.teardown caller) :: settled.map fun p ↦ .resume i p.1 p.2

theorem passed_of_registered (h : s.registered = pre ++ ch :: rest) : s.passed rest = pre := by
  rw [State.passed, h, List.length_append, List.length_cons, Nat.add_sub_cancel, List.take_left']
  rfl

theorem tornDown_nil : s.tornDown [] = s.channels :=
  funext fun _ ↦ if_neg List.not_mem_nil

theorem tornDown_eq_iff : s.tornDown pre = s.channels ↔ ∀ ch ∈ pre, s.Spent ch := by
  constructor
  · intro h ch hch
    have hch' := congrFun h ch
    rw [State.tornDown, if_pos hch] at hch'
    rw [State.Spent, ← hch']
    exact ⟨rfl, rfl⟩
  · intro h
    funext ch
    by_cases hch : ch ∈ pre
    · obtain ⟨hclosed, hdisposed⟩ := h ch hch
      rw [State.tornDown, if_pos hch, ← hclosed, ← hdisposed]
    · exact if_neg hch

theorem isOpen_tornDown (hch : ch ∈ pre) : (s.tornDown pre ch).isOpen = false := by
  rw [State.tornDown, if_pos hch]

theorem update_tornDown {x : Channel ι}
    (hx : x = { s.channels ch with isOpen := false, disposed := true }) :
    Function.update (s.tornDown pre) ch x = s.tornDown (pre ++ [ch]) := by
  funext ch'
  by_cases heq : ch' = ch
  · rw [heq, Function.update_self, State.tornDown, if_pos (by simp), hx]
  · rw [Function.update_of_ne heq, State.tornDown, State.tornDown]
    simp [heq]

theorem interrupt_of_closed (hclosed : (s.channels ch).isOpen = false) :
    s.interrupt ch failure = s := by
  have hsame : { s.channels ch with isOpen := false } = s.channels ch := by rw [← hclosed]
  rw [State.interrupt, State.closeChannel, hsame, Function.update_eq_self, ite_self]

theorem interruptConnection_of_closed {c : ConnectionId}
    (hclosed : (s.connections c).isOpen = false) : s.interruptConnection c failure = s :=
  if_neg fun h ↦ Bool.false_ne_true (hclosed.symm.trans h.2)

/-- What the call `i`, which began in the state `s`, has done when it is suspended. -/
def Reached (s : State ι) (i : ι) (u : State ι) : Pc → Prop
  | .waitingToTearDown _ => Unchanged s u
  | .closingChannel _ ch rest => ∃ pre calls, s.registered = pre ++ ch :: rest ∧
    s.lockHolder = none ∧ (s.tornDown pre ch).isOpen = true ∧
    u = { s with calls, lockHolder := some i, channels := s.tornDown pre }
  | .disposingChannel _ ch rest => ∃ pre calls, s.registered = pre ++ ch :: rest ∧
    s.lockHolder = none ∧
    u = { s with
      calls
      lockHolder := some i
      channels := Function.update (s.tornDown pre) ch
        { s.tornDown pre ch with isOpen := false } }
  | .closingConnection _ c => ∃ calls, s.lockHolder = none ∧ s.connection = some c ∧
    (s.connections c).isOpen = true ∧
    u = { s with calls, subscriptionChannels := [], channels := s.tornDown s.registered }
  | .disposingConnection _ c => ∃ calls connections channels, s.lockHolder = none ∧
    s.connection = some c ∧
    u = { s with calls, subscriptionChannels := [], connections, channels } ∧
    (connections c).isOpen = false ∧ (∀ ch ∈ s.registered, (channels ch).isOpen = false) ∧
    (s.registered = [] → (s.connections c).isOpen = false →
      connections = s.connections ∧ channels = s.channels)
  | .creatingConnection _ => Disconnected s u
  | .ended (.ok _) => True
  | _ => False

/-- While a channel is registered, the adapter is intact only if it is unchanged. -/
theorem leftIntact_iff_of_registered {calls : ι → Pc} {channels : ChannelId → Channel ι}
    (hlock : s.lockHolder = none) (hregistered : s.registered = pre ++ ch :: rest)
    (ht : t = { s with calls, lockHolder := none, channels }) :
    LeftIntact s t ↔ channels = s.channels := by
  subst ht
  constructor
  · rintro (⟨calls', h⟩ | hdisconnected)
    · exact congrArg State.channels h
    · have hempty : s.registered = [] := congrArg (List.map Prod.snd) hdisconnected.registry
      rw [hempty] at hregistered
      simp at hregistered
  · rintro rfl
    exact Or.inl ⟨calls, by rw [← hlock]⟩

/-- **Failures in the `foreach`** are harmless where it has not changed anything so far, and the
broker does not. -/
theorem leftIntact_iff_of_closingChannel (hu : Reached s i u (.closingChannel caller ch rest))
    {calls : ι → Pc} (ht : t = { u.interrupt ch failure with calls, lockHolder := none }) :
    LeftIntact s t ↔ (∀ ch ∈ s.passed rest, s.Spent ch) ∧ failure ≠ .operationInterrupted := by
  obtain ⟨pre, calls', hregistered, hlock, hopen, rfl⟩ := hu
  by_cases hfailure : failure = .operationInterrupted
  · rw [State.interrupt, if_pos hfailure] at ht
    rw [leftIntact_iff_of_registered hlock hregistered ht]
    -- the channel was open, and is closed
    refine iff_of_false (fun hsame ↦ ?_) fun h ↦ h.2 hfailure
    have hclosed : (s.channels ch).isOpen = false := by
      rw [← congrFun hsame ch, State.closeChannel_channels, Function.update_self]
    unfold State.tornDown at hopen
    split at hopen
    · cases hopen
    · cases hopen.symm.trans hclosed
  · rw [State.interrupt, if_neg hfailure] at ht
    rw [leftIntact_iff_of_registered hlock hregistered ht, passed_of_registered hregistered,
      tornDown_eq_iff]
    exact (and_iff_left hfailure).symm

theorem leftIntact_iff_of_disposingChannel (hu : Reached s i u (.disposingChannel caller ch rest))
    {calls : ι → Pc} (ht : t = { u.interrupt ch failure with calls, lockHolder := none }) :
    LeftIntact s t ↔
      (∀ ch ∈ s.passed rest, s.Spent ch) ∧ (s.channels ch).isOpen = false := by
  obtain ⟨pre, calls', hregistered, hlock, rfl⟩ := hu
  rw [interrupt_of_closed (by simp)] at ht
  rw [leftIntact_iff_of_registered hlock hregistered ht, passed_of_registered hregistered,
    ← tornDown_eq_iff]
  dsimp only
  constructor
  · intro h
    have hclosed : (s.channels ch).isOpen = false := by rw [← congrFun h ch, Function.update_self]
    refine ⟨funext fun ch' ↦ ?_, hclosed⟩
    have hch' := congrFun h ch'
    by_cases heq : ch' = ch
    · by_cases hpre : ch ∈ pre
      · rw [heq, Function.update_self, State.tornDown, if_pos hpre] at hch'
        rw [heq, State.tornDown, if_pos hpre, hch']
      · rw [heq, State.tornDown, if_neg hpre]
    · rwa [Function.update_of_ne heq] at hch'
  · rintro ⟨hpre, hclosed⟩
    rw [hpre, ← hclosed, Function.update_eq_self]

/-- **Failures after the `foreach`** are harmless where there was nothing to do before, and the
broker does nothing. -/
theorem leftIntact_iff_of_closingConnection {c : ConnectionId}
    (hu : Reached s i u (.closingConnection caller c)) {calls : ι → Pc}
    (ht : t = { u.interruptConnection c failure with calls }) :
    LeftIntact s t ↔ s.registered = [] ∧ failure ≠ .operationInterrupted := by
  obtain ⟨calls', hlock, hsome, hopen, rfl⟩ := hu
  by_cases hfailure : failure = .operationInterrupted
  · rw [State.interruptConnection, if_pos ⟨hfailure, hopen⟩] at ht
    subst ht
    -- the connection is closed, and still held
    refine iff_of_false ?_ fun h ↦ h.2 hfailure
    rintro (⟨calls'', h⟩ | hdisconnected)
    · have hconnection : { s.connections c with isOpen := false } = s.connections c := by
        rw [← Function.update_self c { s.connections c with isOpen := false } s.connections]
        exact congrFun (congrArg State.connections h) c
      rw [← hconnection] at hopen
      cases hopen
    · cases hsome.symm.trans hdisconnected.connection
  · rw [State.interruptConnection, if_neg fun h ↦ hfailure h.1] at ht
    subst ht
    constructor
    · rintro (⟨calls'', h⟩ | hdisconnected)
      · have hempty : s.subscriptionChannels = [] := (congrArg State.subscriptionChannels h).symm
        exact ⟨by rw [State.registered, hempty, List.map_nil], hfailure⟩
      · cases hsome.symm.trans hdisconnected.connection
    · rintro ⟨hempty, -⟩
      have hnil : s.subscriptionChannels = [] := List.map_eq_nil_iff.mp hempty
      refine Or.inl ⟨calls, ?_⟩
      rw [hempty, tornDown_nil, ← hnil]

theorem leftIntact_iff_of_disposingConnection {c : ConnectionId}
    (hu : Reached s i u (.disposingConnection caller c)) {calls : ι → Pc}
    (ht : t = { u.interruptConnection c failure with calls }) :
    LeftIntact s t ↔ s.registered = [] ∧ (s.connections c).isOpen = false := by
  obtain ⟨calls', connections, channels, hlock, hsome, rfl, hclosed, -, hsame⟩ := hu
  rw [interruptConnection_of_closed (by exact hclosed)] at ht
  subst ht
  constructor
  · rintro (⟨calls'', h⟩ | hdisconnected)
    · have hempty : s.subscriptionChannels = [] := (congrArg State.subscriptionChannels h).symm
      have hconnections : connections = s.connections := congrArg State.connections h
      rw [State.registered, hempty, List.map_nil, ← hconnections]
      exact ⟨rfl, hclosed⟩
    · cases hsome.symm.trans hdisconnected.connection
  · rintro ⟨hempty, hopen⟩
    have hnil : s.subscriptionChannels = [] := List.map_eq_nil_iff.mp hempty
    obtain ⟨rfl, rfl⟩ := hsame hempty hopen
    exact Or.inl ⟨calls, by rw [← hnil]⟩

section Alone

variable [DecidableEq ι]

theorem reached_teardownReturn (hu : Disconnected s u) :
    Reached s i (teardownReturn u i caller) ((teardownReturn u i caller).calls i) := by
  cases caller with
  | connect config =>
    rw [teardownReturn, calls_goto]
    exact ⟨hu.registry, hu.connection, hu.channels, hu.closed⟩
  | disconnect | dispose =>
    rw [teardownReturn, State.return', calls_goto]
    trivial

theorem reached_teardownConnection (calls : ι → Pc) (hlock : s.lockHolder = none)
    (hu : u = { s with calls, subscriptionChannels := [], channels := s.tornDown s.registered }) :
    Reached s i (teardownConnection u i caller) ((teardownConnection u i caller).calls i) := by
  subst hu
  unfold teardownConnection
  split
  · rename_i hnone
    refine reached_teardownReturn ⟨rfl, hnone, fun ch hch ↦ isOpen_tornDown hch, fun c hc ↦ ?_⟩
    cases hc.symm.trans hnone
  · rename_i c hsome
    split
    · rename_i hopen
      rw [calls_goto]
      exact ⟨_, hlock, hsome, hopen, rfl⟩
    · rename_i hclosed
      rw [calls_goto]
      refine ⟨_, _, _, hlock, hsome, rfl, Bool.eq_false_iff.mpr hclosed,
        fun ch hch ↦ isOpen_tornDown hch, fun hempty _ ↦ ⟨rfl, ?_⟩⟩
      rw [hempty, tornDown_nil]

theorem reached_teardownLoop (pre : List ChannelId) (calls : ι → Pc)
    (hregistered : s.registered = pre ++ rest)
    (hlock : s.lockHolder = none)
    (hu : u = { s with calls, lockHolder := some i, channels := s.tornDown pre }) :
    Reached s i (teardownLoop u i caller rest) ((teardownLoop u i caller rest).calls i) := by
  cases rest with
  | nil =>
    rw [List.append_nil] at hregistered
    refine reached_teardownConnection calls hlock ?_
    rw [hu, hregistered, ← hlock]
  | cons ch rest =>
    by_cases hopen : (u.channels ch).isOpen = true
    · rw [teardownLoop, if_pos hopen, calls_goto]
      rw [hu] at hopen
      exact ⟨pre, _, hregistered, hlock, hopen, by rw [hu]; rfl⟩
    · rw [teardownLoop, if_neg hopen, calls_goto]
      refine ⟨pre, (u.goto i (.disposingChannel caller ch rest)).calls, hregistered, hlock, ?_⟩
      -- A channel that is closed already is left as it is.
      have hsame : { s.tornDown pre ch with isOpen := false } = s.tornDown pre ch := by
        rw [hu, Bool.not_eq_true] at hopen
        rw [← hopen]
      rw [hsame, Function.update_eq_self, hu]
      rfl

theorem reached_of_disposedChannel {ch : ChannelId}
    (hu : Reached s i u (.disposingChannel caller ch rest)) :
    Reached s i (teardownLoop (u.disposeChannel ch) i caller rest)
      ((teardownLoop (u.disposeChannel ch) i caller rest).calls i) := by
  obtain ⟨pre, calls, hregistered, hlock, rfl⟩ := hu
  refine reached_teardownLoop (pre ++ [ch]) calls ?_ hlock ?_
  · rw [hregistered, List.append_assoc, List.singleton_append]
  · have hx : { s.tornDown pre ch with isOpen := false, disposed := true }
        = { s.channels ch with isOpen := false, disposed := true } := by
      unfold State.tornDown
      split <;> rfl
    simp only [State.disposeChannel, Function.update_self, Function.update_idem,
      update_tornDown hx]

theorem reached_of_closedConnection {c : ConnectionId}
    (hu : Reached s i u (.closingConnection caller c)) :
    Reached s i (teardownDispose (u.closeConnection c) i caller)
      ((teardownDispose (u.closeConnection c) i caller).calls i) := by
  obtain ⟨calls, hlock, hsome, hopen, rfl⟩ := hu
  have hdispose : ∀ {v : State ι}, v.connection = some c →
      teardownDispose v i caller = v.goto i (.disposingConnection caller c) := by
    intro v hv
    simp only [teardownDispose, hv]
  rw [hdispose (by exact hsome), calls_goto]
  refine ⟨_, _, _, hlock, hsome, rfl, ?_, fun ch hch ↦ ?_, fun _ hclosed ↦ ?_⟩
  · rw [State.closeConnection_connections, Function.update_self]
  · rw [State.closeConnection_channels, State.channelsWithout]
    split
    · rfl
    · exact isOpen_tornDown hch
  · cases hopen.symm.trans hclosed

theorem reached_of_disposedConnection {c : ConnectionId}
    (hu : Reached s i u (.disposingConnection caller c)) :
    Reached s i (teardownReturn { u.disposeConnection c with connection := none } i caller)
      ((teardownReturn { u.disposeConnection c with connection := none } i caller).calls i) := by
  obtain ⟨calls, connections, channels, hlock, hsome, rfl, hclosed, hchannels, -⟩ := hu
  refine reached_teardownReturn ⟨rfl, rfl, fun ch hch ↦ ?_, fun c' hc' ↦ ?_⟩
  · simp only [State.disposeConnection, State.channelsWithout]
    split
    · rfl
    · exact hchannels ch hch
  · obtain rfl : c = c' := Option.some.inj (hsome.symm.trans hc')
    simp only [State.disposeConnection, Function.update_self]

/-- An exception ends the call, and leaves the rest of the adapter as it is in `v`. -/
theorem leftIntact_of_teardownThrow {v : State ι} {pc : Pc} {ex : BusException}
    (hcall : u.calls i = pc)
    (hiff : ∀ calls, LeftIntact s { v with calls } ↔ pc.Harmless s failure) :
    (∃ result, (teardownThrow v i caller ex).calls i = .ended result) ∧
      (LeftIntact s (teardownThrow v i caller ex) ↔
        FailsHarmlessly s u (.resume i (.failed failure) newGuid)) := by
  have hthrow : ∃ result, (teardownThrow v i caller ex).calls i = .ended result ∧
      ∃ calls, teardownThrow v i caller ex = { v with calls } := by
    cases caller with
    | connect | disconnect => exact ⟨_, calls_goto, _, rfl⟩
    | dispose => exact ⟨_, calls_goto, _, rfl⟩
  obtain ⟨result, hended, calls, hthrow⟩ := hthrow
  refine ⟨⟨result, hended⟩, ?_⟩
  rw [hthrow, hiff, FailsHarmlessly, hcall]

/-- **The step lemma of a call that runs alone**: it goes on, or its end shows whether the failure
was harmless. -/
theorem reached_step (hu : Reached s i u (u.calls i))
    (hstep : step u (.resume i awaited newGuid) = some t) :
    (FailsHarmlessly s u (.resume i awaited newGuid) ∧ Reached s i t (t.calls i)) ∨
      ((∃ result, t.calls i = .ended result) ∧
        (LeftIntact s t ↔ FailsHarmlessly s u (.resume i awaited newGuid))) := by
  cases hcall : u.calls i with
  | waitingToTearDown caller =>
    rw [hcall] at hu
    simp only [step, resume, hcall, resumeTeardown] at hstep
    obtain ⟨calls, rfl⟩ := hu
    split at hstep
    · rw [Option.ite_none_right_eq_some, Option.some.injEq] at hstep
      obtain ⟨hlock, rfl⟩ := hstep
      exact Or.inl ⟨trivial, reached_teardownLoop [] calls rfl hlock (by rw [tornDown_nil])⟩
    · cases hstep
    · cases hstep
      exact Or.inr (leftIntact_of_teardownThrow hcall fun calls ↦
        iff_of_true (Or.inl ⟨calls, rfl⟩) trivial)
  | closingChannel caller ch rest =>
    rw [hcall] at hu
    simp only [step, resume, hcall, resumeTeardown] at hstep
    split at hstep <;> cases hstep
    · obtain ⟨pre, calls, hregistered, hlock, hopen, rfl⟩ := hu
      refine Or.inl ⟨trivial, ?_⟩
      rw [calls_goto]
      exact ⟨pre, _, hregistered, hlock, rfl⟩
    · exact Or.inr (leftIntact_of_teardownThrow hcall fun _ ↦
        leftIntact_iff_of_closingChannel hu rfl)
  | disposingChannel caller ch rest =>
    rw [hcall] at hu
    simp only [step, resume, hcall, resumeTeardown] at hstep
    split at hstep <;> cases hstep
    · exact Or.inl ⟨trivial, reached_of_disposedChannel hu⟩
    · exact Or.inr (leftIntact_of_teardownThrow hcall fun _ ↦
        leftIntact_iff_of_disposingChannel hu rfl)
  | closingConnection caller c =>
    rw [hcall] at hu
    simp only [step, resume, hcall, resumeTeardown] at hstep
    split at hstep <;> cases hstep
    · exact Or.inl ⟨trivial, reached_of_closedConnection hu⟩
    · exact Or.inr (leftIntact_of_teardownThrow hcall fun _ ↦
        leftIntact_iff_of_closingConnection hu rfl)
  | disposingConnection caller c =>
    rw [hcall] at hu
    simp only [step, resume, hcall, resumeTeardown] at hstep
    split at hstep <;> cases hstep
    · exact Or.inl ⟨trivial, reached_of_disposedConnection hu⟩
    · exact Or.inr (leftIntact_of_teardownThrow hcall fun _ ↦
        leftIntact_iff_of_disposingConnection hu rfl)
  | creatingConnection config =>
    rw [hcall] at hu
    simp only [step, resume, hcall, resumeTeardown] at hstep
    have hdisconnected : ∀ ex, Disconnected s (u.throw i ex) := fun _ ↦
      ⟨hu.registry, hu.connection, hu.channels, hu.closed⟩
    split at hstep <;> cases hstep
    · refine Or.inl ⟨trivial, ?_⟩
      rw [State.return', calls_goto]
      trivial
    · refine Or.inr ⟨⟨_, calls_goto⟩, iff_of_true (Or.inr (hdisconnected _)) ?_⟩
      rw [FailsHarmlessly, hcall]
      trivial
    · refine Or.inr ⟨⟨_, calls_goto⟩, iff_of_true (Or.inr (hdisconnected _)) ?_⟩
      rw [FailsHarmlessly, hcall]
      trivial
  | ended result =>
    simp only [step, resume, hcall] at hstep
    cases hstep
  | _ =>
    rw [hcall] at hu
    exact hu.elim

/-- **A failed call leaves the adapter intact exactly if it failed harmlessly.** -/
theorem leftIntact_iff {settled : List (Awaited × Guid)} {ex : BusException}
    (hrun : run step s (alone i caller settled) = some t)
    (hended : t.calls i = .ended (.error ex)) :
    LeftIntact s t ↔ Guarded step (FailsHarmlessly s) s (alone i caller settled) := by
  obtain ⟨u, hstart, hrest⟩ := Option.bind_eq_some_iff.mp hrun
  rw [step, Option.ite_none_right_eq_some, Option.some.injEq] at hstart
  obtain ⟨hidle, rfl⟩ := hstart
  have hu : Reached s i (start s i (.teardown caller))
      ((start s i (.teardown caller)).calls i) := by
    rw [start, calls_goto]
    exact ⟨_, rfl⟩
  have key : ∀ {u}, Reached s i u (u.calls i) →
      run step u (settled.map fun p ↦ .resume i p.1 p.2) = some t →
        (LeftIntact s t ↔
          Guarded step (FailsHarmlessly s) u (settled.map fun p ↦ .resume i p.1 p.2)) := by
    clear hrun hu hrest
    intro u hu hrest
    induction settled generalizing u with
    | nil =>
      cases hrest
      rw [hended] at hu
      exact hu.elim
    | cons p settled ih =>
      obtain ⟨v, hv, hrest⟩ := Option.bind_eq_some_iff.mp hrest
      rw [List.map_cons, guarded_cons, hv]
      simp only [Option.some.injEq, forall_eq']
      rcases reached_step hu hv with ⟨hharmless, hv'⟩ | ⟨⟨result, hresult⟩, hiff⟩
      · rw [ih hv' hrest]
        exact (and_iff_right hharmless).symm
      · -- The call has ended, and nothing is left of the run.
        cases settled with
        | nil =>
          cases hrest
          rw [hiff]
          exact (and_iff_left trivial).symm
        | cons q settled =>
          simp only [List.map_cons, run_cons, step, resume, hresult, Option.bind_none] at hrest
          cases hrest
  rw [key hu hrest, alone, guarded_cons, step, if_pos hidle]
  simp only [Option.some.injEq, forall_eq']
  exact (and_iff_right trivial).symm

/-- An adapter that is connected and has a subscription. -/
private def subscribedOnce : List (Label ℕ) :=
  [.start 0 (.teardown (.connect .localhost)), .succeed 0, .succeed 0,
    .start 1 (.consume (.subscribe (Utf16.ofString "orders"))), .succeed 1, .brokerConsumes 0,
    .resume 1 .completed ⟨1⟩, .succeed 1]

private def done : Awaited × Guid := (.completed, ⟨0⟩)

/-- The broker is not reached when `ConnectAsync` has torn everything down. -/
theorem leftIntact_of_unreachable : ∃ s t, run step State.initial subscribedOnce = some s ∧
    s.registered = [0] ∧ run step s (alone 2 (.connect .localhost)
      [done, done, done, done, done, (.failed .unreachable, ⟨0⟩)]) = some t ∧
        LeftIntact s t := by
  obtain ⟨s, t, hs, hregistered, hrun, hended, hharmless⟩ : ∃ s t,
      run step State.initial subscribedOnce = some s ∧ s.registered = [0] ∧
      run step s (alone 2 (.connect .localhost)
        [done, done, done, done, done, (.failed .unreachable, ⟨0⟩)]) = some t ∧
      t.calls 2 = .ended (.error (couldNotConnect .localhost)) ∧
      Guarded step (FailsHarmlessly s) s (alone 2 (.connect .localhost)
        [done, done, done, done, done, (.failed .unreachable, ⟨0⟩)]) :=
    ⟨_, _, rfl, rfl, rfl, rfl, by decide⟩
  exact ⟨s, t, hs, hregistered, hrun, (leftIntact_iff hrun hended).mpr hharmless⟩

/-- `DisconnectAsync` fails to close the connection: no subscription is left, and it is still
open. -/
theorem not_leftIntact_of_open_connection : ∃ s t,
    run step State.initial subscribedOnce = some s ∧ s.registered = [0] ∧
      run step s (alone 2 .disconnect [done, done, done, (.failed .other, ⟨0⟩)]) = some t ∧
        t.calls 2 = .ended (.error .other) ∧ t.registered = [] ∧ t.connection = some 0 ∧
          (t.connections 0).isOpen = true ∧ ¬LeftIntact s t := by
  refine ⟨_, _, rfl, rfl, rfl, rfl, rfl, rfl, rfl, ?_⟩
  rintro (⟨calls, h⟩ | hdisconnected)
  · cases congrArg State.subscriptionChannels h
  · cases hdisconnected.connection

end Alone

end RabbitMqAdapter

end BusTester
