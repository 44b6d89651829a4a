import BusTester.Application.Coordinator
import BusTester.Collections.SessionLog

/-!
# Runs of the subscription coordinator

`Register`, `Unregister` and `OnMessageReceivedAsync` are called in any order and for any handles,
and each `BroadcastAsync` may throw. The broadcaster is kept beside the coordinator as the list of
the calls it got. The coordinator is then compared with the history of the calls: its buffers are
the `log`s of the handles, and the broadcasts are what was `taken`.
-/

namespace BusTester

open SessionLog

namespace SubscriptionCoordinator

variable {ε : Type*}

/-- A call of the coordinator; for a message with what becomes of its broadcast. -/
inductive Call (ε : Type*) where
  | register (handle : SubscriptionHandle)
  | unregister (handle : SubscriptionHandle)
  | onMessageReceivedAsync (handle : SubscriptionHandle) (message : BusMessage)
      (broadcast : Except ε Unit)

/-- The coordinator and the calls its broadcaster got, in their order. -/
structure Broadcasting where
  coordinator : SubscriptionCoordinator
  broadcasts : List (SubscriptionHandle × BusMessage)

namespace Broadcasting

def initial : Broadcasting := ⟨.initial, []⟩

/-- `OnMessageReceivedAsync`: the message is in the queue before the broadcaster is called, so an
exception of the broadcaster leaves it there. -/
def onMessageReceivedAsync (s : Broadcasting) (handle : SubscriptionHandle) (message : BusMessage)
    (broadcast : Except ε Unit) : Except ε Unit × Broadcasting :=
  if s.coordinator.IsRegistered handle then
    (broadcast, ⟨s.coordinator.onMessageReceived handle message,
      s.broadcasts ++ [(handle, message)]⟩)
  else (.ok (), s)

/-- How a call ends, and what it leaves. -/
def perform (s : Broadcasting) : Call ε → Except ε Unit × Broadcasting
  | .register handle => (.ok (), { s with coordinator := s.coordinator.register handle })
  | .unregister handle => (.ok (), { s with coordinator := s.coordinator.unregister handle })
  | .onMessageReceivedAsync handle message broadcast =>
    s.onMessageReceivedAsync handle message broadcast

/-- The state after a sequence of calls; how one of them ended does not stop the next. -/
def after (calls : List (Call ε)) : Broadcasting :=
  calls.foldl (fun s call ↦ (s.perform call).2) initial

end Broadcasting

/-- What a call means for the history of the handles. -/
def Call.event : Call ε → Event SubscriptionHandle BusMessage
  | register handle => .opens handle
  | unregister handle => .closes handle
  | onMessageReceivedAsync handle message _ => .entry handle message

namespace Broadcasting

variable {calls : List (Call ε)} {call : Call ε} {s : Broadcasting} {handle : SubscriptionHandle}

theorem after_concat : after (calls ++ [call]) = ((after calls).perform call).2 := by
  simp [after]

/-- The coordinator and the broadcaster agree with the history. -/
structure Agrees (s : Broadcasting) (es : List (Event SubscriptionHandle BusMessage)) : Prop where
  buffers : ∀ handle, s.coordinator.messagesByHandle handle = log handle es
  broadcasts : s.broadcasts = taken es

theorem Agrees.isRegistered_iff {es : List (Event SubscriptionHandle BusMessage)}
    (hs : s.Agrees es) : s.coordinator.IsRegistered handle ↔ (log handle es).isSome := by
  rw [IsRegistered, hs.buffers]

theorem Agrees.perform {es : List (Event SubscriptionHandle BusMessage)} (hs : s.Agrees es) :
    (s.perform call).2.Agrees (es ++ [call.event]) := by
  cases call with
  | register k =>
    refine ⟨fun handle ↦ ?_, hs.broadcasts.trans taken_concat_opens.symm⟩
    exact messagesByHandle_register.trans (by rw [hs.buffers, Call.event, log_concat_opens])
  | unregister k =>
    refine ⟨fun handle ↦ ?_, hs.broadcasts.trans taken_concat_closes.symm⟩
    exact messagesByHandle_unregister.trans (by rw [hs.buffers, Call.event, log_concat_closes])
  | onMessageReceivedAsync k message broadcast =>
    rw [Broadcasting.perform, onMessageReceivedAsync, Call.event]
    by_cases hk : s.coordinator.IsRegistered k
    · rw [if_pos hk]
      refine ⟨fun handle ↦ ?_, ?_⟩
      · exact messagesByHandle_onMessageReceived.trans
          (by rw [hs.buffers, hs.buffers, log_concat_entry])
      · rw [taken_concat_entry, if_pos (hs.isRegistered_iff.mp hk), hs.broadcasts]
    · rw [if_neg hk]
      have hnone : log k es = none :=
        Option.not_isSome_iff_eq_none.mp fun h ↦ hk (hs.isRegistered_iff.mpr h)
      refine ⟨fun handle ↦ ?_, ?_⟩
      · rw [hs.buffers, log_concat_entry]
        split_ifs with heq
        · rw [heq, hnone, Option.map_none]
        · rfl
      · rw [taken_concat_entry, hnone, hs.broadcasts]
        exact (List.append_nil _).symm

theorem agrees_after (calls : List (Call ε)) : (after calls).Agrees (calls.map Call.event) := by
  induction calls using List.reverseRecOn with
  | nil => exact ⟨fun handle ↦ rfl, rfl⟩
  | append_singleton calls call ih =>
    rw [after_concat, List.map_append]
    exact ih.perform

theorem getMessages_perform_of_ne (h : handle ≠ call.event.about) :
    (s.perform call).2.coordinator.getMessages handle = s.coordinator.getMessages handle := by
  unfold getMessages
  cases call with
  | register k => exact congrArg (Option.getD · []) (Function.update_of_ne h _ _)
  | unregister k => exact congrArg (Option.getD · []) (Function.update_of_ne h _ _)
  | onMessageReceivedAsync k message broadcast =>
    rw [perform, onMessageReceivedAsync]
    split_ifs
    · rw [messagesByHandle_onMessageReceived, if_neg (show ¬handle = k from h)]
    · rfl

/-- **The coordinator keeps each subscription's log separate and complete.** What `GetMessages`
returns is what was received for the handle since its latest registration, and nothing when it is
not registered; the broadcaster is called once for each message whose handle was registered when
it came. A call for one handle leaves what the others hold. -/
theorem separate_and_complete (calls : List (Call ε)) :
    (∀ handle pre post, calls.map Call.event = pre ++ .opens handle :: post →
      .opens handle ∉ post → .closes handle ∉ post →
      (after calls).coordinator.getMessages handle = entries handle post) ∧
    (∀ handle, sinceOpen handle (calls.map Call.event) = none →
      (after calls).coordinator.getMessages handle = []) ∧
    (∀ handle, (after calls).coordinator.IsRegistered handle ↔
      (sinceOpen handle (calls.map Call.event)).isSome) ∧
    (after calls).broadcasts = taken (calls.map Call.event) ∧
    ∀ (call : Call ε) (handle : SubscriptionHandle), handle ≠ call.event.about →
      (after (calls ++ [call])).coordinator.getMessages handle
        = (after calls).coordinator.getMessages handle := by
  have hs := agrees_after calls
  refine ⟨fun handle pre post heq hopens hcloses ↦ ?_, fun handle hnone ↦ ?_, fun handle ↦ ?_,
    hs.broadcasts, fun call handle hne ↦ ?_⟩
  · have hsince := sinceOpen_eq_some_iff.mpr ⟨pre, heq, hopens, hcloses⟩
    rw [getMessages, hs.buffers, log, hsince]
    rfl
  · rw [getMessages, hs.buffers, log, hnone]
    rfl
  · rw [hs.isRegistered_iff, log, Option.isSome_map]
  · rw [after_concat]
    exact getMessages_perform_of_ne hne

end Broadcasting

end SubscriptionCoordinator

end BusTester
