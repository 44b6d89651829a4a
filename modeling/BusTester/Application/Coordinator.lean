import BusTester.Domain.BusMessage
import Mathlib.Logic.Function.Basic

/-!
# The subscription coordinator

`SubscriptionCoordinator` maps each registered handle to the messages received for it so far, in
the order of receipt. `Register` starts an empty buffer, `Unregister` drops it, and a message for a
handle without a buffer is neither kept nor broadcast.
-/

namespace BusTester

/-- `_messagesByHandle`: the buffer of each registered handle. -/
structure SubscriptionCoordinator where
  messagesByHandle : SubscriptionHandle → Option (List BusMessage)

namespace SubscriptionCoordinator

/-- The coordinator of a fresh process. -/
def initial : SubscriptionCoordinator := ⟨fun _ ↦ none⟩

def register (c : SubscriptionCoordinator) (handle : SubscriptionHandle) :
    SubscriptionCoordinator :=
  ⟨Function.update c.messagesByHandle handle (some [])⟩

def unregister (c : SubscriptionCoordinator) (handle : SubscriptionHandle) :
    SubscriptionCoordinator :=
  ⟨Function.update c.messagesByHandle handle none⟩

def getMessages (c : SubscriptionCoordinator) (handle : SubscriptionHandle) : List BusMessage :=
  (c.messagesByHandle handle).getD []

def IsRegistered (c : SubscriptionCoordinator) (handle : SubscriptionHandle) : Prop :=
  (c.messagesByHandle handle).isSome

instance (c : SubscriptionCoordinator) (handle : SubscriptionHandle) :
    Decidable (c.IsRegistered handle) := inferInstanceAs (Decidable (_ = true))

/-- The messages that `OnMessageReceivedAsync` adds to the buffer of `handle` and hands to the
broadcaster: the message itself, or none where `TryGetValue` fails. -/
def accepted (c : SubscriptionCoordinator) (handle : SubscriptionHandle) (message : BusMessage) :
    List BusMessage :=
  if c.IsRegistered handle then [message] else []

/-- `OnMessageReceivedAsync` up to the broadcast. -/
def onMessageReceived (c : SubscriptionCoordinator) (handle : SubscriptionHandle)
    (message : BusMessage) : SubscriptionCoordinator :=
  match c.messagesByHandle handle with
  | none => c
  | some queue => ⟨Function.update c.messagesByHandle handle (some (queue ++ [message]))⟩

variable {c : SubscriptionCoordinator} {handle other : SubscriptionHandle} {message : BusMessage}

@[ext] theorem ext {c c' : SubscriptionCoordinator}
    (h : ∀ handle, c.messagesByHandle handle = c'.messagesByHandle handle) : c = c' := by
  cases c
  cases c'
  exact congrArg mk (funext h)

@[simp] theorem messagesByHandle_register :
    (c.register handle).messagesByHandle other
      = if other = handle then some [] else c.messagesByHandle other :=
  Function.update_apply ..

@[simp] theorem messagesByHandle_unregister :
    (c.unregister handle).messagesByHandle other
      = if other = handle then none else c.messagesByHandle other :=
  Function.update_apply ..

@[simp] theorem messagesByHandle_onMessageReceived :
    (c.onMessageReceived handle message).messagesByHandle other
      = if other = handle then (c.messagesByHandle handle).map (· ++ [message])
        else c.messagesByHandle other := by
  unfold onMessageReceived
  split
  · rename_i hnone
    by_cases h : other = handle
    · simp [h, hnone]
    · simp [h]
  · rename_i queue hsome
    exact (Function.update_apply ..).trans (by rw [hsome]; rfl)

/-- Registering a handle and dropping it again restores the coordinator that did not know it. -/
theorem unregister_register (h : ¬c.IsRegistered handle) :
    (c.register handle).unregister handle = c := by
  ext1 other
  rw [messagesByHandle_unregister, messagesByHandle_register]
  by_cases heq : other = handle
  · subst heq
    rw [if_pos rfl, Option.not_isSome_iff_eq_none.mp h]
  · rw [if_neg heq, if_neg heq]

theorem isRegistered_register :
    (c.register handle).IsRegistered other ↔ other = handle ∨ c.IsRegistered other := by
  unfold IsRegistered
  rw [messagesByHandle_register]
  split
  · rename_i h
    exact iff_of_true rfl (Or.inl h)
  · rename_i h
    exact (or_iff_right h).symm

theorem isRegistered_register_self : (c.register handle).IsRegistered handle :=
  isRegistered_register.mpr (Or.inl rfl)

theorem isRegistered_unregister :
    (c.unregister handle).IsRegistered other ↔ other ≠ handle ∧ c.IsRegistered other := by
  unfold IsRegistered
  rw [messagesByHandle_unregister]
  split
  · rename_i h
    exact iff_of_false nofun fun hh ↦ hh.1 h
  · rename_i h
    exact (and_iff_right h).symm

@[simp] theorem isRegistered_onMessageReceived :
    (c.onMessageReceived handle message).IsRegistered other ↔ c.IsRegistered other := by
  unfold IsRegistered
  rw [messagesByHandle_onMessageReceived]
  split
  · rename_i h
    rw [h, Option.isSome_map]
  · exact Iff.rfl

theorem getMessages_register :
    (c.register handle).getMessages other
      = if other = handle then [] else c.getMessages other := by
  unfold getMessages
  rw [messagesByHandle_register]
  split <;> rfl

theorem getMessages_unregister_of_ne (h : other ≠ handle) :
    (c.unregister handle).getMessages other = c.getMessages other := by
  rw [getMessages, messagesByHandle_unregister, if_neg h]
  rfl

theorem getMessages_onMessageReceived_self (h : c.IsRegistered handle) :
    (c.onMessageReceived handle message).getMessages handle
      = c.getMessages handle ++ [message] := by
  obtain ⟨queue, hqueue⟩ := Option.isSome_iff_exists.mp h
  unfold getMessages
  rw [messagesByHandle_onMessageReceived, if_pos rfl, hqueue]
  rfl

end SubscriptionCoordinator

end BusTester
