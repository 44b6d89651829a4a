import BusTester.Text.StringMap
import BusTester.Text.Utf8

/-!
# Messages, handles and the exceptions of the bus

The broker-neutral types of `BusTester.Domain`. A `BusMessage` can only be obtained through its
validating constructor, so the two facts that the constructor checks are fields of the structure;
`BusMessage.create` is that constructor, and throws where it does.

A C# `string` parameter that the code compares with `null` is an `Option`.
-/

namespace BusTester

/-! ## Identifiers -/

/-- A `System.Guid`, by its 128 bits. -/
structure Guid where
  bits : BitVec 128
deriving DecidableEq

namespace Guid

/-- The `i`-th of the 32 hexadecimal digits, the most significant one first. -/
def digit (g : Guid) (i : ℕ) : ℕ := g.bits.toNat / Nat.pow 16 (31 - i) % 16

/-- A digit in lower-case hexadecimal. -/
def hexUnit (d : ℕ) : UInt16 := UInt16.ofNat (if d < 10 then 0x30 + d else 0x57 + d)

/-- The digits from `start` on, `count` of them. -/
def group (g : Guid) (start count : ℕ) : Utf16 :=
  (List.range' start count).map fun i ↦ hexUnit (g.digit i)

/-- `Guid.ToString()`: five groups of lower-case hexadecimal digits, joined by hyphens. -/
def toString (g : Guid) : Utf16 :=
  g.group 0 8 ++ [0x2D] ++ g.group 8 4 ++ [0x2D] ++ g.group 12 4 ++ [0x2D] ++ g.group 16 4
    ++ [0x2D] ++ g.group 20 12

theorem digit_lt (g : Guid) (i : ℕ) : g.digit i < 16 := Nat.mod_lt _ (by decide)

/-- A rendered identifier has no white space of either runtime. -/
theorem not_whiteSpace_of_mem_toString {g : Guid} {c : UInt16} (h : c ∈ g.toString) :
    Utf16.isWhiteSpace c = false ∧ Utf16.isJsWhiteSpace c = false := by
  have hhex : ∀ d < 16, Utf16.isWhiteSpace (hexUnit d) = false ∧
      Utf16.isJsWhiteSpace (hexUnit d) = false := by decide
  have hgroup : ∀ start count, c ∈ g.group start count →
      Utf16.isWhiteSpace c = false ∧ Utf16.isJsWhiteSpace c = false := by
    intro start count hc
    obtain ⟨i, -, rfl⟩ := List.mem_map.mp hc
    exact hhex _ (g.digit_lt i)
  simp only [toString, List.mem_append, List.mem_singleton] at h
  rcases h with ((((((((h | rfl) | h) | rfl) | h) | rfl) | h) | rfl) | h)
  all_goals first | exact hgroup _ _ h | decide

theorem toString_ne_nil (g : Guid) : g.toString ≠ [] := by simp [toString]

end Guid

/-- `SubscriptionHandle`. -/
structure SubscriptionHandle where
  value : Guid
deriving DecidableEq

/-! ## Exceptions -/

/-- The exceptions that the code throws or lets through, with the text it gives them. -/
inductive BusException where
  /-- `ArgumentException`, with the name of the parameter when one is given. -/
  | argument (message : Utf16) (paramName : Option Utf16)
  | busConnection (message : Utf16)
  | busPublish (message : Utf16)
  | busSubscription (message : Utf16)
  | requestReplyNotSupported (message : Utf16)
  /-- `OperationCanceledException`. -/
  | operationCanceled
  /-- `NullReferenceException`. -/
  | nullReference
  /-- Any other exception of the client library. -/
  | other
deriving DecidableEq

/-! ## Messages -/

/-- The target guard: not empty, yet empty when trimmed. -/
def WhiteSpaceOnly (target : Utf16) : Prop := 0 < target.length ∧ target.trim.length = 0

instance (target : Utf16) : Decidable (WhiteSpaceOnly target) :=
  inferInstanceAs (Decidable (_ ∧ _))

/-- A broker-neutral message. `target` may be empty (the default exchange) but not white space
only, and the payload is not blank. -/
structure BusMessage where
  target : Utf16
  routingKey : Option Utf16
  payload : Utf16
  replyTo : Option Utf16
  correlationId : Option Utf16
  headers : StringMap
  target_valid : ¬WhiteSpaceOnly target
  payload_valid : Utf16.isNullOrWhiteSpace (some payload) = false
deriving DecidableEq

namespace BusMessage

def targetRequired : BusException :=
  .argument (Utf16.ofString "Target is required.") (Utf16.ofString "target")

def targetWhiteSpaceOnly : BusException :=
  .argument (Utf16.ofString "Target must not be whitespace-only.") (Utf16.ofString "target")

def payloadRequired : BusException :=
  .argument (Utf16.ofString "Payload is required.") (Utf16.ofString "payload")

/-- The constructor of `BusMessage`. -/
def create (target routingKey payload replyTo correlationId : Option Utf16)
    (headers : Option StringMap) : Except BusException BusMessage :=
  match target with
  | none => .error targetRequired
  | some target =>
    if htarget : WhiteSpaceOnly target then .error targetWhiteSpaceOnly
    else
      match payload with
      | none => .error payloadRequired
      | some payload =>
        if hpayload : Utf16.isNullOrWhiteSpace (some payload) = true then .error payloadRequired
        else
          .ok {
            target, routingKey, payload, replyTo, correlationId
            headers := headers.getD StringMap.empty
            target_valid := htarget
            payload_valid := Bool.eq_false_iff.mpr hpayload }

/-- The arguments that the constructor accepts: a target that is given and is not white space only,
and a payload that is not blank. -/
def Accepts (target payload : Option Utf16) : Prop :=
  (∃ t ∈ target, ¬WhiteSpaceOnly t) ∧ Utf16.isNullOrWhiteSpace payload = false

instance (target payload : Option Utf16) : Decidable (Accepts target payload) :=
  inferInstanceAs (Decidable (_ ∧ _))

/-- **What the constructor guarantees**: an accepted message carries the arguments unchanged. -/
theorem create_eq_ok {target routingKey payload replyTo correlationId : Option Utf16}
    {headers : Option StringMap} {m : BusMessage}
    (h : create target routingKey payload replyTo correlationId headers = .ok m) :
    target = some m.target ∧ routingKey = m.routingKey ∧ payload = some m.payload ∧
      replyTo = m.replyTo ∧ correlationId = m.correlationId ∧
      m.headers = headers.getD StringMap.empty := by
  unfold create at h
  split at h
  · cases h
  · split at h
    · cases h
    · split at h
      · cases h
      · split at h
        · cases h
        · cases h
          exact ⟨rfl, rfl, rfl, rfl, rfl, rfl⟩

theorem accepts_of_create {target routingKey payload replyTo correlationId : Option Utf16}
    {headers : Option StringMap} {m : BusMessage}
    (h : create target routingKey payload replyTo correlationId headers = .ok m) :
    Accepts target payload := by
  obtain ⟨rfl, -, rfl, -⟩ := create_eq_ok h
  exact ⟨⟨m.target, rfl, m.target_valid⟩, m.payload_valid⟩

/-- **The constructor throws only on arguments that are not accepted.** -/
theorem exists_create_of_accepts {target payload : Option Utf16} (h : Accepts target payload)
    (routingKey replyTo correlationId : Option Utf16) (headers : Option StringMap) :
    ∃ m, create target routingKey payload replyTo correlationId headers = .ok m := by
  obtain ⟨⟨t, ht, htarget⟩, hpayload⟩ := h
  cases ht
  cases payload with
  | none => simp [Utf16.isNullOrWhiteSpace] at hpayload
  | some payload =>
    simp only [create, dif_neg htarget, hpayload, Bool.false_eq_true, dite_false]
    exact ⟨_, rfl⟩

end BusMessage

end BusTester
