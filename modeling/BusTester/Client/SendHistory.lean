import BusTester.Text.StringMap

/-!
# The history of the send panel

`SendHistoryService` keeps the recent sends, newest first and at most twenty, and the templates,
one for each name. Each operation updates the signal first and writes the storage afterwards, so
the signal has its new value even where the write throws; what is modelled here is the signal.
-/

namespace BusTester

/-- `RecentSend`. An entry that was stored by an older version has no headers. -/
structure RecentSend where
  exchange : Utf16
  routingKey : Utf16
  payload : Utf16
  sentAt : Utf16
  headers : Option StringMap
deriving DecidableEq

/-- `SendTemplate`. -/
structure SendTemplate where
  name : Utf16
  exchange : Utf16
  routingKey : Utf16
  payload : Utf16
  headers : Option StringMap
deriving DecidableEq

structure SendHistoryService where
  recentSends : List RecentSend
  templates : List SendTemplate
deriving DecidableEq

namespace SendHistoryService

/-- `RECENT_SENDS_CAP`. -/
def recentSendsCap : ℕ := 20

/-- `recordSend`, the time of the entry being given. -/
def recordSend (s : SendHistoryService) (entry : RecentSend) : SendHistoryService :=
  { s with recentSends := (entry :: s.recentSends).take recentSendsCap }

theorem take_cons_eq_self_iff {α : Type*} {x : α} {l : List α} {n : ℕ} :
    (x :: l).take n = l ↔ l = List.replicate n x := by
  induction n generalizing l with
  | zero => simp [eq_comm]
  | succ n ih =>
    cases l with
    | nil => simp
    | cons y l =>
      rw [List.take_succ_cons, List.replicate_succ, List.cons.injEq, List.cons.injEq]
      constructor
      · rintro ⟨rfl, h⟩
        exact ⟨rfl, ih.mp h⟩
      · rintro ⟨rfl, h⟩
        exact ⟨rfl, ih.mpr h⟩

def saveTemplate (s : SendHistoryService) (template : SendTemplate) : SendHistoryService :=
  { s with templates := (s.templates.filter fun t ↦ t.name ≠ template.name) ++ [template] }

def deleteTemplate (s : SendHistoryService) (name : Utf16) : SendHistoryService :=
  { s with templates := s.templates.filter fun t ↦ t.name ≠ name }

end SendHistoryService

end BusTester
