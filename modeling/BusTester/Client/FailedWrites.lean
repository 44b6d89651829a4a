import BusTester.Client.HistoryStorage
import Mathlib.Data.List.Basic

/-!
# Writes of the history that fail

Each operation of `SendHistoryService` sets the signal and then writes the storage. When the write
throws, as it does once the quota of the storage is used up, the signal keeps the new list and the
storage the old one. Only an operation that changes nothing may then fail without a trace; this
module says which ones these are, and that the signals and the storage agree throughout a run
exactly when no other write fails.
-/

namespace BusTester

namespace HistoryStorage

open Transition

/-- A new instance over the storage would hold what the signals hold. -/
def InSync (s : State) : Prop := s.storage.load = some s.service

/-- The operation finds its own outcome: a history that is full of the entry, the template in the
last place, or no template of the name. -/
def Idle (s : SendHistoryService) : HistoryCall → Prop
  | .recordSend entry =>
    s.recentSends = List.replicate SendHistoryService.recentSendsCap entry.listed
  | .saveTemplate template => ∃ others, s.templates = others ++ [template.listed] ∧
      ∀ t ∈ others, t.name ≠ template.name
  | .deleteTemplate name => ∀ t ∈ s.templates, t.name ≠ name

/-- The write succeeds, or there is nothing to write. -/
def FailsIdly (s : State) : Label → Prop
  | .call c stored => stored = true ∨ Idle s.service c
  | .reload => True

variable {s t : State} {service : SendHistoryService} {c : HistoryCall} {a : Label}

theorem filter_concat_eq_self_iff {α : Type*} {p : α → Bool} {x : α} {l : List α}
    (hx : p x = false) : l.filter p ++ [x] = l ↔ ∃ l', l = l' ++ [x] ∧ ∀ y ∈ l', p y = true := by
  constructor
  · intro h
    refine ⟨l.filter p, h.symm, fun y hy ↦ (List.mem_filter.mp hy).2⟩
  · rintro ⟨l', rfl, hl'⟩
    rw [List.filter_append, List.filter_eq_self.mpr hl', List.filter_cons_of_neg (by simp [hx]),
      List.filter_nil, List.append_nil]

/-- **The operations that change nothing.** -/
theorem update_eq_self_iff : c.update service = service ↔ Idle service c := by
  obtain ⟨recentSends, templates⟩ := service
  cases c with
  | recordSend entry =>
    simp only [HistoryCall.update, SendHistoryService.recordSend, Idle,
      SendHistoryService.mk.injEq, and_true]
    exact SendHistoryService.take_cons_eq_self_iff
  | saveTemplate template =>
    simp only [HistoryCall.update, SendHistoryService.saveTemplate, Idle,
      SendHistoryService.mk.injEq, true_and]
    rw [filter_concat_eq_self_iff (by simp)]
    simp only [decide_eq_true_eq]
    exact Iff.rfl
  | deleteTemplate name =>
    simp [HistoryCall.update, SendHistoryService.deleteTemplate, Idle, List.filter_eq_self]

/-! ## Runs -/

/-- The signals and the storage agree, and the headers are in the order in which they are listed. -/
structure Agreement (s : State) : Prop where
  inSync : InSync s
  listed : s.service.Listed

theorem agreement_of_load {storage : HistoryStorage} (hload : storage.load = some service) :
    Agreement ⟨service, storage⟩ :=
  ⟨hload, listed_of_load hload⟩

/-- The step lemma: a write that succeeds brings the two together, one that fails without an effect
leaves them so. -/
theorem agreement_step (hs : Agreement s) (hidle : FailsIdly s a) (hstep : step s a = some t) :
    Agreement t := by
  cases a with
  | reload =>
    rw [step, hs.inSync] at hstep
    cases hstep
    exact hs
  | call c stored =>
    cases hstep
    refine ⟨?_, hs.listed.update⟩
    cases stored with
    | true =>
      change (c.write (c.update s.service) s.storage).load = some (c.update s.service)
      rw [SendHistoryService.load_write hs.listed.update hs.inSync, HistoryCall.found_update]
    | false =>
      have hsame : c.update s.service = s.service :=
        update_eq_self_iff.mpr (hidle.resolve_left Bool.false_ne_true)
      change s.storage.load = some (c.update s.service)
      rw [hsame, hs.inSync]

/-- A failed write that had something to write leaves the signals ahead of the storage. -/
theorem not_inSync_of_failed (hs : Agreement s) (hidle : ¬FailsIdly s a)
    (hstep : step s a = some t) : ¬InSync t := by
  cases a with
  | reload => exact absurd trivial hidle
  | call c stored =>
    obtain ⟨hfailed, hchanges⟩ := not_or.mp hidle
    obtain rfl : stored = false := Bool.eq_false_iff.mpr hfailed
    cases hstep
    intro hsync
    refine hchanges (update_eq_self_iff.mp ?_)
    change s.storage.load = some (c.update s.service) at hsync
    exact Option.some.inj (hsync.symm.trans hs.inSync)

/-- **Memory and storage agree after every operation exactly if no write fails that had something
to write.** The run may start from any storage that the service was constructed over. -/
theorem along_inSync_iff {storage : HistoryStorage} {as : List Label}
    (hload : storage.load = some service) (hrun : run step ⟨service, storage⟩ as = some t) :
    Along step InSync ⟨service, storage⟩ as ↔ Guarded step FailsIdly ⟨service, storage⟩ as :=
  along_iff_guarded (D := fun _ _ ↦ True) (agreement_of_load hload)
    (fun _ _ _ _ hidle hs hstep ↦ agreement_step hs hidle hstep)
    (fun _ _ _ _ hidle hs hstep ↦ not_inSync_of_failed hs hidle hstep)
    (fun _ hs ↦ hs.inSync) guarded_true hrun

/-- A send is recorded; a template that does not exist is deleted, and that write fails. -/
theorem inSync_of_idle_failure : Along step InSync State.initial
    [.call (.recordSend ⟨Utf16.ofString "ex", [], Utf16.ofString "1", Utf16.ofString "10:00",
      none⟩) true, .call (.deleteTemplate (Utf16.ofString "a")) false] :=
  (along_inSync_iff rfl rfl).mpr
    ⟨Or.inl rfl, fun t ht ↦ ⟨Or.inr (by cases ht; simp [Idle, HistoryCall.update,
      SendHistoryService.recordSend]), fun _ _ ↦ trivial⟩⟩

/-- The quota is used up when a send is recorded: the signal has the entry, a reload loses it. -/
theorem not_inSync_of_quota : ¬Along step InSync State.initial
    [.call (.recordSend ⟨Utf16.ofString "ex", [], Utf16.ofString "1", Utf16.ofString "10:00",
      none⟩) false] := by
  intro h
  have hlast : InSync _ := h.last rfl
  exact absurd (congrArg (Option.map fun s ↦ s.recentSends.length) hlast) (by decide)

end HistoryStorage

end BusTester
