import BusTester.Client.HistoryStorage

/-!
# The history in several tabs

Each tab constructs a `SendHistoryService` of its own, over the storage that they all share. A tab
reads the storage once, and what it writes is the whole of its own list, so a template that another
tab has saved in between is gone from the storage. `findsTemplates_iff` says that this is the only
way to lose one: a new tab finds them all, throughout a run, exactly if no tab writes its templates
while its list lacks one that is to be kept.
-/

namespace BusTester

namespace HistoryTabs

open Transition KeyedLog

/-- The signals of the tabs, in the order in which they were opened, and the storage. -/
structure State where
  services : List SendHistoryService
  storage : HistoryStorage
  /-- What all tabs have done to templates so far. No tab knows this. -/
  updates : List (Update SendTemplate Utf16)
deriving DecidableEq

/-- No tab is open. -/
def State.initial (storage : HistoryStorage) : State := ⟨[], storage, []⟩

inductive Label where
  /-- A tab is opened and constructs its service over the storage. -/
  | opened
  /-- A call in one of the tabs, whose write succeeds. -/
  | call (i : ℕ) (c : HistoryCall)

def step (s : State) : Label → Option State
  | .opened => s.storage.load.map fun service ↦ { s with services := s.services ++ [service] }
  | .call i c =>
    s.services[i]?.map fun service ↦
      { services := s.services.set i (c.update service)
        storage := c.write (c.update service) s.storage
        updates := s.updates ++ c.templateUpdate.toList }

/-- A new tab finds, for each name, the template saved last under it by any tab, unless the name has
been deleted since. -/
def FindsTemplates (s : State) : Prop :=
  ∃ fresh ∈ s.storage.load, kept SendTemplate.name s.updates ⊆ fresh.templates

/-- A tab that changes its templates has all that are to be kept, up to the name that the change is
about. -/
def UpToDate (s : State) : Label → Prop
  | .opened => True
  | .call i c => ∀ u ∈ c.templateUpdate, ∀ service ∈ s.services[i]?,
      ∀ t ∈ kept SendTemplate.name s.updates, t.name ≠ u.about SendTemplate.name →
        t ∈ service.templates

instance (s : State) : (a : Label) → Decidable (UpToDate s a)
  | .opened => instDecidableTrue
  | .call i c => inferInstanceAs (Decidable (∀ u ∈ c.templateUpdate, ∀ service ∈ s.services[i]?,
      ∀ t ∈ kept SendTemplate.name s.updates, t.name ≠ u.about SendTemplate.name →
        t ∈ service.templates))

/-- The invariant of the runs in which no template is lost. -/
structure Consistent (s : State) : Prop where
  listed : ∀ service ∈ s.services, service.Listed
  findsTemplates : FindsTemplates s

variable {s t : State} {a : Label} {as : List Label} {storage : HistoryStorage}

theorem consistent_initial {fresh : SendHistoryService} (hload : storage.load = some fresh) :
    Consistent (State.initial storage) :=
  ⟨nofun, fresh, hload, List.nil_subset _⟩

/-- **What a call leaves** for a tab that is opened next. -/
theorem load_of_call {i : ℕ} {c : HistoryCall} {fresh : SendHistoryService}
    (hlisted : ∀ service ∈ s.services, service.Listed) (hload : s.storage.load = some fresh)
    (hstep : step s (.call i c) = some t) : ∃ service ∈ s.services[i]?,
      t.services = s.services.set i (c.update service) ∧ (c.update service).Listed ∧
        t.updates = s.updates ++ c.templateUpdate.toList ∧
          t.storage.load = some (c.found fresh (c.update service)) := by
  obtain ⟨service, hservice, rfl⟩ := Option.map_eq_some_iff.mp hstep
  have hnext : (c.update service).Listed := (hlisted service (List.mem_of_getElem? hservice)).update
  exact ⟨service, hservice, rfl, hnext, rfl, SendHistoryService.load_write hnext hload⟩

/-- A call loses no template exactly if the tab is up to date. -/
theorem findsTemplates_call_iff {i : ℕ} {c : HistoryCall} (hs : Consistent s)
    (hstep : step s (.call i c) = some t) : FindsTemplates t ↔ UpToDate s (.call i c) := by
  obtain ⟨fresh, hload, hkept⟩ := hs.findsTemplates
  obtain ⟨service, hservice, -, -, hupdates, hnext⟩ := load_of_call hs.listed hload hstep
  have hlost : FindsTemplates t ↔ kept SendTemplate.name t.updates
      ⊆ (c.found fresh (c.update service)).templates := by
    simp [FindsTemplates, hnext]
  rw [hlost, hupdates, HistoryCall.templates_found]
  cases hu : c.templateUpdate with
  | none =>
    rw [Option.toList_none, List.append_nil, Option.elim_none]
    refine iff_of_true hkept fun u hmem ↦ ?_
    rw [hu] at hmem
    cases hmem
  | some u =>
    -- The name that the call is about is up to date in any case.
    rw [Option.toList_some, kept_concat, Option.elim_some, update_subset_iff]
    constructor
    · intro hall v hv service' hservice' b hb hne
      obtain rfl : u = v := Option.some.inj (hu.symm.trans hv)
      obtain rfl : service = service' := Option.some.inj (hservice.symm.trans hservice')
      exact hall b hb hne
    · exact fun hall ↦ hall u hu service hservice

theorem listed_step (hlisted : ∀ service ∈ s.services, service.Listed)
    (hstep : step s a = some t) : ∀ service ∈ t.services, service.Listed := by
  cases a with
  | opened =>
    obtain ⟨fresh, hload, rfl⟩ := Option.map_eq_some_iff.mp hstep
    intro service hservice
    rcases List.mem_append.mp hservice with hservice | hservice
    · exact hlisted service hservice
    · rw [List.mem_singleton.mp hservice]
      exact HistoryStorage.listed_of_load hload
  | call i c =>
    obtain ⟨service, hservice, rfl⟩ := Option.map_eq_some_iff.mp hstep
    intro service' hmem
    rcases List.mem_or_eq_of_mem_set hmem with hmem | rfl
    · exact hlisted service' hmem
    · exact (hlisted service (List.mem_of_getElem? hservice)).update

theorem findsTemplates_opened (hs : Consistent s) (hstep : step s .opened = some t) :
    FindsTemplates t := by
  obtain ⟨service, -, rfl⟩ := Option.map_eq_some_iff.mp hstep
  exact hs.findsTemplates

/-- **No template is lost exactly if every tab that writes its templates is up to date.** -/
theorem findsTemplates_iff {fresh : SendHistoryService} (hload : storage.load = some fresh)
    (hrun : run step (State.initial storage) as = some t) :
    Along step FindsTemplates (State.initial storage) as ↔
      Guarded step UpToDate (State.initial storage) as := by
  refine along_iff_guarded (consistent_initial hload) (fun s a t _ hupToDate hs hstep ↦ ?_)
    (fun s a t _ hstale hs hstep ↦ ?_) (fun _ hs ↦ hs.findsTemplates) guarded_true hrun
  · refine ⟨listed_step hs.listed hstep, ?_⟩
    cases a with
    | opened => exact findsTemplates_opened hs hstep
    | call i c => exact (findsTemplates_call_iff hs hstep).mpr hupToDate
  · cases a with
    | opened => exact absurd trivial hstale
    | call i c => exact fun hkept ↦ hstale ((findsTemplates_call_iff hs hstep).mp hkept)

/-- A template of the exchange `ex`, saved under the name. -/
private def template (name : String) : SendTemplate :=
  ⟨Utf16.ofString name, Utf16.ofString "ex", [], [], none⟩

/-- Of two tabs one changes the templates and the other one records a send. -/
private def oneWriter : List Label :=
  [.opened, .opened, .call 0 (.saveTemplate (template "a")),
    .call 1 (.recordSend ⟨Utf16.ofString "ex", [], [], Utf16.ofString "10:00", none⟩),
    .call 0 (.saveTemplate (template "b")), .call 0 (.deleteTemplate (Utf16.ofString "a"))]

theorem findsTemplates_of_oneWriter :
    (run step (State.initial ⟨none, none⟩) oneWriter).isSome = true ∧
      Along step FindsTemplates (State.initial ⟨none, none⟩) oneWriter := by
  obtain ⟨t, hrun⟩ : ∃ t, run step (State.initial ⟨none, none⟩) oneWriter = some t := ⟨_, rfl⟩
  have hload : (HistoryStorage.mk none none).load = some ⟨[], []⟩ := rfl
  exact ⟨by rw [hrun]; rfl, (findsTemplates_iff hload hrun).mpr (by decide)⟩

/-- Both tabs save a template. -/
private def twoWriters : List Label :=
  [.opened, .opened, .call 0 (.saveTemplate (template "a")),
    .call 1 (.saveTemplate (template "b"))]

theorem not_findsTemplates_of_twoWriters : ∃ t fresh,
    run step (State.initial ⟨none, none⟩) twoWriters = some t ∧ t.storage.load = some fresh ∧
      fresh.templates = [template "b"] ∧ template "a" ∈ kept SendTemplate.name t.updates ∧
        ¬FindsTemplates t := by
  obtain ⟨t, hrun, hstorage, hkept⟩ : ∃ t,
      run step (State.initial ⟨none, none⟩) twoWriters = some t ∧
        t.storage = ⟨none, some (arrayText SendTemplate.toJson [template "b"])⟩ ∧
          template "a" ∈ kept SendTemplate.name t.updates := ⟨_, rfl, rfl, by decide⟩
  have hload : t.storage.load = some ⟨[], [template "b"]⟩ := by
    rw [hstorage]
    refine HistoryStorage.load_eq_some_iff.mpr ⟨rfl, ?_⟩
    rw [readArray_arrayText]
    rfl
  refine ⟨t, _, hrun, hload, rfl, hkept, ?_⟩
  rintro ⟨fresh, hfresh, hsub⟩
  obtain rfl : ⟨[], [template "b"]⟩ = fresh := Option.some.inj (hload.symm.trans hfresh)
  exact absurd (hsub hkept) (by decide)

end HistoryTabs

end BusTester
