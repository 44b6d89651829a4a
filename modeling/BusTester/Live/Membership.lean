import BusTester.Client.Invocations
import BusTester.Live.World

/-!
# Groups that are not left

On a connection that is never lost the groups are what the joins and leaves make of them, in the
order in which they were invoked. A leave is invoked as soon as a DELETE has been answered. A join
waits for the start of the connection, so it may be invoked after the leave of the same
subscription, which was rejected because the connection was not up; and then nothing leaves the
group any more.

`noneLingers_iff` says that this is the only way: looking ahead to the execution of what has been
invoked, every group belongs to an entry that is shown exactly if each join is invoked while its
entry is still shown.
-/

namespace BusTester

namespace Live

open Page (Invocation Join Response)
open Transition

variable {s t : State} {a : Label} {as : List Label}

/-! ## The property and the condition -/

/-- Nothing is on its way, and the start of the connection has settled. -/
def NothingPending (s : State) : Prop :=
  s.page.hub.startPromise ≠ some .pending ∧ s.page.awaitingStart = [] ∧
    s.page.invocations = [] ∧ ∀ n, s.page.requests n = none

/-- Once nothing is pending every group belongs to a chip or to a pending reply. -/
def LeavesGroups (s : State) : Prop := NothingPending s → ∀ h ∈ s.groups, h ∈ s.page.shown

/-- The connection is never lost, and what is invoked on it succeeds. -/
def OneConnection (_ : State) : Label → Prop
  | .page .onreconnecting | .page .onclose => False
  | .execute ok => ok = true
  | _ => True

/-- A join is invoked only while its entry is shown. -/
def JoinsShown (s : State) : Label → Prop
  | .page .startSettled => s.page.hub.startPromise = some .resolved →
    ∀ join ∈ s.page.awaitingStart.head?, join.subscriptionId ∈ s.page.shown
  | _ => True

instance (s : State) : DecidablePred (OneConnection s)
  | .page b =>
    match b with
    | .onreconnecting | .onclose => isFalse id
    | .editQueueName _ | .subscribeToQueue | .sendWithReply _ | .unsubscribe .. | .respond ..
    | .started _ | .startSettled | .settled _ | .messageReceived _ | .onreconnected =>
      isTrue trivial
  | .execute ok => instDecidableEqBool ok true
  | .serve .. | .respond .. | .complete | .deliver .. | .push => isTrue trivial

instance (s : State) : DecidablePred (JoinsShown s)
  | .page b =>
    match b with
    | .startSettled => inferInstanceAs (Decidable (s.page.hub.startPromise = some .resolved →
        ∀ join ∈ s.page.awaitingStart.head?, join.subscriptionId ∈ s.page.shown))
    | .editQueueName _ | .subscribeToQueue | .sendWithReply _ | .unsubscribe .. | .respond ..
    | .started _ | .settled _ | .messageReceived _ | .onreconnecting | .onreconnected
    | .onclose => isTrue trivial
  | .serve .. | .respond .. | .execute _ | .complete | .deliver .. | .push => isTrue trivial

/-! ## Looking ahead -/

/-- The groups when all that has been invoked has been executed. -/
def State.eventual (s : State) : Finset Guid :=
  (s.page.invocations.drop s.completions.length).foldl Invocation.apply s.groups

/-- Every group, as it will be then, belongs to an entry. -/
def NoneLingers (s : State) : Prop := ∀ h ∈ s.eventual, h ∈ s.page.shown

/-- On one connection, as long as every join is invoked while its entry is shown. -/
structure Settles (s : State) : Prop where
  up : s.page.IsConnected ↔ s.page.hub.startPromise = some .resolved
  notRestoring : s.page.hub.connectionState ≠ .reconnecting
  down : ¬s.page.IsConnected → s.page.invocations = [] ∧ s.groups = ∅
  results : s.completions.length ≤ s.page.invocations.length
  noneLingers : NoneLingers s

theorem settles_initial : Settles State.initial where
  up := iff_of_false nofun nofun
  notRestoring := nofun
  down _ := ⟨rfl, rfl⟩
  results := le_rfl
  noneLingers := nofun

/-- When nothing is pending the groups are what they will be. -/
theorem Settles.leavesGroups (hs : Settles s) : LeavesGroups s := by
  intro hpending h hh
  refine hs.noneLingers h ?_
  rw [State.eventual, hpending.2.2.1, List.drop_nil]
  exact hh

/-- What is invoked last is executed last. -/
theorem eventual_invoke {invocation : Invocation} (hs : Settles s)
    (hinvocations : t.page.invocations = (s.page.invoke invocation).invocations)
    (hgroups : t.groups = s.groups) (hcompletions : t.completions = s.completions) :
    t.eventual = if s.page.IsConnected then invocation.apply s.eventual else ∅ := by
  rw [State.eventual, State.eventual, hinvocations, hgroups, hcompletions,
    Page.invocations_invoke]
  by_cases hup : s.page.IsConnected
  · rw [if_pos hup, if_pos hup, List.drop_append_of_le_length hs.results, List.foldl_append]
    rfl
  · obtain ⟨hnone, hempty⟩ := hs.down hup
    rw [if_neg hup, if_neg hup, hnone, hempty, List.drop_nil]
    rfl

/-! ## The steps -/

private theorem Settles.connection {b : Page.Label} (hs : Settles s)
    (c : Page.Connection s.page b t.page) (hgroups : t.groups = s.groups)
    (hsettled : ∀ ok, b ≠ .settled ok) (hloses : ¬(b = .onreconnecting ∨ b = .onclose)) :
    (t.page.IsConnected ↔ t.page.hub.startPromise = some .resolved) ∧
      t.page.hub.connectionState ≠ .reconnecting ∧
        (¬t.page.IsConnected → t.page.invocations = [] ∧ t.groups = ∅) := by
  have hdown : s.page.hub.startPromise ≠ some .resolved →
      t.page.invocations = s.page.invocations → t.page.invocations = [] ∧ t.groups = ∅ := by
    intro hnot hsame
    rw [hsame, hgroups]
    exact hs.down fun hup ↦ hnot (hs.up.mp hup)
  cases c with
  | stays hstate hpromise hinvocations =>
    refine ⟨?_, ?_, fun hnot ↦ ?_⟩
    · rw [Page.State.IsConnected, hstate, hpromise]
      exact hs.up
    · rw [hstate]
      exact hs.notRestoring
    · rw [Page.State.IsConnected, hstate] at hnot
      rcases hinvocations with hsame | ⟨hup, -⟩
      · rw [hsame, hgroups]
        exact hs.down hnot
      · exact absurd hup hnot
  | starts hpromise hhub hinvocations =>
    have hstarted : t.page.hub = { s.page.hub with
        connectionState := .connecting, startPromise := some .pending } := by
      rw [hhub, BusHubService.start, hpromise]
    refine ⟨?_, ?_, fun _ ↦ hdown (by rw [hpromise]; decide) hinvocations⟩
    · rw [Page.State.IsConnected, hstarted]
      exact iff_of_false (fun h ↦ by cases h) fun h ↦ by cases h
    · rw [hstarted]
      intro h
      cases h
  | started ok ha hpromise hhub hinvocations =>
    rw [BusHubService.onStarted] at hhub
    refine ⟨?_, ?_, fun _ ↦ hdown (by rw [hpromise]; decide) hinvocations⟩
    · rw [Page.State.IsConnected, hhub]
      cases ok with
      | true => exact iff_of_true rfl rfl
      | false => exact iff_of_false (fun h ↦ by cases h) fun h ↦ by cases h
    · rw [hhub]
      intro h
      cases ok <;> cases h
  | settles ok invocation hb => exact absurd hb (hsettled ok)
  | loses hb => exact absurd hb hloses
  | restores hb hstate => exact absurd hstate hs.notRestoring

theorem Settles.of_page {b : Page.Label} (hs : Settles s)
    (hpage : Page.step s.page b = some t.page) (hgroups : t.groups = s.groups)
    (hcompletions : t.completions = s.completions) (hsettled : ∀ ok, b ≠ .settled ok)
    (hloses : ¬(b = .onreconnecting ∨ b = .onclose))
    (hjoins : ∀ join, Page.IssuesJoin s.page b join → join.subscriptionId ∈ s.page.shown) :
    Settles t := by
  obtain ⟨hup, hnotRestoring, hdown⟩ :=
    hs.connection (Page.connection_of_step hpage) hgroups hsettled hloses
  have hmore : ∀ invocation, t.page.invocations = (s.page.invoke invocation).invocations →
      t.completions.length ≤ t.page.invocations.length := by
    intro invocation hinvocations
    have hresults := hs.results
    rw [hcompletions, hinvocations, Page.invocations_invoke]
    split
    · rw [List.length_append]
      omega
    · exact hresults
  cases Page.invokes_of_step hpage with
  | nothing hinvocations hshown =>
    refine ⟨hup, hnotRestoring, hdown, ?_, fun h hh ↦ ?_⟩
    · rw [hcompletions, hinvocations]
      exact hs.results
    · rw [State.eventual, hinvocations, hgroups, hcompletions] at hh
      exact hshown h (hs.noneLingers h hh)
  | join join hissues hinvocations hshown =>
    refine ⟨hup, hnotRestoring, hdown, hmore _ hinvocations, fun h hh ↦ ?_⟩
    rw [eventual_invoke hs hinvocations hgroups hcompletions] at hh
    rw [hshown]
    split at hh
    · rcases Finset.mem_insert.mp hh with rfl | hh
      · exact hjoins join hissues
      · exact hs.noneLingers h hh
    · cases hh
  | leave id hinvocations hshown =>
    refine ⟨hup, hnotRestoring, hdown, hmore _ hinvocations, fun h hh ↦ ?_⟩
    rw [eventual_invoke hs hinvocations hgroups hcompletions] at hh
    split at hh
    · obtain ⟨hne, hh⟩ := Finset.mem_erase.mp hh
      exact hshown h (hs.noneLingers h hh) hne
    · cases hh
  | settles invocation ok hb => exact absurd hb (hsettled ok)
  | loses hb => exact absurd hb hloses

theorem Settles.of_same (hs : Settles s) (hpage : t.page = s.page) (hgroups : t.groups = s.groups)
    (hcompletions : t.completions = s.completions) : Settles t := by
  refine ⟨?_, ?_, ?_, ?_, ?_⟩
  all_goals simp only [NoneLingers, State.eventual, hpage, hgroups, hcompletions]
  exacts [hs.up, hs.notRestoring, hs.down, hs.results, hs.noneLingers]

theorem Settles.of_execute {invocation : Invocation} (hs : Settles s)
    (hnext : s.page.invocations[s.completions.length]? = some invocation)
    (hpage : t.page = s.page) (hgroups : t.groups = invocation.apply s.groups)
    (hcompletions : t.completions = s.completions ++ [true]) : Settles t := by
  obtain ⟨hlt, hget⟩ := List.getElem?_eq_some_iff.mp hnext
  have heventual : t.eventual = s.eventual := by
    rw [State.eventual, State.eventual, hpage, hgroups, hcompletions, List.length_append,
      List.length_singleton, List.drop_eq_getElem_cons hlt, hget, List.foldl_cons]
  refine ⟨hpage ▸ hs.up, hpage ▸ hs.notRestoring, fun hnot ↦ ?_, ?_, ?_⟩
  · rw [hpage] at hnot
    rw [(hs.down hnot).1] at hlt
    cases hlt
  · rw [hpage, hcompletions, List.length_append]
    exact hlt
  · rw [NoneLingers, heventual, hpage]
    exact hs.noneLingers

theorem Settles.of_complete {ok : Bool} {rest : List Bool} {invocation : Invocation}
    (hs : Settles s) (hcompletions : s.completions = ok :: rest)
    (hinvocations : s.page.invocations = invocation :: t.page.invocations)
    (hhub : t.page.hub = s.page.hub) (hshown : t.page.shown = s.page.shown)
    (hgroups : t.groups = s.groups) (hrest : t.completions = rest) : Settles t := by
  have heventual : t.eventual = s.eventual := by
    rw [State.eventual, State.eventual, hinvocations, hcompletions, hgroups, hrest,
      List.length_cons, List.drop_succ_cons]
  have hconnected : t.page.IsConnected ↔ s.page.IsConnected := by
    rw [Page.State.IsConnected, hhub]
    exact Iff.rfl
  refine ⟨?_, hhub ▸ hs.notRestoring, fun hnot ↦ ?_, ?_, ?_⟩
  · rw [hconnected, hhub]
    exact hs.up
  · rw [hconnected] at hnot
    rw [(hs.down hnot).1] at hinvocations
    cases hinvocations
  · have hresults := hs.results
    rw [hcompletions, hinvocations, List.length_cons, List.length_cons] at hresults
    rw [hrest]
    omega
  · rw [NoneLingers, heventual, hshown]
    exact hs.noneLingers

theorem settles_step (hconnection : OneConnection s a) (hjoins : JoinsShown s a)
    (hs : Settles s) (hstep : step s a = some t) : Settles t := by
  have hnone : ∀ {b join}, b ≠ .startSettled → Page.IssuesJoin s.page b join →
      join.subscriptionId ∈ s.page.shown := fun hb hissues ↦ absurd hissues.1 hb
  cases a with
  | page b =>
    obtain ⟨page, hpage, ⟨rfl, hnot⟩ | ⟨rfl, hb⟩, -, hsettled, -⟩ := stepPage_spec hstep
    · refine hs.of_page hpage rfl rfl hsettled ?_ ?_
      · rintro (hb | hb)
        · exact hnot.1 hb
        · exact hnot.2 hb
      · rintro join ⟨rfl, hpromise, hhead⟩
        exact hjoins hpromise join hhead
    · rcases hb with rfl | rfl <;> exact hconnection.elim
  | serve n response =>
    obtain ⟨flow, id, -, -, rfl⟩ | ⟨request, flow, id, -, -, -, rfl⟩ := serve_spec hstep
    · exact hs.of_same rfl rfl rfl
    · exact hs.of_same rfl rfl rfl
  | respond n response =>
    obtain ⟨page, hpage, -, rfl⟩ := respond_spec hstep
    refine hs.of_page hpage rfl rfl (by simp) ?_ fun join ↦ hnone (by simp)
    rintro (hb | hb) <;> cases hb
  | execute ok =>
    obtain ⟨invocation, hnext, rfl⟩ := execute_spec hstep
    obtain rfl : ok = true := hconnection
    exact hs.of_execute hnext rfl rfl rfl
  | complete =>
    obtain ⟨ok, rest, invocation, invocations, page, hcompletions, -, hpage, rfl⟩ :=
      complete_spec hstep
    obtain ⟨invocation', hinvocations, hsame⟩ := Page.settles_of_step hpage
    exact hs.of_complete hcompletions hinvocations hsame.hub hsame.shown_eq rfl rfl
  | deliver id message =>
    cases hstep
    exact hs.of_same rfl rfl rfl
  | push =>
    obtain ⟨message, rest, -, rfl⟩ := push_spec hstep
    refine hs.of_page (b := .messageReceived message) rfl rfl rfl (by simp) ?_
      fun join ↦ hnone (by simp)
    rintro (hb | hb) <;> cases hb

/-- A join that is invoked for an entry that is gone leads into its group. -/
theorem not_noneLingers_of_step (hs : Settles s) (hjoins : ¬JoinsShown s a)
    (hstep : step s a = some t) : ¬NoneLingers t := by
  cases a with
  | page b =>
    cases b with
    | startSettled =>
      simp only [JoinsShown, not_forall] at hjoins
      obtain ⟨hpromise, join, hhead, hgone⟩ := hjoins
      obtain ⟨page, hpage, rfl⟩ := Option.map_eq_some_iff.mp hstep
      obtain ⟨hinvocations, hshown⟩ :=
        Page.invokes_of_issuesJoin ⟨rfl, hpromise, hhead⟩ hpage
      have heventual := eventual_invoke (t := { s with page }) hs hinvocations rfl rfl
      rw [if_pos (hs.up.mpr hpromise)] at heventual
      intro hnone
      have hmem : join.subscriptionId ∈ page.shown := by
        refine hnone join.subscriptionId ?_
        rw [heventual]
        exact Finset.mem_insert_self ..
      rw [hshown] at hmem
      exact hgone hmem
    | _ => exact absurd trivial hjoins
  | _ => exact absurd trivial hjoins

/-! ## The result -/

/-- No group lingers exactly if each join is invoked while its entry is shown. -/
theorem noneLingers_iff (hconnection : Guarded step OneConnection State.initial as)
    (hrun : run step State.initial as = some t) :
    Along step NoneLingers State.initial as ↔ Guarded step JoinsShown State.initial as :=
  along_iff_guarded settles_initial
    (fun _ _ _ hconnection hjoins hs hstep ↦ settles_step hconnection hjoins hs hstep)
    (fun _ _ _ _ hjoins hs hstep ↦ not_noneLingers_of_step hs hjoins hstep)
    (fun _ hs ↦ hs.noneLingers) hconnection hrun

/-- **What is dropped is left**, in every run whose joins are invoked while their entries are
shown. -/
theorem leavesGroups_of_joinsShown (hconnection : Guarded step OneConnection State.initial as)
    (hjoins : Guarded step JoinsShown State.initial as) :
    Along step LeavesGroups State.initial as :=
  along_of_guarded (C := fun s a ↦ OneConnection s a ∧ JoinsShown s a) settles_initial
    (fun _ _ _ hs hC hstep ↦ settles_step hC.1 hC.2 hs hstep) (fun _ hs ↦ hs.leavesGroups)
    (hconnection.and hjoins)

/-- A subscription is made and ended on a connection that is up. -/
private def endedInTime : List Label :=
  [.page (.editQueueName (Utf16.ofString "orders")), .page .subscribeToQueue,
    .page (.started true), .serve 0 (.subscribed ⟨1⟩), .respond 0 (.subscribed ⟨1⟩),
    .page .startSettled, .page (.unsubscribe .subscribe ⟨1⟩), .serve 1 .unsubscribed,
    .respond 1 .unsubscribed, .execute true, .execute true, .complete, .complete]

/-- The same while the connection is being started. -/
private def endedEarly : List Label :=
  [.page (.editQueueName (Utf16.ofString "orders")), .page .subscribeToQueue,
    .serve 0 (.subscribed ⟨1⟩), .respond 0 (.subscribed ⟨1⟩),
    .page (.unsubscribe .subscribe ⟨1⟩), .serve 1 .unsubscribed, .respond 1 .unsubscribed,
    .page (.started true), .page .startSettled, .execute true, .complete]

theorem leavesGroups_of_endedInTime :
    (run step State.initial endedInTime).isSome = true ∧
      Along step LeavesGroups State.initial endedInTime :=
  ⟨rfl, leavesGroups_of_joinsShown (by decide) (by decide)⟩

/-- The leave is rejected, and the join comes after it. -/
theorem not_leavesGroups_of_endedEarly : ∃ t, run step State.initial endedEarly = some t ∧
    Guarded step OneConnection State.initial endedEarly ∧ NothingPending t ∧
      t.groups = {⟨1⟩} ∧ t.page.shown = [] ∧ ¬LeavesGroups t := by
  obtain ⟨t, hrun, hpending, hgroups, hshown⟩ : ∃ t, run step State.initial endedEarly = some t ∧
      NothingPending t ∧ t.groups = {⟨1⟩} ∧ t.page.shown = [] := by
    refine ⟨_, rfl, ⟨by decide, rfl, rfl, fun n ↦ ?_⟩, rfl, rfl⟩
    rcases n with _ | _ | n <;> rfl
  refine ⟨t, hrun, by decide, hpending, hgroups, hshown, fun hleaves ↦ ?_⟩
  have hmem : (⟨1⟩ : Guid) ∈ t.page.shown :=
    hleaves hpending ⟨1⟩ (by rw [hgroups]; exact Finset.mem_singleton_self _)
  rw [hshown] at hmem
  cases hmem

end Live

end BusTester
