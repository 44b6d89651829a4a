import BusTester.Live.Handles

/-!
# Subscriptions across a reconnect

A restored connection has a new id and is in no group, and `onreconnected` only notes that the
connection is up again. So an entry that was joined before is shown, under the state `connected`,
while nothing is sent to it any more.

Apart from that the groups are right: `survivesReconnect_iff` says that every joined entry that is
shown is in its group, in every settled state of a run, exactly if no reconnect of the run comes
while such an entry is shown. The invariant behind it also covers the results that are on their way,
since a join has taken effect before its result arrives and a leave may follow at once.
-/

namespace BusTester

namespace Live

open Page (Flow Invocation Request Response)
open Transition

variable {s t : State} {a : Label} {as : List Label} {h : Guid}

/-! ## The property and the condition -/

/-- When the page is connected and no invocation is pending, every entry whose join has succeeded
is in its group. -/
def SurvivesReconnect (s : State) : Prop :=
  s.page.IsConnected → s.page.invocations = [] →
    ∀ h ∈ s.page.shown, h ∈ s.joined → h ∈ s.groups

/-- The connection comes back while no entry is shown whose join has succeeded. -/
def NothingToRejoin (s : State) : Label → Prop
  | .page .onreconnected => ∀ h ∈ s.page.shown, h ∉ s.joined
  | _ => True

instance (s : State) : Decidable (SurvivesReconnect s) := inferInstanceAs (Decidable (_ → _))

instance (s : State) : DecidablePred (NothingToRejoin s)
  | .page b =>
    match b with
    | .onreconnected => inferInstanceAs (Decidable (∀ h ∈ s.page.shown, h ∉ s.joined))
    | .editQueueName _ | .subscribeToQueue | .sendWithReply _ | .unsubscribe .. | .respond ..
    | .started _ | .startSettled | .settled _ | .messageReceived _ | .onreconnecting
    | .onclose => isTrue trivial
  | .serve .. | .respond .. | .execute _ | .complete | .deliver .. | .push => isTrue trivial

/-! ## Joins are made for handles that were returned -/

/-- The handle was created, and the response that carries it has arrived. -/
def Returned (s : State) (h : Guid) : Prop :=
  s.issued h ≠ none ∧
    ∀ n response flow, s.answers n = some response → response.handle ≠ some (flow, h)

theorem Returned.step (hh : Returned s h) (hstep : step s a = some t) : Returned t h := by
  obtain ⟨hanswers, hissued⟩ := answers_of_step hstep
  constructor
  · obtain ⟨flow, hflow⟩ := Option.ne_none_iff_exists'.mp hh.1
    rw [hissued hflow]
    exact Option.some_ne_none flow
  · intro n response flow hn hhandle
    rcases hanswers hn with hn | hfresh
    · exact hh.2 n response flow hn hhandle
    · exact hh.1 (hfresh flow h hhandle)

/-- A response that lists an entry returns its handle. -/
theorem returned_of_lists {n : ℕ} {response : Response} {flow : Flow} (hs : Known s)
    (hstep : step s (.respond n response) = some t) (hhandle : response.handle = some (flow, h)) :
    Returned t h ∧ ¬Returned s h := by
  obtain ⟨page, -, hanswer, rfl⟩ := respond_spec hstep
  have hn : s.answers n = some response := by
    rcases hanswer with hn | hnone
    · exact hn
    · cases hnone.symm.trans hhandle
  refine ⟨⟨?_, fun m response' flow' hm hhandle' ↦ ?_⟩, fun hh ↦ hh.2 n response flow hn hhandle⟩
  · rw [(hs.answered hn hhandle).1]
    exact Option.some_ne_none flow
  · obtain ⟨hne, hm⟩ := Page.of_cleared hm
    exact hne (hs.distinct hm hn hhandle' hhandle)

/-- Joins are made and recorded for handles that were returned. -/
structure JoinsReturned (s : State) : Prop where
  known : Known s
  joins : ∀ {h}, s.page.Joins h → Returned s h
  joined : ∀ {h}, h ∈ s.joined → Returned s h

theorem joinsReturned_initial : JoinsReturned State.initial := by
  refine ⟨known_initial, ?_, nofun⟩
  rintro h (⟨join, hjoin, -⟩ | ⟨join, hjoin, -⟩) <;> cases hjoin

theorem joined_of_step (hstep : step s a = some t) (hh : h ∈ t.joined) :
    h ∈ s.joined ∨ s.page.Joins h := by
  cases a with
  | page b =>
    obtain ⟨page, -, ⟨rfl, -⟩ | ⟨rfl, -⟩, -⟩ := stepPage_spec hstep <;> exact Or.inl hh
  | serve n response =>
    obtain ⟨flow, id, -, -, rfl⟩ | ⟨request, flow, id, -, -, -, rfl⟩ := serve_spec hstep
    · exact Or.inl hh
    · exact Or.inl hh
  | respond n response =>
    obtain ⟨page, -, -, rfl⟩ := respond_spec hstep
    change h ∈ s.joinedAfter n at hh
    unfold State.joinedAfter at hh
    split at hh
    · exact Or.inl (Finset.mem_of_mem_erase hh)
    · exact Or.inl hh
  | execute ok =>
    obtain ⟨invocation, -, rfl⟩ := execute_spec hstep
    exact Or.inl hh
  | complete =>
    obtain ⟨ok, rest, invocation, invocations, page, -, hinvocations, -, rfl⟩ := complete_spec hstep
    change h ∈ (if ok then invocation.record s.joined else s.joined) at hh
    split at hh
    · cases invocation with
      | joinSubscription join =>
        rcases Finset.mem_insert.mp hh with rfl | hh
        · exact Or.inr (Or.inr ⟨join, by rw [hinvocations]; exact List.mem_cons_self, rfl⟩)
        · exact Or.inl hh
      | leaveSubscription id => exact Or.inl hh
    · exact Or.inl hh
  | deliver id message =>
    cases hstep
    exact Or.inl hh
  | push =>
    obtain ⟨message, rest, -, rfl⟩ := push_spec hstep
    exact Or.inl hh

theorem joinsReturned_step (hs : JoinsReturned s) (hstep : step s a = some t) :
    JoinsReturned t := by
  refine ⟨known_step hs.known hstep, fun {h} hh ↦ ?_, fun hh ↦ ?_⟩
  · rcases page_of_step hstep with hpage | ⟨b, hpage, hb⟩
    · rw [hpage] at hh
      exact (hs.joins hh).step hstep
    · rcases (Page.effect_of_step hpage).joins hh with hh | ⟨flow, n, response, heq, hhandle⟩
      · exact (hs.joins hh).step hstep
      · obtain rfl := hb n response heq
        exact (returned_of_lists hs.known hstep hhandle).1
  · rcases joined_of_step hstep hh with hh | hh
    · exact (hs.joined hh).step hstep
    · exact (hs.joins hh).step hstep

/-! ## The groups of the connection -/

/-- The groups agree with what is shown and joined, and will when the results on their way have
arrived. -/
structure Grouped (s : State) : Prop where
  returned : JoinsReturned s
  /-- The connection was started before it came up. -/
  up : s.page.IsConnected ∨ s.page.hub.connectionState = .reconnecting →
    s.page.hub.startPromise = some .resolved
  down : ¬s.page.IsConnected → s.page.invocations = [] ∧ s.groups = ∅
  unstarted : s.page.hub.startPromise ≠ some .resolved → s.joined = ∅
  results : s.completions.length ≤ s.page.invocations.length
  members : s.page.IsConnected → ∀ h ∈ s.page.shown, h ∈ s.joined → h ∈ s.groups
  arriving : ∀ (k : ℕ) join, s.page.invocations[k]? = some (.joinSubscription join) →
    s.completions[k]? = some true → join.subscriptionId ∈ s.page.shown →
      join.subscriptionId ∈ s.groups

theorem grouped_initial : Grouped State.initial := by
  refine ⟨joinsReturned_initial, ?_, fun _ ↦ ⟨rfl, rfl⟩, fun _ ↦ rfl, le_rfl, nofun, nofun⟩
  rintro (hup | hup) <;> cases hup

theorem Grouped.survives (hs : Grouped s) : SurvivesReconnect s := fun hconnected _ ↦
  hs.members hconnected

/-- Without a connection nothing is pending. -/
theorem Grouped.idle (hs : Grouped s) (hdown : ¬s.page.IsConnected) :
    s.page.invocations = [] ∧ s.groups = ∅ ∧ s.completions = [] := by
  obtain ⟨hinvocations, hgroups⟩ := hs.down hdown
  have hresults := hs.results
  rw [hinvocations] at hresults
  exact ⟨hinvocations, hgroups, List.eq_nil_of_length_eq_zero (Nat.le_zero.mp hresults)⟩

theorem grouped_of_idle (hreturned : JoinsReturned t) (hinvocations : t.page.invocations = [])
    (hgroups : t.groups = ∅) (hcompletions : t.completions = [])
    (hup : t.page.IsConnected ∨ t.page.hub.connectionState = .reconnecting →
      t.page.hub.startPromise = some .resolved)
    (hunstarted : t.page.hub.startPromise ≠ some .resolved → t.joined = ∅)
    (hmembers : t.page.IsConnected → ∀ h ∈ t.page.shown, h ∉ t.joined) : Grouped t := by
  refine ⟨hreturned, hup, fun _ ↦ ⟨hinvocations, hgroups⟩, hunstarted, ?_,
    fun hconnected h hh hj ↦ absurd hj (hmembers hconnected h hh), fun k join hk ↦ ?_⟩
  · rw [hcompletions]
    exact Nat.zero_le _
  · rw [hinvocations] at hk
    cases hk

theorem Grouped.of_stays (hs : Grouped s) (hreturned : JoinsReturned t)
    (hstate : t.page.hub.connectionState = s.page.hub.connectionState)
    (hpromise : t.page.hub.startPromise = s.page.hub.startPromise)
    (hinvocations : t.page.invocations = s.page.invocations ∨
      s.page.IsConnected ∧ ∃ invocation, t.page.invocations = s.page.invocations ++ [invocation])
    (hgroups : t.groups = s.groups) (hcompletions : t.completions = s.completions)
    (hjoined : t.joined ⊆ s.joined)
    (hshown : ∀ h ∈ t.page.shown, s.page.Joins h ∨ h ∈ s.joined → h ∈ s.page.shown) :
    Grouped t := by
  have hconnected : t.page.IsConnected ↔ s.page.IsConnected := by
    rw [Page.State.IsConnected, hstate]
    exact Iff.rfl
  have hlength : s.page.invocations.length ≤ t.page.invocations.length := by
    rcases hinvocations with hsame | ⟨-, invocation, hmore⟩
    · rw [hsame]
    · rw [hmore, List.length_append]
      omega
  refine ⟨hreturned, ?_, fun hdown ↦ ?_, fun hnot ↦ ?_, ?_, fun hup h hh hj ↦ ?_,
    fun k join hk hok hh ↦ ?_⟩
  · rw [hconnected, hstate, hpromise]
    exact hs.up
  · rw [hconnected] at hdown
    rw [hgroups]
    rcases hinvocations with hsame | ⟨hup, -⟩
    · rw [hsame]
      exact hs.down hdown
    · exact absurd hup hdown
  · rw [hpromise] at hnot
    exact Finset.subset_empty.mp (hs.unstarted hnot ▸ hjoined)
  · rw [hcompletions]
    exact hs.results.trans hlength
  · have hj' : h ∈ s.joined := hjoined hj
    rw [hgroups]
    exact hs.members (hconnected.mp hup) h (hshown h hh (Or.inr hj')) hj'
  · rw [hcompletions] at hok
    rw [hgroups]
    -- A result belongs to an invocation that was pending before.
    have hk' : s.page.invocations[k]? = some (.joinSubscription join) := by
      rcases hinvocations with hsame | ⟨-, invocation, hmore⟩
      · rwa [hsame] at hk
      · have hlt := (List.getElem?_eq_some_iff.mp hok).1
        rwa [hmore, List.getElem?_append_left (hlt.trans_le hs.results)] at hk
    have hjoins : s.page.Joins join.subscriptionId :=
      Or.inr ⟨join, List.mem_of_getElem? hk', rfl⟩
    exact hs.arriving k join hk' hok (hshown _ hh (Or.inl hjoins))

theorem Grouped.of_page {b : Page.Label} (hs : Grouped s) (hreturned : JoinsReturned t)
    (c : Page.Connection s.page b t.page) (hsettled : ∀ ok, b ≠ .settled ok)
    (hloses : ¬(b = .onreconnecting ∨ b = .onclose))
    (hrestore : b = .onreconnected → ∀ h ∈ s.page.shown, h ∉ s.joined)
    (hgroups : t.groups = s.groups) (hcompletions : t.completions = s.completions)
    (hjoined : t.joined ⊆ s.joined)
    (hshown : ∀ h ∈ t.page.shown, s.page.Joins h ∨ h ∈ s.joined → h ∈ s.page.shown) :
    Grouped t := by
  have hidle : ¬s.page.IsConnected → t.page.invocations = s.page.invocations →
      t.page.invocations = [] ∧ t.groups = ∅ ∧ t.completions = [] := by
    intro hdown hinvocations
    rw [hinvocations, hgroups, hcompletions]
    exact hs.idle hdown
  -- Before the start promise has resolved there is no connection, and nothing was joined.
  have hunstarted : s.page.hub.startPromise ≠ some .resolved →
      ¬s.page.IsConnected ∧ t.joined = ∅ := by
    intro hnot
    exact ⟨fun hup ↦ hnot (hs.up (Or.inl hup)),
      Finset.subset_empty.mp (hs.unstarted hnot ▸ hjoined)⟩
  cases c with
  | stays hstate hpromise hinvocations =>
    exact hs.of_stays hreturned hstate hpromise hinvocations hgroups hcompletions hjoined hshown
  | starts hpromise hhub hinvocations =>
    obtain ⟨hdown, hempty⟩ := hunstarted (by rw [hpromise]; decide)
    obtain ⟨hnone, hgroups', hcompletions'⟩ := hidle hdown hinvocations
    have hstart : t.page.hub.connectionState = .connecting := by
      rw [hhub, BusHubService.start, hpromise]
    refine grouped_of_idle hreturned hnone hgroups' hcompletions' (fun hup ↦ ?_)
      (fun _ ↦ hempty) fun hup ↦ ?_
    · rw [Page.State.IsConnected, hstart] at hup
      rcases hup with hup | hup <;> cases hup
    · rw [Page.State.IsConnected, hstart] at hup
      cases hup
  | started ok ha hpromise hhub hinvocations =>
    obtain ⟨hdown, hempty⟩ := hunstarted (by rw [hpromise]; decide)
    obtain ⟨hnone, hgroups', hcompletions'⟩ := hidle hdown hinvocations
    refine grouped_of_idle hreturned hnone hgroups' hcompletions' ?_ (fun _ ↦ hempty)
      fun _ h _ ↦ ?_
    · rw [Page.State.IsConnected, hhub]
      cases ok with
      | true => exact fun _ ↦ rfl
      | false => exact fun hup ↦ by rcases hup with hup | hup <;> cases hup
    · rw [hempty]
      exact Finset.notMem_empty h
  | settles ok invocation hb => exact absurd hb (hsettled ok)
  | loses hb => exact absurd hb hloses
  | restores hb hstate hhub hinvocations =>
    have hdown : ¬s.page.IsConnected := Page.not_isConnected_of hstate (by decide)
    obtain ⟨hnone, hgroups', hcompletions'⟩ := hidle hdown hinvocations
    have hresolved : t.page.hub.startPromise = some .resolved := by
      rw [hhub]
      exact hs.up (Or.inr hstate)
    refine grouped_of_idle hreturned hnone hgroups' hcompletions' (fun _ ↦ hresolved)
      (fun hnot ↦ absurd hresolved hnot) fun _ h hh hj ↦ ?_
    have hj' : h ∈ s.joined := hjoined hj
    exact hrestore hb h (hshown h hh (Or.inr hj')) hj'

theorem Grouped.of_same (hs : Grouped s) (hreturned : JoinsReturned t) (hpage : t.page = s.page)
    (hgroups : t.groups = s.groups) (hcompletions : t.completions = s.completions)
    (hjoined : t.joined = s.joined) : Grouped t := by
  refine ⟨hreturned, ?_, ?_, ?_, ?_, ?_, ?_⟩
  all_goals simp only [hpage, hgroups, hcompletions, hjoined]
  exacts [hs.up, hs.down, hs.unstarted, hs.results, hs.members, hs.arriving]

theorem Grouped.of_lose {b : Page.Label} {page : Page.State} (hs : Grouped s)
    (hreturned : JoinsReturned (s.lose page)) (hb : b = .onreconnecting ∨ b = .onclose)
    (hpage : Page.step s.page b = some page) : Grouped (s.lose page) := by
  obtain ⟨hup, hdown, hpromise, hinvocations⟩ := Page.loses_of_step hb hpage
  have hstarted : page.hub.startPromise = some .resolved := hpromise.trans (hs.up hup)
  exact grouped_of_idle hreturned hinvocations rfl rfl (fun _ ↦ hstarted)
    (fun hnot ↦ absurd hstarted hnot) fun hconnected ↦ absurd hconnected hdown

/-- BusHub executes an invocation. Only a leave takes the connection out of a group, and what is
left is not shown. -/
theorem Grouped.of_execute {ok : Bool} {invocation : Invocation} (hs : Grouped s)
    (hreturned : JoinsReturned t) (hpage : t.page = s.page)
    (hnext : s.page.invocations[s.completions.length]? = some invocation)
    (hgroups : t.groups = if ok then invocation.apply s.groups else s.groups)
    (hcompletions : t.completions = s.completions ++ [ok]) (hjoined : t.joined = s.joined) :
    Grouped t := by
  have hlt : s.completions.length < s.page.invocations.length :=
    (List.getElem?_eq_some_iff.mp hnext).1
  have hkeep : ∀ h ∈ s.page.shown, h ∈ s.groups → h ∈ t.groups := by
    intro h hh hmem
    rw [hgroups]
    split
    · cases invocation with
      | joinSubscription join => exact Finset.mem_insert_of_mem hmem
      | leaveSubscription id =>
        have hne := hs.returned.known.shown_ne_of_left (List.mem_of_getElem? hnext) hh
        exact Finset.mem_erase.mpr ⟨hne, hmem⟩
    · exact hmem
  refine ⟨hreturned, ?_, fun hdown ↦ ?_, ?_, ?_, fun hup h hh hj ↦ ?_, fun k join hk hok hh ↦ ?_⟩
  · rw [hpage]
    exact hs.up
  · rw [hpage] at hdown
    rw [(hs.down hdown).1] at hnext
    cases hnext
  · rw [hpage, hjoined]
    exact hs.unstarted
  · rw [hpage, hcompletions, List.length_append]
    exact hlt
  · rw [hpage] at hup hh
    rw [hjoined] at hj
    exact hkeep h hh (hs.members hup h hh hj)
  · rw [hpage] at hk hh
    rw [hcompletions] at hok
    rcases Nat.lt_or_ge k s.completions.length with hold | hnew
    · rw [List.getElem?_append_left hold] at hok
      exact hkeep _ hh (hs.arriving k join hk hok hh)
    · -- The result that has just been sent is that of this join.
      rw [List.getElem?_append_right hnew, List.getElem?_singleton] at hok
      split at hok
      · rename_i heq
        obtain rfl : k = s.completions.length := by omega
        obtain rfl := Option.some.inj hok
        obtain rfl := Option.some.inj (hnext.symm.trans hk)
        rw [hgroups]
        exact Finset.mem_insert_self ..
      · cases hok

theorem Grouped.of_complete {ok : Bool} {rest : List Bool} {invocation : Invocation}
    (hs : Grouped s) (hreturned : JoinsReturned t)
    (hcompletions : s.completions = ok :: rest)
    (hinvocations : s.page.invocations = invocation :: t.page.invocations)
    (hhub : t.page.hub = s.page.hub) (hgroups : t.groups = s.groups)
    (hrest : t.completions = rest)
    (hjoined : t.joined = if ok then invocation.record s.joined else s.joined)
    (hshown : ∀ h ∈ t.page.shown, s.page.Joins h ∨ h ∈ s.joined → h ∈ s.page.shown) :
    Grouped t := by
  have hconnected : t.page.IsConnected ↔ s.page.IsConnected := by
    rw [Page.State.IsConnected, hhub]
    exact Iff.rfl
  have hup : s.page.IsConnected := by
    by_contra hdown
    rw [(hs.down hdown).1] at hinvocations
    cases hinvocations
  refine ⟨hreturned, ?_, fun hdown ↦ ?_, fun hnot ↦ ?_, ?_, fun _ h hh hj ↦ ?_,
    fun k join hk hok hh ↦ ?_⟩
  · rw [hconnected, hhub]
    exact hs.up
  · exact absurd (hconnected.mpr hup) hdown
  · rw [hhub] at hnot
    exact absurd (hs.up (Or.inl hup)) hnot
  · have hresults := hs.results
    rw [hcompletions, hinvocations, List.length_cons, List.length_cons] at hresults
    rw [hrest]
    omega
  · have hold : h ∈ s.joined → h ∈ s.groups := fun hj ↦
      hs.members hup h (hshown h hh (Or.inr hj)) hj
    rw [hgroups]
    rw [hjoined] at hj
    split at hj
    · rename_i hok
      cases invocation with
      | joinSubscription join =>
        rcases Finset.mem_insert.mp hj with rfl | hj
        · -- The join whose result arrives was executed before.
          have hhead : s.page.invocations[0]? = some (.joinSubscription join) := by
            rw [hinvocations]
            rfl
          have hresult : s.completions[0]? = some true := by
            rw [hcompletions, hok]
            rfl
          have hjoins : s.page.Joins join.subscriptionId :=
            Or.inr ⟨join, List.mem_of_getElem? hhead, rfl⟩
          exact hs.arriving 0 join hhead hresult (hshown _ hh (Or.inl hjoins))
        · exact hold hj
      | leaveSubscription id => exact hold hj
    · exact hold hj
  · have hk' : s.page.invocations[k + 1]? = some (.joinSubscription join) := by
      rw [hinvocations]
      exact hk
    have hok' : s.completions[k + 1]? = some true := by
      rw [hcompletions, ← hrest]
      exact hok
    have hjoins : s.page.Joins join.subscriptionId :=
      Or.inr ⟨join, List.mem_of_getElem? hk', rfl⟩
    rw [hgroups]
    exact hs.arriving (k + 1) join hk' hok' (hshown _ hh (Or.inl hjoins))

/-! ## The step -/

theorem shown_of_step (hs : JoinsReturned s) (hstep : step s a = some t) :
    ∀ h ∈ t.page.shown, s.page.Joins h ∨ h ∈ s.joined → h ∈ s.page.shown := by
  intro h hh hjoin
  have hreturned : Returned s h := hjoin.elim hs.joins hs.joined
  obtain ⟨flow, hflow⟩ := Page.mem_shown.mp hh
  rcases page_of_step hstep with hpage | ⟨b, hpage, hb⟩
  · exact Page.mem_shown.mpr ⟨flow, hpage ▸ hflow⟩
  · rcases (Page.effect_of_step hpage).listed hflow with hold | ⟨n, response, heq, hhandle⟩
    · exact Page.mem_shown.mpr ⟨flow, hold⟩
    · obtain rfl := hb n response heq
      exact absurd hreturned (returned_of_lists hs.known hstep hhandle).2

theorem grouped_step (hs : Grouped s) (hrejoin : NothingToRejoin s a) (hstep : step s a = some t) :
    Grouped t := by
  have hreturned := joinsReturned_step hs.returned hstep
  have hshown := shown_of_step hs.returned hstep
  cases a with
  | page b =>
    obtain ⟨page, hpage, ⟨rfl, hnot⟩ | ⟨rfl, hb⟩, -, hsettled, -⟩ := stepPage_spec hstep
    · refine hs.of_page hreturned (Page.connection_of_step hpage) hsettled ?_ ?_ rfl rfl
        (Finset.Subset.refl _) hshown
      · rintro (hb | hb)
        · exact hnot.1 hb
        · exact hnot.2 hb
      · rintro rfl
        exact hrejoin
    · exact hs.of_lose hreturned hb hpage
  | serve n response =>
    obtain ⟨flow, id, -, -, rfl⟩ | ⟨request, flow, id, -, -, -, rfl⟩ := serve_spec hstep
    · exact hs.of_same hreturned rfl rfl rfl rfl
    · exact hs.of_same hreturned rfl rfl rfl rfl
  | respond n response =>
    obtain ⟨page, hpage, -, rfl⟩ := respond_spec hstep
    refine hs.of_page hreturned (Page.connection_of_step hpage) (by simp) ?_ (by simp) rfl rfl
      ?_ hshown
    · rintro (hb | hb) <;> cases hb
    · change s.joinedAfter n ⊆ s.joined
      unfold State.joinedAfter
      split
      · exact Finset.erase_subset ..
      · exact Finset.Subset.refl _
  | execute ok =>
    obtain ⟨invocation, hnext, rfl⟩ := execute_spec hstep
    exact hs.of_execute hreturned rfl hnext rfl rfl rfl
  | complete =>
    obtain ⟨ok, rest, invocation, invocations, page, hcompletions, hinvocations, hpage, rfl⟩ :=
      complete_spec hstep
    obtain ⟨invocation', hinvocations', hsame⟩ := Page.settles_of_step hpage
    obtain ⟨rfl, -⟩ := List.cons.inj (hinvocations.symm.trans hinvocations')
    exact hs.of_complete hreturned hcompletions hinvocations' hsame.hub rfl rfl rfl hshown
  | deliver id message =>
    cases hstep
    exact hs.of_same hreturned rfl rfl rfl rfl
  | push =>
    obtain ⟨message, rest, -, rfl⟩ := push_spec hstep
    refine hs.of_page (b := .messageReceived message) hreturned (Page.connection_of_step rfl)
      (by simp) ?_ (by simp) rfl rfl (Finset.Subset.refl _) hshown
    rintro (hb | hb) <;> cases hb

/-- After a reconnect the connection is in no group. -/
theorem not_survives_of_rejoin (hs : Grouped s) (hrejoin : ¬NothingToRejoin s a)
    (hstep : step s a = some t) : ¬SurvivesReconnect t := by
  cases a with
  | page b =>
    cases b with
    | onreconnected =>
      obtain ⟨h, hh, hj⟩ : ∃ h ∈ s.page.shown, h ∈ s.joined := by
        simpa [NothingToRejoin] using hrejoin
      obtain ⟨page, hpage, rfl⟩ := Option.map_eq_some_iff.mp hstep
      cases Page.moves_of_step hpage with
      | restores hstate =>
        have hdown : ¬s.page.IsConnected := Page.not_isConnected_of hstate (by decide)
        obtain ⟨hinvocations, hgroups⟩ := hs.down hdown
        intro hsurvives
        have hmem : h ∈ s.groups := hsurvives rfl hinvocations h hh hj
        rw [hgroups] at hmem
        cases hmem
    | _ => exact absurd trivial hrejoin
  | _ => exact absurd trivial hrejoin

/-! ## The result -/

/-- Subscriptions survive the reconnects of a run exactly if there is nothing to rejoin at any of
them. -/
theorem survivesReconnect_iff (hrun : run step State.initial as = some t) :
    Along step SurvivesReconnect State.initial as ↔
      Guarded step NothingToRejoin State.initial as := by
  refine along_iff_guarded grouped_initial (fun u b v _ hrejoin hu hstep ↦ ?_)
    (fun u b v _ hrejoin hu hstep ↦ ?_) (fun u hu ↦ hu.survives) guarded_true hrun
  · exact grouped_step hu hrejoin hstep
  · exact not_survives_of_rejoin hu hrejoin hstep

/-- The connection is lost and restored while the join still waits for the response to the POST. -/
theorem survivesReconnect_of_early_reconnect :
    Along step SurvivesReconnect State.initial
      [.page (.editQueueName (Utf16.ofString "orders")), .page .subscribeToQueue,
        .page (.started true), .serve 0 (.subscribed ⟨1⟩), .page .onreconnecting,
        .page .onreconnected, .respond 0 (.subscribed ⟨1⟩), .page .startSettled, .execute true,
        .complete] :=
  (survivesReconnect_iff rfl).mpr (by decide)

/-- The chip stays, and the connection is up again. -/
theorem not_survivesReconnect_of_reconnect :
    ∃ t, run step State.initial
      [.page (.editQueueName (Utf16.ofString "orders")), .page .subscribeToQueue,
        .page (.started true), .serve 0 (.subscribed ⟨1⟩), .respond 0 (.subscribed ⟨1⟩),
        .page .startSettled, .execute true, .complete, .page .onreconnecting,
        .page .onreconnected] = some t ∧
      t.page.component.subscriptions.map (·.id) = [⟨1⟩] ∧ (⟨1⟩ : Guid) ∈ t.joined ∧
      t.groups = ∅ ∧ ¬SurvivesReconnect t :=
  ⟨_, rfl, by decide, by decide, rfl, by decide⟩

end Live

end BusTester
