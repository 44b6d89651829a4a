import BusTester.Client.FeedViews

/-!
# Pausing the feed

While the feed is paused `displayState` returns the value it had before, and once it is resumed it
is computed from the visible rows again. What that means depends on when the view reads it, so two
kinds of runs are considered.

In runs with reads at any time, the rows are the visible ones whenever the feed is not paused
(`displayed_of_unpaused`). A chip that is removed takes its messages with it, except for rows that a
pause has frozen, which stay until the feed has been read again without the pause
(`leavesFeed_of_finish`).

In runs where the view reads after every event, as change detection does, the rows that a pause
shows are those displayed when it began, and a row is new exactly in the state after its arrival
(`follows_of_run`).
-/

namespace BusTester

namespace Feed

open Page (Stores setsFeed)
open Transition

variable {s t u : State} {a : Label} {as bs : List Label} {b : Page.Label}
  {toLowerCase : Utf16 → Utf16} {id : Guid} {p : DisplaySource × DisplayState}

/-! ## The rows of a feed that is not paused -/

/-- A display that is not stale was computed from the present source. -/
def Current (s : State) : Prop :=
  s.display.stale = false → ∀ p ∈ s.display.previous,
    p.1 = s.source ∧ (s.paused = false → p.2.rows = s.visibleMessages)

theorem current_initial : Current State.initial := nofun

theorem rows_of_unpaused {current : DisplaySource}
    {previous : Option (DisplaySource × DisplayState)} (h : current.paused = false) :
    (MessagesComponent.computation current previous).rows = current.rows := by
  unfold MessagesComponent.computation
  rw [if_neg (by rw [h]; decide)]
  split <;> rfl

theorem Current.latest (hs : Current s) :
    (s.display.latest MessagesComponent.computation s.source).1 = s.source ∧
      (s.paused = false →
        (s.display.latest MessagesComponent.computation s.source).2.rows = s.visibleMessages) := by
  rcases s.display.latest_cases MessagesComponent.computation s.source with
    ⟨hclean, hprevious⟩ | hlatest
  · exact hs hclean _ hprevious
  · rw [hlatest]
    exact ⟨rfl, fun hpaused ↦ rows_of_unpaused hpaused⟩

/-- **A feed that is not paused displays what is visible.** -/
theorem displayed_of_unpaused (hs : Current s) (hpaused : s.paused = false) :
    s.displayedMessages = s.visibleMessages :=
  hs.latest.2 hpaused

theorem visible_of_stores (hstores : Stores s.page b t.page) (hsets : setsFeed s.page b = false) :
    t.visibleMessages = s.visibleMessages := by
  cases hstores with
  | receives message ha =>
    subst ha
    cases hsets
  | clears n response flow id ha hrequest =>
    subst ha
    simp only [setsFeed, hrequest] at hsets
    cases hsets
  | subscribes n id queueName ha hrequest =>
    subst ha
    simp only [setsFeed, hrequest] at hsets
    cases hsets
  | sends n body id correlationId ha hrequest hhub hchips =>
    exact visibleMessages_congr (by rw [State.messages, State.messages, hhub]) hchips
  | rests hsets' hevent hmessages hnext hchips => exact visibleMessages_congr hmessages hchips

theorem current_step (hs : Current s) (hstep : step s a = some t) : Current t := by
  cases a with
  | page b =>
    obtain ⟨hpage, -, hpaused, hdisplay⟩ := page_spec hstep
    intro hclean p hp
    cases hsets : setsFeed s.page b with
    | true =>
      rw [hdisplay, if_pos hsets] at hclean
      cases hclean
    | false =>
      rw [hdisplay, if_neg (by rw [hsets]; decide)] at hclean hp
      have hvisible := visible_of_stores (Page.stores_of_step hpage) hsets
      rw [State.source, hpaused, hvisible]
      exact hs hclean p hp
  | togglePause =>
    cases hstep
    intro hclean
    cases hclean
  | editSearchTerm value =>
    cases hstep
    exact hs
  | read =>
    cases hstep
    rintro - p ⟨⟩
    exact hs.latest

theorem current_of_run (hrun : run step .initial as = some s) : Current s :=
  invariant_of_step current_initial (fun _ _ _ hs hstep ↦ current_step hs hstep) hrun

/-! ## The rows of a pause -/

theorem displayState_of_paused (hpaused : s.paused = true) (hp : s.display.previous = some p) :
    s.displayState = p.2 := by
  unfold State.displayState LinkedSignal.value
  rcases s.display.latest_cases MessagesComponent.computation s.source with ⟨-, hprevious⟩ | hlatest
  · exact congrArg Prod.snd (Option.some.inj (hprevious.symm.trans hp))
  · have hsource : s.source.paused = true := hpaused
    rw [hlatest, hp, MessagesComponent.computation, if_pos hsource]

theorem frozen_step (hpaused : s.paused = true) (hp : s.display.previous = some p)
    (ha : a ≠ .togglePause) (hstep : step s a = some t) :
    t.paused = true ∧ ∃ p', t.display.previous = some p' ∧ p'.2 = p.2 := by
  cases a with
  | page b =>
    obtain ⟨-, -, hsame, hdisplay⟩ := page_spec hstep
    refine ⟨hsame.trans hpaused, p, ?_, rfl⟩
    rw [hdisplay]
    split <;> exact hp
  | togglePause => exact absurd rfl ha
  | editSearchTerm value =>
    cases hstep
    exact ⟨hpaused, p, hp, rfl⟩
  | read =>
    cases hstep
    exact ⟨hpaused, _, rfl, displayState_of_paused hpaused hp⟩

theorem frozen_of_run (hpaused : s.paused = true) (hp : s.display.previous = some p)
    (hpause : .togglePause ∉ bs) (hrun : run step s bs = some t) : t.displayState = p.2 := by
  have hguard : Guarded step (fun _ a ↦ a ≠ .togglePause) s bs :=
    .of_forall fun a ha _ ↦ fun heq ↦ hpause (heq ▸ ha)
  obtain ⟨ht, p', hp', hvalue⟩ := invariant_of_guarded
    (P := fun t : State ↦ t.paused = true ∧ ∃ p', t.display.previous = some p' ∧ p'.2 = p.2)
    ⟨hpaused, p, hp, rfl⟩ (fun s a t ⟨hs, p', hp', hvalue⟩ ha hstep ↦ by
      obtain ⟨ht, p'', hp'', heq⟩ := frozen_step hs hp' ha hstep
      exact ⟨ht, p'', hp'', heq.trans hvalue⟩) hguard hrun
  rw [displayState_of_paused ht hp', hvalue]

/-! ## A chip that is removed -/

/-- The subscription has no chip, and none of its messages is kept for display. -/
structure Gone (s : State) (id : Guid) : Prop where
  chip : id ∉ s.page.listed .subscribe
  rows : ∀ p ∈ s.display.previous, ∀ m ∈ p.2.rows, m.subscriptionId ≠ id

theorem ne_of_visible (hid : id ∉ s.page.listed .subscribe) {m : ReceivedMessage}
    (hm : m ∈ s.visibleMessages) : m.subscriptionId ≠ id := by
  rintro rfl
  exact hid (of_decide_eq_true (List.mem_filter.mp hm).2)

theorem Gone.displayed (hs : Gone s id) : ∀ m ∈ s.displayedMessages, m.subscriptionId ≠ id := by
  unfold State.displayedMessages State.displayState LinkedSignal.value
  rcases s.display.latest_cases MessagesComponent.computation s.source with ⟨-, hprevious⟩ | hlatest
  · exact hs.rows _ hprevious
  · rw [hlatest]
    rcases rows_computation s.source s.display.previous with hrows | ⟨p, hp, hrows⟩
    · rw [hrows]
      exact fun m hm ↦ ne_of_visible hs.chip hm
    · rw [hrows]
      exact hs.rows p hp

/-- A chip comes only with the response that returns its id. -/
theorem not_listed_step (hid : id ∉ s.page.listed .subscribe) (ha : a.returnedId ≠ some id)
    (hstep : step s a = some t) : id ∉ t.page.listed .subscribe := by
  cases a with
  | page b =>
    intro hlisted
    rcases (Page.effect_of_step (page_spec hstep).1).listed hlisted with hold | ⟨n, r, rfl, hhandle⟩
    · exact hid hold
    · exact ha (by rw [Label.returnedId, Page.Label.returnedId, hhandle, Option.map_some])
  | togglePause | editSearchTerm | read =>
    cases hstep
    exact hid

theorem gone_step (hs : Gone s id) (ha : a.returnedId ≠ some id) (hstep : step s a = some t) :
    Gone t id := by
  refine ⟨not_listed_step hs.chip ha hstep, ?_⟩
  cases a with
  | page b =>
    rw [(page_spec hstep).2.2.2]
    split <;> exact hs.rows
  | togglePause | editSearchTerm =>
    cases hstep
    exact hs.rows
  | read =>
    cases hstep
    rintro p ⟨⟩
    exact hs.displayed

/-- A read without a pause forgets the rows of chips that are gone. -/
theorem gone_read (hs : Current s) (hid : id ∉ s.page.listed .subscribe)
    (hpaused : s.paused = false) : Gone s.read id := by
  refine ⟨hid, ?_⟩
  rintro p ⟨⟩ m hm
  rw [hs.latest.2 hpaused] at hm
  exact ne_of_visible hid hm

theorem mem_removeChip {c : MessagesComponent} {k : Guid} :
    k ∈ (c.removeChip id).subscriptions.map Subscription.id
      ↔ k ∈ c.subscriptions.map Subscription.id ∧ k ≠ id := by
  simp only [MessagesComponent.removeChip, List.mem_map, List.mem_filter, decide_eq_true_eq]
  constructor
  · rintro ⟨chip, ⟨hchip, hne⟩, rfl⟩
    exact ⟨⟨chip, hchip, rfl⟩, hne⟩
  · rintro ⟨⟨chip, hchip, rfl⟩, hne⟩
    exact ⟨chip, ⟨hchip, hne⟩, rfl⟩

/-- **After `finishUnsubscribe`**: the messages of the chip are no longer visible, and the linked
signal is stale. -/
theorem finish_spec {n : ℕ} {response : Page.Response}
    (hrequest : s.page.requests n = some (.unsubscribe .subscribe id))
    (hstep : step s (.page (.respond n response)) = some t) :
    id ∉ t.page.listed .subscribe ∧ t.paused = s.paused ∧ t.display = s.display.invalidate ∧
      t.visibleMessages = s.visibleMessages.filter fun m ↦ m.subscriptionId ≠ id := by
  obtain ⟨hpage, -, hpaused, hdisplay⟩ := page_spec hstep
  have hsets : setsFeed s.page (.respond n response) = true := by simp only [setsFeed, hrequest]
  refine ⟨?_, hpaused, by rw [hdisplay, if_pos hsets], ?_⟩
  · exact (Page.effect_of_step hpage).finished ⟨n, response, _, rfl, hrequest, rfl⟩
  · cases Page.stores_of_step hpage with
    | receives message ha => cases ha
    | clears n' response' flow id' ha hrequest' hhub hchips =>
      cases ha
      cases hrequest.symm.trans hrequest'
      unfold State.visibleMessages MessagesComponent.visibleMessages State.messages
      rw [hhub, hchips, BusHubService.clearSubscription, List.filter_filter, List.filter_filter]
      refine List.filter_congr fun m _ ↦ ?_
      rw [Page.State.drop, ← Bool.decide_and, ← Bool.decide_and, decide_eq_decide, mem_removeChip]
      tauto
    | subscribes n' id' queueName ha hrequest' =>
      cases ha
      cases hrequest.symm.trans hrequest'
    | sends n' body id' correlationId ha hrequest' =>
      cases ha
      cases hrequest.symm.trans hrequest'
    | rests hsets' => cases hsets.symm.trans hsets'

/-- The display is read, at some point of the run, while the feed is not paused. -/
def ReadUnpaused (s : State) (as : List Label) : Prop :=
  ∃ pre post t, as = pre ++ .read :: post ∧ run step s pre = some t ∧ t.paused = false

theorem filter_displayed_of_finish (hs : Current s) (hpaused : t.paused = s.paused)
    (hdisplay : t.display = s.display.invalidate)
    (hvisible : t.visibleMessages = s.visibleMessages.filter fun m ↦ m.subscriptionId ≠ id) :
    (t.displayedMessages.filter fun m ↦ m.subscriptionId ≠ id)
      = s.displayedMessages.filter fun m ↦ m.subscriptionId ≠ id := by
  have hrows : (t.visibleMessages.filter fun m ↦ m.subscriptionId ≠ id)
      = s.visibleMessages.filter fun m ↦ m.subscriptionId ≠ id := by
    rw [hvisible, List.filter_filter]
    exact List.filter_congr fun m _ ↦ Bool.and_self _
  have ht : Current t := by
    intro hclean
    rw [hdisplay] at hclean
    cases hclean
  cases hcase : s.paused with
  | false =>
    rwa [displayed_of_unpaused hs hcase, displayed_of_unpaused ht (hpaused.trans hcase)]
  | true =>
    cases hprevious : s.display.previous with
    | some p =>
      have hprevious' : t.display.previous = some p := by rw [hdisplay]; exact hprevious
      rw [State.displayedMessages, State.displayedMessages, displayState_of_paused hcase hprevious,
        displayState_of_paused (hpaused.trans hcase) hprevious']
    | none =>
      -- Nothing has been displayed yet, so the pause shows what is visible.
      have hnone : ∀ {v : State}, v.display.previous = none →
          v.displayedMessages = v.visibleMessages := by
        intro v hv
        rw [State.displayedMessages, State.displayState, LinkedSignal.value,
          LinkedSignal.latest_of_none hv]
        rcases rows_computation v.source none with hrows | ⟨p, hp, -⟩
        · exact hrows
        · cases hp
      have hprevious' : t.display.previous = none := by rw [hdisplay]; exact hprevious
      rwa [hnone hprevious, hnone hprevious']

/-- **The messages of a removed chip leave the feed**, except for the rows of the pause in which it
was removed. The rows of the other chips are not touched. -/
theorem leavesFeed_of_finish {n : ℕ} {response : Page.Response}
    (hrun : run step .initial as = some s)
    (hrequest : s.page.requests n = some (.unsubscribe .subscribe id))
    (hstep : step s (.page (.respond n response)) = some t) (hlater : run step t bs = some u)
    (hfresh : id ∉ bs.filterMap Label.returnedId) :
    ((t.displayedMessages.filter fun m ↦ m.subscriptionId ≠ id)
      = s.displayedMessages.filter fun m ↦ m.subscriptionId ≠ id) ∧
    (u.paused = false ∨ ReadUnpaused t bs → (∀ m ∈ u.displayedMessages, m.subscriptionId ≠ id) ∧
      ∀ m ∈ u.filteredMessages toLowerCase, m.subscriptionId ≠ id) ∧
    (s.paused = true → s.display.previous ≠ none → .togglePause ∉ bs →
      u.displayState = s.displayState) := by
  have hs : Current s := current_of_run hrun
  have ht : Current t := current_step hs hstep
  obtain ⟨hchip, hpaused, hdisplay, hvisible⟩ := finish_spec hrequest hstep
  have hguard : Guarded step (fun _ a ↦ a.returnedId ≠ some id) t bs :=
    .of_forall fun a ha _ heq ↦ hfresh (List.mem_filterMap.mpr ⟨a, ha, heq⟩)
  have hnone : u.paused = false ∨ ReadUnpaused t bs →
      ∀ m ∈ u.displayedMessages, m.subscriptionId ≠ id := by
    rintro (hlive | ⟨pre, post, w, rfl, hpre, hlive⟩)
    · have hgone : id ∉ u.page.listed .subscribe := invariant_of_guarded
        (P := fun u : State ↦ id ∉ u.page.listed .subscribe) hchip
        (fun _ _ _ hid ha hstep ↦ not_listed_step hid ha hstep) hguard hlater
      have hu : Current u := invariant_of_step ht (fun _ _ _ h hstep ↦ current_step h hstep) hlater
      rw [displayed_of_unpaused hu hlive]
      exact fun m hm ↦ ne_of_visible hgone hm
    · have hgone : id ∉ w.page.listed .subscribe := invariant_of_guarded
        (P := fun u : State ↦ id ∉ u.page.listed .subscribe) hchip
        (fun _ _ _ hid ha hstep ↦ not_listed_step hid ha hstep) hguard.of_append hpre
      have hw : Current w := invariant_of_step ht (fun _ _ _ h hstep ↦ current_step h hstep) hpre
      have hpost : run step w.read post = some u := by
        rw [run_append, hpre] at hlater
        exact hlater
      have hrest : Guarded step (fun _ a ↦ a.returnedId ≠ some id) w.read post :=
        .of_forall fun a ha _ heq ↦ hfresh (List.mem_filterMap.mpr
          ⟨a, List.mem_append_right _ (List.mem_cons_of_mem _ ha), heq⟩)
      exact Gone.displayed (invariant_of_guarded (P := fun u : State ↦ Gone u id)
        (gone_read hw hgone hlive) (fun _ _ _ h ha hstep ↦ gone_step h ha hstep) hrest hpost)
  refine ⟨filter_displayed_of_finish hs hpaused hdisplay hvisible, fun h ↦ ⟨hnone h, ?_⟩, ?_⟩
  · exact fun m hm ↦ hnone h m (MessagesComponent.filterRows_sublist.subset hm)
  · intro hpause hread hstays
    obtain ⟨p, hp⟩ := Option.ne_none_iff_exists'.mp hread
    have hp' : t.display.previous = some p := by rw [hdisplay]; exact hp
    rw [frozen_of_run (hpaused.trans hpause) hp' hstays hlater, displayState_of_paused hpause hp]

private def arrival (payload : String) : Label :=
  .page (.messageReceived
    ⟨⟨1⟩, [], Utf16.ofString "orders", Utf16.ofString payload, none, none⟩)

/-- A message of a chip is displayed, and the chip is about to be removed. -/
private def displayed (pauses : List Label) : List Label :=
  [.page (.editQueueName (Utf16.ofString "orders")), .page .subscribeToQueue,
    .page (.respond 0 (.subscribed ⟨1⟩)), arrival "displayed", .read] ++ pauses ++
    [.page (.unsubscribe .subscribe ⟨1⟩)]

theorem leavesFeed_of_displayed : ∃ s t u, run step .initial (displayed []) = some s ∧
    s.displayedMessages ≠ [] ∧ step s (.page (.respond 1 .unsubscribed)) = some t ∧
      run step t [arrival "late", .read] = some u ∧ u.messages ≠ [] ∧
        (∀ m ∈ u.displayedMessages, m.subscriptionId ≠ ⟨1⟩) ∧
          ∀ m ∈ u.filteredMessages (fun text ↦ text), m.subscriptionId ≠ ⟨1⟩ := by
  obtain ⟨s, t, u, hrun, hrequest, hstep, hlater, hshown, hmessages, hlive⟩ :
      ∃ s t u, run step .initial (displayed []) = some s ∧
        s.page.requests 1 = some (.unsubscribe .subscribe ⟨1⟩) ∧
        step s (.page (.respond 1 .unsubscribed)) = some t ∧
        run step t [arrival "late", .read] = some u ∧ s.displayedMessages ≠ [] ∧
        u.messages ≠ [] ∧ u.paused = false :=
    ⟨_, _, _, rfl, rfl, rfl, rfl, by decide, by decide, rfl⟩
  exact ⟨s, t, u, hrun, hshown, hstep, hlater, hmessages,
    (leavesFeed_of_finish hrun hrequest hstep hlater (by decide)).2.1 (Or.inl hlive)⟩

/-- A row that a pause has frozen is displayed after its chip was removed. -/
theorem not_leavesFeed_of_pause : ∃ s t, run step .initial (displayed [.togglePause]) = some s ∧
    s.page.requests 1 = some (.unsubscribe .subscribe ⟨1⟩) ∧
      step s (.page (.respond 1 .unsubscribed)) = some t ∧
        (∃ m ∈ t.displayedMessages, m.subscriptionId = ⟨1⟩) ∧
          ∃ m ∈ t.filteredMessages (fun text ↦ text), m.subscriptionId = ⟨1⟩ :=
  ⟨_, _, rfl, rfl, rfl, by decide, by decide⟩

/-! ## A view that reads after every event -/

/-- One event, after which the view reads `displayState`. -/
def seen (s : State) (a : Label) : Option State := (step s a).map State.read

/-- The panel when it is first rendered. -/
def State.rendered : State := State.initial.read

/-- The step changes what the feed is computed from. -/
def IsEvent (s : State) : Label → Prop
  | .page a => setsFeed s.page a = true
  | .togglePause => True
  | .editSearchTerm _ | .read => False

/-- A chip is added before anything is pushed for it. -/
def ChipsFirst (s : State) : Label → Prop
  | .page (.respond _ (.subscribed id)) => ∀ m ∈ s.messages, m.subscriptionId ≠ id
  | _ => True

instance (s : State) : DecidablePred (IsEvent s)
  | .page a => inferInstanceAs (Decidable (setsFeed s.page a = true))
  | .togglePause => isTrue trivial
  | .editSearchTerm _ | .read => isFalse fun h ↦ h

instance (s : State) : DecidablePred (ChipsFirst s)
  | .page (.respond _ (.subscribed id)) =>
    inferInstanceAs (Decidable (∀ m ∈ s.messages, m.subscriptionId ≠ id))
  | .page (.respond _ (.sent _ _)) | .page (.respond _ .unsubscribed)
  | .page (.respond _ (.failed _)) | .page (.editQueueName _) | .page .subscribeToQueue
  | .page (.sendWithReply _) | .page (.unsubscribe _ _) | .page (.started _)
  | .page .startSettled | .page (.settled _) | .page (.messageReceived _) | .page .onreconnecting
  | .page .onreconnected | .page .onclose | .togglePause | .editSearchTerm _ | .read =>
    isTrue trivial

/-- The run of a view that reads is a run with a read after every event. -/
theorem run_of_seen (hrun : run seen s as = some t) :
    run step s (as.flatMap fun a ↦ [a, .read]) = some t := by
  induction as generalizing s with
  | nil => exact hrun
  | cons a as ih =>
    obtain ⟨u, hu, hrest⟩ := Option.bind_eq_some_iff.mp hrun
    obtain ⟨v, hv, rfl⟩ := Option.map_eq_some_iff.mp hu
    rw [List.flatMap_cons, List.cons_append, run_cons, hv, Option.bind_some]
    exact ih hrest

/-- What is known of the panel after a read. -/
structure Rendered (s : State) : Prop where
  orderly : Orderly s
  current : Current s
  display : s.display = ⟨some (s.source, s.displayState), false⟩

theorem rendered_read (horderly : Orderly s) (hcurrent : Current s) : Rendered s.read := by
  have hstep : step s .read = some s.read := rfl
  refine ⟨orderly_step horderly hstep, current_step hcurrent hstep, ?_⟩
  have hlatest : s.display.latest MessagesComponent.computation s.source
      = (s.source, s.displayState) := Prod.ext hcurrent.latest.1 rfl
  rw [State.read, LinkedSignal.read, hlatest]
  rfl

theorem rendered_initial : Rendered State.rendered :=
  rendered_read orderly_initial current_initial

/-- **The step lemma of the rendered panel.** An event makes the display compute from what it was;
any other step leaves it alone. -/
theorem seen_spec (hs : Rendered s) (hstep : seen s a = some t) : Rendered t ∧
    (IsEvent s a → t.displayState
      = MessagesComponent.computation t.source (some (s.source, s.displayState))) ∧
    (¬IsEvent s a → t.displayState = s.displayState) ∧
    (t.paused = s.paused ↔ a ≠ .togglePause) := by
  obtain ⟨u, hu, rfl⟩ := Option.map_eq_some_iff.mp hstep
  have hclean : s.display.stale = false := by rw [hs.display]
  have hprevious : s.display.previous = some (s.source, s.displayState) := by rw [hs.display]
  refine ⟨rendered_read (orderly_step hs.orderly hu) (current_step hs.current hu), ?_⟩
  have hcomputes : u.display = s.display.invalidate → u.displayState
      = MessagesComponent.computation u.source (some (s.source, s.displayState)) := by
    intro hdisplay
    rw [State.displayState, LinkedSignal.value,
      LinkedSignal.latest_of_stale (by rw [hdisplay]; rfl), hdisplay,
      LinkedSignal.previous_invalidate, hprevious]
  have hkeeps : u.display = s.display → u.displayState = s.displayState := by
    intro hdisplay
    rw [State.displayState, LinkedSignal.value, hdisplay, hs.display]
    rfl
  cases a with
  | page b =>
    obtain ⟨-, -, hpaused, hdisplay⟩ := page_spec hu
    refine ⟨fun hevent ↦ hcomputes ?_, fun hevent ↦ hkeeps ?_, iff_of_true hpaused nofun⟩
    · rw [hdisplay]
      exact if_pos hevent
    · rw [hdisplay]
      exact if_neg hevent
  | togglePause =>
    cases hu
    refine ⟨fun _ ↦ hcomputes rfl, fun hevent ↦ absurd trivial hevent, iff_of_false ?_ ?_⟩
    · exact Bool.not_ne_self s.paused
    · exact fun hne ↦ hne rfl
  | editSearchTerm value =>
    cases hu
    exact ⟨fun hevent ↦ hevent.elim, fun _ ↦ hkeeps rfl, iff_of_true rfl nofun⟩
  | read =>
    cases hu
    refine ⟨fun hevent ↦ hevent.elim, fun _ ↦ ?_, iff_of_true rfl nofun⟩
    exact LinkedSignal.value_read

theorem rendered_of_run (hrun : run seen .rendered as = some s) : Rendered s :=
  invariant_of_step rendered_initial (fun _ _ _ hs hstep ↦ (seen_spec hs hstep).1) hrun

theorem displayState_of_seen (hs : Rendered s) (hstep : seen s a = some t)
    (hpaused : t.paused = true) : t.displayState = s.displayState := by
  obtain ⟨-, hevent, hnone, -⟩ := seen_spec hs hstep
  by_cases ha : IsEvent s a
  · have hsource : t.source.paused = true := hpaused
    rw [hevent ha, MessagesComponent.computation, if_pos hsource]
  · exact hnone ha

theorem nextSeq_of_seen (hstep : seen s a = some t) :
    s.page.hub.nextSeq ≤ t.page.hub.nextSeq ∧
      ∀ message, a = .page (.messageReceived message) →
        t.page.hub.nextSeq = s.page.hub.nextSeq + 1 := by
  obtain ⟨u, hu, rfl⟩ := Option.map_eq_some_iff.mp hstep
  change s.page.hub.nextSeq ≤ u.page.hub.nextSeq ∧ ∀ message,
    a = .page (.messageReceived message) → u.page.hub.nextSeq = s.page.hub.nextSeq + 1
  cases a with
  | page b =>
    cases Page.stores_of_step (page_spec hu).1 with
    | receives message ha hhub =>
      rw [hhub]
      exact ⟨Nat.le_succ _, fun _ _ ↦ rfl⟩
    | clears n response flow id ha hrequest hhub =>
      subst ha
      rw [hhub]
      exact ⟨le_rfl, nofun⟩
    | subscribes n id queueName ha hrequest hhub =>
      subst ha
      rw [hhub]
      exact ⟨le_rfl, nofun⟩
    | sends n body id correlationId ha hrequest hhub =>
      subst ha
      rw [hhub]
      exact ⟨le_rfl, nofun⟩
    | rests hsets hevent hmessages hnext =>
      refine ⟨hnext.ge, ?_⟩
      rintro message ⟨⟩
      cases hsets
  | togglePause | editSearchTerm | read =>
    cases hu
    exact ⟨le_rfl, nofun⟩

theorem nextSeq_of_run (hrun : run seen s as = some t) :
    s.page.hub.nextSeq ≤ t.page.hub.nextSeq :=
  invariant_of_step (P := fun t : State ↦ s.page.hub.nextSeq ≤ t.page.hub.nextSeq) le_rfl
    (fun _ _ _ h hstep ↦ h.trans (nextSeq_of_seen hstep).1) hrun

/-- **A row becomes visible when its message arrives**, and at no other time. -/
theorem arrives_of_visible {m : ReceivedMessage} (hchips : ChipsFirst s a)
    (hstep : step s a = some t) (hm : m ∈ t.visibleMessages) :
    m ∈ s.visibleMessages ∨
      ∃ message, a = .page (.messageReceived message) ∧ m.seq = s.page.hub.nextSeq := by
  cases a with
  | page b =>
    obtain ⟨hmessages, hlisted⟩ := List.mem_filter.mp hm
    have hlisted : m.subscriptionId ∈ t.page.listed .subscribe := of_decide_eq_true hlisted
    have hstays : m ∈ s.messages → m.subscriptionId ∈ s.page.listed .subscribe →
        m ∈ s.visibleMessages := fun hm hid ↦ List.mem_filter.mpr ⟨hm, decide_eq_true hid⟩
    cases Page.stores_of_step (page_spec hstep).1 with
    | receives message ha hhub hchips' =>
      subst ha
      rw [State.messages, hhub] at hmessages
      rw [Page.State.listed, hchips'] at hlisted
      rcases List.mem_cons.mp hmessages with rfl | hmessages
      · exact Or.inr ⟨message, rfl, rfl⟩
      · exact Or.inl (hstays hmessages hlisted)
    | clears n response flow id ha hrequest hhub hchips' =>
      rw [State.messages, hhub] at hmessages
      rw [Page.State.listed, hchips'] at hlisted
      refine Or.inl (hstays (List.mem_of_mem_filter hmessages) ?_)
      cases flow with
      | subscribe => exact (mem_removeChip.mp hlisted).1
      | withReply => exact hlisted
    | subscribes n id queueName ha hrequest hhub hchips' =>
      subst ha
      rw [State.messages, hhub] at hmessages
      rw [Page.State.listed, hchips', List.map_append, List.mem_append, List.map_singleton,
        List.mem_singleton] at hlisted
      exact Or.inl (hstays hmessages (hlisted.resolve_right (hchips m hmessages)))
    | sends n body id correlationId ha hrequest hhub hchips' =>
      rw [State.messages, hhub] at hmessages
      rw [Page.State.listed, hchips'] at hlisted
      exact Or.inl (hstays hmessages hlisted)
    | rests hsets hevent hmessages' hnext hchips' =>
      rw [State.messages, hmessages'] at hmessages
      rw [Page.State.listed, hchips'] at hlisted
      exact Or.inl (hstays hmessages hlisted)
  | togglePause | editSearchTerm | read =>
    cases hstep
    exact Or.inl hm

/-- **What is new after an event** has just arrived, in a feed that was not paused. -/
theorem new_of_event (hs : Rendered s) (hchips : ChipsFirst s a) (hevent : IsEvent s a)
    (hstep : seen s a = some t) (hpaused : t.paused = false) {seq : ℕ}
    (hseq : seq ∈ t.displayState.newSeqs) :
    s.paused = false ∧ seq = s.page.hub.nextSeq ∧
      ∃ message, a = .page (.messageReceived message) := by
  rw [(seen_spec hs hstep).2.1 hevent] at hseq
  have hnot : t.source.paused = false := hpaused
  cases hcase : s.paused with
  | true =>
    -- The pause ends, and nothing is new.
    have hsource : s.source = ⟨true, s.visibleMessages⟩ := by rw [State.source, hcase]
    rw [MessagesComponent.computation, if_neg (by rw [hnot]; decide), hsource] at hseq
    exact absurd hseq (Finset.notMem_empty seq)
  | false =>
    have hsource : s.source = ⟨false, s.visibleMessages⟩ := by rw [State.source, hcase]
    rw [MessagesComponent.computation, if_neg (by rw [hnot]; decide), hsource] at hseq
    obtain ⟨m, hm, rfl⟩ := List.mem_map.mp (List.mem_toFinset.mp hseq)
    obtain ⟨hrow, hunseen⟩ := List.mem_filter.mp hm
    obtain ⟨u, hu, rfl⟩ := Option.map_eq_some_iff.mp hstep
    rcases arrives_of_visible hchips hu hrow with hold | ⟨message, ha, hseq'⟩
    · refine absurd (List.mem_map_of_mem ?_) (of_decide_eq_true hunseen)
      change m ∈ s.displayedMessages
      rw [displayed_of_unpaused hs.current hcase]
      exact hold
    · exact ⟨rfl, hseq', message, ha⟩

theorem new_of_arrival {message : MessageReceivedDto} (hs : Rendered s)
    (hstep : seen s (.page (.messageReceived message)) = some t) (hpaused : s.paused = false)
    (hchip : message.subscriptionId ∈ s.page.listed .subscribe) :
    s.page.hub.nextSeq ∈ t.displayState.newSeqs := by
  obtain ⟨-, hevent, -, hsame⟩ := seen_spec hs hstep
  have hnot : t.source.paused = false := (hsame.mpr nofun).trans hpaused
  have hsource : s.source = ⟨false, s.visibleMessages⟩ := by rw [State.source, hpaused]
  rw [hevent rfl, MessagesComponent.computation, if_neg (by rw [hnot]; decide), hsource]
  obtain ⟨u, hu, rfl⟩ := Option.map_eq_some_iff.mp hstep
  cases hu
  refine List.mem_toFinset.mpr (List.mem_map.mpr ⟨⟨message, s.page.hub.nextSeq⟩, ?_, rfl⟩)
  refine List.mem_filter.mpr ⟨List.mem_filter.mpr ⟨List.mem_cons_self, decide_eq_true hchip⟩,
    decide_eq_true fun hold ↦ ?_⟩
  obtain ⟨m, hm, hseq⟩ := List.mem_map.mp hold
  exact absurd (hs.orderly.displayed.received m hm) (by rw [hseq]; exact Nat.lt_irrefl _)

/-- A message with the number was displayed in a state before the last one. -/
def DisplayedBefore (as : List Label) (seq : ℕ) : Prop :=
  ∃ pre b post s, as = pre ++ b :: post ∧ run seen .rendered pre = some s ∧
    ∃ m ∈ s.displayedMessages, m.seq = seq

/-- A message with the number was received while the feed was paused. -/
def ReceivedPaused (as : List Label) (seq : ℕ) : Prop :=
  ∃ pre message post s, as = pre ++ .page (.messageReceived message) :: post ∧
    run seen .rendered pre = some s ∧ s.paused = true ∧ s.page.hub.nextSeq = seq

/-- The state in which the pause began shows the rows that are displayed now. -/
def FrozenSince (as : List Label) (rows : List ReceivedMessage) : Prop :=
  ∃ pre post s, as = pre ++ .togglePause :: post ∧ .togglePause ∉ post ∧
    run seen .rendered pre = some s ∧ s.paused = false ∧ s.displayedMessages = rows

theorem frozenSince_of_paused (hrun : run seen .rendered as = some t) (hpaused : t.paused = true) :
    FrozenSince as t.displayedMessages := by
  have key : t.paused = true → FrozenSince as t.displayedMessages := by
    refine run_induction (motive := fun as t ↦
      t.paused = true → FrozenSince as t.displayedMessages) (fun h ↦ by cases h)
      (fun as s a t hs ih hstep hpaused ↦ ?_) hrun
    have hrendered := rendered_of_run hs
    have hsame : t.displayedMessages = s.displayedMessages :=
      congrArg DisplayState.rows (displayState_of_seen hrendered hstep hpaused)
    have htoggle := (seen_spec hrendered hstep).2.2.2
    cases hcase : s.paused with
    | true =>
      obtain ⟨pre, post, u, rfl, hpost, hu, hlive, hrows⟩ := ih hcase
      refine ⟨pre, post ++ [a], u, by simp, ?_, hu, hlive, hrows.trans hsame.symm⟩
      have hne : a ≠ .togglePause := htoggle.mp (hpaused.trans hcase.symm)
      simp only [List.mem_append, List.mem_singleton, hpost, false_or]
      exact hne.symm
    | false =>
      have ha : a = .togglePause := by
        by_contra hne
        have heq := htoggle.mpr hne
        rw [hpaused, hcase] at heq
        cases heq
      exact ⟨as, [], s, by rw [ha], List.not_mem_nil, hs, hcase, hsame.symm⟩
  exact key hpaused

theorem not_before_of_arrival {message : MessageReceivedDto} {seq : ℕ}
    (hrun : run seen .rendered as = some s) (hlive : s.paused = false)
    (hseq : seq = s.page.hub.nextSeq) :
    ¬DisplayedBefore (as ++ [.page (.messageReceived message)]) seq ∧
      ¬ReceivedPaused (as ++ [.page (.messageReceived message)]) seq := by
  -- A state before the last one is a state of the run up to `s`.
  have hprefix : ∀ {pre b post u}, as ++ [.page (.messageReceived message)] = pre ++ b :: post →
      run seen .rendered pre = some u → (pre = as ∧ u = s) ∨
        ∃ post', as = pre ++ b :: post' ∧ run seen u (b :: post') = some s := by
    intro pre b post u heq hu
    rcases List.eq_nil_or_concat post with rfl | ⟨post', c, rfl⟩
    · obtain ⟨hpre, -⟩ := List.append_inj' heq rfl
      rw [← hpre, hrun] at hu
      exact Or.inl ⟨hpre.symm, (Option.some.inj hu).symm⟩
    · rw [List.concat_eq_append, ← List.cons_append, ← List.append_assoc] at heq
      obtain ⟨hpre, -⟩ := List.append_inj' heq rfl
      rw [hpre, run_append, hu] at hrun
      exact Or.inr ⟨post', hpre, hrun⟩
  constructor
  · rintro ⟨pre, b, post, u, heq, hu, m, hm, hmseq⟩
    have hlt : m.seq < u.page.hub.nextSeq :=
      (rendered_of_run hu).orderly.displayed.received m hm
    rcases hprefix heq hu with ⟨-, rfl⟩ | ⟨post', -, hrest⟩
    · omega
    · have hle := nextSeq_of_run hrest
      omega
  · rintro ⟨pre, message', post, u, heq, hu, hpaused, hnext⟩
    rcases hprefix heq hu with ⟨-, rfl⟩ | ⟨post', -, hrest⟩
    · rw [hpaused] at hlive
      cases hlive
    · obtain ⟨v, hv, hrest⟩ := Option.bind_eq_some_iff.mp hrest
      have hsucc := (nextSeq_of_seen hv).2 message' rfl
      have hle := nextSeq_of_run hrest
      omega

/-- **Pause, catch-up and highlight** over whole runs. -/
theorem follows_of_run (hchips : Guarded seen ChipsFirst .rendered as)
    (hrun : run seen .rendered as = some t) :
    (t.paused = false → t.displayedMessages = t.visibleMessages) ∧
    (t.paused = true → FrozenSince as t.displayedMessages) ∧
    (∀ pre a s, as = pre ++ [a] → run seen .rendered pre = some s → IsEvent s a →
      t.paused = false → ∀ seq ∈ t.displayState.newSeqs,
        ¬DisplayedBefore as seq ∧ ¬ReceivedPaused as seq) ∧
    (∀ pre message s, as = pre ++ [.page (.messageReceived message)] →
      run seen .rendered pre = some s → s.paused = false →
        message.subscriptionId ∈ s.page.listed .subscribe →
          s.page.hub.nextSeq ∈ t.displayState.newSeqs) := by
  refine ⟨displayed_of_unpaused (rendered_of_run hrun).current, frozenSince_of_paused hrun, ?_, ?_⟩
  · rintro pre a s rfl hs hevent hpaused seq hseq
    obtain ⟨s', hs', hstep⟩ := run_concat.mp hrun
    obtain rfl : s = s' := Option.some.inj (hs.symm.trans hs')
    have hchip := ((guarded_concat hs).mp hchips).2
    obtain ⟨hlive, hnext, message, rfl⟩ :=
      new_of_event (rendered_of_run hs) hchip hevent hstep hpaused hseq
    exact not_before_of_arrival hs hlive hnext
  · rintro pre message s rfl hs hpaused hchip
    obtain ⟨s', hs', hstep⟩ := run_concat.mp hrun
    obtain rfl : s = s' := Option.some.inj (hs.symm.trans hs')
    exact new_of_arrival (rendered_of_run hs) hstep hpaused hchip

/-- The feed is paused and resumed between two arrivals. -/
private def resumed : List Label :=
  [.page (.editQueueName (Utf16.ofString "orders")), .page .subscribeToQueue,
    .page (.respond 0 (.subscribed ⟨1⟩)), .togglePause, arrival "paused", .togglePause]

theorem follows_of_resumed : ∃ s t, run seen .rendered resumed = some s ∧
    run seen .rendered (resumed ++ [arrival "new"]) = some t ∧ t.displayState.newSeqs = {1} ∧
      t.displayedMessages = t.visibleMessages ∧ 1 ∈ t.displayState.newSeqs := by
  obtain ⟨s, t, hs, hrun, hnew, hlive, hpaused, hchip, hnext⟩ : ∃ s t,
      run seen .rendered resumed = some s ∧
      run seen .rendered (resumed ++ [arrival "new"]) = some t ∧ t.displayState.newSeqs = {1} ∧
      t.paused = false ∧ s.paused = false ∧ (⟨1⟩ : Guid) ∈ s.page.listed .subscribe ∧
      s.page.hub.nextSeq = 1 :=
    ⟨_, _, rfl, rfl, by decide, rfl, rfl, by decide, rfl⟩
  obtain ⟨hsame, -, -, harrival⟩ := follows_of_run (by decide) hrun
  have hseq := harrival resumed _ s rfl hs hpaused hchip
  rw [hnext] at hseq
  exact ⟨s, t, hs, hrun, hnew, hsame hlive, hseq⟩

end Feed

end BusTester
