import BusTester.Client.MessageStore
import BusTester.Reactive.LinkedSignal
import Mathlib.Algebra.BigOperators.Group.List.Basic
import Mathlib.Data.Finset.Basic
import Mathlib.Data.List.Infix

/-!
# The feed of the messages panel

The rows of `MessagesComponent` go through three layers. `visibleMessages` are the stored messages
of the active chips, `displayState` is a linked signal that freezes them while the feed is paused
and notes which are new, and `filteredMessages` are those that match the search term. The reply
panel and the counters of the chips are computed from the store directly.

The state adds to the page what these layers hold. The view may read `displayState` at any time and
any number of times, so a read is a step of its own. Lower case is a parameter, since nothing here
depends on what it does to a text.
-/

namespace BusTester

/-! ## The layers -/

/-- What `displayState` is computed from. -/
structure DisplaySource where
  paused : Bool
  rows : List ReceivedMessage
deriving DecidableEq

/-- `DisplayState`: the rows, and which of them are new since the last unpaused render. -/
structure DisplayState where
  rows : List ReceivedMessage
  newSeqs : Finset ℕ
deriving DecidableEq

/-- An entry of `chipCounts`. -/
structure ChipCount where
  id : Guid
  queueName : Utf16
  count : ℕ
deriving DecidableEq

namespace MessagesComponent

/-- `visibleMessages`, over the messages of the hub service. -/
def visibleMessages (c : MessagesComponent) (messages : List ReceivedMessage) :
    List ReceivedMessage :=
  messages.filter fun m ↦ m.subscriptionId ∈ c.subscriptions.map Subscription.id

/-- `chipCounts`, over the messages of the hub service. -/
def chipCounts (c : MessagesComponent) (messages : List ReceivedMessage) : List ChipCount :=
  c.subscriptions.map fun s ↦
    { id := s.id
      queueName := s.queueName
      count := (messages.filter fun m ↦ m.subscriptionId = s.id).length }

/-- The computation of `displayState`. -/
def computation (current : DisplaySource) (previous : Option (DisplaySource × DisplayState)) :
    DisplayState :=
  if current.paused then
    match previous with
    | some (_, value) => value
    | none => ⟨current.rows, ∅⟩
  else
    match previous with
    | some (⟨true, _⟩, _) => ⟨current.rows, ∅⟩
    | some (⟨false, _⟩, value) =>
      ⟨current.rows, ((current.rows.filter fun m ↦ m.seq ∉ value.rows.map ReceivedMessage.seq).map
        ReceivedMessage.seq).toFinset⟩
    | none => ⟨current.rows, (current.rows.map ReceivedMessage.seq).toFinset⟩

/-- The rows of `filteredMessages`, for the term as it was entered. -/
def filterRows (toLowerCase : Utf16 → Utf16) (searchTerm : Utf16) (rows : List ReceivedMessage) :
    List ReceivedMessage :=
  let term := toLowerCase searchTerm.jsTrim
  if term = [] then rows
  else
    rows.filter fun m ↦ term <:+: toLowerCase m.payload ∨ term <:+: toLowerCase m.routingKey ∨
      term <:+: toLowerCase m.exchange

theorem filterRows_sublist {toLowerCase : Utf16 → Utf16} {searchTerm : Utf16}
    {rows : List ReceivedMessage} : (filterRows toLowerCase searchTerm rows).Sublist rows := by
  unfold filterRows
  dsimp only
  split
  · exact List.Sublist.refl _
  · exact List.filter_sublist

end MessagesComponent

namespace Feed

open Page (Decreasing Flow Holds Stores setsFeed storeEvent)
open ReceiptLog (Event)
open Transition

/-! ## States and steps -/

structure State where
  page : Page.State
  searchTerm : Utf16
  paused : Bool
  /-- `displayState`. -/
  display : LinkedSignal DisplaySource DisplayState

def State.initial : State := ⟨.initial, [], false, .initial⟩

inductive Label where
  | page (a : Page.Label)
  | togglePause
  | editSearchTerm (value : Utf16)
  /-- The view reads `displayState`. -/
  | read
deriving DecidableEq

/-- The subscription that the step returns to the page. -/
def Label.returnedId : Label → Option Guid
  | .page a => a.returnedId
  | .togglePause | .editSearchTerm _ | .read => none

namespace State

def messages (s : State) : List ReceivedMessage := s.page.hub.messages

def visibleMessages (s : State) : List ReceivedMessage :=
  s.page.component.visibleMessages s.messages

def source (s : State) : DisplaySource := ⟨s.paused, s.visibleMessages⟩

/-- `displayState()`, if it is read now. -/
def displayState (s : State) : DisplayState :=
  s.display.value MessagesComponent.computation s.source

def displayedMessages (s : State) : List ReceivedMessage := s.displayState.rows

def filteredMessages (s : State) (toLowerCase : Utf16 → Utf16) : List ReceivedMessage :=
  MessagesComponent.filterRows toLowerCase s.searchTerm s.displayedMessages

def isNewRow (s : State) (message : ReceivedMessage) : Bool :=
  message.seq ∈ s.displayState.newSeqs

def chipCounts (s : State) : List ChipCount := s.page.component.chipCounts s.messages

def replyPanel (s : State) : List ReplyPanelEntry :=
  MessagesComponent.replyPanel s.messages s.page.pending

def read (s : State) : State :=
  { s with display := s.display.read MessagesComponent.computation s.source }

end State

/-- One step of the panel. -/
def step (s : State) : Label → Option State
  | .page a =>
    (Page.step s.page a).map fun page ↦
      { s with page, display := if setsFeed s.page a then s.display.invalidate else s.display }
  | .togglePause => some { s with paused := !s.paused, display := s.display.invalidate }
  | .editSearchTerm value => some { s with searchTerm := value }
  | .read => some s.read

variable {s t : State} {a : Label} {as : List Label}

/-! ## The steps, sorted -/

theorem visibleMessages_congr (hmessages : t.messages = s.messages)
    (hchips : t.page.component.subscriptions = s.page.component.subscriptions) :
    t.visibleMessages = s.visibleMessages := by
  unfold State.visibleMessages MessagesComponent.visibleMessages
  rw [hmessages, hchips]

theorem page_spec {b : Page.Label} (hstep : step s (.page b) = some t) :
    Page.step s.page b = some t.page ∧ t.searchTerm = s.searchTerm ∧ t.paused = s.paused ∧
      t.display = if setsFeed s.page b then s.display.invalidate else s.display := by
  obtain ⟨page, hpage, rfl⟩ := Option.map_eq_some_iff.mp hstep
  exact ⟨hpage, rfl, rfl, rfl⟩

/-- The step as an event of the store. -/
def event (s : State) : Label → Option (Event MessageReceivedDto Guid)
  | .page a => storeEvent s.page a
  | .togglePause | .editSearchTerm _ | .read => none

/-- **The store is the log of receipts without what was cleared**, in every run. -/
theorem holds_of_run (hrun : run step .initial as = some s) :
    Holds s.page.hub (observed step event .initial as) := by
  refine run_induction (motive := fun as s ↦ Holds s.page.hub (observed step event .initial as))
    Page.holds_initial (fun as s a t hs hhub hstep ↦ ?_) hrun
  rw [observed_concat hs]
  cases a with
  | page b => exact hhub.step (Page.stores_of_step (page_spec hstep).1)
  | togglePause | editSearchTerm | read =>
    cases hstep
    rwa [event, Option.toList_none, List.append_nil]

/-! ## What the rows are -/

/-- Rows that may be displayed: in order, received, and of a chip unless they have been cleared. -/
structure Displayable (page : Page.State) (rows : List ReceivedMessage) : Prop where
  decreasing : Decreasing rows
  received : ∀ m ∈ rows, m.seq < page.hub.nextSeq
  listed : ∀ m ∈ rows, m ∈ page.hub.messages → m.subscriptionId ∈ page.listed .subscribe

/-- What every reachable state of the panel satisfies. -/
structure Orderly (s : State) : Prop where
  holds : ∃ es, Holds s.page.hub es
  previous : ∀ p ∈ s.display.previous, Displayable s.page p.2.rows

theorem orderly_initial : Orderly State.initial := ⟨⟨[], Page.holds_initial⟩, nofun⟩

theorem Orderly.decreasing (hs : Orderly s) : Decreasing s.messages := by
  obtain ⟨es, hholds⟩ := hs.holds
  exact hholds.decreasing.1

theorem Orderly.received (hs : Orderly s) : ∀ m ∈ s.messages, m.seq < s.page.hub.nextSeq := by
  obtain ⟨es, hholds⟩ := hs.holds
  exact hholds.decreasing.2

theorem Orderly.visible (hs : Orderly s) : Displayable s.page s.visibleMessages where
  decreasing := hs.decreasing.filter _
  received m hm := hs.received m (List.mem_of_mem_filter hm)
  listed _ hm _ := of_decide_eq_true (List.mem_filter.mp hm).2

/-- The computation displays the visible rows, or the rows that were displayed before. -/
theorem rows_computation (current : DisplaySource)
    (previous : Option (DisplaySource × DisplayState)) :
    (MessagesComponent.computation current previous).rows = current.rows ∨
      ∃ p ∈ previous, (MessagesComponent.computation current previous).rows = p.2.rows := by
  unfold MessagesComponent.computation
  split
  · split
    · exact Or.inr ⟨_, rfl, rfl⟩
    · exact Or.inl rfl
  · split <;> exact Or.inl rfl

theorem Orderly.latest (hs : Orderly s) :
    Displayable s.page (s.display.latest MessagesComponent.computation s.source).2.rows := by
  rcases s.display.latest_cases MessagesComponent.computation s.source with ⟨-, hprevious⟩ | hlatest
  · exact hs.previous _ hprevious
  · rw [hlatest]
    rcases rows_computation s.source s.display.previous with hrows | ⟨p, hp, hrows⟩
    · rw [hrows]
      exact hs.visible
    · rw [hrows]
      exact hs.previous p hp

theorem Orderly.displayed (hs : Orderly s) : Displayable s.page s.displayedMessages := hs.latest

/-- Rows stay displayable when the page moves: what is stored anew is not among them, and a chip
that goes takes its messages with it. -/
theorem Displayable.of_stores {page page' : Page.State} {rows : List ReceivedMessage}
    {b : Page.Label} (hrows : Displayable page rows) (hstores : Stores page b page') :
    Displayable page' rows := by
  cases hstores with
  | receives message ha hhub hchips =>
    refine ⟨hrows.decreasing, fun m hm ↦ ?_, fun m hm hstored ↦ ?_⟩
    · rw [hhub]
      exact Nat.lt_succ_of_lt (hrows.received m hm)
    · rw [Page.State.listed, hchips]
      rw [hhub] at hstored
      rcases List.mem_cons.mp hstored with rfl | hold
      · exact absurd (hrows.received _ hm) (Nat.lt_irrefl _)
      · exact hrows.listed m hm hold
  | clears n response flow id ha hrequest hhub hchips =>
    refine ⟨hrows.decreasing, fun m hm ↦ ?_, fun m hm hstored ↦ ?_⟩
    · rw [hhub]
      exact hrows.received m hm
    · rw [hhub] at hstored
      obtain ⟨hold, hne⟩ := List.mem_filter.mp hstored
      obtain ⟨chip, hchip, hid⟩ := List.mem_map.mp (hrows.listed m hm hold)
      rw [Page.State.listed, hchips]
      cases flow with
      | subscribe =>
        refine List.mem_map.mpr ⟨chip, List.mem_filter.mpr ⟨hchip, ?_⟩, hid⟩
        rw [hid]
        exact hne
      | withReply => exact List.mem_map.mpr ⟨chip, hchip, hid⟩
  | subscribes n id queueName ha hrequest hhub hchips =>
    refine ⟨hrows.decreasing, by rw [hhub]; exact hrows.received, fun m hm hstored ↦ ?_⟩
    rw [hhub] at hstored
    rw [Page.State.listed, hchips, List.map_append]
    exact List.mem_append_left _ (hrows.listed m hm hstored)
  | sends n body id correlationId ha hrequest hhub hchips =>
    refine ⟨hrows.decreasing, by rw [hhub]; exact hrows.received, fun m hm hstored ↦ ?_⟩
    rw [hhub] at hstored
    rw [Page.State.listed, hchips]
    exact hrows.listed m hm hstored
  | rests hsets hevent hmessages hnext hchips =>
    refine ⟨hrows.decreasing, by rw [hnext]; exact hrows.received, fun m hm hstored ↦ ?_⟩
    rw [hmessages] at hstored
    rw [Page.State.listed, hchips]
    exact hrows.listed m hm hstored

theorem orderly_step (hs : Orderly s) (hstep : step s a = some t) : Orderly t := by
  cases a with
  | page b =>
    obtain ⟨hpage, -, -, hdisplay⟩ := page_spec hstep
    have hstores := Page.stores_of_step hpage
    obtain ⟨es, hholds⟩ := hs.holds
    refine ⟨⟨_, hholds.step hstores⟩, fun p hp ↦ (hs.previous p ?_).of_stores hstores⟩
    rw [hdisplay] at hp
    split at hp <;> exact hp
  | togglePause | editSearchTerm =>
    cases hstep
    exact ⟨hs.holds, fun p hp ↦ hs.previous p hp⟩
  | read =>
    cases hstep
    refine ⟨hs.holds, ?_⟩
    rintro p ⟨⟩
    exact hs.latest

end Feed

end BusTester
