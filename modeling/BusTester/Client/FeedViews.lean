import BusTester.Client.Feed
import Mathlib.Algebra.GroupWithZero.Nat

/-!
# The views of the message store

Every list of rows that the messages panel shows is a part of the message store, in its order, and
so are the rows that a pause has frozen, although the store goes on without them. As long as the
server never returns the same id twice the parts do not overlap: each visible message is counted at
one chip, and no message is in the feed and in the reply panel as well. For the frozen rows this
needs that a message that is still stored still has its chip.
-/

namespace BusTester

namespace Feed

open Page (Decreasing Stores)
open Transition

variable {s t : State} {as : List Label} {toLowerCase : Utf16 → Utf16}

/-! ## The properties -/

/-- The rows of each view are numbered downwards. -/
structure Numbered (s : State) (toLowerCase : Utf16 → Utf16) : Prop where
  messages : Decreasing s.messages
  visible : Decreasing s.visibleMessages
  displayed : Decreasing s.displayedMessages
  filtered : Decreasing (s.filteredMessages toLowerCase)
  replies : ∀ entry ∈ s.replyPanel, Decreasing entry.replies

/-- No message is shown or counted in two places. -/
structure Apart (s : State) (toLowerCase : Utf16 → Utf16) : Prop where
  counts : (s.chipCounts.map ChipCount.count).sum = s.visibleMessages.length
  visible : ∀ entry ∈ s.replyPanel, ∀ m ∈ entry.replies, m ∉ s.visibleMessages
  displayed : ∀ entry ∈ s.replyPanel, ∀ m ∈ entry.replies, m ∉ s.displayedMessages
  filtered : ∀ entry ∈ s.replyPanel, ∀ m ∈ entry.replies, m ∉ s.filteredMessages toLowerCase

/-- The ids that the server has returned are pairwise distinct. -/
def DistinctIds (as : List Label) : Prop := (as.filterMap Label.returnedId).Nodup

instance (as : List Label) : Decidable (DistinctIds as) :=
  inferInstanceAs (Decidable (List.Nodup _))

/-! ## Order -/

theorem orderly_of_run (hrun : run step .initial as = some s) : Orderly s :=
  invariant_of_step orderly_initial (fun _ _ _ hs hstep ↦ orderly_step hs hstep) hrun

theorem Orderly.numbered (hs : Orderly s) : Numbered s toLowerCase where
  messages := hs.decreasing
  visible := hs.visible.decreasing
  displayed := hs.displayed.decreasing
  filtered := hs.displayed.decreasing.sublist MessagesComponent.filterRows_sublist
  replies entry hentry := by
    obtain ⟨p, -, rfl⟩ := List.mem_map.mp hentry
    exact hs.decreasing.filter _

/-! ## Entries are distinct -/

/-- A step of the page shows one more entry at most, the one that it returns. -/
theorem shown_of_stores {page page' : Page.State} {b : Page.Label} (h : Stores page b page') :
    page'.shown.Sublist page.shown ∨
      ∃ id, b.returnedId = some id ∧ page'.shown.Perm (id :: page.shown) := by
  have hsame : page'.component.subscriptions = page.component.subscriptions →
      page'.pending = page.pending → page'.shown.Sublist page.shown := by
    intro hchips hpending
    rw [Page.State.shown, Page.State.listed, Page.State.listed, hchips, hpending]
    exact List.Sublist.refl _
  cases h with
  | receives message ha hhub hchips hpending => exact Or.inl (hsame hchips hpending)
  | clears n response flow id ha hrequest hhub hchips hpending =>
    refine Or.inl ?_
    rw [Page.State.shown, Page.State.listed, Page.State.listed, hchips, hpending]
    cases flow with
    | subscribe => exact (List.filter_sublist.map _).append (List.Sublist.refl _)
    | withReply => exact (List.Sublist.refl _).append (List.filter_sublist.map _)
  | subscribes n id queueName ha hrequest hhub hchips hpending =>
    refine Or.inr ⟨id, by rw [ha]; rfl, ?_⟩
    rw [Page.State.shown, Page.State.listed, Page.State.listed, hchips, hpending, List.map_append,
      List.append_assoc]
    exact List.perm_middle
  | sends n body id correlationId ha hrequest hhub hchips hpending =>
    refine Or.inr ⟨id, by rw [ha]; rfl, ?_⟩
    rw [Page.State.shown, Page.State.listed, Page.State.listed, hchips, hpending, List.map_append,
      ← List.append_assoc]
    exact List.perm_append_singleton id _
  | rests hsets hevent hmessages hnext hchips hpending => exact Or.inl (hsame hchips hpending)

/-- As long as the server returns distinct ids, the entries have distinct ids. -/
theorem nodup_shown_of_run (hrun : run step .initial as = some s) (hdistinct : DistinctIds as) :
    s.page.shown.Nodup := by
  have key : DistinctIds as →
      s.page.shown.Nodup ∧ ∀ h ∈ s.page.shown, h ∈ as.filterMap Label.returnedId := by
    refine run_induction (motive := fun as s ↦ DistinctIds as → s.page.shown.Nodup ∧
      ∀ h ∈ s.page.shown, h ∈ as.filterMap Label.returnedId)
      (fun _ ↦ ⟨List.nodup_nil, fun _ hh ↦ absurd hh List.not_mem_nil⟩)
      (fun as s a t hs ih hstep hdistinct ↦ ?_) hrun
    rw [DistinctIds, List.filterMap_append] at hdistinct
    obtain ⟨hold, -, hnew⟩ := List.nodup_append.mp hdistinct
    obtain ⟨hnodup, hreturned⟩ := ih hold
    rw [List.filterMap_append]
    have hsublist : t.page.shown.Sublist s.page.shown → t.page.shown.Nodup ∧
        ∀ h ∈ t.page.shown, h ∈ as.filterMap Label.returnedId ++ [a].filterMap Label.returnedId :=
      fun hsub ↦ ⟨hnodup.sublist hsub,
        fun h hh ↦ List.mem_append_left _ (hreturned h (hsub.subset hh))⟩
    cases a with
    | page b =>
      rcases shown_of_stores (Page.stores_of_step (page_spec hstep).1) with hsub | ⟨id, hid, hperm⟩
      · exact hsublist hsub
      · have hmem : id ∈ [Label.page b].filterMap Label.returnedId :=
          List.mem_filterMap.mpr ⟨_, List.mem_singleton_self _, hid⟩
        refine ⟨hperm.nodup_iff.mpr (List.nodup_cons.mpr ⟨fun hh ↦ ?_, hnodup⟩), fun h hh ↦ ?_⟩
        · exact hnew id (hreturned id hh) id hmem rfl
        · rcases List.mem_cons.mp (hperm.subset hh) with rfl | hh
          · exact List.mem_append_right _ hmem
          · exact List.mem_append_left _ (hreturned h hh)
    | togglePause | editSearchTerm | read =>
      cases hstep
      exact hsublist (List.Sublist.refl _)
  exact (key hdistinct).1

/-! ## The parts -/

theorem sum_length_filter {α κ : Type*} [DecidableEq κ] (key : α → κ) (l : List α) {keys : List κ}
    (hkeys : keys.Nodup) : (keys.map fun k ↦ (l.filter fun a ↦ key a = k).length).sum
      = (l.filter fun a ↦ key a ∈ keys).length := by
  induction keys with
  | nil => simp
  | cons k keys ih =>
    obtain ⟨hk, hkeys⟩ := List.nodup_cons.mp hkeys
    rw [List.map_cons, List.sum_cons, ih hkeys,
      List.length_eq_length_filter_add (l := l.filter fun a ↦ key a ∈ k :: keys)
        (fun a ↦ key a = k), List.filter_filter, List.filter_filter]
    congr 2
    · refine List.filter_congr fun a _ ↦ ?_
      by_cases ha : key a = k <;> simp [ha]
    · refine List.filter_congr fun a _ ↦ ?_
      by_cases ha : key a = k
      · simp [ha, hk]
      · simp [ha]

theorem mem_replies {entry : ReplyPanelEntry} (hentry : entry ∈ s.replyPanel) {m : ReceivedMessage}
    (hm : m ∈ entry.replies) : m ∈ s.messages ∧ m.subscriptionId ∈ s.page.listed .withReply := by
  obtain ⟨p, hp, rfl⟩ := List.mem_map.mp hentry
  obtain ⟨hmessages, hmatch⟩ := List.mem_filter.mp hm
  exact ⟨hmessages, List.mem_map.mpr ⟨p, hp, (of_decide_eq_true hmatch).1.symm⟩⟩

theorem Orderly.apart (hs : Orderly s) (hnodup : s.page.shown.Nodup) : Apart s toLowerCase := by
  obtain ⟨hchips, -, hdisjoint⟩ := List.nodup_append.mp hnodup
  have happart : ∀ {rows : List ReceivedMessage}, Displayable s.page rows →
      ∀ entry ∈ s.replyPanel, ∀ m ∈ entry.replies, m ∉ rows := by
    intro rows hrows entry hentry m hm hrow
    obtain ⟨hmessages, hreply⟩ := mem_replies hentry hm
    exact hdisjoint _ (hrows.listed m hrow hmessages) _ hreply rfl
  refine ⟨?_, happart hs.visible, happart hs.displayed, fun entry hentry m hm hrow ↦ ?_⟩
  · have hsum := sum_length_filter (fun m : ReceivedMessage ↦ m.subscriptionId) s.messages hchips
    rw [Page.State.listed, List.map_map] at hsum
    rw [State.chipCounts, MessagesComponent.chipCounts, List.map_map]
    exact hsum
  · exact happart hs.displayed entry hentry m hm
      (MessagesComponent.filterRows_sublist.subset hrow)

/-- **The store is the log of receipts without what was cleared, and the views are parts of it**, in
every reachable state of the panel. -/
theorem views_of_run (hrun : run step .initial as = some s) :
    s.messages = Page.stored (observed step event .initial as) ∧ Numbered s toLowerCase ∧
      (DistinctIds as → Apart s toLowerCase) :=
  ⟨(holds_of_run hrun).messages, (orderly_of_run hrun).numbered,
    fun hdistinct ↦ (orderly_of_run hrun).apart (nodup_shown_of_run hrun hdistinct)⟩

private def order (subscriptionId : Guid) (payload : String) : MessageReceivedDto :=
  ⟨subscriptionId, [], Utf16.ofString "orders", Utf16.ofString payload, none, none⟩

/-- A row is frozen by a pause while its chip is removed and another row arrives. -/
private def frozenRow : List Label :=
  [.page (.editQueueName (Utf16.ofString "orders")), .page .subscribeToQueue,
    .page (.respond 0 (.subscribed ⟨1⟩)), .page (.messageReceived (order ⟨1⟩ "first")), .read,
    .togglePause, .page (.messageReceived (order ⟨1⟩ "second")),
    .page (.unsubscribe .subscribe ⟨1⟩), .page (.respond 1 .unsubscribed),
    .page (.messageReceived (order ⟨1⟩ "third")), .read]

theorem views_of_frozenRow : ∃ s, run step .initial frozenRow = some s ∧
    s.messages = [⟨order ⟨1⟩ "third", 2⟩] ∧ s.displayedMessages = [⟨order ⟨1⟩ "first", 0⟩] ∧
      s.messages = Page.stored (observed step event .initial frozenRow) ∧ Numbered s id ∧
        Apart s id := by
  obtain ⟨s, hrun, hmessages, hdisplayed⟩ : ∃ s, run step .initial frozenRow = some s ∧
      s.messages = [⟨order ⟨1⟩ "third", 2⟩] ∧ s.displayedMessages = [⟨order ⟨1⟩ "first", 0⟩] :=
    ⟨_, rfl, rfl, rfl⟩
  obtain ⟨hstored, hnumbered, hapart⟩ := views_of_run hrun
  exact ⟨s, hrun, hmessages, hdisplayed, hstored, hnumbered, hapart (by decide)⟩

end Feed

end BusTester
