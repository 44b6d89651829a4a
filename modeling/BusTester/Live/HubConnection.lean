import BusTester.Application.Coordinator
import BusTester.Client.MessageStore
import Mathlib.Data.Finset.Basic

/-!
# The connection between a page and the hub

The groups that BusHub keeps for a connection, and what travels on it in either direction. Three
things are taken of SignalR as it documents them.

* Groups belong to a connection id. A connection that was lost and has been restored has a new id,
  which is in no group; nothing that was sent on the old one arrives.
* Invocations on one connection are executed one after the other, in the order in which they were
  made, and their results come back in that order.
* A message that is sent to a group reaches the connections that are members at that moment,
  reliably and in order.

The connection is a component of its own: `step` says what happens to it, and `told` what the page
hears of it. A system has one connection for each of its pages.
-/

namespace BusTester

namespace Page

/-- The effect of a hub method on the groups of the caller. -/
def Invocation.apply (groups : Finset Guid) : Invocation → Finset Guid
  | .joinSubscription join => insert join.subscriptionId groups
  | .leaveSubscription id => groups.erase id

end Page

/-- The groups that the connection is in, the results of the oldest pending invocations, and the
pushes on their way. -/
@[ext] structure HubConnection where
  groups : Finset Guid
  completions : List Bool
  wire : List MessageReceivedDto

namespace HubConnection

/-! ## States and steps -/

/-- A connection that was just made. -/
def fresh : HubConnection := ⟨∅, [], []⟩

inductive Label where
  /-- BusHub executes the next invocation. -/
  | execute (ok : Bool)
  /-- The result of the oldest invocation arrives. -/
  | complete
  /-- The next push arrives. -/
  | push

/-- BusHub executes the invocation, or fails to. -/
def execute (c : HubConnection) (ok : Bool) (invocation : Page.Invocation) : HubConnection :=
  { c with
    groups := if ok then invocation.apply c.groups else c.groups
    completions := c.completions ++ [ok] }

/-- `Clients.Group(..).SendAsync`, as far as this connection is concerned. -/
def send (c : HubConnection) (handle : SubscriptionHandle) (message : BusMessage) :
    Option MessageReceivedDto :=
  if handle.value ∈ c.groups then some (.fromDomain handle.value message) else none

/-- What is sent to the connection of these broadcasts. -/
def pushes (c : HubConnection) (broadcasts : List (SubscriptionHandle × BusMessage)) :
    List MessageReceivedDto :=
  broadcasts.filterMap fun (handle, message) ↦ c.send handle message

/-- `SignalRMessageBroadcaster` broadcasts. -/
def broadcast (c : HubConnection) (broadcasts : List (SubscriptionHandle × BusMessage)) :
    HubConnection :=
  { c with wire := c.wire ++ c.pushes broadcasts }

/-- One step of the connection of a page with these pending invocations. -/
def step (c : HubConnection) (invocations : List Page.Invocation) : Label → Option HubConnection
  | .execute ok =>
    -- The oldest invocation that has no result yet.
    match invocations[c.completions.length]? with
    | none => none
    | some invocation => some (c.execute ok invocation)
  | .complete =>
    match c.completions with
    | [] => none
    | _ :: rest => some { c with completions := rest }
  | .push =>
    match c.wire with
    | [] => none
    | _ :: rest => some { c with wire := rest }

/-- What the page is told in the step. -/
def told (c : HubConnection) : Label → Option Page.Label
  | .execute _ => none
  | .complete => c.completions.head?.map .settled
  | .push => c.wire.head?.map .messageReceived

/-- The connection moves, and with it the client side if that is told. -/
def move {σ : Type} (c : HubConnection) (invocations : List Page.Invocation)
    (tell : Page.Label → Option σ) (x : σ) (a : Label) : Option (HubConnection × σ) :=
  match c.step invocations a, c.told a with
  | none, _ => none
  | some d, none => some (d, x)
  | some d, some b => (tell b).map fun y ↦ (d, y)

variable {σ τ : Type} {c d : HubConnection} {invocations : List Page.Invocation} {a : Label}
  {b : Page.Label} {page next : Page.State} {h : Guid} {tell : Page.Label → Option σ} {x y : σ}
  {broadcasts : List (SubscriptionHandle × BusMessage)}

inductive MoveCases (c : HubConnection) (invocations : List Page.Invocation)
    (tell : Page.Label → Option σ) (x : σ) (a : Label) (d : HubConnection) (y : σ) : Prop where
  | executes (ok : Bool) (invocation : Page.Invocation) (ha : a = .execute ok)
    (hnext : invocations[c.completions.length]? = some invocation)
    (hd : d = c.execute ok invocation) (hy : y = x)
  | completes (ok : Bool) (rest : List Bool) (ha : a = .complete)
    (hcompletions : c.completions = ok :: rest) (hd : d = { c with completions := rest })
    (hy : tell (.settled ok) = some y)
  | arrives (message : MessageReceivedDto) (rest : List MessageReceivedDto) (ha : a = .push)
    (hwire : c.wire = message :: rest) (hd : d = { c with wire := rest })
    (hy : tell (.messageReceived message) = some y)

theorem move_cases (hmove : c.move invocations tell x a = some (d, y)) :
    MoveCases c invocations tell x a d y := by
  unfold move at hmove
  cases a with
  | execute ok =>
    cases hnext : invocations[c.completions.length]? with
    | none => simp [step, hnext] at hmove
    | some invocation =>
      simp only [step, told, hnext] at hmove
      cases hmove
      exact .executes ok invocation rfl hnext rfl rfl
  | complete =>
    cases hcompletions : c.completions with
    | nil => simp [step, hcompletions] at hmove
    | cons ok rest =>
      simp only [step, told, hcompletions, List.head?_cons, Option.map_some] at hmove
      obtain ⟨z, hz, heq⟩ := Option.map_eq_some_iff.mp hmove
      cases heq
      exact .completes ok rest rfl hcompletions rfl hz
  | push =>
    cases hwire : c.wire with
    | nil => simp [step, hwire] at hmove
    | cons message rest =>
      simp only [step, told, hwire, List.head?_cons, Option.map_some] at hmove
      obtain ⟨z, hz, heq⟩ := Option.map_eq_some_iff.mp hmove
      cases heq
      exact .arrives message rest rfl hwire rfl hz

theorem told_of_move (hmove : c.move invocations tell x a = some (d, y)) :
    (c.told a = none ∧ y = x) ∨ ∃ b, c.told a = some b ∧ tell b = some y := by
  cases move_cases hmove with
  | executes ok invocation ha hnext hd hy => exact Or.inl ⟨by rw [ha]; rfl, hy⟩
  | completes ok rest ha hcompletions hd hy =>
    exact Or.inr ⟨_, by rw [ha, told, hcompletions]; rfl, hy⟩
  | arrives message rest ha hwire hd hy => exact Or.inr ⟨_, by rw [ha, told, hwire]; rfl, hy⟩

theorem wire_suffix_of_move (hmove : c.move invocations tell x a = some (d, y)) :
    d.wire <:+ c.wire := by
  cases move_cases hmove with
  | executes ok invocation ha hnext hd => exact hd ▸ List.suffix_refl _
  | completes ok rest ha hcompletions hd => exact hd ▸ List.suffix_refl _
  | arrives message rest ha hwire hd =>
    rw [hd, hwire]
    exact List.suffix_cons message rest

theorem MoveCases.part {tell' : Page.Label → Option τ} (f : σ → τ)
    (htell : ∀ b y, tell b = some y → tell' b = some (f y))
    (hmove : MoveCases c invocations tell x a d y) :
    MoveCases c invocations tell' (f x) a d (f y) := by
  cases hmove with
  | executes ok invocation ha hnext hd hy =>
    exact .executes ok invocation ha hnext hd (congrArg f hy)
  | completes ok rest ha hcompletions hd hy =>
    exact .completes ok rest ha hcompletions hd (htell _ _ hy)
  | arrives message rest ha hwire hd hy => exact .arrives message rest ha hwire hd (htell _ _ hy)

/-! ## From the broadcaster to the store -/

theorem mem_groups_of_pushes {m : MessageReceivedDto} (hm : m ∈ c.pushes broadcasts) :
    m.subscriptionId ∈ c.groups := by
  obtain ⟨⟨handle, message⟩, -, hsend⟩ := List.mem_filterMap.mp hm
  obtain ⟨hgroup, hm⟩ := Option.ite_none_right_eq_some.mp hsend
  cases hm
  exact hgroup

/-- What the connection is sent for a subscription is what is broadcast for it, or less. -/
theorem pushes_sublist : ((c.pushes broadcasts).filter fun m ↦ m.subscriptionId = h).Sublist
    (((broadcasts.filter fun broadcast ↦ broadcast.1 = ⟨h⟩).map Prod.snd).map (.fromDomain h)) := by
  induction broadcasts with
  | nil => exact List.nil_sublist _
  | cons broadcast broadcasts ih =>
    obtain ⟨⟨value⟩, message⟩ := broadcast
    by_cases hid : value = h
    · subst hid
      by_cases hgroup : value ∈ c.groups
      · simpa [pushes, send, hgroup, MessageReceivedDto.fromDomain] using ih
      · simpa [pushes, send, hgroup, MessageReceivedDto.fromDomain] using ih.cons _
    · by_cases hgroup : value ∈ c.groups
      · simpa [pushes, send, hgroup, MessageReceivedDto.fromDomain, hid] using ih
      · simpa [pushes, send, hgroup, MessageReceivedDto.fromDomain, hid] using ih

theorem pushes_eq_nil (hnone : ∀ broadcast ∈ broadcasts, broadcast.1 ≠ ⟨h⟩) :
    (c.pushes broadcasts).filter (fun m ↦ m.subscriptionId = h) = [] := by
  have hfilter : broadcasts.filter (fun broadcast ↦ broadcast.1 = ⟨h⟩) = [] :=
    List.filter_eq_nil_iff.mpr fun broadcast hmem ↦ by simpa using hnone broadcast hmem
  have hsub : ((c.pushes broadcasts).filter fun m ↦ m.subscriptionId = h).Sublist _ :=
    pushes_sublist
  rw [hfilter] at hsub
  exact List.sublist_nil.mp hsub

/-- What the page has stored for the subscription, and what is on the wire for it. -/
def arrived (c : HubConnection) (page : Page.State) (h : Guid) : List MessageReceivedDto :=
  page.hub.received h ++ c.wire.filter fun m ↦ m.subscriptionId = h

/-- Only a push adds to the store. -/
theorem received_sublist_of_page (hpage : Page.step page b = some next)
    (hb : ∀ message, b ≠ .messageReceived message) :
    (next.hub.received h).Sublist (page.hub.received h) := by
  have hmessages : next.hub.messages.Sublist page.hub.messages := by
    cases Page.stores_of_step hpage with
    | receives message ha => exact absurd ha (hb message)
    | clears n response flow id ha hrequest hhub =>
      rw [hhub]
      exact List.filter_sublist
    | subscribes n id queueName ha hrequest hhub => rw [hhub]
    | sends n body id correlationId ha hrequest hhub => rw [hhub]
    | rests hsets hevent hsame => rw [hsame]
  exact ((hmessages.filter _).map _).reverse

theorem arrived_of_page (hpage : Page.step page b = some next)
    (hb : ∀ message, b ≠ .messageReceived message) :
    (c.arrived next h).Sublist (c.arrived page h) :=
  (received_sublist_of_page hpage hb).append (List.Sublist.refl _)

theorem arrived_fresh : (fresh.arrived page h).Sublist (c.arrived page h) :=
  (List.Sublist.refl _).append (List.nil_sublist _)

theorem arrived_of_move (hmove : MoveCases c invocations (Page.step page) page a d next) :
    (d.arrived next h).Sublist (c.arrived page h) := by
  cases hmove with
  | executes ok invocation ha hnext hd hy =>
    subst hd hy
    exact List.Sublist.refl _
  | completes ok rest ha hcompletions hd hy =>
    subst hd
    exact arrived_of_page (c := c) hy nofun
  | arrives message rest ha hwire hd hy =>
    subst hd
    cases hy
    rw [arrived, arrived, hwire]
    change (page.hub.onMessageReceived message).received h ++ _ |>.Sublist _
    rw [BusHubService.received_onMessageReceived, List.append_assoc]
    by_cases hid : message.subscriptionId = h <;> simp [hid]

theorem arrived_broadcast : ((c.broadcast broadcasts).arrived page h).Sublist (c.arrived page h ++
    ((broadcasts.filter fun broadcast ↦ broadcast.1 = ⟨h⟩).map Prod.snd).map (.fromDomain h)) := by
  rw [arrived, broadcast, List.filter_append, ← List.append_assoc]
  exact (List.Sublist.refl _).append pushes_sublist

end HubConnection

end BusTester
