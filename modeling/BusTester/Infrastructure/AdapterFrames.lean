import BusTester.Infrastructure.RabbitMqAdapter

/-!
# What a step of the adapter leaves alone

The invariants of the adapter speak of the connection field, of the dictionary of subscription
channels and of the state of the library's objects. Only few segments write the first two, and on
the heap a step can only wear objects out: nothing is reopened, nothing disposed becomes usable
again, and a channel never changes its connection or the call that opened it. This file states that
once (`Wears`, `Frame`) and derives it for the segments of each method, so that the invariants need
to look only at the few steps that do more.
-/

namespace BusTester

namespace RabbitMqAdapter

variable {ι : Type} {s t u : State ι} {i j : ι} {ch : ChannelId} {c : ConnectionId}
  {awaited : Awaited} {newGuid : Guid} {pc : Pc} {caller : Caller}

/-! ## The heap wears out -/

/-- `t` has the objects of `s`, possibly closed since, and possibly more channels. -/
structure Wears (s t : State ι) : Prop where
  nextConnection : t.nextConnection = s.nextConnection
  nextChannel : s.nextChannel ≤ t.nextChannel
  factory : ∀ c, (t.connections c).factory = (s.connections c).factory
  disposed : ∀ c, (t.connections c).disposed = (s.connections c).disposed
  closed : ∀ c, (s.connections c).isOpen = false → (t.connections c).isOpen = false
  owner : ∀ ch < s.nextChannel, (t.channels ch).connection = (s.channels ch).connection ∧
    (t.channels ch).openedBy = (s.channels ch).openedBy
  channelClosed : ∀ ch < s.nextChannel,
    (s.channels ch).isOpen = false → (t.channels ch).isOpen = false

namespace Wears

theorem refl (s : State ι) : Wears s s :=
  ⟨rfl, le_rfl, fun _ ↦ rfl, fun _ ↦ rfl, fun _ h ↦ h, fun _ _ ↦ ⟨rfl, rfl⟩, fun _ _ h ↦ h⟩

theorem trans (hst : Wears s t) (htu : Wears t u) : Wears s u where
  nextConnection := htu.nextConnection.trans hst.nextConnection
  nextChannel := hst.nextChannel.trans htu.nextChannel
  factory c := (htu.factory c).trans (hst.factory c)
  disposed c := (htu.disposed c).trans (hst.disposed c)
  closed c h := htu.closed c (hst.closed c h)
  owner ch hch := by
    have h := htu.owner ch (hch.trans_le hst.nextChannel)
    exact ⟨h.1.trans (hst.owner ch hch).1, h.2.trans (hst.owner ch hch).2⟩
  channelClosed ch hch h :=
    htu.channelClosed ch (hch.trans_le hst.nextChannel) (hst.channelClosed ch hch h)

theorem of_heap_eq (hconnections : t.connections = s.connections)
    (hnextConnection : t.nextConnection = s.nextConnection) (hchannels : t.channels = s.channels)
    (hnextChannel : t.nextChannel = s.nextChannel) : Wears s t := by
  refine ⟨hnextConnection, hnextChannel.ge, ?_, ?_, ?_, ?_, ?_⟩ <;>
    simp [hconnections, hchannels]

theorem update_channel {x : Channel ι} (hconnection : x.connection = (s.channels ch).connection)
    (hopenedBy : x.openedBy = (s.channels ch).openedBy)
    (hclosed : (s.channels ch).isOpen = false → x.isOpen = false) :
    Wears s { s with channels := Function.update s.channels ch x } where
  nextConnection := rfl
  nextChannel := le_rfl
  factory _ := rfl
  disposed _ := rfl
  closed _ h := h
  owner ch' _ := by
    by_cases h : ch' = ch
    · subst h
      simp [hconnection, hopenedBy]
    · simp [h]
  channelClosed ch' _ h := by
    by_cases heq : ch' = ch
    · subst heq
      simpa using hclosed h
    · simpa [heq] using h

theorem closeChannel (s : State ι) (ch : ChannelId) : Wears s (s.closeChannel ch) :=
  update_channel rfl rfl fun _ ↦ rfl

theorem disposeChannel (s : State ι) (ch : ChannelId) : Wears s (s.disposeChannel ch) :=
  update_channel rfl rfl fun _ ↦ rfl

theorem requestConsume (s : State ι) (ch : ChannelId) : Wears s (s.requestConsume ch) :=
  update_channel rfl rfl fun h ↦ h

theorem interrupt (s : State ι) (ch : ChannelId) (failure : Failure) :
    Wears s (s.interrupt ch failure) := by
  unfold State.interrupt
  split
  · exact closeChannel s ch
  · exact refl s

theorem update_connection {x : Connection} (hfactory : x.factory = (s.connections c).factory)
    (hclosed : x.isOpen = false) (hdisposed : x.disposed = (s.connections c).disposed) :
    Wears s { s with
      connections := Function.update s.connections c x
      channels := s.channelsWithout c } where
  nextConnection := rfl
  nextChannel := le_rfl
  factory c' := by
    by_cases heq : c' = c
    · subst heq
      simpa using hfactory
    · simp [heq]
  disposed c' := by
    by_cases heq : c' = c
    · subst heq
      simpa using hdisposed
    · simp [heq]
  closed c' h := by
    by_cases heq : c' = c
    · subst heq
      simpa using hclosed
    · simpa [heq] using h
  owner ch' _ := by
    simp only [State.channelsWithout]
    split <;> exact ⟨rfl, rfl⟩
  channelClosed ch' _ h := by
    simp only [State.channelsWithout]
    split
    · rfl
    · exact h

theorem closeConnection (s : State ι) (c : ConnectionId) : Wears s (s.closeConnection c) :=
  update_connection rfl rfl rfl

theorem openChannel (s : State ι) (i : ι) (c : ConnectionId) : Wears s (s.openChannel i c) where
  nextConnection := rfl
  nextChannel := Nat.le_succ _
  factory _ := rfl
  disposed _ := rfl
  closed _ h := h
  owner ch hch := by simp [Function.update_of_ne hch.ne]
  channelClosed ch hch h := by simpa [Function.update_of_ne hch.ne] using h

theorem goto [DecidableEq ι] (s : State ι) (i : ι) (pc : Pc) : Wears s (s.goto i pc) :=
  of_heap_eq rfl rfl rfl rfl

end Wears

@[simp] theorem subscriptionChannels_interrupt (failure : Failure) :
    (s.interrupt ch failure).subscriptionChannels = s.subscriptionChannels := by
  unfold State.interrupt
  split <;> rfl

@[simp] theorem subscriptionChannels_interruptConnection (failure : Failure) :
    (s.interruptConnection c failure).subscriptionChannels = s.subscriptionChannels := by
  unfold State.interruptConnection
  split <;> rfl

@[simp] theorem lockHolder_interrupt (failure : Failure) :
    (s.interrupt ch failure).lockHolder = s.lockHolder := by
  unfold State.interrupt
  split <;> rfl

@[simp] theorem lockHolder_interruptConnection (failure : Failure) :
    (s.interruptConnection c failure).lockHolder = s.lockHolder := by
  unfold State.interruptConnection
  split <;> rfl

/-- A change that only wears the heap: no call moves, the connection field stays, no channel is
opened, no handle issued and nothing published. The dictionary and the semaphore are left open. -/
structure Quiet (s t : State ι) : Prop where
  wears : Wears s t
  connection : t.connection = s.connection
  calls : t.calls = s.calls
  nextChannel : t.nextChannel = s.nextChannel
  issued : t.issued = s.issued
  published : t.published = s.published

namespace Quiet

theorem refl (s : State ι) : Quiet s s := ⟨Wears.refl s, rfl, rfl, rfl, rfl, rfl⟩

theorem trans (hst : Quiet s t) (htu : Quiet t u) : Quiet s u where
  wears := hst.wears.trans htu.wears
  connection := htu.connection.trans hst.connection
  calls := htu.calls.trans hst.calls
  nextChannel := htu.nextChannel.trans hst.nextChannel
  issued := htu.issued.trans hst.issued
  published := htu.published.trans hst.published

theorem closeChannel (s : State ι) (ch : ChannelId) : Quiet s (s.closeChannel ch) :=
  ⟨Wears.closeChannel s ch, rfl, rfl, rfl, rfl, rfl⟩

theorem disposeChannel (s : State ι) (ch : ChannelId) : Quiet s (s.disposeChannel ch) :=
  ⟨Wears.disposeChannel s ch, rfl, rfl, rfl, rfl, rfl⟩

theorem requestConsume (s : State ι) (ch : ChannelId) : Quiet s (s.requestConsume ch) :=
  ⟨Wears.requestConsume s ch, rfl, rfl, rfl, rfl, rfl⟩

theorem closeConnection (s : State ι) (c : ConnectionId) : Quiet s (s.closeConnection c) :=
  ⟨Wears.closeConnection s c, rfl, rfl, rfl, rfl, rfl⟩

theorem interrupt (s : State ι) (ch : ChannelId) (failure : Failure) :
    Quiet s (s.interrupt ch failure) := by
  unfold State.interrupt
  split
  · exact closeChannel s ch
  · exact refl s

theorem interruptConnection (s : State ι) (c : ConnectionId) (failure : Failure) :
    Quiet s (s.interruptConnection c failure) := by
  unfold State.interruptConnection
  split
  · exact closeConnection s c
  · exact refl s

theorem of_registry (s : State ι) (entries : List (SubscriptionHandle × ChannelId))
    (holder : Option ι) :
    Quiet s { s with subscriptionChannels := entries, lockHolder := holder } :=
  ⟨.of_heap_eq rfl rfl rfl rfl, rfl, rfl, rfl, rfl, rfl⟩

end Quiet

/-! ## Where a call goes next -/

/-- The suspensions of `TeardownAsync` and `ConnectAsync`. -/
def Pc.inTeardown : Pc → Bool
  | .waitingToTearDown _ | .closingChannel _ _ _ | .disposingChannel _ _ _
  | .closingConnection _ _ | .disposingConnection _ _ | .creatingConnection _ => true
  | _ => false

/-- The suspensions after which a call that succeeds writes the connection field or adds to the
dictionary. -/
def Pc.writes : Pc → Bool
  | .disposingConnection _ _ | .creatingConnection _ | .waitingToRegister _ _ _ _ => true
  | _ => false

/-- The suspension after which a call that succeeds has published. -/
def Pc.publishes : Pc → Bool
  | .publishing _ _ => true
  | _ => false

/-- The channel that a suspended call has opened. -/
def Pc.channel : Pc → Option ChannelId
  | .declaringExchange _ ch | .publishing _ ch | .disposingAfterSend _ ch _
  | .declaringQueue ch | .consuming _ _ ch | .waitingToRegister _ _ ch _ => some ch
  | _ => none

/-- The handle that a call is about to register, or has returned. -/
def Pc.handle : Pc → Option SubscriptionHandle
  | .waitingToRegister _ _ _ handle => some handle
  | .ended result => returnedHandle result
  | _ => none

/-- The suspensions that are entered only for a certain content of the connection field. -/
def Pc.Fits (connection : Option ConnectionId) : Pc → Prop
  | .closingConnection _ c | .disposingConnection _ c => connection = some c
  | .creatingConnection _ => connection = none
  | _ => True

/-- A call goes from `pc` to `pc'`: it ends, or keeps the channel it has, or has just opened one. -/
inductive Follows (s : State ι) (i : ι) (pc : Pc) (t : State ι) (pc' : Pc) : Prop where
  | ended (result : Except BusException Result) (hpc : pc' = .ended result)
    (hnext : t.nextChannel = s.nextChannel)
  | kept (hpc : pc'.channel = pc.channel) (hnext : t.nextChannel = s.nextChannel)
  | opened (hpc : pc.channel = none) (hpc' : pc'.channel = some s.nextChannel)
    (hnext : t.nextChannel = s.nextChannel + 1) (howner : (t.channels s.nextChannel).openedBy = i)

/-- The handle that a call holds at `pc'` is the one it held at `pc`, or has just been issued. -/
structure Hands (s : State ι) (pc : Pc) (t : State ι) (pc' : Pc) : Prop where
  issued : s.issued ⊆ t.issued
  handle : ∀ h, pc'.handle = some h → pc.handle = some h ∨ (h ∉ s.issued ∧ h ∈ t.issued)

theorem Hands.of_none {pc' : Pc} (hissued : t.issued = s.issued) (hnone : pc'.handle = none) :
    Hands s pc t pc' := by
  refine ⟨fun _ h ↦ hissued ▸ h, fun h hh ↦ ?_⟩
  rw [hnone] at hh
  cases hh

variable [DecidableEq ι]

/-- The call `i`, suspended at `pc`, took a step that keeps the connection field and only wears the
heap. It publishes nothing, unless this is its place to do so. -/
structure Frame (s : State ι) (i : ι) (pc : Pc) (t : State ι) : Prop where
  connection : t.connection = s.connection
  wears : Wears s t
  published : pc.publishes = false → t.published = s.published
  calls : ∃ pc' : Pc, t.calls = Function.update s.calls i pc' ∧
    (pc'.inTeardown = true → pc.inTeardown = true) ∧ pc'.Fits s.connection ∧
    Follows s i pc t pc' ∧ Hands s pc t pc'

namespace Frame

variable {pc' : Pc} {result : Except BusException Result}

theorem goto (hwears : Wears s t) (hconnection : t.connection = s.connection)
    (hcalls : t.calls = s.calls) (hpublished : pc.publishes = false → t.published = s.published)
    (hteardown : pc'.inTeardown = false)
    (hfollows : Follows s i pc (t.goto i pc') pc') (hhands : Hands s pc (t.goto i pc') pc') :
    Frame s i pc (t.goto i pc') := by
  refine ⟨hconnection, hwears.trans (Wears.goto t i pc'), hpublished, pc', ?_, ?_, ?_, hfollows,
    hhands⟩
  · rw [State.goto_calls, hcalls]
  · simp [hteardown]
  · cases pc' <;> trivial

theorem ended (h : Quiet s t) (hnone : returnedHandle result = none) :
    Frame s i pc (t.goto i (.ended result)) :=
  goto h.wears h.connection h.calls (fun _ ↦ h.published) rfl (.ended result rfl h.nextChannel)
    (.of_none h.issued hnone)

theorem suspended (h : Quiet s t) (hteardown : pc'.inTeardown = false)
    (hchannel : pc'.channel = pc.channel) (hnone : pc'.handle = none) :
    Frame s i pc (t.goto i pc') :=
  goto h.wears h.connection h.calls (fun _ ↦ h.published) hteardown (.kept hchannel h.nextChannel)
    (.of_none h.issued hnone)

end Frame

/-! ## The segments of each method -/

theorem exists_goto_endSend (s : State ι) (i : ι) (message : BusMessage)
    (failure : Option Failure) :
    ∃ result, returnedHandle result = none ∧
      endSend s i message failure = s.goto i (.ended result) := by
  unfold endSend
  split <;> exact ⟨_, rfl, rfl⟩

theorem exists_goto_consumeThrow (s : State ι) (i : ι) (method : Consumption) (failure : Failure) :
    ∃ ex, consumeThrow s i method failure = s.goto i (.ended (.error ex)) := by
  unfold consumeThrow
  split <;> exact ⟨_, rfl⟩

/-- **The segments of `SendAsync`** keep the dictionary too. -/
theorem frame_resumeSend (h : resumeSend s i awaited pc = some t) :
    Frame s i pc t ∧ t.subscriptionChannels = s.subscriptionChannels := by
  unfold resumeSend at h
  split at h
  · split at h
    · cases h
      refine ⟨.goto (Wears.openChannel s i _) rfl rfl (fun _ ↦ rfl) (by split <;> rfl)
        (.opened rfl (by split <;> rfl) rfl (by simp)) (.of_none rfl (by split <;> rfl)), rfl⟩
    · cases h
    · rename_i failure
      cases h
      obtain ⟨result, hnone, hend⟩ := exists_goto_endSend s i _ (some failure)
      rw [hend]
      exact ⟨.ended (Quiet.refl s) hnone, rfl⟩
  · split at h
    · cases h
      exact ⟨.suspended (Quiet.refl s) rfl rfl rfl, rfl⟩
    · cases h
    · cases h
      exact ⟨.suspended (Quiet.interrupt s _ _) rfl rfl rfl, by simp⟩
  · split at h
    · cases h
      -- the only step that publishes
      exact ⟨.goto (.of_heap_eq rfl rfl rfl rfl) rfl rfl nofun rfl (.kept rfl rfl)
        (.of_none rfl rfl), rfl⟩
    · cases h
    · cases h
      exact ⟨.suspended (Quiet.interrupt s _ _) rfl rfl rfl, by simp⟩
  · rename_i message ch failure
    split at h
    · cases h
      obtain ⟨result, hnone, hend⟩ := exists_goto_endSend (s.disposeChannel ch) i message failure
      rw [hend]
      exact ⟨.ended (Quiet.disposeChannel s ch) hnone, rfl⟩
    · cases h
    · rename_i failure'
      cases h
      obtain ⟨result, hnone, hend⟩ :=
        exists_goto_endSend (s.interrupt ch failure') i message (some failure')
      rw [hend]
      exact ⟨.ended (Quiet.interrupt s ch failure') hnone, by simp⟩
  · cases h

/-- The step that puts a channel into the dictionary. -/
def Registers (s : State ι) (i : ι) (awaited : Awaited) (pc : Pc) (t : State ι) : Prop :=
  ∃ method queueName ch handle, pc = .waitingToRegister method queueName ch handle ∧
    awaited = .completed ∧
    t = State.return' { s with
      subscriptionChannels := s.subscriptionChannels ++ [(handle, ch)] } i
      (consumeResult handle queueName method)

/-- **The segments of the consuming methods** keep the dictionary, except for the one that
registers the channel. -/
theorem frame_resumeConsume (h : resumeConsume s i awaited newGuid pc = some t) :
    Frame s i pc t ∧
      ((t.subscriptionChannels = s.subscriptionChannels ∧
          (pc.writes = true → ∃ failure, awaited = .failed failure)) ∨
        Registers s i awaited pc t) := by
  unfold resumeConsume at h
  split at h
  · split at h
    · split at h
      · cases h
        refine ⟨.goto ((Wears.openChannel s i _).trans (Wears.requestConsume _ _)) rfl rfl
          (fun _ ↦ rfl) rfl (.opened rfl rfl rfl (by simp)) (.of_none rfl rfl), .inl ⟨rfl, nofun⟩⟩
      · cases h
        exact ⟨.goto (Wears.openChannel s i _) rfl rfl (fun _ ↦ rfl) rfl
          (.opened rfl rfl rfl (by simp)) (.of_none rfl rfl), .inl ⟨rfl, nofun⟩⟩
    · cases h
    · rename_i failure
      cases h
      obtain ⟨ex, hend⟩ := exists_goto_consumeThrow s i _ failure
      rw [hend]
      exact ⟨.ended (Quiet.refl s) rfl, .inl ⟨rfl, nofun⟩⟩
  · rename_i ch
    split at h
    · cases h
      exact ⟨.suspended (Quiet.requestConsume s ch) rfl rfl rfl, .inl ⟨rfl, nofun⟩⟩
    · cases h
    · rename_i failure
      cases h
      obtain ⟨ex, hend⟩ :=
        exists_goto_consumeThrow (s.interrupt ch failure) i .declareTemporary failure
      rw [hend]
      exact ⟨.ended (Quiet.interrupt s ch failure) rfl, .inl ⟨by simp, nofun⟩⟩
  · rename_i method queueName ch
    split at h
    · split at h
      · rename_i hactive
        cases h
        -- the only step that issues a handle
        refine ⟨.goto (.of_heap_eq rfl rfl rfl rfl) rfl rfl (fun _ ↦ rfl) rfl (.kept rfl rfl)
          ⟨?_, ?_⟩, .inl ⟨rfl, nofun⟩⟩
        · exact List.subset_cons_self _ _
        · rintro handle hhandle
          obtain rfl := Option.some.inj hhandle
          exact Or.inr ⟨hactive.2, List.mem_cons_self⟩
      · cases h
    · cases h
    · rename_i failure
      cases h
      obtain ⟨ex, hend⟩ := exists_goto_consumeThrow (s.interrupt ch failure) i method failure
      rw [hend]
      exact ⟨.ended (Quiet.interrupt s ch failure) rfl, .inl ⟨by simp, nofun⟩⟩
  · rename_i method queueName ch handle
    split at h
    · split at h
      · cases h
        refine ⟨.goto (.of_heap_eq rfl rfl rfl rfl) rfl rfl (fun _ ↦ rfl) rfl (.ended _ rfl rfl)
          ⟨List.Subset.refl _, ?_⟩, .inr ⟨_, _, _, _, rfl, rfl, rfl⟩⟩
        intro handle' hhandle'
        cases method <;> exact Or.inl hhandle'
      · cases h
    · cases h
    · cases h
      exact ⟨.ended (Quiet.refl s) rfl, .inl ⟨rfl, fun _ ↦ ⟨_, rfl⟩⟩⟩
  · cases h

/-- **The segments of `UnsubscribeAsync`** only take entries out of the dictionary. -/
theorem frame_resumeUnsubscribe (h : resumeUnsubscribe s i awaited pc = some t) :
    Frame s i pc t ∧ t.subscriptionChannels ⊆ s.subscriptionChannels := by
  unfold resumeUnsubscribe at h
  split at h
  · split at h
    · split at h
      · dsimp only at h
        have hremoved : ∀ f : SubscriptionHandle × ChannelId → Bool,
            s.subscriptionChannels.filter f ⊆ s.subscriptionChannels :=
          fun f _ ↦ List.mem_of_mem_filter
        split at h
        · cases h
          exact ⟨.ended (Quiet.of_registry s _ _) rfl, hremoved _⟩
        · cases h
          exact ⟨.suspended (Quiet.of_registry s _ _) rfl rfl rfl, hremoved _⟩
      · cases h
    · cases h
    · cases h
      exact ⟨.ended (Quiet.refl s) rfl, List.Subset.refl _⟩
  · split at h
    · cases h
      exact ⟨.suspended (Quiet.closeChannel s _) rfl rfl rfl, List.Subset.refl _⟩
    · cases h
    · cases h
      exact ⟨.ended (Quiet.interrupt s _ _) rfl, by simp [State.throw]⟩
  · split at h
    · cases h
      exact ⟨.ended (Quiet.disposeChannel s _) rfl, List.Subset.refl _⟩
    · cases h
    · cases h
      exact ⟨.ended (Quiet.interrupt s _ _) rfl, by simp [State.throw]⟩
  · cases h

/-! ## The teardown -/

theorem exists_goto_teardownThrow (s : State ι) (i : ι) (caller : Caller) (ex : BusException) :
    ∃ result, returnedHandle result = none ∧
      teardownThrow s i caller ex = s.goto i (.ended result) := by
  unfold teardownThrow
  split <;> exact ⟨_, rfl, rfl⟩

/-- What a call in the teardown goes to: it has no channel and no handle, and agrees with the
connection field. -/
structure Pc.Bare (connection : Option ConnectionId) (pc : Pc) : Prop where
  channel : pc.channel = none
  handle : pc.handle = none
  fits : pc.Fits connection

theorem exists_goto_teardownReturn (i : ι) (caller : Caller) (hconnection : s.connection = none) :
    ∃ pc' : Pc, teardownReturn s i caller = s.goto i pc' ∧ pc'.Bare s.connection := by
  unfold teardownReturn
  split
  · exact ⟨_, rfl, rfl, rfl, hconnection⟩
  · exact ⟨_, rfl, rfl, rfl, trivial⟩
  · exact ⟨_, rfl, rfl, rfl, trivial⟩

theorem exists_goto_teardownConnection (s : State ι) (i : ι) (caller : Caller) :
    ∃ pc' : Pc, teardownConnection s i caller = s.goto i pc' ∧ pc'.Bare s.connection := by
  unfold teardownConnection
  split
  · rename_i hnone
    exact exists_goto_teardownReturn i caller hnone
  · rename_i c hsome
    split <;> exact ⟨_, rfl, rfl, rfl, hsome⟩

theorem exists_goto_teardownDispose (s : State ι) (i : ι) (caller : Caller) :
    ∃ pc' : Pc, teardownDispose s i caller = s.goto i pc' ∧ pc'.Bare s.connection := by
  unfold teardownDispose
  split
  · obtain ⟨result, hnone, hend⟩ := exists_goto_teardownThrow s i caller .nullReference
    exact ⟨_, hend, rfl, hnone, trivial⟩
  · rename_i c hsome
    exact ⟨_, rfl, rfl, rfl, hsome⟩

namespace Frame

theorem teardown {pc' : Pc} (h : Quiet s t) (hteardown : pc.inTeardown = true)
    (hbare : pc'.Bare t.connection) : Frame s i pc (t.goto i pc') := by
  have hchannel : pc.channel = none := by cases pc <;> first | rfl | cases hteardown
  refine ⟨h.connection, h.wears.trans (Wears.goto t i pc'), fun _ ↦ h.published, pc', ?_,
    fun _ ↦ hteardown, ?_, .kept (hbare.channel.trans hchannel.symm) h.nextChannel,
    .of_none h.issued hbare.handle⟩
  · rw [State.goto_calls, h.calls]
  · exact h.connection ▸ hbare.fits

end Frame

theorem frame_teardownLoop (caller : Caller) (rest : List ChannelId) (h : Quiet s t)
    (hteardown : pc.inTeardown = true) :
    Frame s i pc (teardownLoop t i caller rest) ∧
      (teardownLoop t i caller rest).subscriptionChannels ⊆ t.subscriptionChannels := by
  unfold teardownLoop
  split
  · split
    · exact ⟨.teardown h hteardown ⟨rfl, rfl, trivial⟩, List.Subset.refl _⟩
    · exact ⟨.teardown h hteardown ⟨rfl, rfl, trivial⟩, List.Subset.refl _⟩
  · obtain ⟨pc', hgoto, hbare⟩ := exists_goto_teardownConnection
      { t with subscriptionChannels := [], lockHolder := none } i caller
    rw [hgoto]
    exact ⟨.teardown (h.trans (Quiet.of_registry t _ _)) hteardown hbare, List.nil_subset _⟩

/-- The step that lets go of the connection. -/
def Disposes (s : State ι) (i : ι) (awaited : Awaited) (pc : Pc) (t : State ι) : Prop :=
  ∃ caller c, pc = .disposingConnection caller c ∧ awaited = .completed ∧
    t = teardownReturn { s.disposeConnection c with connection := none } i caller

/-- The step that obtains a connection. -/
def Connects (s : State ι) (i : ι) (awaited : Awaited) (pc : Pc) (t : State ι) : Prop :=
  ∃ config, pc = .creatingConnection config ∧ awaited = .completed ∧
    t = (s.connected (factoryOf config)).return' i .done

private theorem frame_teardownThrow (caller : Caller) (ex : BusException) (h : Quiet s t)
    (hentries : t.subscriptionChannels = s.subscriptionChannels) :
    Frame s i pc (teardownThrow t i caller ex) ∧
      (teardownThrow t i caller ex).subscriptionChannels ⊆ s.subscriptionChannels := by
  obtain ⟨result, hnone, hend⟩ := exists_goto_teardownThrow t i caller ex
  rw [hend]
  exact ⟨.ended h hnone, fun _ h ↦ hentries ▸ h⟩

/-- **The segments of `TeardownAsync` and `ConnectAsync`**: two of them write the connection field,
the others do not, and none adds to the dictionary. -/
theorem frame_resumeTeardown (h : resumeTeardown s i awaited pc = some t) :
    (Frame s i pc t ∧ t.subscriptionChannels ⊆ s.subscriptionChannels ∧
        (pc.writes = true → ∃ failure, awaited = .failed failure)) ∨
      Disposes s i awaited pc t ∨ Connects s i awaited pc t := by
  have hreleased : ∀ ch failure, Quiet s { s.interrupt ch failure with lockHolder := none } :=
    fun ch failure ↦
      (Quiet.interrupt s ch failure).trans (Quiet.of_registry (s.interrupt ch failure) _ _)
  unfold resumeTeardown at h
  split at h
  -- `_subscriptionsLock.WaitAsync`
  · rename_i caller
    split at h
    · split at h
      · cases h
        have hlock : Quiet s { s with lockHolder := some i } := Quiet.of_registry s _ _
        have hteardown : (Pc.waitingToTearDown caller).inTeardown = true := rfl
        obtain ⟨hframe, hentries⟩ := frame_teardownLoop (i := i) caller
          (s.subscriptionChannels.map Prod.snd) hlock hteardown
        exact .inl ⟨hframe, hentries, nofun⟩
      · cases h
    · cases h
    · cases h
      obtain ⟨hframe, hentries⟩ := frame_teardownThrow caller _ (Quiet.refl s) rfl
      exact .inl ⟨hframe, hentries, nofun⟩
  -- `channel.CloseAsync`
  · rename_i caller ch rest
    split at h
    · cases h
      exact .inl ⟨.teardown (Quiet.closeChannel s ch) rfl ⟨rfl, rfl, trivial⟩,
        List.Subset.refl _, nofun⟩
    · cases h
    · rename_i failure
      cases h
      obtain ⟨hframe, hentries⟩ := frame_teardownThrow caller _ (hreleased ch failure) (by simp)
      exact .inl ⟨hframe, hentries, nofun⟩
  -- `channel.DisposeAsync`
  · rename_i caller ch rest
    split at h
    · cases h
      have hteardown : (Pc.disposingChannel caller ch rest).inTeardown = true := rfl
      obtain ⟨hframe, hentries⟩ :=
        frame_teardownLoop (i := i) caller rest (Quiet.disposeChannel s ch) hteardown
      exact .inl ⟨hframe, hentries, nofun⟩
    · cases h
    · rename_i failure
      cases h
      obtain ⟨hframe, hentries⟩ := frame_teardownThrow caller _ (hreleased ch failure) (by simp)
      exact .inl ⟨hframe, hentries, nofun⟩
  -- `_connection.CloseAsync`
  · rename_i caller c
    split at h
    · cases h
      obtain ⟨pc', hgoto, hbare⟩ := exists_goto_teardownDispose (s.closeConnection c) i caller
      rw [hgoto]
      exact .inl ⟨.teardown (Quiet.closeConnection s c) rfl hbare, List.Subset.refl _, nofun⟩
    · cases h
    · rename_i failure
      cases h
      obtain ⟨hframe, hentries⟩ :=
        frame_teardownThrow caller _ (Quiet.interruptConnection s c failure) (by simp)
      exact .inl ⟨hframe, hentries, nofun⟩
  -- `_connection.DisposeAsync`
  · rename_i caller c
    split at h
    · cases h
      exact .inr (.inl ⟨_, _, rfl, rfl, rfl⟩)
    · cases h
    · rename_i failure
      cases h
      obtain ⟨hframe, hentries⟩ :=
        frame_teardownThrow caller _ (Quiet.interruptConnection s c failure) (by simp)
      exact .inl ⟨hframe, hentries, fun _ ↦ ⟨_, rfl⟩⟩
  -- `CreateConnectionAsync`
  · split at h
    · cases h
      exact .inr (.inr ⟨_, rfl, rfl, rfl⟩)
    · cases h
    · cases h
      exact .inl ⟨.ended (Quiet.refl s) rfl, List.Subset.refl _, fun _ ↦ ⟨_, rfl⟩⟩
    · cases h
      exact .inl ⟨.ended (Quiet.refl s) rfl, List.Subset.refl _, fun _ ↦ ⟨_, rfl⟩⟩
  · cases h

/-! ## The whole step -/

theorem exists_goto_start (s : State ι) (i : ι) (call : Call) :
    ∃ pc' : Pc, start s i call = s.goto i pc' ∧ pc'.Bare s.connection ∧
      (pc'.inTeardown = true → ∃ caller, call = .teardown caller) := by
  have hended : ∀ ex, ∃ pc' : Pc, s.throw i ex = s.goto i pc' ∧ pc'.Bare s.connection ∧
      (pc'.inTeardown = true → ∃ caller, call = .teardown caller) :=
    fun ex ↦ ⟨.ended (.error ex), rfl, ⟨rfl, rfl, trivial⟩, nofun⟩
  cases call with
  | teardown caller =>
    exact ⟨.waitingToTearDown caller, rfl, ⟨rfl, rfl, trivial⟩, fun _ ↦ ⟨caller, rfl⟩⟩
  | send message =>
    simp only [start]
    split
    · exact hended _
    · split
      · exact hended _
      · exact ⟨.openingToSend message _, rfl, ⟨rfl, rfl, trivial⟩, nofun⟩
  | consume method =>
    simp only [start]
    split
    · exact hended _
    · exact ⟨.openingToConsume method _, rfl, ⟨rfl, rfl, trivial⟩, nofun⟩
  | unsubscribe handle => exact ⟨.waitingToUnsubscribe handle, rfl, ⟨rfl, rfl, trivial⟩, nofun⟩

/-- What a step can do to the connection field, the dictionary and the calls. -/
inductive StepCases (s : State ι) (a : Label ι) (t : State ι) : Prop where
  | starts (i : ι) (call : Call) (pc' : Pc) (ha : a = .start i call) (hidle : s.calls i = .idle)
    (ht : t = s.goto i pc') (hbare : pc'.Bare s.connection)
    (hteardown : pc'.inTeardown = true → ∃ caller, call = .teardown caller)
  | moves (i : ι) (awaited : Awaited) (newGuid : Guid) (ha : a = .resume i awaited newGuid)
    (hframe : Frame s i (s.calls i) t) (hentries : t.subscriptionChannels ⊆ s.subscriptionChannels)
    (hflight : (s.calls i).atRest = false)
    (hfailed : (s.calls i).writes = true → ∃ failure, awaited = .failed failure)
  | registers (i : ι) (awaited : Awaited) (newGuid : Guid) (ha : a = .resume i awaited newGuid)
    (hframe : Frame s i (s.calls i) t) (hregisters : Registers s i awaited (s.calls i) t)
  | disposes (i : ι) (awaited : Awaited) (newGuid : Guid) (ha : a = .resume i awaited newGuid)
    (hdisposes : Disposes s i awaited (s.calls i) t)
  | connects (i : ι) (awaited : Awaited) (newGuid : Guid) (ha : a = .resume i awaited newGuid)
    (hconnects : Connects s i awaited (s.calls i) t)
  | environment (ha : ∀ i awaited newGuid, a ≠ .resume i awaited newGuid) (hquiet : Quiet s t)
    (hentries : t.subscriptionChannels = s.subscriptionChannels)

private theorem resume_cases (h : resume s i awaited newGuid = some t) :
    StepCases s (.resume i awaited newGuid) t := by
  have hteardown : ∀ pc : Pc, s.calls i = pc → pc.atRest = false →
      resumeTeardown s i awaited pc = some t → StepCases s (.resume i awaited newGuid) t := by
    rintro pc rfl hflight hresume
    rcases frame_resumeTeardown hresume with ⟨hframe, hentries, hfailed⟩ | hdisposes | hconnects
    · exact .moves i awaited newGuid rfl hframe hentries hflight hfailed
    · exact .disposes i awaited newGuid rfl hdisposes
    · exact .connects i awaited newGuid rfl hconnects
  have hsend : ∀ pc : Pc, s.calls i = pc → pc.atRest = false → pc.writes = false →
      resumeSend s i awaited pc = some t → StepCases s (.resume i awaited newGuid) t := by
    rintro pc rfl hflight hwrites hresume
    obtain ⟨hframe, hentries⟩ := frame_resumeSend hresume
    exact .moves i awaited newGuid rfl hframe (fun _ h ↦ hentries ▸ h) hflight (by simp [hwrites])
  have hconsume : ∀ pc : Pc, s.calls i = pc → pc.atRest = false →
      resumeConsume s i awaited newGuid pc = some t →
      StepCases s (.resume i awaited newGuid) t := by
    rintro pc rfl hflight hresume
    obtain ⟨hframe, ⟨hentries, hfailed⟩ | hregisters⟩ := frame_resumeConsume hresume
    · exact .moves i awaited newGuid rfl hframe (fun _ h ↦ hentries ▸ h) hflight hfailed
    · exact .registers i awaited newGuid rfl hframe hregisters
  have hunsubscribe : ∀ pc : Pc, s.calls i = pc → pc.atRest = false → pc.writes = false →
      resumeUnsubscribe s i awaited pc = some t → StepCases s (.resume i awaited newGuid) t := by
    rintro pc rfl hflight hwrites hresume
    obtain ⟨hframe, hentries⟩ := frame_resumeUnsubscribe hresume
    exact .moves i awaited newGuid rfl hframe hentries hflight (by simp [hwrites])
  cases hcall : s.calls i <;> simp only [resume, hcall] at h
  case idle => cases h
  case ended => cases h
  case waitingToTearDown => exact hteardown _ hcall rfl h
  case closingChannel => exact hteardown _ hcall rfl h
  case disposingChannel => exact hteardown _ hcall rfl h
  case closingConnection => exact hteardown _ hcall rfl h
  case disposingConnection => exact hteardown _ hcall rfl h
  case creatingConnection => exact hteardown _ hcall rfl h
  case openingToSend => exact hsend _ hcall rfl rfl h
  case declaringExchange => exact hsend _ hcall rfl rfl h
  case publishing => exact hsend _ hcall rfl rfl h
  case disposingAfterSend => exact hsend _ hcall rfl rfl h
  case openingToConsume => exact hconsume _ hcall rfl h
  case declaringQueue => exact hconsume _ hcall rfl h
  case consuming => exact hconsume _ hcall rfl h
  case waitingToRegister => exact hconsume _ hcall rfl h
  case waitingToUnsubscribe => exact hunsubscribe _ hcall rfl rfl h
  case closingUnsubscribed => exact hunsubscribe _ hcall rfl rfl h
  case disposingUnsubscribed => exact hunsubscribe _ hcall rfl rfl h

/-- **What a step can do.** -/
theorem step_cases {a : Label ι} (h : step s a = some t) : StepCases s a t := by
  cases a with
  | start i call =>
    simp only [step, Option.ite_none_right_eq_some, Option.some.injEq] at h
    obtain ⟨hidle, hstart⟩ := h
    obtain ⟨pc', hgoto, hbare, hteardown⟩ := exists_goto_start s i call
    exact .starts i call pc' rfl hidle (hstart.symm.trans hgoto) hbare hteardown
  | resume i awaited newGuid => exact resume_cases h
  | brokerConsumes ch =>
    simp only [step, Option.ite_none_right_eq_some, Option.some.injEq] at h
    obtain ⟨-, rfl⟩ := h
    exact .environment nofun ⟨Wears.update_channel rfl rfl fun h ↦ h, rfl, rfl, rfl, rfl, rfl⟩ rfl
  | connectionLost c =>
    cases h
    exact .environment nofun (Quiet.closeConnection s c) rfl
  | channelLost ch =>
    cases h
    exact .environment nofun (Quiet.closeChannel s ch) rfl

end RabbitMqAdapter

end BusTester
