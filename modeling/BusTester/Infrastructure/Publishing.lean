import BusTester.Infrastructure.Methods

/-!
# What `SendAsync` has published

A call of `SendAsync` publishes between two suspensions, and may still fail while its channel is
disposed of. So a call that has thrown may have published or not, but none publishes twice, and one
that has returned has published. `publishesOnce_of_run` says so for any number of calls side by
side: what has reached the broker is accounted for call by call.
-/

namespace BusTester

namespace RabbitMqAdapter

open Transition

variable {ι : Type} [DecidableEq ι] {s t : State ι} {i j : ι} {a : Label ι} {as : List (Label ι)}
  {awaited : Awaited} {newGuid : Guid} {message : BusMessage} {pc : Pc}

/-! ## The account -/

/-- What the step publishes, and the call that does. -/
def publishedBy (s : State ι) : Label ι → Option (ι × Publication)
  | .resume i .completed _ =>
    match s.calls i with
    | .publishing message _ => some (i, publicationOf message)
    | _ => none
  | _ => none

omit [DecidableEq ι] in
theorem publishedBy_eq_none (hne : ∀ message ch, s.calls i ≠ .publishing message ch) :
    publishedBy s (.resume i awaited newGuid) = none := by
  cases awaited <;> simp only [publishedBy]

/-- What has been published in the run, each with its call. -/
def publications [Inhabited ι] (as : List (Label ι)) : List (ι × Publication) :=
  observed step publishedBy State.initial as

/-- The publications of a run are those of its calls: each of one call of `SendAsync`, with the
message it was given. -/
structure PublishesOnce [Inhabited ι] (as : List (Label ι)) (t : State ι) : Prop where
  published : t.published = (publications as).map Prod.snd
  once : ((publications as).map Prod.fst).Nodup
  sent : ∀ {i p}, (i, p) ∈ publications as →
    ∃ message, .start i (.send message) ∈ as ∧ p = publicationOf message
  /-- A call that has returned has published. -/
  returned : ∀ {i message result}, .start i (.send message) ∈ as →
    t.calls i = .ended (.ok result) → (i, publicationOf message) ∈ publications as
  /-- A message that was refused was not published. -/
  refused : ∀ {i ex}, t.calls i = .ended (.error ex) →
    ex = requiresRoutingKey ∨ ex = noActiveConnection → ∀ p, (i, p) ∉ publications as

/-! ## A call of `SendAsync` -/

/-- The exception that leaves `SendAsync` after a failure of the library. -/
def sendFailure (message : BusMessage) : Failure → BusException
  | .operationInterrupted => couldNotPublish message
  | failure => failure.raw

theorem sendFailure_ne (message : BusMessage) (failure : Failure) :
    sendFailure message failure ≠ requiresRoutingKey ∧
      sendFailure message failure ≠ noActiveConnection := by
  cases failure <;> exact ⟨nofun, nofun⟩

/-- The places of a call of `SendAsync`, each with whether the call has published by then. -/
inductive Sent (message : BusMessage) : Pc → Bool → Prop where
  | opening (c : ConnectionId) : Sent message (.openingToSend message c) false
  | declaring (ch : ChannelId) : Sent message (.declaringExchange message ch) false
  | publishing (ch : ChannelId) : Sent message (.publishing message ch) false
  | disposing (ch : ChannelId) : Sent message (.disposingAfterSend message ch none) true
  | failing (ch : ChannelId) (failure : Failure) :
    Sent message (.disposingAfterSend message ch (some failure)) false
  | returned (result : Result) : Sent message (.ended (.ok result)) true
  | refused (ex : BusException) : Sent message (.ended (.error ex)) false
  | threw (failure : Failure) (published : Bool) :
    Sent message (.ended (.error (sendFailure message failure))) published

theorem endSend_some (failure : Failure) :
    endSend s i message (some failure) = s.throw i (sendFailure message failure) := by
  cases failure <;> rfl

theorem sent_throw (failure : Failure) (published : Bool) :
    Sent message ((s.throw i (sendFailure message failure)).calls i) published := by
  rw [State.throw, calls_goto]
  exact .threw failure published

theorem sent_start : Sent message ((start s i (.send message)).calls i) false := by
  have hrefused : ∀ ex, Sent message ((s.throw i ex).calls i) false := by
    intro ex
    rw [State.throw, calls_goto]
    exact .refused ex
  simp only [start]
  split
  · exact hrefused _
  · split
    · exact hrefused _
    · rw [calls_goto]
      exact .opening _

theorem sent_resume {published : Bool} (hsent : Sent message (s.calls i) published)
    (h : resume s i awaited newGuid = some t) :
    (publishedBy s (.resume i awaited newGuid) = none ∧ Sent message (t.calls i) published) ∨
      (publishedBy s (.resume i awaited newGuid) = some (i, publicationOf message) ∧
        published = false ∧ Sent message (t.calls i) true) := by
  generalize hcall : s.calls i = pc at hsent
  have hnone : (∀ message ch, pc ≠ .publishing message ch) →
      publishedBy s (.resume i awaited newGuid) = none := by
    intro hne
    exact publishedBy_eq_none (hcall ▸ hne)
  cases hsent with
  | opening c =>
    simp only [resume, hcall, resumeSend] at h
    refine Or.inl ⟨hnone (by rintro _ _ ⟨⟩), ?_⟩
    split at h <;> cases h
    · rw [calls_goto]
      split
      · exact .declaring _
      · exact .publishing _
    · rw [endSend_some]
      exact sent_throw _ _
  | declaring ch =>
    simp only [resume, hcall, resumeSend] at h
    refine Or.inl ⟨hnone (by rintro _ _ ⟨⟩), ?_⟩
    split at h <;> cases h <;> rw [calls_goto]
    · exact .publishing ch
    · exact .failing ch _
  | publishing ch =>
    simp only [resume, hcall, resumeSend] at h
    split at h <;> cases h
    · refine Or.inr ⟨by simp only [publishedBy, hcall], rfl, ?_⟩
      rw [calls_goto]
      exact .disposing ch
    · refine Or.inl ⟨rfl, ?_⟩
      rw [calls_goto]
      exact .failing ch _
  | disposing ch =>
    simp only [resume, hcall, resumeSend] at h
    refine Or.inl ⟨hnone (by rintro _ _ ⟨⟩), ?_⟩
    split at h <;> cases h
    · rw [endSend, State.return', calls_goto]
      exact .returned _
    · rw [endSend_some]
      exact sent_throw _ _
  | failing ch failure =>
    simp only [resume, hcall, resumeSend] at h
    refine Or.inl ⟨hnone (by rintro _ _ ⟨⟩), ?_⟩
    split at h <;> cases h <;> rw [endSend_some]
    · exact sent_throw _ _
    · exact sent_throw _ _
  | returned | refused | threw => simp [resume, hcall] at h

/-! ## What has reached the broker -/

/-- **What a step adds to what was published.** -/
theorem published_of_step (h : step s a = some t) :
    t.published = s.published ++ (publishedBy s a).toList.map Prod.snd := by
  have hsilent : publishedBy s a = none → t.published = s.published →
      t.published = s.published ++ (publishedBy s a).toList.map Prod.snd := by
    intro hnone hsame
    rw [hnone, hsame, Option.toList_none, List.map_nil, List.append_nil]
  have hframe : ∀ {i awaited newGuid}, a = .resume i awaited newGuid → Frame s i (s.calls i) t →
      t.published = s.published ++ (publishedBy s a).toList.map Prod.snd := by
    rintro i awaited newGuid rfl hframe
    cases hcall : s.calls i with
    | publishing message ch =>
      simp only [step, resume, hcall, resumeSend] at h
      split at h <;> cases h
      · simp only [publishedBy, hcall, State.goto_published, Option.toList_some, List.map_cons,
          List.map_nil]
      · exact hsilent rfl (Quiet.interrupt s ch _).published
    | _ =>
      rw [hcall] at hframe
      exact hsilent (publishedBy_eq_none (by simp [hcall])) (hframe.published rfl)
  cases step_cases h with
  | starts i call pc' ha hidle ht =>
    subst ha ht
    exact hsilent rfl rfl
  | moves i awaited newGuid ha hmoves => exact hframe ha hmoves
  | registers i awaited newGuid ha hmoves => exact hframe ha hmoves
  | disposes i awaited newGuid ha hdisposes =>
    obtain ⟨caller, c, hcall, -, ht⟩ := hdisposes
    subst ha
    obtain ⟨pc', hgoto, -⟩ := exists_goto_teardownReturn
      (s := { s.disposeConnection c with connection := none }) i caller rfl
    exact hsilent (publishedBy_eq_none (by simp [hcall])) (by rw [ht, hgoto]; rfl)
  | connects i awaited newGuid ha hconnects =>
    obtain ⟨config, hcall, -, ht⟩ := hconnects
    subst ha
    exact hsilent (publishedBy_eq_none (by simp [hcall])) (by rw [ht]; rfl)
  | environment ha hquiet =>
    refine hsilent ?_ hquiet.published
    cases a with
    | resume i awaited newGuid => exact absurd rfl (ha i awaited newGuid)
    | start | brokerConsumes | connectionLost | channelLost => rfl

/-! ## The account is kept -/

/-- What the account says of a call, given its place: a call of `SendAsync` is in it once it has
published, and no other call is. -/
def Accounts (account : List (ι × Publication)) (i : ι) (pc : Pc) : Call → Prop
  | .send message => ∃ published, Sent message pc published ∧
      ∀ p, (i, p) ∈ account ↔ published = true ∧ p = publicationOf message
  | call => pc.Within call ∧ ∀ p, (i, p) ∉ account

omit [DecidableEq ι] in
theorem Accounts.of_iff {account account' : List (ι × Publication)} {call : Call}
    (h : Accounts account i pc call) (hsame : ∀ p, (i, p) ∈ account' ↔ (i, p) ∈ account) :
    Accounts account' i pc call := by
  cases call with
  | send message =>
    obtain ⟨published, hsent, hmem⟩ := h
    exact ⟨published, hsent, fun p ↦ (hsame p).trans (hmem p)⟩
  | teardown | consume | unsubscribe => exact ⟨h.1, fun p hp ↦ h.2 p ((hsame p).mp hp)⟩

theorem accounts_start {account : List (ι × Publication)} (call : Call)
    (hnew : ∀ p, (i, p) ∉ account) : Accounts account i ((start s i call).calls i) call := by
  cases call with
  | send message => exact ⟨false, sent_start, fun p ↦ iff_of_false (hnew p) nofun⟩
  | teardown | consume | unsubscribe => exact ⟨within_start _, hnew⟩

theorem accounts_resume {account : List (ι × Publication)} {call : Call}
    (h : Accounts account i (s.calls i) call) (hstep : resume s i awaited newGuid = some t) :
    Accounts (account ++ (publishedBy s (.resume i awaited newGuid)).toList) i (t.calls i)
      call := by
  have hsilent : (s.calls i).Within call → (∀ message, call ≠ .send message) →
      publishedBy s (.resume i awaited newGuid) = none := by
    intro hwithin hne
    refine publishedBy_eq_none fun message ch hcall ↦ ?_
    rw [hcall] at hwithin
    cases hwithin
    exact hne _ rfl
  cases call with
  | send message =>
    obtain ⟨published, hsent, hmem⟩ := h
    rcases sent_resume hsent hstep with ⟨hnone, hsent'⟩ | ⟨hsome, rfl, hsent'⟩
    · rw [hnone, Option.toList_none, List.append_nil]
      exact ⟨published, hsent', hmem⟩
    · refine ⟨true, hsent', fun p ↦ ?_⟩
      rw [hsome, Option.toList_some, List.mem_append, hmem, List.mem_singleton, Prod.mk.injEq]
      simp
  | teardown | consume | unsubscribe =>
    rw [hsilent h.1 nofun, Option.toList_none, List.append_nil]
    exact ⟨within_resume h.1 hstep, h.2⟩

/-- What the account says in every state of a run. -/
structure Accounted [Inhabited ι] (as : List (Label ι)) (s : State ι) : Prop where
  published : s.published = (publications as).map Prod.snd
  once : ((publications as).map Prod.fst).Nodup
  idle : ∀ {i}, s.calls i = .idle →
    (∀ call, .start i call ∉ as) ∧ ∀ p, (i, p) ∉ publications as
  begun : ∀ {i}, s.calls i ≠ .idle → ∃ call, .start i call ∈ as
  calls : ∀ {i call}, .start i call ∈ as → Accounts (publications as) i (s.calls i) call

theorem accounted_initial [Inhabited ι] : Accounted [] (State.initial : State ι) where
  published := rfl
  once := List.nodup_nil
  idle _ := ⟨fun _ ↦ List.not_mem_nil, fun _ ↦ List.not_mem_nil⟩
  begun h := absurd rfl h
  calls h := absurd h List.not_mem_nil

omit [DecidableEq ι] in
private theorem start_mem_concat {call : Call} :
    .start i call ∈ as ++ [a] ↔ .start i call ∈ as ∨ a = .start i call := by
  rw [List.mem_append, List.mem_singleton, eq_comm (a := Label.start i call)]

private theorem Accounted.of_start [Inhabited ι] {call : Call} (hs : Accounted as s)
    (hrun : run step State.initial as = some s) (hidle : s.calls i = .idle) :
    Accounted (as ++ [.start i call]) (start s i call) := by
  have hsame : publications (as ++ [.start i call]) = publications as := by
    rw [publications, observed_concat hrun]
    exact List.append_nil _
  obtain ⟨pc', hgoto, -⟩ := exists_goto_start s i call
  have hother : ∀ {j}, j ≠ i → (start s i call).calls j = s.calls j := by
    intro j hj
    rw [hgoto, State.goto_calls, Function.update_of_ne hj]
  have hbegun : (start s i call).calls i ≠ .idle := by
    intro hidle'
    have hwithin := within_start (s := s) (i := i) call
    rw [hidle'] at hwithin
    cases hwithin
  refine ⟨?_, ?_, fun {j} hj ↦ ?_, fun {j} hj ↦ ?_, fun {j call'} hstart ↦ ?_⟩
  · rw [hsame, hgoto]
    exact hs.published
  · rw [hsame]
    exact hs.once
  · have hji : j ≠ i := by
      rintro rfl
      exact hbegun hj
    obtain ⟨hnot, hfree⟩ := hs.idle ((hother hji).symm.trans hj)
    refine ⟨fun call' hmem ↦ ?_, hsame ▸ hfree⟩
    rcases start_mem_concat.mp hmem with hmem | heq
    · exact hnot call' hmem
    · cases heq
      exact hji rfl
  · by_cases hji : j = i
    · exact ⟨call, start_mem_concat.mpr (Or.inr (by rw [hji]))⟩
    · obtain ⟨call', hcall'⟩ := hs.begun (hother hji ▸ hj)
      exact ⟨call', start_mem_concat.mpr (Or.inl hcall')⟩
  · rw [hsame]
    rcases start_mem_concat.mp hstart with hmem | heq
    · have hji : j ≠ i := by
        rintro rfl
        exact (hs.idle hidle).1 call' hmem
      rw [hother hji]
      exact hs.calls hmem
    · cases heq
      exact accounts_start call (hs.idle hidle).2

omit [DecidableEq ι] in
private theorem start_mem_resume {call : Call} :
    .start j call ∈ as ++ [.resume i awaited newGuid] ↔ .start j call ∈ as :=
  start_mem_concat.trans (or_iff_left nofun)

omit [DecidableEq ι] in
private theorem fst_of_publishedBy {p : Publication}
    (hp : publishedBy s (.resume i awaited newGuid) = some (j, p)) : j = i := by
  unfold publishedBy at hp
  split at hp
  · rename_i heq
    cases heq
    split at hp <;> cases hp
    rfl
  · cases hp

private theorem publications_resume [Inhabited ι] (hrun : run step State.initial as = some s) :
    publications (as ++ [.resume i awaited newGuid])
      = publications as ++ (publishedBy s (.resume i awaited newGuid)).toList :=
  observed_concat hrun

private theorem mem_publications_resume [Inhabited ι] (hrun : run step State.initial as = some s)
    (hj : j ≠ i) (p : Publication) :
    (j, p) ∈ publications (as ++ [.resume i awaited newGuid]) ↔ (j, p) ∈ publications as := by
  rw [publications_resume hrun, List.mem_append, Option.mem_toList]
  exact or_iff_left fun hp ↦ hj (fst_of_publishedBy hp)

/-- A call that publishes has not published before, since it is at the place where it does. -/
private theorem Accounted.free_of_publishes [Inhabited ι] {entry : ι × Publication}
    (hs : Accounted as s) (h : resume s i awaited newGuid = some t)
    (hp : publishedBy s (.resume i awaited newGuid) = some entry) (p : Publication) :
    (i, p) ∉ publications as := by
  intro hmem
  obtain ⟨call, hcall⟩ := hs.begun (ne_idle_of_resume h)
  have haccount := hs.calls hcall
  cases call with
  | send message =>
    obtain ⟨published, hsent, hiff⟩ := haccount
    obtain ⟨rfl, -⟩ := (hiff p).mp hmem
    rcases sent_resume hsent h with ⟨hnone, -⟩ | ⟨-, hfalse, -⟩
    · cases hnone.symm.trans hp
    · cases hfalse
  | teardown | consume | unsubscribe => exact haccount.2 p hmem

private theorem Accounted.once_of_resume [Inhabited ι] (hs : Accounted as s)
    (hrun : run step State.initial as = some s) (h : resume s i awaited newGuid = some t) :
    ((publications (as ++ [.resume i awaited newGuid])).map Prod.fst).Nodup := by
  rw [publications_resume hrun, List.map_append]
  cases hp : publishedBy s (.resume i awaited newGuid) with
  | none =>
    rw [Option.toList_none, List.map_nil, List.append_nil]
    exact hs.once
  | some entry =>
    have hfree := hs.free_of_publishes h hp
    obtain ⟨j, q⟩ := entry
    obtain rfl := fst_of_publishedBy hp
    rw [Option.toList_some, List.map_singleton, ← List.concat_eq_append, List.nodup_concat]
    refine ⟨fun hmem ↦ ?_, hs.once⟩
    obtain ⟨⟨k, p⟩, hentry, rfl⟩ := List.mem_map.mp hmem
    exact hfree p hentry

private theorem Accounted.of_resume [Inhabited ι] (hs : Accounted as s)
    (hrun : run step State.initial as = some s) (h : resume s i awaited newGuid = some t) :
    Accounted (as ++ [.resume i awaited newGuid]) t := by
  have hbusy : s.calls i ≠ .idle := ne_idle_of_resume h
  have hmine : ∀ {call}, .start i call ∈ as →
      Accounts (publications (as ++ [.resume i awaited newGuid])) i (t.calls i) call := by
    intro call hcall
    rw [publications_resume hrun]
    exact accounts_resume (hs.calls hcall) h
  refine ⟨?_, hs.once_of_resume hrun h, fun {j} hj ↦ ?_, fun {j} hj ↦ ?_, fun {j call} hmem ↦ ?_⟩
  · rw [published_of_step (a := .resume i awaited newGuid) h, publications_resume hrun,
      List.map_append, hs.published]
  · have hji : j ≠ i := by
      rintro rfl
      obtain ⟨call, hcall⟩ := hs.begun hbusy
      have haccount := hmine hcall
      rw [hj] at haccount
      cases call with
      | send message =>
        obtain ⟨published, hsent, -⟩ := haccount
        cases hsent
      | teardown | consume | unsubscribe => cases haccount.1
    obtain ⟨hnot, hfree⟩ := hs.idle ((calls_of_resume h hji).symm.trans hj)
    exact ⟨fun call hmem ↦ hnot call (start_mem_resume.mp hmem),
      fun p hp ↦ hfree p ((mem_publications_resume hrun hji p).mp hp)⟩
  · have hbusy' : s.calls j ≠ .idle := by
      by_cases hji : j = i
      · exact hji ▸ hbusy
      · exact calls_of_resume h hji ▸ hj
    obtain ⟨call, hcall⟩ := hs.begun hbusy'
    exact ⟨call, start_mem_resume.mpr hcall⟩
  · by_cases hji : j = i
    · subst hji
      exact hmine (start_mem_resume.mp hmem)
    · rw [calls_of_resume h hji]
      exact (hs.calls (start_mem_resume.mp hmem)).of_iff (mem_publications_resume hrun hji)

private theorem Accounted.of_quiet [Inhabited ι] (hs : Accounted as s)
    (hrun : run step State.initial as = some s) (hstep : step s a = some t)
    (hstart : ∀ i call, a ≠ .start i call)
    (hresume : ∀ i awaited newGuid, a ≠ .resume i awaited newGuid) :
    Accounted (as ++ [a]) t := by
  have hnone : publishedBy s a = none := by
    cases a <;> first | rfl | exact absurd rfl (hresume _ _ _)
  have hsame : publications (as ++ [a]) = publications as := by
    rw [publications, observed_concat hrun, hnone]
    exact List.append_nil _
  have hcalls : ∀ i, t.calls i = s.calls i := by
    intro i
    rcases calls_of_step (i := i) hstep with hsame | ⟨-, call, heq, -⟩ | ⟨awaited, g, heq, -⟩
    · exact hsame
    · exact absurd heq (hstart i call)
    · exact absurd heq (hresume i awaited g)
  have hstarts : ∀ {i call}, .start i call ∈ as ++ [a] ↔ .start i call ∈ as :=
    start_mem_concat.trans (or_iff_left (hstart _ _))
  refine ⟨?_, ?_, fun {i} hi ↦ ?_, fun {i} hi ↦ ?_, fun {i call} hmem ↦ ?_⟩
  · rw [published_of_step hstep, hnone, hsame]
    exact (List.append_nil _).trans hs.published
  · rw [hsame]
    exact hs.once
  · obtain ⟨hnot, hfree⟩ := hs.idle (hcalls i ▸ hi)
    exact ⟨fun call hmem ↦ hnot call (hstarts.mp hmem), hsame ▸ hfree⟩
  · obtain ⟨call, hcall⟩ := hs.begun (hcalls i ▸ hi)
    exact ⟨call, hstarts.mpr hcall⟩
  · rw [hsame, hcalls]
    exact hs.calls (hstarts.mp hmem)

theorem accounted_of_run [Inhabited ι] (hrun : run step State.initial as = some t) :
    Accounted as t := by
  refine run_induction (motive := fun as t ↦ Accounted as t) accounted_initial ?_ hrun
  intro as s a t hrun hs hstep
  cases a with
  | start i call =>
    obtain ⟨hidle, ht⟩ := Option.ite_none_right_eq_some.mp hstep
    cases ht
    exact hs.of_start hrun hidle
  | resume i awaited newGuid => exact hs.of_resume hrun hstep
  | brokerConsumes | connectionLost | channelLost => exact hs.of_quiet hrun hstep nofun nofun

/-- **Each call of `SendAsync` publishes its message at most once**, and nothing else is published.
A call that has returned has published, and one that has refused its message has not. -/
theorem publishesOnce_of_run [Inhabited ι] (hrun : run step State.initial as = some t) :
    PublishesOnce as t := by
  have ht : Accounted as t := accounted_of_run hrun
  have hcall : ∀ {i p}, (i, p) ∈ publications as →
      ∃ message, .start i (.send message) ∈ as ∧ p = publicationOf message ∧
        Sent message (t.calls i) true := by
    intro i p hmem
    have hbusy : t.calls i ≠ .idle := fun hidle ↦ (ht.idle hidle).2 p hmem
    obtain ⟨call, hstart⟩ := ht.begun hbusy
    have haccount := ht.calls hstart
    cases call with
    | send message =>
      obtain ⟨published, hsent, hiff⟩ := haccount
      obtain ⟨rfl, hp⟩ := (hiff p).mp hmem
      exact ⟨message, hstart, hp, hsent⟩
    | teardown | consume | unsubscribe => exact absurd hmem (haccount.2 p)
  refine ⟨ht.published, ht.once, fun hmem ↦ ?_, fun hstart hended ↦ ?_, fun hended hex p hmem ↦ ?_⟩
  · obtain ⟨message, hstart, hp, -⟩ := hcall hmem
    exact ⟨message, hstart, hp⟩
  · obtain ⟨published, hsent, hiff⟩ := ht.calls hstart
    rw [hended] at hsent
    cases hsent
    exact (hiff _).mpr ⟨rfl, rfl⟩
  · obtain ⟨message, -, -, hsent⟩ := hcall hmem
    rw [hended] at hsent
    cases hsent with
    | threw failure =>
      rcases hex with hex | hex
      · exact (sendFailure_ne message failure).1 hex
      · exact (sendFailure_ne message failure).2 hex

open Label (succeed)

private def greeting : BusMessage where
  target := Utf16.ofString "news"
  routingKey := some (Utf16.ofString "created")
  payload := Utf16.ofString "good day"
  replyTo := none
  correlationId := none
  headers := .empty
  target_valid := by decide
  payload_valid := by decide

/-- After a connect, the same message is sent twice. The exchange of the first send is found to be
missing, and the second is published. -/
private def sentAgain : List (Label ℕ) :=
  [.start 0 (.teardown (.connect .localhost)), succeed 0, succeed 0, .start 1 (.send greeting),
    .start 2 (.send greeting), succeed 1, .resume 1 (.failed .operationInterrupted) ⟨0⟩, succeed 2,
    succeed 2, succeed 1, succeed 2, succeed 2]

theorem publishesOnce_of_sentAgain : ∃ t, run step State.initial sentAgain = some t ∧
    t.published = [publicationOf greeting] ∧
      t.calls 1 = .ended (.error (couldNotPublish greeting)) ∧
        t.calls 2 = .ended (.ok .done) ∧ PublishesOnce sentAgain t :=
  ⟨_, rfl, rfl, rfl, rfl, publishesOnce_of_run rfl⟩

end RabbitMqAdapter

end BusTester
