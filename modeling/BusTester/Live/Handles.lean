import BusTester.Client.PageEffects
import BusTester.Live.World

/-!
# What is known of a handle

A handle is created once, for one of the two flows, and the page hears of it from one response only.
After that it is listed until the DELETE of its entry is answered, and never again.
-/

namespace BusTester

namespace Live

open Page (Flow Request Response)

variable {s t : State} {a : Label}

/-- Each handle belongs to one flow. Until the response that carries it has arrived the page knows
nothing of it, and once its group is left it is not shown any more. -/
structure Known (s : State) : Prop where
  numbered : Page.Numbered s.page
  listed : ∀ {flow h}, h ∈ s.page.listed flow → s.issued h = some flow
  leaving : ∀ {n request flow h}, s.page.requests n = some request →
    request.leaves = some (flow, h) → s.issued h = some flow
  answered : ∀ {n response flow h}, s.answers n = some response →
    response.handle = some (flow, h) → s.issued h = some flow ∧
      (∀ flow', h ∉ s.page.listed flow') ∧
      (∀ m request flow', s.page.requests m = some request → request.leaves ≠ some (flow', h)) ∧
      .leaveSubscription h ∉ s.page.invocations
  distinct : ∀ {n m response response' flow flow' h}, s.answers n = some response →
    s.answers m = some response' → response.handle = some (flow, h) →
    response'.handle = some (flow', h) → n = m
  left : ∀ {h}, .leaveSubscription h ∈ s.page.invocations →
    s.issued h ≠ none ∧ ∀ flow, h ∉ s.page.listed flow

theorem known_initial : Known State.initial where
  numbered := Page.numbered_initial
  listed {flow h} hh := by cases flow <;> cases hh
  leaving := nofun
  answered := nofun
  distinct := nofun
  left := nofun

theorem Known.of_page {b : Page.Label} (hs : Known s) (e : Page.Effect s.page b t.page)
    (hissued : t.issued = s.issued) (hanswers : t.answers = s.answers)
    (hb : ∀ n response, b ≠ .respond n response)
    (hshown : ∀ flow id, b = .unsubscribe flow id → id ∈ s.page.listed flow) : Known t := by
  have hlisted : ∀ {flow h}, h ∈ t.page.listed flow → h ∈ s.page.listed flow := by
    intro flow h hh
    rcases e.listed hh with hh | ⟨n, response, hrespond, -⟩
    · exact hh
    · exact absurd hrespond (hb n response)
  -- A DELETE is for an entry that is shown.
  have hrequests : ∀ {n request flow h}, t.page.requests n = some request →
      request.leaves = some (flow, h) →
        s.page.requests n = some request ∨ h ∈ s.page.listed flow := by
    intro n request flow h hn hleaves
    rcases e.requests hn with ⟨hn, -⟩ | ⟨-, hposts⟩
    · exact Or.inl hn
    · cases hposts with
      | subscribe => cases hleaves
      | sendWithReply body => cases hleaves
      | unsubscribe flow' id =>
        cases hleaves
        exact Or.inr (hshown _ _ rfl)
  have hleft : ∀ {h}, .leaveSubscription h ∈ t.page.invocations →
      .leaveSubscription h ∈ s.page.invocations := by
    intro h hh
    rcases e.left hh with hh | ⟨flow, n, response, request, hrespond, -⟩
    · exact hh
    · exact absurd hrespond (hb n response)
  refine ⟨hs.numbered.of_effect e, fun hh ↦ ?_, fun hn hleaves ↦ ?_, fun hn hhandle ↦ ?_,
    fun hn hm ↦ ?_, fun hh ↦ ?_⟩
  · rw [hissued]
    exact hs.listed (hlisted hh)
  · rw [hissued]
    rcases hrequests hn hleaves with hn | hh
    · exact hs.leaving hn hleaves
    · exact hs.listed hh
  · rw [hanswers] at hn
    obtain ⟨hflow, hnot, hnone, hunleft⟩ := hs.answered hn hhandle
    refine ⟨hissued ▸ hflow, fun flow' hh ↦ hnot flow' (hlisted hh),
      fun m request flow' hm hleaves ↦ ?_, fun hh ↦ hunleft (hleft hh)⟩
    rcases hrequests hm hleaves with hm | hh
    · exact hnone m request flow' hm hleaves
    · exact hnot flow' hh
  · rw [hanswers] at hn hm
    exact hs.distinct hn hm
  · obtain ⟨hissued', hnot⟩ := hs.left (hleft hh)
    exact ⟨hissued ▸ hissued', fun flow hh ↦ hnot flow (hlisted hh)⟩

theorem Known.of_respond {n : ℕ} {response : Response} (hs : Known s)
    (e : Page.Effect s.page (.respond n response) t.page) (hissued : t.issued = s.issued)
    (hanswers : t.answers = Function.update s.answers n none)
    (hanswer : s.answers n = some response ∨ response.handle = none) : Known t := by
  have hlists : ∀ {flow h}, Page.Label.Lists (.respond n response) flow h →
      s.answers n = some response ∧ response.handle = some (flow, h) := by
    rintro flow h ⟨m, response', heq, hhandle⟩
    cases heq
    rcases hanswer with hanswer | hnone
    · exact ⟨hanswer, hhandle⟩
    · rw [hnone] at hhandle
      cases hhandle
  have hothers : ∀ {m response'}, t.answers m = some response' →
      m ≠ n ∧ s.answers m = some response' := by
    intro m response' hm
    rw [hanswers] at hm
    exact Page.of_cleared hm
  have hrequests : ∀ {m request flow h}, t.page.requests m = some request →
      request.leaves = some (flow, h) → s.page.requests m = some request := by
    intro m request flow h hm hleaves
    rcases e.requests hm with ⟨hm, -⟩ | ⟨-, hposts⟩
    · exact hm
    · cases hposts
  have hissuedOf : ∀ {flow h}, h ∈ t.page.listed flow → s.issued h = some flow := by
    intro flow h hh
    rcases e.listed hh with hh | hh
    · exact hs.listed hh
    · obtain ⟨hn, hhandle⟩ := hlists hh
      exact (hs.answered hn hhandle).1
  refine ⟨hs.numbered.of_effect e, fun hh ↦ ?_, fun hm hleaves ↦ ?_, fun hm hhandle ↦ ?_,
    fun hm hk hhandle hhandle' ↦ ?_, fun {h} hh ↦ ?_⟩
  · rw [hissued]
    exact hissuedOf hh
  · rw [hissued]
    exact hs.leaving (hrequests hm hleaves) hleaves
  · obtain ⟨hne, hm⟩ := hothers hm
    obtain ⟨hflow, hnot, hnone, hunleft⟩ := hs.answered hm hhandle
    refine ⟨hissued ▸ hflow, fun flow' hh ↦ ?_, fun k request flow' hk hleaves ↦ ?_, fun hh ↦ ?_⟩
    · rcases e.listed hh with hh | hh
      · exact hnot flow' hh
      · obtain ⟨hn, hhandle'⟩ := hlists hh
        exact hne (hs.distinct hm hn hhandle hhandle')
    · exact hnone k request flow' (hrequests hk hleaves) hleaves
    · rcases e.left hh with hh | ⟨flow', k, response', request, -, hk, hleaves⟩
      · exact hunleft hh
      · exact hnone k request flow' hk hleaves
  · exact hs.distinct (hothers hm).2 (hothers hk).2 hhandle hhandle'
  · rcases e.left hh with hold | ⟨flow, hfinishes⟩
    · obtain ⟨hissued', hnot⟩ := hs.left hold
      refine ⟨hissued ▸ hissued', fun flow hh ↦ ?_⟩
      rcases e.listed hh with hh | hh
      · exact hnot flow hh
      · obtain ⟨hn, hhandle⟩ := hlists hh
        exact (hs.answered hn hhandle).2.2.2 hold
    · have hflow : s.issued h = some flow := by
        obtain ⟨k, response', request, -, hk, hleaves⟩ := hfinishes
        exact hs.leaving hk hleaves
      refine ⟨by rw [hissued, hflow]; exact Option.some_ne_none _, fun flow' hh ↦ ?_⟩
      obtain rfl : flow = flow' := Option.some.inj (hflow.symm.trans (hissuedOf hh))
      exact e.finished hfinishes hh

theorem Known.of_same (hs : Known s) (hpage : t.page = s.page) (hissued : t.issued = s.issued)
    (hanswers : t.answers = s.answers) : Known t := by
  refine ⟨?_, ?_, ?_, ?_, ?_, ?_⟩
  all_goals simp only [hpage, hissued, hanswers]
  exacts [hs.numbered, hs.listed, hs.leaving, hs.answered, hs.distinct, hs.left]

theorem Known.of_answer {n : ℕ} {response : Response} (hs : Known s) (hpage : t.page = s.page)
    (hissued : t.issued = s.issued)
    (hanswers : t.answers = Function.update s.answers n (some response))
    (hhandle : response.handle = none) : Known t := by
  have hold : ∀ {m response' flow h}, t.answers m = some response' →
      response'.handle = some (flow, h) → s.answers m = some response' := by
    intro m response' flow h hm hhandle'
    rw [hanswers] at hm
    rcases Page.written_cases hm with ⟨-, rfl⟩ | ⟨-, hm⟩
    · cases hhandle.symm.trans hhandle'
    · exact hm
  refine ⟨?_, ?_, ?_, fun hm hhandle' ↦ ?_, fun hm hk hhandle' hhandle'' ↦ ?_, ?_⟩
  · exact hpage ▸ hs.numbered
  · rw [hpage, hissued]
    exact hs.listed
  · rw [hpage, hissued]
    exact hs.leaving
  · rw [hpage, hissued]
    exact hs.answered (hold hm hhandle') hhandle'
  · exact hs.distinct (hold hm hhandle') (hold hk hhandle'') hhandle' hhandle''
  · rw [hpage, hissued]
    exact hs.left

theorem Known.of_create {n : ℕ} {response : Response} {flow : Flow} {id : Guid} (hs : Known s)
    (hhandle : response.handle = some (flow, id)) (hfresh : s.issued id = none)
    (ht : t = { s with
      coordinator := s.coordinator.register ⟨id⟩
      issued := Function.update s.issued id (some flow)
      answers := Function.update s.answers n (some response) }) : Known t := by
  subst ht
  have hne : ∀ {h flow'}, s.issued h = some flow' → h ≠ id := by
    rintro h flow' hh rfl
    rw [hfresh] at hh
    cases hh
  have hkeep : ∀ {h flow'}, s.issued h = some flow' →
      Function.update s.issued id (some flow) h = some flow' := by
    intro h flow' hh
    rw [Function.update_of_ne (hne hh)]
    exact hh
  have hanswer : ∀ {m response' flow' h},
      Function.update s.answers n (some response) m = some response' →
        response'.handle = some (flow', h) →
          (m = n ∧ flow' = flow ∧ h = id) ∨ (m ≠ n ∧ s.answers m = some response') := by
    intro m response' flow' h hm hhandle'
    rcases Page.written_cases hm with ⟨rfl, rfl⟩ | hold
    · cases hhandle.symm.trans hhandle'
      exact Or.inl ⟨rfl, rfl, rfl⟩
    · exact Or.inr hold
  refine ⟨hs.numbered, fun hh ↦ hkeep (hs.listed hh),
    fun hm hleaves ↦ hkeep (hs.leaving hm hleaves), fun hm hhandle' ↦ ?_,
    fun hm hk hhandle' hhandle'' ↦ ?_, fun {h} hh ↦ ?_⟩
  · rcases hanswer hm hhandle' with ⟨rfl, rfl, rfl⟩ | ⟨-, hm⟩
    · refine ⟨Function.update_self .., fun flow'' hh ↦ hne (hs.listed hh) rfl,
        fun k request flow'' hk hleaves ↦ hne (hs.leaving hk hleaves) rfl, fun hh ↦ ?_⟩
      exact (hs.left hh).1 hfresh
    · obtain ⟨hflow, hrest⟩ := hs.answered hm hhandle'
      exact ⟨hkeep hflow, hrest⟩
  · rcases hanswer hm hhandle' with ⟨hm', -, hh⟩ | ⟨-, hm'⟩
    · rcases hanswer hk hhandle'' with ⟨hk', -, -⟩ | ⟨-, hk'⟩
      · exact hm'.trans hk'.symm
      · exact absurd hh (hne (hs.answered hk' hhandle'').1)
    · rcases hanswer hk hhandle'' with ⟨-, -, hh⟩ | ⟨-, hk'⟩
      · exact absurd hh (hne (hs.answered hm' hhandle').1)
      · exact hs.distinct hm' hk' hhandle' hhandle''
  · obtain ⟨hissued, hnot⟩ := hs.left hh
    refine ⟨?_, hnot⟩
    obtain ⟨flow', hflow⟩ := Option.ne_none_iff_exists'.mp hissued
    exact fun hnone ↦ by cases (hkeep hflow).symm.trans hnone

theorem known_step (hs : Known s) (hstep : step s a = some t) : Known t := by
  cases a with
  | page b =>
    obtain ⟨page, hpage, ht, hb, -, -, hshown⟩ := stepPage_spec hstep
    have e := Page.effect_of_step hpage
    rcases ht with ⟨rfl, -⟩ | ⟨rfl, -⟩
    · exact hs.of_page e rfl rfl hb hshown
    · exact hs.of_page e rfl rfl hb hshown
  | serve n response =>
    obtain ⟨flow, id, hhandle, hfresh, ht⟩ | ⟨request, flow, id, hhandle, -, -, rfl⟩ :=
      serve_spec hstep
    · exact hs.of_create hhandle hfresh ht
    · exact hs.of_answer rfl rfl rfl hhandle
  | respond n response =>
    obtain ⟨page, hpage, hanswer, rfl⟩ := respond_spec hstep
    exact hs.of_respond (Page.effect_of_step hpage) rfl rfl hanswer
  | execute ok =>
    obtain ⟨invocation, -, rfl⟩ := execute_spec hstep
    exact hs.of_same rfl rfl rfl
  | complete =>
    obtain ⟨ok, rest, invocation, invocations, page, -, -, hpage, rfl⟩ := complete_spec hstep
    exact hs.of_page (Page.effect_of_step hpage) rfl rfl nofun nofun
  | deliver h message =>
    cases hstep
    exact hs.of_same rfl rfl rfl
  | push =>
    obtain ⟨message, rest, -, rfl⟩ := push_spec hstep
    exact hs.of_page (Page.effect_of_step (a := .messageReceived message) rfl) rfl rfl nofun nofun

/-- An entry that is shown has not been left. -/
theorem Known.shown_ne_of_left (hs : Known s) {h id : Guid}
    (hid : .leaveSubscription id ∈ s.page.invocations) (hh : h ∈ s.page.shown) : h ≠ id := by
  rintro rfl
  obtain ⟨flow, hflow⟩ := Page.mem_shown.mp hh
  exact (hs.left hid).2 flow hflow

end Live

end BusTester
