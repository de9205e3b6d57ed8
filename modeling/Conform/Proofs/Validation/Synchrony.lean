/-
  Conform.Proofs.Validation.Synchrony

  Validations that wait and validations that do not. A synchronous one is ready when
  it is polled first, and it accepts no value for which an invoked test is pending.
  Where none is, the other one does the same work: it is ready as early, and ends
  alike.
-/

import Conform.Proofs.Polling
import Conform.Proofs.Schema.Obtained
import Conform.Proofs.Schema.Reaching
import Conform.Proofs.Validation.BadData
import Conform.Proofs.Validation.Invocation

namespace Conform

-- ============================================================================
-- One poll
-- ============================================================================

namespace Workshop

/-- A synchronous validation is ready at its first poll, and fails where an invoked test is
    pending, under either policy. -/
theorem validateSync_ready {w : Workshop} (hw : w.Reachable .all) {s : Schema} (hs : s.Obtained)
    (value : Option Value) (options : CallOptions) :
    (w.validateJob s value options true).poll = .ready (w.validateSync s value options) ∧
      ∀ m x, w.Invokes s value options m x → (x.outcome m.subject).isPending = true →
        ∃ e, w.validateSync s value options = .error e := by
  have hequipped := hw.equipped
  have hmade := hs.wellMade
  constructor
  · have hready := ready_validateJob hequipped hmade value options
    exact Job.poll_eq_ready.mpr ⟨hready, validateSync_eq_result hequipped hmade value options⟩
  · rintro m x ⟨n, hn, hinvokes⟩ hpending
    cases hresult : w.validateSync s value options with
    | error e => exact ⟨e, rfl⟩
    | ok r =>
        obtain ⟨n', hn', -, hvalid⟩ := (validateSync_eq_ok_iff_enter hequipped hmade).mp hresult
        rw [hn] at hn'
        cases hn'
        have hpass := outcome_of_valid hequipped hinvokes.visits
          (enter_wellMade hequipped hmade hn) hvalid x
          (Node.mem_tests_of_mem_invoked hinvokes.mem_invoked)
        rw [hpass] at hpending
        exact absurd hpending (by simp [Outcome.isPending])

/-- A schema whose only test is never decided at once. -/
def remoteCheck : Recipe :=
  .make .mixed [.test (.draft
    { name := some "remote", exclusive := false, message := none, params := []
      judge := fun _ => .pending 2 .pass })]

/-- The pending test is invoked, so the one poll ends with a failure under both
    policies. -/
theorem validateSync_ready_remote :
    ∃ s, initial.build none remoteCheck = .ok s ∧ ∀ abortEarly,
      ∃ e, (initial.validateJob s (some (.int 1)) { CallOptions.none with abortEarly } true).poll =
        .ready (.error e) := by
  obtain ⟨s, hs, hinvokes⟩ : ∃ s, initial.build none remoteCheck = .ok s ∧ ∀ abortEarly,
      ∃ n x, initial.enter (root s (some (.int 1)) { CallOptions.none with abortEarly }) = .ok n ∧
        (∀ y ∈ n.schema.traits.prerequisites, y.outcome n.subject = .pass) ∧
        x ∈ n.schema.traits.tests ∧ (x.outcome n.subject).isPending = true := by
    refine ⟨_, rfl, fun abortEarly => ⟨_, _, rfl, ?_, List.mem_cons_self, rfl⟩⟩
    intro y hy
    rw [List.mem_singleton.mp hy]
    rfl
  refine ⟨s, hs, fun abortEarly => ?_⟩
  obtain ⟨hpoll, hfails⟩ := validateSync_ready .initial
    (.built Schema.Obtained.stored_initial hs) (some (.int 1)) { CallOptions.none with abortEarly }
  obtain ⟨n, x, hn, hpass, hx, hpending⟩ := hinvokes abortEarly
  obtain ⟨e, he⟩ := hfails n x ⟨n, hn, .declared hpass hx⟩ hpending
  exact ⟨e, he ▸ hpoll⟩

end Workshop

-- ============================================================================
-- Runs without a pending test
-- ============================================================================

/-- A test that is not pending does the same work in both modes. -/
theorem Test.run_of_not_pending {t : Test} {subject : Subject}
    (h : (t.outcome subject).isPending = false) : t.run false subject = t.run true subject := by
  rw [run, run, h]
  rfl

namespace Node

variable {w : Workshop} {n : Node} {later now : ValidatePart}

/-- The own checks do the same work in both modes, where none that is invoked is
    pending. -/
theorem own_of_not_pending
    (h : ∀ x, n.Invokes w n x → (x.outcome n.subject).isPending = false) :
    n.own false = n.own true := by
  have hjobs : ∀ tests : List Test, (∀ x ∈ tests, n.Invokes w n x) →
      (tests.map fun x => x.run false n.subject) = tests.map fun x => x.run true n.subject :=
    fun tests htests => List.map_congr_left fun x hx => Test.run_of_not_pending (h x (htests x hx))
  have hpre : n.prerequisiteJobs false = n.prerequisiteJobs true :=
    hjobs n.schema.traits.prerequisites fun x hx => .prerequisite hx
  rw [own_eq, own_eq, hpre]
  refine Job.bind_congr fun _ hok => ?_
  -- the declared tests are invoked once those of type and lists have passed
  have hpass : ∀ y ∈ n.schema.traits.prerequisites, y.outcome n.subject = .pass := by
    intro y hy
    have hall := (Policy.run_result_eq_ok.mp hok).1
    exact Test.run_result_eq_ok.mp (hall _ (List.mem_map_of_mem hy))
  have htests : n.testJobs false = n.testJobs true :=
    hjobs n.schema.traits.tests fun x hx => .declared hpass hx
  rw [htests]

/-- Where the own checks let the run go on, it goes down to the parts. -/
theorem descends_of_collectOwn {found : List Violation}
    (h : (collectOwn (n.own true) n.collects).result = .ok found) : n.Descends := by
  rw [collectOwn] at h
  split at h
  · next hok =>
      obtain ⟨hpre, htests⟩ := own_result_eq_ok.mp hok
      refine Or.inl fun x hx => ?_
      rcases List.mem_append.mp hx with hfirst | hsecond
      · exact hpre x hfirst
      · exact htests x hsecond
  · split at h
    · next hcollects => exact Or.inr hcollects
    · exact absurd h (by simp)
  · exact absurd h (by simp)

/-- A run does the same work in both modes if the own checks do, and the parts that it
    reaches. -/
theorem run_congr (hshape : ∀ shape, n.schema.kind = .object shape → shape.Ordered)
    (hown : n.own false = n.own true) (hready : ∀ p ∈ n.parts, (p.job now).Ready)
    (hparts : n.Descends → ∀ before p after, n.work = before ++ p :: after →
      (n.mode.abortEarly = true → ∀ q ∈ before, ∃ a, (q.job now).result = .ok a) →
      p.job later = p.job now) :
    n.run false later = n.run true now := by
  rw [run_eq, run_eq, hown]
  refine Job.bind_congr fun found hfound => ?_
  have hreached := hparts (descends_of_collectOwn hfound)
  rw [partsJob, partsJob]
  rcases n.validateParts_eq hshape with ⟨-, hfinish⟩ | ⟨plan, hwork, hplan⟩
  · rw [hfinish, hfinish]
  · have hrun : (plan.policy found).run (plan.jobs later) = (plan.policy found).run (plan.jobs now) := by
      unfold Plan.jobs
      rw [hwork]
      cases habort : n.mode.abortEarly with
      | false =>
          -- all parts are reached
          congr 1
          refine List.map_congr_left fun p hp => ?_
          obtain ⟨before, after, hsplit⟩ := List.append_of_mem hp
          rw [hreached before p after hsplit (by simp [habort])]
      | true =>
          rw [Policy.run_of_abortEarly habort, Policy.run_of_abortEarly habort]
          refine Policy.runFirst_map_congr (fun p hp => ?_) fun before p after hsplit hok => ?_
          · exact Job.ready_discard (hready p (mem_parts_of_mem_work hp))
          · rw [hreached before p after hsplit fun _ q hq => Job.discard_result_eq_ok.mp (hok q hq)]
    rw [hplan, hplan, hrun]

end Node

namespace Workshop

variable {C : RecipeClass} {w : Workshop}

/-- Where no test that is invoked is pending, a run does the same work in both modes. The
    induction is on the depth that the run may go down by. -/
theorem run_of_not_pending (hw : w.Equipped C) {depth : Nat} {n : Node} (hn : n.schema.WellMade C)
    (hdepth : Value.heightOf n.value ≤ depth)
    (h : ∀ m x, n.Invokes w m x → (x.outcome m.subject).isPending = false) :
    n.run false (w.validateWithin false depth) = n.run true (w.validateWithin true depth) := by
  induction depth generalizing n with
  | zero =>
      refine Node.run_congr hn.here.shape (Node.own_of_not_pending (h n)) ?_ ?_
      · exact fun p _ => Job.ready_done _
      · intro _ before p after _ _
        rw [Part.job, Part.job, validateWithin, validateWithin]
  | succ depth ih =>
      refine Node.run_congr hn.here.shape (Node.own_of_not_pending (h n)) ?_ ?_
      · exact fun p hp => ready_validateWithin hw (Node.everywhere_part hn hp)
      · intro hdescends before p after hsplit hbefore
        have hmem : ∀ q ∈ before ++ p :: after, q ∈ n.parts :=
          fun q hq => Node.mem_parts_of_mem_work (hsplit ▸ hq)
        have hp : p ∈ n.parts := hmem p (by simp)
        have haccepted : n.mode.abortEarly = true → ∀ q ∈ before, q.Valid w := by
          intro habort q hq
          have hq' : q ∈ n.parts := hmem q (by simp [hq])
          exact (part_accepted_iff hw hn hq' hdepth).mp (hbefore habort q hq)
        rw [validateWithin_succ, validateWithin_succ, enter_of_strict (Node.strict_part hp)]
        cases ht : w.resolve p.schema p.value p.options with
        | error e =>
            show Job.bind (.done (.error e)) _ = Job.bind (.done (.error e)) _
            rw [Job.bind_done_error, Job.bind_done_error]
        | ok t =>
            have hlt := Node.heightOf_part hp
            have hbelow : Value.heightOf (p.node t).value ≤ depth := by
              show Value.heightOf p.value ≤ depth
              omega
            show Job.bind (.done (.ok (p.node t))) _ = Job.bind (.done (.ok (p.node t))) _
            rw [Job.bind_done_ok, Job.bind_done_ok]
            refine ih (resolve_wellMade hw (Node.everywhere_part hn hp) ht) hbelow fun m x hx => ?_
            exact h m x (.part hdescends hsplit haccepted ht hx)

-- ============================================================================
-- Calls without a pending test
-- ============================================================================

/-- Whether no test that a call invokes is pending. -/
def NothingPending (w : Workshop) (s : Schema) (value : Option Value) (options : CallOptions) :
    Prop :=
  ∀ m x, w.Invokes s value options m x → (x.outcome m.subject).isPending = false

/-- A call that comes to no pending test does the same work in both modes. -/
theorem validateJob_of_nothingPending (hw : w.Equipped C) {s : Schema} (hs : s.WellMade C)
    {value : Option Value} {options : CallOptions} (h : w.NothingPending s value options) :
    w.validateJob s value options false = w.validateJob s value options true := by
  rw [validateJob_eq, validateJob_eq]
  refine Job.bind_congr fun n hn => ?_
  exact run_of_not_pending hw (enter_wellMade hw hs hn) (Nat.le_refl _)
    fun m x hx => h m x ⟨n, hn, hx⟩

theorem validate_of_nothingPending (hw : w.Equipped C) {s : Schema} (hs : s.WellMade C)
    {value : Option Value} {options : CallOptions} (h : w.NothingPending s value options) :
    w.validate s value options = w.validateSync s value options := by
  rw [validate, validateJob_of_nothingPending hw hs h, validateSync_eq_result hw hs]

/-- Where no invoked test is pending, polling a validation until it is ready gives what the
    synchronous one gives, and the same holds at the end of a path. -/
theorem validate_agrees_with_sync {w : Workshop} (hw : w.Reachable .all) {s : Schema}
    (hs : s.Obtained) :
    (∀ value options, w.NothingPending s value options →
      ∀ r, (w.validateJob s value options false).Ends r ↔ w.validateSync s value options = r) ∧
    ∀ path v options,
      (∀ reached below, w.atPath s path v options = .ok (reached, below) →
        w.NothingPending reached.schema reached.value below) →
      w.validateAt s path v options = w.validateSyncAt s path v options := by
  have hequipped := hw.equipped
  have hmade := hs.wellMade
  constructor
  · intro value options h r
    have hsame : (w.validateJob s value options false).result = w.validateSync s value options :=
      validate_of_nothingPending hequipped hmade h
    rw [Job.ends_iff, hsame, eq_comm]
  · intro path v options h
    rw [validateAt, validateSyncAt]
    cases hat : w.atPath s path v options with
    | error e => rfl
    | ok found =>
        obtain ⟨reached, below⟩ := found
        have hreached := atPath_wellMade hequipped hmade hat
        exact validate_of_nothingPending hequipped hreached (h reached below hat)

/-- A plain node comes to no pending test. -/
theorem not_pending_of_plain (hw : w.Equipped C) {n m : Node} (hn : n.schema.WellMade C)
    (hplain : n.schema.Everywhere Schema.Plain) {x : Test} (h : n.Invokes w m x) :
    (x.outcome m.subject).isPending = false := by
  have hm := (h.visits.plain hplain).here
  have hmade := (visits_wellMade hw h.visits hn).here
  exact hm.not_isPending hmade (Node.mem_tests_of_mem_invoked h.mem_invoked) m.subject

theorem nothingPending_of_plain (hw : w.Equipped C) {s : Schema} (hs : s.WellMade C)
    (hplain : s.Everywhere Schema.Plain) (value : Option Value) (options : CallOptions) :
    w.NothingPending s value options := by
  rintro m x ⟨n, hn, hx⟩
  have hresolve : w.resolve s value options = .ok n.schema := (enter_eq_ok hn).1
  rw [hplain.here.resolve w value options] at hresolve
  cases hresolve
  exact not_pending_of_plain hw hs hplain hx

/-- A call that stops at the first failure comes to no pending test behind a plain part
    that fails. -/
theorem nothingPending_of_first_fails (hw : w.Equipped C) {s : Schema} (hs : s.WellMade C)
    {value : Option Value} {options : CallOptions} {n : Node}
    (hn : w.enter (root s value options) = .ok n) (habort : n.mode.abortEarly = true)
    (hown : ∀ y ∈ n.tests, (y.outcome n.subject).isPending = false) {a : Part} {rest : List Part}
    (hwork : n.work = a :: rest) {t : Schema}
    (ht : w.resolve a.schema a.value a.options = .ok t) (hplain : t.Everywhere Schema.Plain)
    {x : Test} (hx : x ∈ t.traits.tests) (hfails : x.outcome (a.node t).subject ≠ .pass) :
    w.NothingPending s value options := by
  have hnode := enter_wellMade hw hs hn
  have hmade : t.WellMade C := by
    have hmem : a ∈ n.parts := Node.mem_parts_of_mem_work (hwork ▸ List.mem_cons_self)
    exact resolve_wellMade hw (Node.everywhere_part hnode hmem) ht
  rintro m y ⟨n', hn', hy⟩
  cases hn.symm.trans hn'
  cases hy with
  | prerequisite hmem => exact hown y (List.mem_append_left _ hmem)
  | declared _ hmem => exact hown y (List.mem_append_right _ hmem)
  | @part _ _ before after p t' _ _ hsplit hbefore ht' hy =>
      rcases List.cons_eq_append_iff.mp (hwork.symm.trans hsplit) with ⟨rfl, hfirst⟩ |
        ⟨front, rfl, -⟩
      · -- only the first part is reached
        cases hfirst
        cases ht.symm.trans ht'
        exact not_pending_of_plain hw hmade hplain hy
      · -- a later one would be reached only behind a first one that is accepted
        obtain ⟨t', ht', hvalid⟩ := hbefore habort a List.mem_cons_self
        cases ht.symm.trans ht'
        exact absurd (hvalid.sound.tests x hx) hfails

/-- An object whose second field is never decided at once. -/
def remoteBehind : Recipe :=
  .make .object [.shape [("a", .make .number [.required]), ("b", remoteCheck)] []]

/-- The first field fails, so that the call that stops at the first failure does not come
    to the pending test behind it; neither does a call at the path of the first field. -/
theorem validate_agrees_with_sync_remote :
    ∃ s e u, initial.build none remoteBehind = .ok s ∧
      initial.validateSync s (some (.obj [])) asGiven = .error (.violation e) ∧
      (e.path = some "a" ∧ e.kind = some "required") ∧
      (∀ r, (initial.validateJob s (some (.obj [])) asGiven false).Ends r ↔
        r = .error (.violation e)) ∧
      initial.validateSyncAt s "a" (.obj []) .none = .error (.violation u) ∧
      initial.validateAt s "a" (.obj []) .none = .error (.violation u) := by
  obtain ⟨s, n, a, b, t, x, z, e, u, hs, hn, hwork, htests, hz, habort, ha, hkind, hunconditional,
      hx, hpass, hfails, he, hplace, hu, reached, below, hat, hreached⟩ :
      ∃ s n a b t x z e u, initial.build none remoteBehind = .ok s ∧
        initial.enter (root s (some (.obj [])) asGiven) = .ok n ∧
        n.work = [a, b] ∧ n.tests = [z] ∧ (z.outcome n.subject).isPending = false ∧
        n.mode.abortEarly = true ∧ initial.resolve a.schema a.value a.options = .ok t ∧
        t.kind = .number ∧ t.conditions = [] ∧ t.traits.tests = [x] ∧
        (∀ subject, (x.outcome subject).isPending = false) ∧
        x.outcome (a.node t).subject = .fail ∧
        initial.validateSync s (some (.obj [])) asGiven = .error (.violation e) ∧
        (e.path = some "a" ∧ e.kind = some "required") ∧
        initial.validateSyncAt s "a" (.obj []) .none = .error (.violation u) ∧
        ∃ reached below, initial.atPath s "a" (.obj []) .none = .ok (reached, below) ∧
          reached.schema = t := by
    refine ⟨_, _, _, _, _, _, _, _, _, rfl, rfl, rfl, rfl, rfl, rfl, rfl, rfl, rfl, rfl, ?_, rfl,
      rfl, ⟨rfl, rfl⟩, rfl, _, _, rfl, rfl⟩
    exact fun subject => Check.judge_isPending .present _
  have hobtained : s.Obtained := .built Schema.Obtained.stored_initial hs
  have hequipped : initial.Equipped .all := Reachable.initial.equipped
  have hplain : t.Everywhere Schema.Plain := by
    refine .of_children ⟨by simp [hkind], hunconditional, ?_⟩ ⟨by simp [hkind], by simp [hkind]⟩
      (by simp [hunconditional])
    rw [hx]
    simpa using hpass
  have hwhole : initial.NothingPending s (some (.obj [])) asGiven := by
    refine nothingPending_of_first_fails hequipped hobtained.wellMade hn habort ?_ hwork ha hplain
      (x := x) ?_ ?_
    · rw [htests]
      simpa using hz
    · rw [hx]
      exact List.mem_singleton_self x
    · simp [hfails]
  have hbelow : ∀ reached below, initial.atPath s "a" (.obj []) .none = .ok (reached, below) →
      initial.NothingPending reached.schema reached.value below := by
    intro reached' below' hat'
    cases hat.symm.trans hat'
    have hmade := atPath_wellMade hequipped hobtained.wellMade hat
    exact nothingPending_of_plain hequipped hmade (hreached ▸ hplain) _ _
  obtain ⟨hends, hsame⟩ := validate_agrees_with_sync .initial hobtained
  have hat := hsame _ _ _ hbelow
  refine ⟨s, e, u, hs, he, hplace, fun r => ?_, hu, hat.trans hu⟩
  rw [hends _ _ hwhole r, he, eq_comm]

end Workshop

end Conform
