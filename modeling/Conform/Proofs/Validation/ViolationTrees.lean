/-
  Conform.Proofs.Validation.ViolationTrees

  What calls report are trees that agree with their leaves. A run reports the value of
  its node: what one policy reports of tests or parts is the first tree that it comes to
  or a collection of trees, under whatever policies those were made, and either is a tree
  for the value of the run. A call that ends before its value is checked can only report
  what a function of the caller says in place of a schema.
-/

import Conform.Proofs.Validation.Surfacing

namespace Conform

-- ============================================================================
-- Tests
-- ============================================================================

namespace Outcome

/-- Whether a judgement comes, at once or later, to no violation of its own that is not
    a leaf. -/
def ReportsLeaves : Outcome → Prop
  | pass => True
  | fail => True
  | error v => v.IsLeaf
  | pending _ later => later.ReportsLeaves

theorem isLeaf_of_settle {o : Outcome} (ho : o.ReportsLeaves) {fallback v : Violation}
    (hfallback : fallback.IsLeaf) (h : (o.settle fallback).result = .error (.violation v)) :
    v.IsLeaf := by
  induction o with
  | pass => exact absurd h (by simp [settle])
  | fail =>
      cases h
      exact hfallback
  | error u =>
      cases h
      exact ho
  | pending rounds later ih => exact ih ho h

end Outcome

theorem Check.reportsLeaves_judge (c : Check) (ctx : TestContext) :
    (c.judge ctx).ReportsLeaves := by
  cases hjudge : c.judge ctx with
  | pass => trivial
  | fail => trivial
  | error v => exact isLeaf_of_judge hjudge
  | pending rounds later =>
      have hnever := c.judge_isPending ctx
      rw [hjudge] at hnever
      exact absurd hnever (by simp [Outcome.isPending])

theorem Test.isLeaf_of_run {x : Test} {sync : Bool} {subject : Subject}
    (hx : (x.outcome subject).ReportsLeaves) {v : Violation}
    (h : (x.run sync subject).result = .error (.violation v)) : v.IsLeaf := by
  rw [run] at h
  split at h
  · cases h
  · exact Outcome.isLeaf_of_settle hx (TestContext.isLeaf_violation _ _) h

-- ============================================================================
-- Policies
-- ============================================================================

/-- Whether a violation is a tree that reports a value. -/
structure Violation.IsTreeOf (value : Option Value) (v : Violation) : Prop where
  tree : v.IsTree
  value : v.value = value

/-- Where jobs report trees, and trees were found before, a run reports a tree for its own
    value. -/
theorem Policy.isTreeOf_of_run {p : Policy} {jobs : List (Job Unit)} {e : Violation}
    (hjobs : ∀ job ∈ jobs, ∀ v, job.result = .error (.violation v) → v.IsTree)
    (hbefore : ∀ v ∈ p.before, v.IsTree)
    (h : (p.run jobs).result = .error (.violation e)) : e.IsTreeOf p.value := by
  rcases exists_of_run_violation h with ⟨job, hjob, v, hv, rfl⟩ | ⟨found, hne, rfl, hfound⟩
  · exact ⟨(hjobs job hjob v hv).withValue p.value, rfl⟩
  · refine ⟨Violation.isTree_collect hne (fun v hv => ?_) _ _, rfl⟩
    rcases hfound v hv with hfirst | ⟨job, hjob, hresult⟩
    · exact hbefore v hfirst
    · exact hjobs job hjob v hresult

-- ============================================================================
-- Nodes
-- ============================================================================

namespace Node

variable {n : Node} {sync : Bool} {validatePart : ValidatePart} {e : Violation}

/-- Whether the declared tests of a node report leaves. -/
def ReportsLeaves (n : Node) : Prop :=
  ∀ x ∈ n.schema.traits.tests, (x.outcome n.subject).ReportsLeaves

theorem isTree_of_testJob {tests : List Test}
    (h : ∀ x ∈ tests, (x.outcome n.subject).ReportsLeaves) :
    ∀ job ∈ tests.map fun x => x.run sync n.subject,
      ∀ v, job.result = .error (.violation v) → v.IsTree := by
  intro job hjob v hv
  obtain ⟨x, hx, rfl⟩ := List.mem_map.mp hjob
  exact (Test.isLeaf_of_run (h x hx) hv).isTree

/-- The own checks report a tree for the value of the node. -/
theorem isTreeOf_of_own {C : RecipeClass} (hn : n.schema.Regular C) (htests : n.ReportsLeaves)
    (h : (n.own sync).result = .error (.violation e)) : e.IsTreeOf n.value := by
  have hbefore : ∀ v ∈ n.ownPolicy.before, v.IsTree :=
    fun v hv => absurd hv (by simp [ownPolicy, Policy.plain])
  have hpre : ∀ x ∈ n.schema.traits.prerequisites, (x.outcome n.subject).ReportsLeaves := by
    intro x hx
    obtain ⟨c, hc⟩ := check_of_prerequisite hn hx
    rw [Test.outcome, hc]
    exact c.reportsLeaves_judge _
  rw [own_eq, Job.bind_result] at h
  rcases bind_eq_error.mp h with hfirst | ⟨_, -, hsecond⟩
  · exact Policy.isTreeOf_of_run (isTree_of_testJob hpre) hbefore hfirst
  · exact Policy.isTreeOf_of_run (isTree_of_testJob htests) hbefore hsecond

/-- The parts report a tree for the value of the node, whatever tree they are handed. -/
theorem isTreeOf_of_partsJob
    (hshape : ∀ shape, n.schema.kind = .object shape → shape.Ordered)
    (hparts : ∀ p ∈ n.parts, ∀ v, (p.job validatePart).result = .error (.violation v) → v.IsTree)
    {found : List Violation} (hfound : ∀ v ∈ found, v.IsTreeOf n.value)
    (h : (n.partsJob validatePart found).result = .error (.violation e)) :
    e.IsTreeOf n.value := by
  rcases partsJob_eq_error hshape h with ⟨v, hv, he⟩ | ⟨plan, hrun⟩
  · cases he
    exact hfound _ hv
  · refine Policy.isTreeOf_of_run (p := plan.policy found) (fun job hjob v hv => ?_)
      (fun v hv => (hfound v hv).tree) hrun
    obtain ⟨p, hp, hfails⟩ := plan.exists_of_job_error hjob hv
    exact hparts p hp v hfails

/-- A run reports a tree for the value of its node. -/
theorem isTreeOf_of_run {C : RecipeClass} (hn : n.schema.Regular C) (htests : n.ReportsLeaves)
    (hparts : ∀ p ∈ n.parts, ∀ v, (p.job validatePart).result = .error (.violation v) → v.IsTree)
    (h : (n.run sync validatePart).result = .error (.violation e)) : e.IsTreeOf n.value := by
  rcases n.run_cases sync validatePart with ⟨-, hrun⟩ | ⟨v, hown, -, hrun⟩ | ⟨f, hown, -, hrun⟩
  · exact isTreeOf_of_partsJob hn.shape hparts (by simp) (hrun ▸ h)
  · have hv := isTreeOf_of_own hn htests hown
    exact isTreeOf_of_partsJob hn.shape hparts (fun u hu => List.mem_singleton.mp hu ▸ hv)
      (hrun ▸ h)
  · cases hrun.symm.trans h
    exact isTreeOf_of_own hn htests hown

/-- An array that collects, and has nothing to report of its own, collects the violations
    of its items in their order. -/
theorem run_items {element : Schema} {items : List Value} (hrecursive : n.mode.recursive = true)
    (habort : n.mode.abortEarly = false) (hkind : n.schema.kind = .array (.of element))
    (hvalue : n.value = some (.arr items)) (hown : (n.own sync).result = .ok ())
    {found : List Violation} (hne : found ≠ [])
    (hfound : Policy.violations (n.parts.map fun p => (p.job validatePart).discard) = .ok found) :
    (n.run sync validatePart).result =
      .error (.violation (Violation.collect found n.value n.options.path)) := by
  have hreport : (n.itemPlan.policy []).collected (n.itemPlan.jobs validatePart) =
      .error (.violation (Violation.collect found n.value n.options.path)) :=
    Policy.collected_of_found hfound (Policy.sortRanked_of_forall_eq (n := 0) fun _ _ => rfl) rfl hne
  rw [run_of_own_ok hown, partsJob, validateParts_array hrecursive hkind hvalue, Job.bind_result,
    Policy.run_of_collects habort, hreport]
  rfl

end Node

-- ============================================================================
-- Calls
-- ============================================================================

namespace Workshop

variable {w : Workshop} {s : Schema} {value : Option Value} {options : CallOptions} {e : Violation}

/-- Where the tests that a run comes to report leaves, and what keeps the schemas of parts
    from being resolved are trees, the run reports a tree for the value of its node. The
    induction is on the depth that the run may go down by. -/
theorem isTreeOf_of_validateWithin {C : RecipeClass} (hw : w.Equipped C) {n : Node}
    (hn : n.schema.WellMade C) {sync : Bool} {depth : Nat}
    (htests : ∀ m, n.Visits w m → m.ReportsLeaves)
    (hreports : ∀ m, n.Visits w m → ∀ p ∈ m.parts, ∀ v,
      p.evaluation.resolve w = .error (.violation v) → v.IsTree)
    (h : (n.run sync (w.validateWithin sync depth)).result = .error (.violation e)) :
    e.IsTreeOf n.value := by
  induction depth generalizing n e with
  | zero =>
      refine Node.isTreeOf_of_run hn.here (htests n .here) (fun p _ v hv => ?_) h
      cases hv
  | succ depth ih =>
      refine Node.isTreeOf_of_run hn.here (htests n .here) (fun p hp v hv => ?_) h
      rw [part_result (Node.strict_part hp)] at hv
      rcases bind_eq_error.mp hv with hresolve | ⟨t, ht, hrun⟩
      · exact hreports n .here p hp v hresolve
      · have hpart := resolve_wellMade hw (Node.everywhere_part hn hp) ht
        exact (ih hpart (fun m hm => htests m (.part hp ht hm))
          (fun m hm => hreports m (.part hp ht hm)) hrun).tree

/-- Violations are trees that agree with their leaves. Where the declared tests that a call
    comes to fail plainly or with leaves, and functions that report violations in place of
    schemas report trees, a call of either kind that ends with a violation, under whatever
    policies it went down, has collected leaves only, says what they say, and reports the
    value that was checked; unless it ended before that, with what such a function reports. -/
theorem reported_violations_are_trees (hw : w.Reachable .all) (hs : s.Obtained)
    (htests : ∀ n m, w.enter (root s value options) = .ok n → n.Visits w m → m.ReportsLeaves)
    (hreports : ∀ a v, w.Resolves s value options a → a.resolve w = .error (.violation v) →
      v.IsTree)
    (h : w.validate s value options = .error (.violation e) ∨
      w.validateSync s value options = .error (.violation e)) :
    (∀ u ∈ e.inner, u.inner = [] ∧ u.errors = [u.message]) ∧
      (e.inner = [] → e.errors = [e.message]) ∧
      (e.inner ≠ [] → e.errors = e.inner.map Violation.message) ∧
      (∀ u, e.inner = [u] → e.message = u.message) ∧
      (1 < e.inner.length → e.message = toString e.inner.length ++ " errors occurred") ∧
      ((∃ t, w.resolve s value options = .ok t ∧
          w.checkedValue t (Mode.of options t.traits.options).strict value options =
            .ok e.value) ∨
        ∃ a, w.EntryResolves s value options a ∧ a.resolve w = .error (.violation e)) := by
  obtain ⟨sync, hcall⟩ := call_eq_error hw.equipped hs.wellMade h
  have htree : e.IsTree ∧ ((∃ n, w.enter (root s value options) = .ok n ∧ e.value = n.value) ∨
      ∃ a, w.EntryResolves s value options a ∧ a.resolve w = .error (.violation e)) := by
    rcases bind_eq_error.mp hcall with henter | ⟨n, hn, hrun⟩
    · obtain ⟨a, ha, hresolve⟩ :=
        exists_entryResolves_of_enter_error (by simp) (by simp) henter
      exact ⟨hreports a e (.entry ha) hresolve, Or.inr ⟨a, ha, hresolve⟩⟩
    · have hmade := enter_wellMade hw.equipped hs.wellMade hn
      have htree : e.IsTreeOf n.value :=
        isTreeOf_of_validateWithin hw.equipped hmade (fun m hm => htests n m hn hm)
          (fun m hm p hp v hv => hreports p.evaluation v (.part hn hm hp) hv) hrun
      exact ⟨htree.tree, Or.inl ⟨n, hn, htree.value⟩⟩
  obtain ⟨hleaves, halone, herrors, hone, hmany⟩ := htree.1.contents
  refine ⟨hleaves, halone, herrors, hone, hmany, ?_⟩
  rcases htree.2 with ⟨n, hn, hvalue⟩ | hreported
  · obtain ⟨hresolve, hchecked⟩ := enter_eq_ok hn
    rw [Node.mode, enter_options hn] at hchecked
    exact Or.inl ⟨n.schema, hresolve, hvalue ▸ hchecked⟩
  · exact Or.inr hreported

/-- A lazy schema that reports a collection of nothing. -/
def emptyReport : Recipe := .plain (.lazy fun _ _ => .error (.violation (.collect [] none none)))

/-- What a function reports in place of a schema is handed on as it is, and no test takes part:
    neither need it have the value of the call, nor need it be a tree. -/
theorem reports_of_functions_stand :
    (∃ s e, initial.build none reportingCondition = .ok s ∧ s.Obtained ∧ s.traits.tests = [] ∧
      initial.validateSync s (some (.int 1)) .none = .error (.violation e) ∧ e.value = none) ∧
    ∃ s e, initial.build none emptyReport = .ok s ∧ s.Obtained ∧ s.traits.tests = [] ∧
      initial.validateSync s (some (.int 1)) .none = .error (.violation e) ∧
      e.inner = [] ∧ e.errors ≠ [e.message] :=
  ⟨⟨_, .leaf "refused" none none none, rfl, .built Schema.Obtained.stored_initial
      (rfl : initial.build none reportingCondition = .ok _), rfl, rfl, rfl⟩,
    ⟨_, .collect [] none none, rfl, .built Schema.Obtained.stored_initial
      (rfl : initial.build none emptyReport = .ok _), rfl, rfl, rfl, by decide⟩⟩

/-- What a call reports of an array that collects, and whose only check of its own passes. -/
theorem validateSync_items {C : RecipeClass} {w : Workshop} (hw : w.Equipped C) {s : Schema}
    (hs : s.WellMade C) {value : Option Value} {options : CallOptions} {n : Node}
    (hn : w.enter (root s value options) = .ok n) {element : Schema} {items : List Value}
    {x : Test} (hmode : n.mode.recursive = true ∧ n.mode.abortEarly = false)
    (hkind : n.schema.kind = .array (.of element)) (hvalue : n.value = some (.arr items))
    (hpre : n.schema.traits.prerequisites = [x]) (hpass : x.outcome n.subject = .pass)
    (htests : n.schema.traits.tests = []) {found : List Violation} (hne : found ≠ [])
    (hfound : Policy.violations (n.parts.map fun p =>
      (p.job (w.validateWithin true (Value.heightOf n.value))).discard) = .ok found) :
    w.validateSync s value options =
      .error (.violation (Violation.collect found n.value n.options.path)) := by
  have hown : (n.own true).result = .ok () :=
    Node.own_result_eq_ok.mpr ⟨by simpa [hpre] using hpass, by simp [htests]⟩
  rw [validateSync_eq hw hs, hn]
  exact Node.run_items hmode.1 hmode.2 hkind hvalue hown hne hfound

/-- A test that refuses every value with a violation of its own. -/
def refusal (say : TestContext → Violation) : TestDraft :=
  { name := some "refusal", exclusive := false, message := none, params := []
    judge := fun ctx => .error (say ctx) }

theorem reportsLeaves_refusal {x : Test}
    (h : ∃ mark say, x.predicate = .custom mark (refusal say).judge ∧ ∀ ctx, (say ctx).IsLeaf)
    (subject : Subject) : (x.outcome subject).ReportsLeaves := by
  obtain ⟨mark, say, hx, hleaf⟩ := h
  rw [Test.outcome, hx]
  exact hleaf _

/-- An array that collects the violations of its items, each of which stops at the first
    of two. -/
def refusedItems : Recipe :=
  .make .array [.options { NodeOptions.none with abortEarly := some false },
    .element (.make .mixed [.options { NodeOptions.none with abortEarly := some true },
      .test (.draft (refusal fun ctx => ctx.violation { Overrides.none with kind := some "refused" })),
      .test (.draft (refusal fun ctx => .leaf "refused" ctx.value ctx.subject.path none))])]

/-- Every item stops at one violation, and the array reports both of them in a tree. -/
theorem reported_violations_are_trees_items :
    ∃ s e, initial.build none refusedItems = .ok s ∧
      initial.validateSync s (some (.arr [.int 1, .int 2])) asGiven = .error (.violation e) ∧
      (∀ u ∈ e.inner, u.inner = [] ∧ u.errors = [u.message]) ∧
      e.errors = e.inner.map Violation.message ∧ e.message = "2 errors occurred" ∧
      e.value = some (.arr [.int 1, .int 2]) := by
  obtain ⟨s, n, b, c, t, x, y, z, v, u, hs, hn, hkind, hmode, hvalue, hpath, hpre, htyped, hntests,
      hparts, hb, hc, hbparts, hcparts, htests, hx, hy, hfound, hinner⟩ :
      ∃ s n b c t x y z v u, initial.build none refusedItems = .ok s ∧
        initial.enter (root s (some (.arr [.int 1, .int 2])) asGiven) = .ok n ∧
        n.schema.kind = .array (.of t) ∧
        (n.mode.recursive = true ∧ n.mode.abortEarly = false) ∧
        n.value = some (.arr [.int 1, .int 2]) ∧ n.options.path = none ∧
        n.schema.traits.prerequisites = [z] ∧ z.outcome n.subject = .pass ∧
        n.schema.traits.tests = [] ∧ n.parts = [b, c] ∧
        initial.resolve b.schema b.value b.options = .ok t ∧
        initial.resolve c.schema c.value c.options = .ok t ∧
        (b.node t).parts = [] ∧ (c.node t).parts = [] ∧ t.traits.tests = [x, y] ∧
        (∃ mark say, x.predicate = .custom mark (refusal say).judge ∧
          ∀ ctx, (say ctx).IsLeaf) ∧
        (∃ mark say, y.predicate = .custom mark (refusal say).judge ∧
          ∀ ctx, (say ctx).IsLeaf) ∧
        Policy.violations (n.parts.map fun p =>
          (p.job (initial.validateWithin true (Value.heightOf n.value))).discard) = .ok [v, u] ∧
        v.inner = [] ∧ u.inner = [] :=
    ⟨_, _, _, _, _, _, _, _, _, _, rfl, rfl, rfl, ⟨rfl, rfl⟩, rfl, rfl, rfl, rfl,
      rfl, rfl, rfl, rfl, rfl, rfl, rfl, ⟨_, _, rfl, fun ctx => ctx.isLeaf_violation _⟩,
      ⟨_, _, rfl, fun _ => Violation.isLeaf_leaf _ _ _ _⟩, rfl, rfl, rfl⟩
  have hobtained : s.Obtained := .built Schema.Obtained.stored_initial hs
  have hrefuses : ∀ z ∈ t.traits.tests, ∀ subject, (z.outcome subject).ReportsLeaves := by
    intro z hz subject
    rw [htests] at hz
    rcases List.mem_cons.mp hz with rfl | hlast
    · exact reportsLeaves_refusal hx subject
    · cases List.mem_singleton.mp hlast
      exact reportsLeaves_refusal hy subject
  have he : initial.validateSync s (some (.arr [.int 1, .int 2])) asGiven =
      .error (.violation (Violation.collect [v, u] n.value none)) := by
    rw [← hpath]
    exact validateSync_items Reachable.initial.equipped hobtained.wellMade hn hmode hkind hvalue
      hpre htyped hntests (by simp) hfound
  -- the items report leaves, and every schema that the call comes to resolves
  have hvisits : ∀ m, n.Visits initial m → m.ReportsLeaves ∧
      ∀ p ∈ m.parts, ∃ t, initial.resolve p.schema p.value p.options = .ok t := by
    intro m hm
    refine hm.of_parts ⟨fun z hz => absurd hz (by simp [hntests]), by simp [hparts, hb, hc]⟩ ?_
    simp only [hparts, List.forall_mem_cons]
    refine ⟨⟨t, hb, Node.visits_of_parts_eq_nil hbparts ?_⟩,
      ⟨t, hc, Node.visits_of_parts_eq_nil hcparts ?_⟩, by simp⟩
    · exact ⟨fun z hz => hrefuses z hz _, by simp [hbparts]⟩
    · exact ⟨fun z hz => hrefuses z hz _, by simp [hcparts]⟩
  have hreports : ∀ n' m, initial.enter (root s (some (.arr [.int 1, .int 2])) asGiven) = .ok n' →
      n'.Visits initial m → m.ReportsLeaves := by
    intro n' m hn' hm
    cases hn.symm.trans hn'
    exact (hvisits m hm).1
  have hresolves : ∀ a v, initial.Resolves s (some (.arr [.int 1, .int 2])) asGiven a →
      a.resolve initial = .error (.violation v) → v.IsTree := by
    intro a v ha hfails
    cases ha with
    | entry hentry =>
        exact absurd (hn.symm.trans (enter_of_entryResolves hentry hfails)) (by simp)
    | part hn' hm hp =>
        cases hn.symm.trans hn'
        obtain ⟨u, hu⟩ := (hvisits _ hm).2 _ hp
        exact absurd (hu.symm.trans hfails) (by simp)
  obtain ⟨hleaves, -, herrors, -, hmany, -⟩ :=
    reported_violations_are_trees .initial hobtained hreports hresolves (Or.inr he)
  have hboth : (Violation.collect [v, u] n.value none).inner = [v, u] := by
    simp [Violation.collect, Violation.leaves, hinner]
  refine ⟨s, _, hs, he, hleaves, herrors (by simp [hboth]), ?_, hvalue⟩
  have hcount : toString 2 ++ " errors occurred" = "2 errors occurred" := by decide
  rw [hmany (by simp [hboth]), hboth]
  exact hcount

end Workshop

end Conform
