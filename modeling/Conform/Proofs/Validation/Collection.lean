/-
  Conform.Proofs.Validation.Collection

  When all failures are collected, the report of a node is a concatenation: the
  violations of its parts in the order in which the parts are declared or stand,
  and behind them its own. Every violation that is found is reported once, and
  nothing else is.
-/

import Conform.Proofs.Violation
import Conform.Proofs.Validation.Acceptance

namespace Conform

-- ============================================================================
-- Violations of a node
-- ============================================================================

namespace Test

/-- The violation that a test reports of a value. -/
def violation? (t : Test) (subject : Subject) : Option Violation :=
  match t.outcome subject with
  | .pass => none
  | .fail => some (t.plainViolation subject)
  | .error v => some v
  | .pending _ _ => none

/-- Whether a test asks a built-in check. -/
def asksCheck (t : Test) : Bool := t.predicate matches .check _

theorem run_violation? (t : Test) (subject : Subject) :
    (t.run true subject).violation? = t.violation? subject := by
  rw [run, violation?]
  cases t.outcome subject <;> rfl

theorem run_isMistake {t : Test} {subject : Subject} :
    (t.run true subject).result.IsMistake ↔ (t.outcome subject).isPending = true := by
  rw [run]
  cases t.outcome subject with
  | pass => simp [Outcome.isPending, Outcome.settle, Result.not_isMistake_ok]
  | fail => simp [Outcome.isPending, Outcome.settle, Result.not_isMistake_violation]
  | error v => simp [Outcome.isPending, Outcome.settle, Result.not_isMistake_violation]
  | pending rounds later =>
      simp only [Outcome.isPending, Bool.and_self, if_true, Job.fail_result, iff_true]
      exact ⟨_, rfl, by simp⟩

/-- A test reports a leaf if its predicate does where it reports something of its own. -/
theorem isLeaf_of_violation? {t : Test} {subject : Subject}
    (hleaf : ∀ v, t.outcome subject = .error v → v.IsLeaf) {v : Violation}
    (h : t.violation? subject = some v) : v.IsLeaf := by
  rw [violation?] at h
  split at h
  · exact absurd h (by simp)
  · cases h
    exact TestContext.isLeaf_violation _ _
  · next u houtcome =>
      cases h
      exact hleaf v houtcome
  · exact absurd h (by simp)

end Test

namespace Node

/-- What tests report of the value of the node, in their order. -/
def failing (n : Node) (tests : List Test) : List Violation :=
  tests.filterMap fun t => t.violation? n.subject

/-- The tests that run: those of type and lists, and the declared ones if none of
    the former fails. -/
def invoked (n : Node) : List Test :=
  n.schema.traits.prerequisites ++
    if n.failing n.schema.traits.prerequisites = [] then n.schema.traits.tests else []

/-- What the own checks report. -/
def ownViolations (n : Node) : List Violation :=
  if n.failing n.schema.traits.prerequisites = [] then n.failing n.schema.traits.tests
  else n.failing n.schema.traits.prerequisites

/-- What is reported of a node: the violations of its parts in their order, and
    behind them its own. Parts whose schemas do not resolve have none. -/
def violations (w : Workshop) (n : Node) : List Violation :=
  (n.parts.attach.flatMap fun p =>
    match w.resolve p.1.schema p.1.value p.1.options with
    | .ok t => violations w (p.1.node t)
    | .error _ => []) ++ n.ownViolations
termination_by Value.heightOf n.value
decreasing_by exact Node.heightOf_part p.2

end Node

/-- What is reported of a part. -/
def Part.violations (w : Workshop) (p : Part) : List Violation :=
  match w.resolve p.schema p.value p.options with
  | .ok t => (p.node t).violations w
  | .error _ => []

/-- Whether a validation of a node comes to another node. -/
inductive Node.Visits (w : Workshop) : Node → Node → Prop where
  | here {n : Node} : Visits w n n
  | part {n m : Node} {p : Part} {t : Schema} :
      p ∈ n.parts → w.resolve p.schema p.value p.options = .ok t → Visits w (p.node t) m →
      Visits w n m

/-- What resolution keeps of schemas holds of all that a validation comes to. -/
theorem Node.Visits.everywhere {w : Workshop} {N : Schema → Prop} {n m : Node}
    (hN : ∀ {s t : Schema} {value : Option Value} {options : CallOptions}, s.Everywhere N →
      w.resolve s value options = .ok t → t.Everywhere N)
    (hm : n.Visits w m) (hn : n.schema.Everywhere N) : m.schema.Everywhere N := by
  induction hm with
  | here => exact hn
  | part hp ht _ ih => exact ih (hN (Node.everywhere_part hn hp) ht)

theorem Workshop.visits_wellMade {C : RecipeClass} {w : Workshop} (hw : w.Equipped C) {n m : Node}
    (hm : n.Visits w m) (hn : n.schema.WellMade C) : m.schema.WellMade C :=
  hm.everywhere (resolve_wellMade hw) hn

namespace Node

variable {w : Workshop} {n : Node}

theorem violations_eq (w : Workshop) (n : Node) :
    n.violations w = n.parts.flatMap (Part.violations w) ++ n.ownViolations := by
  rw [violations]
  congr 1
  exact List.flatMap_subtype (fun p _ => rfl) |>.trans (by rw [List.unattach_attach])

theorem part_violations {p : Part} {t : Schema}
    (ht : w.resolve p.schema p.value p.options = .ok t) :
    p.violations w = (p.node t).violations w := by
  simp [Part.violations, ht]

/-- What is reported of a node is what the own checks report of the nodes that the
    validation comes to. -/
theorem mem_violations {v : Violation} :
    v ∈ n.violations w ↔ ∃ m, n.Visits w m ∧ v ∈ m.ownViolations := by
  constructor
  · intro h
    induction hheight : Value.heightOf n.value using Nat.strongRecOn generalizing n with
    | ind height ih =>
        rw [violations_eq] at h
        rcases List.mem_append.mp h with hparts | hown
        · obtain ⟨p, hp, hv⟩ := List.mem_flatMap.mp hparts
          cases ht : w.resolve p.schema p.value p.options with
          | error e =>
              rw [Part.violations, ht] at hv
              exact absurd hv (by simp)
          | ok t =>
              rw [part_violations ht] at hv
              have hlt := Node.heightOf_part hp
              obtain ⟨m, hm, hown⟩ := ih (Value.heightOf p.value) (by omega) hv rfl
              exact ⟨m, .part hp ht hm, hown⟩
        · exact ⟨n, .here, hown⟩
  · rintro ⟨m, hm, hv⟩
    induction hm with
    | here =>
        rw [violations_eq]
        exact List.mem_append_right _ hv
    | part hp ht _ ih =>
        rw [violations_eq]
        refine List.mem_append_left _ (List.mem_flatMap.mpr ⟨_, hp, ?_⟩)
        rw [part_violations ht]
        exact ih hv

theorem Visits.eq_of_parts {m : Node} (hm : n.Visits w m) (h : n.parts = []) : m = n := by
  cases hm with
  | here => rfl
  | part hp _ _ => exact absurd (h ▸ hp) (by simp)

/-- A node without parts is all that its validation comes to. -/
theorem visits_of_parts_eq_nil {P : Node → Prop} (h : n.parts = []) (hn : P n) :
    ∀ m, n.Visits w m → P m :=
  fun _ hm => hm.eq_of_parts h ▸ hn

/-- What a validation comes to is the node itself, or what a part of it comes to. -/
@[elab_as_elim]
theorem Visits.of_parts {w : Workshop} {n m : Node} {P : Node → Prop} (hm : n.Visits w m)
    (hn : P n) (hparts : ∀ p ∈ n.parts, ∃ t, w.resolve p.schema p.value p.options = .ok t ∧
      ∀ m, (p.node t).Visits w m → P m) : P m := by
  cases hm with
  | here => exact hn
  | part hp ht hm =>
      obtain ⟨t, ht', hbelow⟩ := hparts _ hp
      cases ht.symm.trans ht'
      exact hbelow _ hm

/-! ## Own checks -/

theorem mem_ownViolations {v : Violation} (h : v ∈ n.ownViolations) :
    ∃ t ∈ n.invoked, t.violation? n.subject = some v := by
  rw [ownViolations] at h
  rw [invoked]
  split at h
  · next hnil =>
      obtain ⟨t, ht, hv⟩ := List.mem_filterMap.mp h
      rw [if_pos hnil]
      exact ⟨t, List.mem_append_right _ ht, hv⟩
  · obtain ⟨t, ht, hv⟩ := List.mem_filterMap.mp h
    exact ⟨t, List.mem_append_left _ ht, hv⟩

/-- Violations are leaves if those are that predicates report. -/
theorem isLeaf_of_mem_violations
    (hleaf : ∀ m, n.Visits w m → ∀ x ∈ m.invoked, ∀ v, x.outcome m.subject = .error v → v.IsLeaf) :
    ∀ v ∈ n.violations w, v.IsLeaf := by
  intro v hv
  obtain ⟨m, hm, hown⟩ := mem_violations.mp hv
  obtain ⟨x, hx, hviolation⟩ := mem_ownViolations hown
  exact Test.isLeaf_of_violation? (hleaf m hm x hx) hviolation

/-- Whether the tests that run ask built-in checks. -/
def Checked (n : Node) : Prop := ∀ x ∈ n.invoked, ∃ c, x.predicate = .check c

theorem checked_of_all
    (h : (n.schema.traits.prerequisites ++ n.schema.traits.tests).all Test.asksCheck = true) :
    n.Checked := by
  intro x hx
  have hmem : x ∈ n.schema.traits.prerequisites ++ n.schema.traits.tests := by
    rw [invoked] at hx
    split at hx
    · exact hx
    · exact List.mem_append_left _ (by simpa using hx)
  have hcheck := List.all_eq_true.mp h x hmem
  rw [Test.asksCheck] at hcheck
  split at hcheck
  · next c hc => exact ⟨c, hc⟩
  · exact absurd hcheck (by simp)

theorem Checked.wait (h : n.Checked) :
    ∀ x ∈ n.invoked, (x.outcome n.subject).isPending = false := by
  intro x hx
  obtain ⟨c, hc⟩ := h x hx
  rw [Test.outcome, hc]
  exact c.judge_isPending _

theorem Checked.isLeaf (h : n.Checked) :
    ∀ x ∈ n.invoked, ∀ v, x.outcome n.subject = .error v → v.IsLeaf := by
  intro x hx v hv
  obtain ⟨c, hc⟩ := h x hx
  rw [Test.outcome, hc] at hv
  exact Check.isLeaf_of_judge hv

theorem ownPolicy_run (habort : n.mode.abortEarly = false) {tests : List Test}
    (hwait : ∀ t ∈ tests, (t.outcome n.subject).isPending = false) :
    (n.ownPolicy.run (tests.map fun t => t.run true n.subject)).result =
      if n.failing tests = [] then .ok ()
      else .error (.violation (Violation.collect (n.failing tests) n.value n.options.path)) := by
  have hmistake : ∀ job ∈ tests.map fun t => t.run true n.subject, ¬ job.result.IsMistake := by
    intro job hjob
    obtain ⟨t, ht, rfl⟩ := List.mem_map.mp hjob
    rw [Test.run_isMistake, hwait t ht]
    simp
  have hfound : (tests.map fun t => t.run true n.subject).filterMap Job.violation? =
      n.failing tests := by
    rw [List.filterMap_map]
    exact List.filterMap_congr fun t _ => t.run_violation? n.subject
  have hsort : n.ownPolicy.sortRanked (n.failing tests) = n.failing tests :=
    Policy.sortRanked_of_forall_eq (n := 0) fun _ _ => rfl
  have hbefore : n.ownPolicy.before = [] := rfl
  rw [Policy.run_of_collects habort, Policy.collected_of_not_isMistake hmistake, hfound, hsort,
    hbefore, List.append_nil]
  rfl

/-- The own checks report their violations in one collection. -/
theorem own_result (habort : n.mode.abortEarly = false)
    (hwait : ∀ t ∈ n.invoked, (t.outcome n.subject).isPending = false) :
    (n.own true).result =
      if n.ownViolations = [] then .ok ()
      else .error (.violation (Violation.collect n.ownViolations n.value n.options.path)) := by
  have hpre := ownPolicy_run habort fun t ht => hwait t (List.mem_append_left _ ht)
  rw [own_eq, Job.bind_result, prerequisiteJobs, hpre, ownViolations]
  split
  · next hnone =>
      have htests : ∀ t ∈ n.schema.traits.tests, (t.outcome n.subject).isPending = false := by
        intro t ht
        refine hwait t (List.mem_append_right _ ?_)
        rw [if_pos hnone]
        exact ht
      exact ownPolicy_run habort htests
  · rfl

end Node

-- ============================================================================
-- Reports
-- ============================================================================

/-- What the job of a part ends with when all failures are collected. -/
def Part.report (w : Workshop) (p : Part) : Result (Option Value) :=
  if p.violations w = [] then .ok p.value
  else .error (.violation (Violation.collect (p.violations w) p.value p.options.path))

/-- What a run ends with when all failures are collected. -/
def Node.report (w : Workshop) (n : Node) : Result (Option Value) :=
  if n.violations w = [] then .ok n.value
  else .error (.violation (Violation.collect (n.violations w) n.value n.options.path))

namespace Node

/-- The violation of the own checks that is carried on to the parts. -/
def found (n : Node) : List Violation :=
  Violation.collected n.ownViolations n.value n.options.path

variable {w : Workshop} {n : Node} {validatePart : ValidatePart}

theorem Plan.jobs_violation? (plan : n.Plan)
    (hparts : ∀ p ∈ n.parts, (p.job validatePart).result = p.report w) :
    (∀ job ∈ plan.jobs validatePart, ¬ job.result.IsMistake) ∧
      (plan.jobs validatePart).filterMap Job.violation? =
        (plan.work.filter fun p => !(p.violations w).isEmpty).map fun p =>
          Violation.collect (p.violations w) p.value p.options.path := by
  have hwork : ∀ p ∈ plan.work, (p.job validatePart).discard.result =
      if p.violations w = [] then .ok ()
      else .error (.violation (Violation.collect (p.violations w) p.value p.options.path)) := by
    intro p hp
    have hp' := hparts p (plan.perm.mem_iff.mp hp)
    rw [Job.discard, hp', Part.report]
    split <;> rfl
  refine ⟨?_, ?_⟩
  · intro job hjob
    obtain ⟨p, hp, rfl⟩ := List.mem_map.mp hjob
    rw [hwork p hp]
    split
    · exact Result.not_isMistake_ok _
    · exact Result.not_isMistake_violation _
  · rw [Plan.jobs, List.filterMap_map, ← List.filterMap_eq_map, ← List.filterMap_eq_filter,
      List.filterMap_filterMap]
    refine List.filterMap_congr fun p hp => ?_
    show Job.violation? (p.job validatePart).discard = _
    rw [Job.violation?, hwork p hp]
    cases hfound : p.violations w <;> simp [Option.guard, hfound]

/-- The parts and what was found before are reported together. -/
theorem partsJob_result (hshape : ∀ shape, n.schema.kind = .object shape → shape.Ordered)
    (habort : n.mode.abortEarly = false)
    (hparts : ∀ p ∈ n.parts, (p.job validatePart).result = p.report w) :
    (n.partsJob validatePart n.found).result = n.report w := by
  rw [partsJob, report, violations_eq]
  rcases n.validateParts_eq hshape with ⟨hnone, hfinish⟩ | ⟨plan, -, hplan⟩
  · rw [hfinish, hnone, List.flatMap_nil, List.nil_append]
    by_cases hown : n.ownViolations = []
    · have hfound : n.found = [] := Violation.collected_eq_nil.mpr hown
      rw [if_pos hown, hfound, Visit.finish_of_nil rfl]
      rfl
    · have hfound : n.found = [Violation.collect n.ownViolations n.value n.options.path] := by
        rw [found, Violation.collected, if_neg hown]
      rw [if_neg hown, hfound, Visit.finish_of_cons rfl]
      rfl
  · obtain ⟨hmistake, hviolations⟩ := plan.jobs_violation? (w := w) hparts
    have hsort := plan.sorts (plan.policy n.found) rfl (fun p => !(p.violations w).isEmpty)
      (fun p => Violation.collect (p.violations w) p.value p.options.path) fun _ _ => rfl
    have hbefore : (plan.policy n.found).before =
        Violation.collected n.ownViolations n.value n.options.path := rfl
    have hempty : n.parts.flatMap (fun p => Violation.collected (p.violations w) p.value
          p.options.path) ++ Violation.collected n.ownViolations n.value n.options.path = [] ↔
        n.parts.flatMap (Part.violations w) ++ n.ownViolations = [] := by
      simp only [List.append_eq_nil_iff, List.flatMap_eq_nil_iff, Violation.collected_eq_nil]
    rw [hplan, Job.bind_result, Policy.run_of_collects habort,
      Policy.collected_of_not_isMistake hmistake, hviolations, hsort,
      Violation.map_filter_collect (Part.violations w) Part.value (fun p => p.options.path),
      hbefore]
    by_cases hnil : n.parts.flatMap (Part.violations w) ++ n.ownViolations = []
    · rw [if_pos (hempty.mpr hnil), if_pos hnil]
      rfl
    · rw [if_neg (fun h => hnil (hempty.mp h)), if_neg hnil]
      have hcollect := Violation.collect_collected (Part.violations w) Part.value
        (fun p => p.options.path) n.parts n.ownViolations n.value n.options.path
      exact congrArg (fun v => Except.error (Failure.violation v)) hcollect

/-- A node that has no parts to carry its own violations to has no parts. -/
theorem parts_of_not_isComposite (h : n.schema.tag.isComposite = false) : n.parts = [] := by
  rw [List.eq_nil_iff_forall_not_mem]
  intro p hp
  rcases mem_parts_cases hp with ⟨shape, fields, hkind, -⟩ | ⟨element, items, hkind, -⟩
  · rw [Schema.tag, hkind] at h
    exact absurd h (by simp [Kind.tag, KindTag.isComposite])
  · rw [Schema.tag, hkind] at h
    exact absurd h (by simp [Kind.tag, KindTag.isComposite])

/-- A run reports the violations of the parts and then those of the node. -/
theorem run_result (hshape : ∀ shape, n.schema.kind = .object shape → shape.Ordered)
    (habort : n.mode.abortEarly = false)
    (hwait : ∀ t ∈ n.invoked, (t.outcome n.subject).isPending = false)
    (hparts : ∀ p ∈ n.parts, (p.job validatePart).result = p.report w) :
    (n.run true validatePart).result = n.report w := by
  have hown := own_result habort hwait
  have hrest := partsJob_result hshape habort hparts
  cases hcomposite : n.schema.tag.isComposite with
  | true =>
      have hcollects : n.collects = true := by simp [collects, hcomposite, habort]
      rw [found, Violation.collected] at hrest
      split at hown
      · next hnil =>
          rw [if_pos hnil] at hrest
          rw [run_of_own_ok hown, hrest]
      · next hsome =>
          rw [if_neg hsome] at hrest
          rw [run_of_own_violation hown hcollects, hrest]
  | false =>
      have hcollects : n.collects = false := by simp [collects, hcomposite]
      have hviolations : n.violations w = n.ownViolations := by
        rw [violations_eq, parts_of_not_isComposite hcomposite]
        rfl
      split at hown
      · next hnil =>
          rw [found, Violation.collected, if_pos hnil] at hrest
          rw [run_of_own_ok hown, hrest]
      · next hsome =>
          rw [run_of_own_error hown fun _ => hcollects, report, hviolations, if_neg hsome]

end Node

namespace Workshop

variable {C : RecipeClass} {w : Workshop}

/-- When all failures are collected, a run ends with the report of its node. The
    induction is on the depth that the run may go down by. -/
theorem run_eq_report (hw : w.Equipped C) {depth : Nat} {n : Node} (hn : n.schema.WellMade C)
    (hdepth : Value.heightOf n.value ≤ depth) (habort : n.options.abortEarly = some false)
    (hwait : ∀ m, n.Visits w m → ∀ t ∈ m.invoked, (t.outcome m.subject).isPending = false)
    (hresolve : ∀ m, n.Visits w m → ∀ p ∈ m.parts,
      ∃ t, w.resolve p.schema p.value p.options = .ok t) :
    (n.run true (w.validateWithin true depth)).result = n.report w := by
  have hmode := Node.mode_abortEarly habort
  induction depth generalizing n with
  | zero =>
      refine Node.run_result hn.here.shape hmode (hwait n .here) fun p hp => ?_
      have hlt := Node.heightOf_part hp
      omega
  | succ depth ih =>
      refine Node.run_result hn.here.shape hmode (hwait n .here) fun p hp => ?_
      obtain ⟨t, ht⟩ := hresolve n .here p hp
      have hlt := Node.heightOf_part hp
      have hmade := resolve_wellMade hw (Node.everywhere_part hn hp) ht
      have hoptions : (p.node t).options.abortEarly = some false :=
        (Node.abortEarly_part hp).trans habort
      have hrun : ((p.node t).run true (w.validateWithin true depth)).result =
          (p.node t).report w := by
        refine ih hmade ?_ hoptions (fun m hm => hwait m (.part hp ht hm))
          (fun m hm => hresolve m (.part hp ht hm)) ?_
        · show Value.heightOf p.value ≤ depth
          omega
        · exact Node.mode_abortEarly hoptions
      rw [part_result (Node.strict_part hp), ht, Part.report, Node.part_violations ht]
      exact hrun

/-- When all failures are collected, a call ends with the report of the node that it
    enters. -/
theorem validateSync_eq_report (hw : w.Equipped C) {s : Schema} (hs : s.WellMade C)
    {value : Option Value} {options : CallOptions} (habort : options.abortEarly = some false)
    {n : Node} (hn : w.enter (root s value options) = .ok n)
    (hwait : ∀ m, n.Visits w m → ∀ x ∈ m.invoked, (x.outcome m.subject).isPending = false)
    (hresolve : ∀ m, n.Visits w m → ∀ p ∈ m.parts,
      ∃ t, w.resolve p.schema p.value p.options = .ok t) :
    w.validateSync s value options = n.report w := by
  have hoptions : n.options.abortEarly = some false := by
    rw [enter_options hn]
    exact habort
  rw [validateSync_eq hw hs, hn]
  exact run_eq_report hw (enter_wellMade hw hs hn) (Nat.le_refl _) hoptions hwait hresolve

/-- Every failure is reported exactly once, in a fixed order, when all failures are
    collected: parts in the order of their declaration, then the node itself. The
    value has to get through its cast, and no schema may fail to resolve. -/
theorem validateSync_collects {w : Workshop} (hw : w.Reachable .all) {s : Schema}
    (hs : s.Made .all) {value r : Option Value} {options : CallOptions} {t : Schema}
    (habort : options.abortEarly = some false) (ht : w.resolve s value options = .ok t)
    (hcast : w.checkedValue t (Mode.of options t.traits.options).strict value options = .ok r)
    {n : Node} (hn : n = { schema := t, value := r, raw := rawOf value none, options })
    (hwait : ∀ m, n.Visits w m → ∀ x ∈ m.invoked, (x.outcome m.subject).isPending = false)
    (hleaf : ∀ m, n.Visits w m → ∀ x ∈ m.invoked, ∀ v, x.outcome m.subject = .error v → v.IsLeaf)
    (hresolve : ∀ m, n.Visits w m → ∀ p ∈ m.parts,
      ∃ u, w.resolve p.schema p.value p.options = .ok u) :
    ((∃ e, w.validateSync s value options = .error e) ↔ n.violations w ≠ []) ∧
      (n.violations w ≠ [] → ∃ err, w.validateSync s value options = .error (.violation err) ∧
        err.inner = n.violations w ∧ err.errors = (n.violations w).map Violation.message) := by
  have henter : w.enter (root s value options) = .ok n := by
    subst hn
    exact bind_eq_ok.mpr ⟨t, ht, bind_eq_ok.mpr ⟨r, hcast, rfl⟩⟩
  have hmade := enter_wellMade hw.equipped hs.wellMade henter
  have hoptions : n.options.abortEarly = some false := by
    subst hn
    exact habort
  have hresult : w.validateSync s value options = n.report w := by
    rw [validateSync_eq hw.equipped hs.wellMade, henter]
    exact run_eq_report hw.equipped hmade (Nat.le_refl _) hoptions hwait hresolve
  have hleaves := Node.isLeaf_of_mem_violations hleaf
  rw [hresult, Node.report]
  split
  · next hnil => simp [hnil]
  · next hsome =>
      refine ⟨by simp [hsome], fun _ => ⟨_, rfl, ?_, ?_⟩⟩
      · exact Violation.flatMap_leaves hleaves
      · exact Violation.flatMap_errors hleaves

/-- A call that asserts the type of its cast gets no collection when the cast has
    another type, whatever the violations might be. -/
theorem validateSync_assert_not_collects :
    ¬ ∃ errs : List Violation,
      ((∃ e, initial.validateSync (.fresh .standard .number) (some (.str "abc"))
        { CallOptions.none with abortEarly := some false, assertType := some true } = .error e) ↔
        errs ≠ []) ∧
      (errs ≠ [] → ∃ err, initial.validateSync (.fresh .standard .number) (some (.str "abc"))
        { CallOptions.none with abortEarly := some false, assertType := some true } =
          .error (.violation err) ∧ err.inner = errs) := by
  rintro ⟨errs, hfails, hcollected⟩
  have hmismatch : ∃ path kind shown result,
      initial.validateSync (.fresh .standard .number) (some (.str "abc"))
        { CallOptions.none with abortEarly := some false, assertType := some true } =
      .error (.castMismatch path kind shown result) := ⟨_, _, _, _, rfl⟩
  obtain ⟨path, kind, shown, result, hresult⟩ := hmismatch
  obtain ⟨err, herr, -⟩ := hcollected (hfails.mp ⟨_, hresult⟩)
  rw [hresult] at herr
  exact absurd herr (by simp)

/-- A period with the amounts booked in it. The end is declared before the start, which it
    reads. -/
def period : Recipe :=
  .make .object [.shape [
    ("end", .make .number [.required, .when [Reference.ofKey "start"]
      (.guarded (.equal (.int 0)) (some (.refine [.positive])) none)]),
    ("start", .make .number [.required]),
    ("amounts", .make .array [.element (.make .number [.positive])])] []]

/-- A period without its ends, and with amounts of which one is positive. -/
def openPeriod : Value := .obj [("amounts", .arr [.int 0, .int 1, .int (-1)])]

/-- Fields are worked on start first, and their violations are reported in the order of
    declaration, those of items in the order of the items. -/
theorem validateSync_collects_period :
    ∃ s shape err, initial.build none period = .ok s ∧ s.kind = .object shape ∧
      Dict.keys shape.fields = ["end", "start", "amounts"] ∧
      shape.order = ["start", "end", "amounts"] ∧
      initial.validateSync s (some openPeriod) strictly = .error (.violation err) ∧
      err.inner.map Violation.path =
        [some "end", some "start", some "amounts[0]", some "amounts[2]"] ∧
      err.errors = err.inner.map Violation.message := by
  obtain ⟨s, shape, n, a, b, c, d, e, f, ta, tb, tc, td, va, vb, vd, vf, hs, ⟨hkind, hkeys, horder⟩,
      hresolved, hn, hparts, ha, hb, hc, hcparts, hd, he, hf,
      ⟨haparts, hbparts, hdparts, heparts, hfparts⟩, hchecks,
      ⟨hnown, haown, hbown, hcown, hdown, heown, hfown⟩, hpaths⟩ :
      ∃ (s : Schema) (shape : Shape Schema) (n : Node) (a b c d e f : Part)
        (ta tb tc td : Schema) (va vb vd vf : Violation),
        initial.build none period = .ok s ∧
        (s.kind = .object shape ∧ Dict.keys shape.fields = ["end", "start", "amounts"] ∧
          shape.order = ["start", "end", "amounts"]) ∧
        initial.resolve s (some openPeriod) strictly = .ok s ∧
        n = ⟨s, some openPeriod, rawOf (some openPeriod) none, strictly⟩ ∧
        n.parts = [a, b, c] ∧
        initial.resolve a.schema a.value a.options = .ok ta ∧
        initial.resolve b.schema b.value b.options = .ok tb ∧
        initial.resolve c.schema c.value c.options = .ok tc ∧
        (c.node tc).parts = [d, e, f] ∧
        initial.resolve d.schema d.value d.options = .ok td ∧
        initial.resolve e.schema e.value e.options = .ok td ∧
        initial.resolve f.schema f.value f.options = .ok td ∧
        ((a.node ta).parts = [] ∧ (b.node tb).parts = [] ∧ (d.node td).parts = [] ∧
          (e.node td).parts = [] ∧ (f.node td).parts = []) ∧
        ([s, ta, tb, tc, td].all fun t =>
          (t.traits.prerequisites ++ t.traits.tests).all Test.asksCheck) = true ∧
        (n.ownViolations = [] ∧ (a.node ta).ownViolations = [va] ∧
          (b.node tb).ownViolations = [vb] ∧ (c.node tc).ownViolations = [] ∧
          (d.node td).ownViolations = [vd] ∧ (e.node td).ownViolations = [] ∧
          (f.node td).ownViolations = [vf]) ∧
        [va, vb, vd, vf].map Violation.path =
          [some "end", some "start", some "amounts[0]", some "amounts[2]"] :=
    ⟨_, _, _, _, _, _, _, _, _, _, _, _, _, _, _, _, _, rfl, ⟨rfl, rfl, rfl⟩, rfl, rfl, rfl, rfl,
      rfl, rfl, rfl, rfl, rfl, rfl, ⟨rfl, rfl, rfl, rfl, rfl⟩, rfl,
      ⟨rfl, rfl, rfl, rfl, rfl, rfl, rfl⟩, rfl⟩
  simp only [List.all_cons, Bool.and_eq_true] at hchecks
  obtain ⟨hsc, hac, hbc, hcc, hdc, -⟩ := hchecks
  have hvisits : ∀ m, n.Visits initial m → m.Checked ∧
      ∀ p ∈ m.parts, ∃ t, initial.resolve p.schema p.value p.options = .ok t := by
    have hleaf : ∀ {p : Part} {t : Schema}, (p.node t).parts = [] → (p.node t).Checked →
        ∀ m, (p.node t).Visits initial m → m.Checked ∧
          ∀ p ∈ m.parts, ∃ t, initial.resolve p.schema p.value p.options = .ok t :=
      fun hnone ht => Node.visits_of_parts_eq_nil hnone ⟨ht, by simp [hnone]⟩
    intro m hm
    refine hm.of_parts ⟨Node.checked_of_all (hn ▸ hsc), by simp [hparts, ha, hb, hc]⟩ ?_
    simp only [hparts, List.forall_mem_cons]
    refine ⟨⟨ta, ha, hleaf haparts (Node.checked_of_all hac)⟩,
      ⟨tb, hb, hleaf hbparts (Node.checked_of_all hbc)⟩, ⟨tc, hc, fun m hm => ?_⟩, by simp⟩
    refine hm.of_parts ⟨Node.checked_of_all hcc, by simp [hcparts, hd, he, hf]⟩ ?_
    simp only [hcparts, List.forall_mem_cons]
    exact ⟨⟨td, hd, hleaf hdparts (Node.checked_of_all hdc)⟩,
      ⟨td, he, hleaf heparts (Node.checked_of_all hdc)⟩,
      ⟨td, hf, hleaf hfparts (Node.checked_of_all hdc)⟩, by simp⟩
  have hviolations : n.violations initial = [va, vb, vd, vf] := by
    simp only [Node.violations_eq, hparts, hcparts, haparts, hbparts, hdparts, heparts, hfparts,
      List.flatMap_cons, List.flatMap_nil, Node.part_violations ha, Node.part_violations hb,
      Node.part_violations hc, Node.part_violations hd, Node.part_violations he,
      Node.part_violations hf, hnown, haown, hbown, hcown, hdown, heown, hfown]
    rfl
  obtain ⟨-, hreport⟩ := validateSync_collects .initial
    ⟨initial, none, period, .initial, trivial, hs⟩ rfl hresolved rfl hn
    (fun m hm => (hvisits m hm).1.wait) (fun m hm => (hvisits m hm).1.isLeaf)
    fun m hm => (hvisits m hm).2
  obtain ⟨err, herr, hinner, herrors⟩ := hreport (by simp [hviolations])
  rw [hviolations] at hinner herrors
  exact ⟨s, shape, err, hs, hkind, hkeys, horder, herr, hinner ▸ hpaths, hinner ▸ herrors⟩

end Workshop

end Conform
