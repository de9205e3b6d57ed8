/-
  Conform.Proofs.Validation.Agreement

  Stopping at the first violation and collecting all of them agree, for schemas
  whose functions are unaware of the policy: the same values are accepted, and what
  a call stops at is among what is collected.
-/

import Conform.Proofs.Validation.Unaware
import Conform.Proofs.Validation.ViolationTrees

namespace Conform

-- ============================================================================
-- Nodes under another policy
-- ============================================================================

/-- The node under another policy. -/
def Node.withAbort (n : Node) (abortEarly : Option Bool) : Node :=
  { n with options := n.options.withAbort abortEarly }

/-- The part under another policy. -/
def Part.withAbort (p : Part) (abortEarly : Option Bool) : Part :=
  { p with options := p.options.withAbort abortEarly }

/-- The tests of a schema made by unaware recipes are unaware. -/
theorem Schema.Regular.unaware_of_mem {s : Schema} (hs : s.Regular .unaware) {x : Test}
    (hx : x ∈ s.traits.prerequisites ∨ x ∈ s.traits.tests) : x.predicate.Unaware := by
  rcases hx with hpre | htest
  · obtain ⟨c, hc⟩ := Node.check_of_prerequisite hs hpre
    exact hc ▸ Predicate.BuiltIn.unaware (.check c)
  · exact hs.predicates x htest

namespace Node

variable {w : Workshop} {n : Node}

theorem parts_withAbort (n : Node) (abortEarly : Option Bool) :
    (n.withAbort abortEarly).parts = n.parts.map fun p => p.withAbort abortEarly := by
  have hmode : (n.withAbort abortEarly).mode.recursive = n.mode.recursive := rfl
  have hschema : (n.withAbort abortEarly).schema = n.schema := rfl
  have hvalue : (n.withAbort abortEarly).value = n.value := rfl
  unfold parts
  rw [hmode, hschema, hvalue]
  split
  · split
    · rw [List.map_map]
      rfl
    · rw [List.map_map]
      rfl
    · rfl
  · rfl

theorem outcome_withAbort {x : Test} (hx : x.predicate.Unaware) (n : Node)
    (abortEarly : Option Bool) :
    x.outcome (n.withAbort abortEarly).subject = x.outcome n.subject :=
  hx.judge_withAbort _ n.subject abortEarly

theorem violation?_withAbort {x : Test} (hx : x.predicate.Unaware) (n : Node)
    (abortEarly : Option Bool) :
    x.violation? (n.withAbort abortEarly).subject = x.violation? n.subject := by
  rw [Test.violation?, outcome_withAbort hx]
  rfl

theorem ownViolations_withAbort (hn : n.schema.Regular .unaware) (abortEarly : Option Bool) :
    (n.withAbort abortEarly).ownViolations = n.ownViolations := by
  have hfailing : ∀ tests, (∀ x ∈ tests, x.predicate.Unaware) →
      (n.withAbort abortEarly).failing tests = n.failing tests := by
    intro tests htests
    exact List.filterMap_congr fun x hx => violation?_withAbort (htests x hx) n abortEarly
  have hpre := hfailing n.schema.traits.prerequisites
    fun x hx => hn.unaware_of_mem (Or.inl hx)
  have htests := hfailing n.schema.traits.tests fun x hx => hn.unaware_of_mem (Or.inr hx)
  have hschema : (n.withAbort abortEarly).schema = n.schema := rfl
  unfold ownViolations
  rw [hschema, hpre, htests]

/-- What the own checks report are leaves. -/
theorem isLeaf_of_mem_ownViolations (hn : n.schema.Regular .unaware) {v : Violation}
    (hv : v ∈ n.ownViolations) : v.IsLeaf := by
  obtain ⟨x, hx, hviolation⟩ := mem_ownViolations hv
  have hall : x ∈ n.schema.traits.prerequisites ∨ x ∈ n.schema.traits.tests := by
    rw [invoked] at hx
    split at hx <;> simp_all
  exact x.isLeaf_of_violation? (fun u hu => (hn.unaware_of_mem hall).isLeaf _ u hu) hviolation

/-- A node that is valid is so under either policy. -/
theorem Valid.withAbort (hw : w.Equipped .unaware) (h : n.Valid w)
    (hn : n.schema.WellMade .unaware) (abortEarly : Option Bool) :
    (n.withAbort abortEarly).Valid w := by
  induction h with
  | @intro n hsound hresolves hvalid ih =>
      refine .of_parts ?_ ?_
      · refine ⟨hsound.typed, hsound.allowed, hsound.denied, fun x hx => ?_⟩
        rw [outcome_withAbort (hn.here.unaware_of_mem (Or.inr hx))]
        exact hsound.tests x hx
      · intro q hq
        rw [parts_withAbort] at hq
        obtain ⟨p, hp, rfl⟩ := List.mem_map.mp hq
        have hschema := everywhere_part hn hp
        obtain ⟨t, ht⟩ := hresolves p hp
        refine ⟨t, ?_, ih p hp t ht (Workshop.resolve_wellMade hw hschema ht)⟩
        exact (Workshop.resolve_withAbort hw hschema p.value p.options abortEarly).trans ht

end Node

namespace Workshop

variable {w : Workshop}

/-- The same node is entered under either policy. -/
theorem enter_withAbort (hw : w.Equipped .unaware) {p : Part} (hp : p.schema.WellMade .unaware)
    (abortEarly : Option Bool) :
    w.enter (p.withAbort abortEarly) = (w.enter p).map fun n => n.withAbort abortEarly := by
  have hresolve : w.resolve (p.withAbort abortEarly).schema (p.withAbort abortEarly).value
      (p.withAbort abortEarly).options = w.resolve p.schema p.value p.options :=
    resolve_withAbort hw hp p.value p.options abortEarly
  unfold enter
  rw [hresolve]
  cases ht : w.resolve p.schema p.value p.options with
  | error e => rfl
  | ok t =>
      have hmade := resolve_wellMade hw hp ht
      have hchecked : w.checkedValue t (Mode.of (p.withAbort abortEarly).options
            t.traits.options).strict p.value (p.withAbort abortEarly).options =
          w.checkedValue t (Mode.of p.options t.traits.options).strict p.value p.options := by
        have hstrict : (Mode.of (p.withAbort abortEarly).options t.traits.options).strict =
            (Mode.of p.options t.traits.options).strict := rfl
        have hcast := castResolved_withAbort hw (t.tag == .object) hmade p.value
          (castOptions p.options) abortEarly
        unfold checkedValue
        rw [hstrict]
        split
        · rfl
        · exact hcast
      simp only [bind, Except.bind]
      have hvalue : (p.withAbort abortEarly).value = p.value := rfl
      rw [hvalue, hchecked]
      cases w.checkedValue t (Mode.of p.options t.traits.options).strict p.value p.options <;> rfl

end Workshop

-- ============================================================================
-- Stopping at the first violation
-- ============================================================================

namespace Node

variable {w : Workshop} {n : Node} {validatePart : ValidatePart}

/-- Tests stop at the violation of one of them, with the value of the node. -/
theorem exists_of_ownPolicy_violation (habort : n.mode.abortEarly = true) {tests : List Test}
    {e : Violation}
    (h : (n.ownPolicy.run (tests.map fun x => x.run true n.subject)).result =
      .error (.violation e)) :
    ∃ v ∈ n.failing tests, ∃ value, e = { v with value } := by
  rw [Policy.run_of_abortEarly habort] at h
  obtain ⟨job, hjob, v, hv, rfl⟩ := Policy.exists_of_runFirst_violation h
  obtain ⟨x, hx, rfl⟩ := List.mem_map.mp hjob
  have hfound : x.violation? n.subject = some v := by
    rw [← x.run_violation?]
    exact Job.violation?_eq_some.mpr hv
  exact ⟨v, List.mem_filterMap.mpr ⟨x, hx, hfound⟩, _, rfl⟩

/-- The own checks stop at a violation that they report. -/
theorem exists_of_own_violation (habort : n.mode.abortEarly = true) {e : Violation}
    (h : (n.own true).result = .error (.violation e)) :
    ∃ v ∈ n.ownViolations, ∃ value, e = { v with value } := by
  rw [own_eq, Job.bind_result] at h
  rw [ownViolations]
  cases hpre : (n.ownPolicy.run (n.prerequisiteJobs true)).result with
  | error f =>
      rw [hpre] at h
      cases h
      obtain ⟨v, hv, hvalue⟩ := exists_of_ownPolicy_violation habort hpre
      have hsome : n.failing n.schema.traits.prerequisites ≠ [] := List.ne_nil_of_mem hv
      rw [if_neg hsome]
      exact ⟨v, hv, hvalue⟩
  | ok u =>
      rw [hpre] at h
      have hnil : n.failing n.schema.traits.prerequisites = [] := by
        have hall := (Policy.run_result_eq_ok.mp hpre).1
        refine List.filterMap_eq_nil_iff.mpr fun x hx => ?_
        rw [← x.run_violation?]
        exact Job.violation?_eq_none_of_ok (hall _ (List.mem_map_of_mem hx))
      rw [if_pos hnil]
      exact exists_of_ownPolicy_violation habort h

/-- The parts stop at the violation of one of them, with the value of the node. -/
theorem exists_of_partsJob_violation
    (hshape : ∀ shape, n.schema.kind = .object shape → shape.Ordered)
    (habort : n.mode.abortEarly = true) {e : Violation}
    (h : (n.partsJob validatePart []).result = .error (.violation e)) :
    ∃ p ∈ n.parts, ∃ v, (p.job validatePart).result = .error (.violation v) ∧
      ∃ value, e = { v with value } := by
  rcases partsJob_eq_error hshape h with ⟨v, hv, -⟩ | ⟨plan, hrun⟩
  · exact absurd hv (by simp)
  · rw [Policy.run_of_abortEarly habort] at hrun
    obtain ⟨job, hjob, v, hv, rfl⟩ := Policy.exists_of_runFirst_violation hrun
    obtain ⟨p, hp, hfails⟩ := plan.exists_of_job_error hjob hv
    exact ⟨p, hp, v, hfails, _, rfl⟩

/-- A run stops at a violation of the own checks or of a part, but for the value that the
    report carries. -/
theorem exists_of_run_violation
    (hshape : ∀ shape, n.schema.kind = .object shape → shape.Ordered)
    (habort : n.mode.abortEarly = true) {e : Violation}
    (h : (n.run true validatePart).result = .error (.violation e)) :
    (∃ v ∈ n.ownViolations, ∃ value, e = { v with value }) ∨
      ∃ p ∈ n.parts, ∃ v, (p.job validatePart).result = .error (.violation v) ∧
        ∃ value, e = { v with value } := by
  have hcollects : n.collects = false := by simp [collects, habort]
  cases hown : (n.own true).result with
  | error f =>
      rw [run_of_own_error hown fun _ => hcollects] at h
      cases h
      exact Or.inl (exists_of_own_violation habort hown)
  | ok u =>
      rw [run_of_own_ok hown] at h
      exact Or.inr (exists_of_partsJob_violation hshape habort h)

end Node

-- ============================================================================
-- Collecting all violations
-- ============================================================================

/-- Whether the leaves of a violation are among what a collection holds. -/
def Violation.Holds (a v : Violation) : Prop := ∀ leaf ∈ v.leaves, leaf ∈ a.inner

theorem Violation.holds_collect {found : List Violation} {v : Violation} (hv : v ∈ found)
    (value : Option Value) (path : Option String) : (collect found value path).Holds v :=
  fun _ hleaf => List.mem_flatMap.mpr ⟨v, hv, hleaf⟩

/-- A collection holds the violations of all jobs and what was found before. -/
theorem Policy.holds_of_collected {p : Policy} {jobs : List (Job Unit)} {a : Violation}
    (h : p.collected jobs = .error (.violation a)) :
    (∀ job ∈ jobs, ∀ v, job.result = .error (.violation v) → a.Holds v) ∧
      ∀ v ∈ p.before, a.Holds v := by
  have hmistake : ∀ job ∈ jobs, ¬ job.result.IsMistake := by
    intro job hjob hfails
    have hcollected := collected_isMistake (p := p) hjob hfails
    rw [h] at hcollected
    exact Result.not_isMistake_violation a hcollected
  rw [collected_of_not_isMistake hmistake] at h
  split at h
  · exact absurd h (by simp)
  · cases h
    refine ⟨fun job hjob v hv => ?_, fun v hv => ?_⟩
    · refine Violation.holds_collect (List.mem_append_left _ (mem_sortRanked.mpr ?_)) _ _
      exact List.mem_filterMap.mpr ⟨job, hjob, Job.violation?_eq_some.mpr hv⟩
    · exact Violation.holds_collect (List.mem_append_right _ hv) _ _

namespace Node

variable {n : Node} {validatePart : ValidatePart} {a : Violation}

/-- The report of the parts holds their violations and what was found before. -/
theorem holds_of_partsJob (hshape : ∀ shape, n.schema.kind = .object shape → shape.Ordered)
    (habort : n.mode.abortEarly = false) {found : List Violation}
    (hfound : ∀ v ∈ found, ∀ u ∈ found, v.Holds u)
    (h : (n.partsJob validatePart found).result = .error (.violation a)) :
    (∀ p ∈ n.parts, ∀ v, (p.job validatePart).result = .error (.violation v) → a.Holds v) ∧
      ∀ v ∈ found, a.Holds v := by
  rw [partsJob] at h
  rcases n.validateParts_eq hshape with ⟨hnone, hfinish⟩ | ⟨plan, -, hplan⟩
  · refine ⟨by simp [hnone], ?_⟩
    rw [hfinish] at h
    cases found with
    | nil => simp
    | cons first rest =>
        rw [Visit.finish_of_cons rfl] at h
        cases h
        exact hfound a List.mem_cons_self
  · rw [hplan, Job.bind_result, Policy.run_of_collects habort] at h
    rcases bind_eq_error.mp h with hcollected | ⟨_, -, h⟩
    · obtain ⟨hjobs, hbefore⟩ := Policy.holds_of_collected hcollected
      refine ⟨fun p hp v hv => hjobs _ ?_ v (Job.discard_result_eq_error.mpr hv), hbefore⟩
      exact List.mem_map_of_mem (plan.perm.mem_iff.mpr hp)
    · exact absurd h (by simp)

/-- The report of a run holds what the own checks report and the violations of the parts. -/
theorem holds_of_run (hshape : ∀ shape, n.schema.kind = .object shape → shape.Ordered)
    (habort : n.mode.abortEarly = false)
    (h : (n.run true validatePart).result = .error (.violation a)) :
    (∀ v ∈ n.ownViolations, a.Holds v) ∧
      ∀ p ∈ n.parts, ∀ v, (p.job validatePart).result = .error (.violation v) → a.Holds v := by
  have hmistake : ¬ (n.run true validatePart).result.IsMistake :=
    h ▸ Result.not_isMistake_violation a
  have hown := own_result habort (wait_of_run hshape habort hmistake).1
  split at hown
  · next hnone =>
      rw [run_of_own_ok hown] at h
      exact ⟨by simp [hnone], (holds_of_partsJob hshape habort (by simp) h).1⟩
  · next hsome =>
      have hheld : ∀ v ∈ n.ownViolations,
          (Violation.collect n.ownViolations n.value n.options.path).Holds v :=
        fun v hv => Violation.holds_collect hv _ _
      cases hcomposite : n.schema.tag.isComposite with
      | true =>
          rw [run_of_own_violation hown (by simp [collects, hcomposite, habort])] at h
          have hself : (Violation.collect n.ownViolations n.value n.options.path).Holds
              (Violation.collect n.ownViolations n.value n.options.path) := by
            intro leaf hleaf
            rwa [Violation.leaves_collect hsome] at hleaf
          obtain ⟨hparts, hcarried⟩ := holds_of_partsJob hshape habort (by simpa using hself) h
          -- what the own checks report is carried on in one collection
          refine ⟨fun v hv leaf hleaf => hcarried _ List.mem_cons_self leaf ?_, hparts⟩
          rw [Violation.leaves_collect hsome]
          exact hheld v hv leaf hleaf
      | false =>
          rw [run_of_own_error hown (by simp [collects, hcomposite])] at h
          cases h
          exact ⟨hheld, by simp [parts_of_not_isComposite hcomposite]⟩

end Node

-- ============================================================================
-- Both runs of a node
-- ============================================================================

/-- Whether a violation is a leaf, but for the value that it carries, of those in a list. -/
def Violation.StandsFor (e : Violation) (found : List Violation) : Prop :=
  ∃ v ∈ found, v.IsLeaf ∧ ∃ value, e = { v with value }

/-- What the run of a node stops at is a leaf of what its other run collects, if that is so of
    the parts whose collection is no mistake. -/
theorem Node.standsFor_of_runs {n : Node} (hn : n.schema.Regular .unaware)
    {validatePart : ValidatePart}
    (hparts : ∀ p ∈ n.parts, ∀ u,
      ((p.withAbort (some true)).job validatePart).result = .error (.violation u) →
      ¬ ((p.withAbort (some false)).job validatePart).result.IsMistake →
      ∃ v, ((p.withAbort (some false)).job validatePart).result = .error (.violation v) ∧
        u.StandsFor v.leaves)
    {e a : Violation}
    (he : ((n.withAbort (some true)).run true validatePart).result = .error (.violation e))
    (ha : ((n.withAbort (some false)).run true validatePart).result = .error (.violation a)) :
    e.StandsFor a.inner := by
  obtain ⟨hown, hheld⟩ :=
    holds_of_run (n := n.withAbort (some false)) hn.shape (mode_abortEarly rfl) ha
  rw [ownViolations_withAbort hn] at hown
  rcases exists_of_run_violation (n := n.withAbort (some true)) hn.shape (mode_abortEarly rfl) he
    with ⟨v, hv, hvalue⟩ | ⟨q, hq, u, hu, value, rfl⟩
  · rw [ownViolations_withAbort hn] at hv
    have hleaf := isLeaf_of_mem_ownViolations hn hv
    exact ⟨v, hown v hv v (by simp [hleaf.leaves_eq]), hleaf, hvalue⟩
  · rw [parts_withAbort] at hq
    obtain ⟨p, hp, rfl⟩ := List.mem_map.mp hq
    have hmem : p.withAbort (some false) ∈ (n.withAbort (some false)).parts := by
      rw [parts_withAbort]
      exact List.mem_map_of_mem hp
    have hmistake := (wait_of_run (n := n.withAbort (some false)) hn.shape (mode_abortEarly rfl)
      (ha ▸ Result.not_isMistake_violation a)).2 _ hmem
    obtain ⟨v, hv, leaf, hleaf, hisLeaf, carried, rfl⟩ := hparts p hp u hu hmistake
    exact ⟨leaf, hheld _ hmem v hv leaf hleaf, hisLeaf, value, rfl⟩

namespace Workshop

variable {w : Workshop}

/-- What the run of a node stops at is a leaf of what its other run collects. The induction is
    on the depth that the runs may go down by: both stop at the same own check, come to the
    same part that does not resolve, or go down into the same part. -/
theorem standsFor_of_runs (hw : w.Equipped .unaware) {depth : Nat} {n : Node}
    (hn : n.schema.WellMade .unaware) (hdepth : Value.heightOf n.value ≤ depth) {e a : Violation}
    (he : ((n.withAbort (some true)).run true (w.validateWithin true depth)).result =
      .error (.violation e))
    (ha : ((n.withAbort (some false)).run true (w.validateWithin true depth)).result =
      .error (.violation a)) : e.StandsFor a.inner := by
  induction depth generalizing n e a with
  | zero =>
      refine Node.standsFor_of_runs hn.here (fun p hp => ?_) he ha
      have hlt := Node.heightOf_part hp
      omega
  | succ depth ih =>
      refine Node.standsFor_of_runs hn.here (fun p hp u hu hmistake => ?_) he ha
      have hschema := Node.everywhere_part hn hp
      have hlt := Node.heightOf_part hp
      have hresult : ∀ abortEarly,
          ((p.withAbort abortEarly).job (w.validateWithin true (depth + 1))).result =
            w.resolve p.schema p.value p.options >>= fun t =>
              (((p.node t).withAbort abortEarly).run true (w.validateWithin true depth)).result := by
        intro abortEarly
        have hstrict : p.options.strict = some true := Node.strict_part hp
        rw [part_result (p := p.withAbort abortEarly) hstrict,
          ← resolve_withAbort hw hschema p.value p.options abortEarly]
        rfl
      rw [hresult] at hu hmistake
      rw [hresult]
      cases ht : w.resolve p.schema p.value p.options with
      | error f =>
          -- both jobs end with what keeps the schema from being resolved
          rw [ht] at hu
          cases hu
          have hleaf : u.IsLeaf := resolve_violationFrom hw hschema _ _ u ht u rfl
          exact ⟨u, rfl, u, by simp [hleaf.leaves_eq], hleaf, u.value, by cases u; rfl⟩
      | ok t =>
          rw [ht] at hu hmistake
          have hpart := resolve_wellMade hw hschema ht
          have hbelow : Value.heightOf (p.node t).value ≤ depth := by
            show Value.heightOf p.value ≤ depth
            omega
          cases hcollected : (((p.node t).withAbort (some false)).run true
              (w.validateWithin true depth)).result with
          | ok r =>
              -- what is valid when all violations are collected is so when none may be
              have hvalid := ((run_result_eq_ok_iff_valid hw (n := (p.node t).withAbort (some false))
                hpart hbelow).mp hcollected).2
              have hok := (run_result_eq_ok_iff_valid hw (n := (p.node t).withAbort (some true))
                hpart hbelow).mpr ⟨rfl, hvalid.withAbort hw hpart (some true)⟩
              exact absurd (hu.symm.trans hok) (by simp)
          | error f =>
              obtain ⟨v, rfl⟩ : ∃ v, f = .violation v := by
                by_contra hno
                exact hmistake ⟨f, hcollected, fun v hv => hno ⟨v, hv⟩⟩
              obtain ⟨leaf, hleaf, hrest⟩ := ih hpart hbelow hu hcollected
              have hinner : v.leaves = v.inner :=
                Violation.leaves_eq_inner (List.ne_nil_of_mem hleaf)
              exact ⟨v, hcollected, leaf, hinner ▸ hleaf, hrest⟩

/-- Both policies accept the same values with the same results. What a call stops at is among
    what is collected, but for the value that the report carries; unless both calls end
    before their value is checked, with what a function of the caller reports in place of a
    schema. -/
theorem validateSync_policies_agree {w : Workshop} (hw : w.Reachable .unaware) {s : Schema}
    (hs : s.Made .unaware) (value : Option Value) (options : CallOptions) :
    (∀ r, w.validateSync s value (options.withAbort (some true)) = .ok r ↔
      w.validateSync s value (options.withAbort (some false)) = .ok r) ∧
    ∀ e a, w.validateSync s value (options.withAbort (some true)) = .error (.violation e) →
      w.validateSync s value (options.withAbort (some false)) = .error (.violation a) →
      (∃ v ∈ a.inner, v.IsLeaf ∧ v.message = e.message ∧ v.path = e.path ∧ v.kind = e.kind ∧
        v.params = e.params) ∨
      (a = e ∧ ∃ b, w.EntryResolves s value (options.withAbort (some true)) b ∧
        b.resolve w = .error (.violation e)) := by
  have hequipped := hw.equipped
  have hmade := hs.wellMade
  have henter : ∀ abortEarly, w.enter (root s value (options.withAbort abortEarly)) =
      (w.enter (root s value options)).map fun n => n.withAbort abortEarly :=
    fun abortEarly => enter_withAbort hequipped (p := root s value options) hmade abortEarly
  refine ⟨fun r => ?_, fun e a he ha => ?_⟩
  · have hswitch : ∀ old new, w.validateSync s value (options.withAbort (some old)) = .ok r →
        w.validateSync s value (options.withAbort (some new)) = .ok r := by
      intro old new h
      obtain ⟨n, hn, hr, hvalid⟩ := (validateSync_eq_ok_iff_enter hequipped hmade).mp h
      have hschema := enter_wellMade hequipped hmade hn
      refine (validateSync_eq_ok_iff_enter hequipped hmade).mpr
        ⟨n.withAbort (some new), ?_, hr, hvalid.withAbort hequipped hschema (some new)⟩
      have hagain := enter_withAbort hequipped
        (p := root s value (options.withAbort (some old))) hmade (some new)
      exact hagain.trans (by rw [hn]; rfl)
    exact ⟨hswitch true false, hswitch false true⟩
  · rw [validateSync_eq hequipped hmade] at he ha
    cases hn : w.enter (root s value options) with
    | error f =>
        have hstops : w.enter (root s value (options.withAbort (some true))) = .error f := by
          rw [henter, hn]
          rfl
        rw [hstops] at he
        cases he
        rw [henter, hn] at ha
        cases ha
        exact Or.inr ⟨rfl, exists_entryResolves_of_enter_error (by simp) (by simp) hstops⟩
    | ok n =>
        rw [henter, hn] at he ha
        have hschema := enter_wellMade hequipped hmade hn
        obtain ⟨v, hv, hleaf, carried, rfl⟩ :=
          standsFor_of_runs hequipped hschema (Nat.le_refl _) he ha
        exact Or.inl ⟨v, hv, hleaf, rfl, rfl, rfl, rfl⟩

/-- A lazy schema that fails with a violation of its own. -/
def reportingSchema : Recipe :=
  .plain (.lazy fun _ _ => .error (.violation (.leaf "refused" none none none)))

/-- A list of lazy schemas that fail with two violations at once. -/
def reportingItems : Recipe :=
  .make .array [.element (.plain (.lazy fun _ _ => .error (.violation
    (.collect [.leaf "too small" none none none, .leaf "odd" none none none] none none))))]

/-- Without a test of the caller, and with functions that read no policy, the calls may agree
    on nothing: what a lazy schema reports for the value of a call is the same under either
    policy, and nothing is collected; what one reports for an item is taken apart where it is
    collected. -/
theorem validateSync_of_reporting_schema :
    (∃ s e, initial.build none reportingSchema = .ok s ∧ s.traits.tests = [] ∧
      initial.validateSync s (some (.int 1)) (asGiven.withAbort (some true)) =
        .error (.violation e) ∧
      initial.validateSync s (some (.int 1)) (asGiven.withAbort (some false)) =
        .error (.violation e) ∧ e.inner = []) ∧
    ∃ s e a, initial.build none reportingItems = .ok s ∧ s.traits.tests = [] ∧
      initial.validateSync s (some (.arr [.int 1]))
        (asGiven.withAbort (some true)) =
        .error (.violation e) ∧
      initial.validateSync s (some (.arr [.int 1]))
        (asGiven.withAbort (some false)) =
        .error (.violation a) ∧ ∀ v ∈ a.inner, v.message ≠ e.message := by
  refine ⟨⟨_, .leaf "refused" none none none, rfl, rfl, rfl, rfl, rfl⟩, ?_⟩
  obtain ⟨s, n, e, u, element, x, hs, hstests, hn, he, hmode, hkind, hvalue, hpre, hpass, htests,
      hfound, hmessages⟩ :
      ∃ s n e u element x, initial.build none reportingItems = .ok s ∧ s.traits.tests = [] ∧
        initial.enter (root s (some (.arr [.int 1]))
          (asGiven.withAbort (some false))) =
          .ok n ∧
        initial.validateSync s (some (.arr [.int 1]))
          (asGiven.withAbort (some true)) =
          .error (.violation e) ∧
        (n.mode.recursive = true ∧ n.mode.abortEarly = false) ∧
        n.schema.kind = .array (.of element) ∧ n.value = some (.arr [.int 1]) ∧
        n.schema.traits.prerequisites = [x] ∧ x.outcome n.subject = .pass ∧
        n.schema.traits.tests = [] ∧
        Policy.violations (n.parts.map fun p =>
          (p.job (initial.validateWithin true (Value.heightOf n.value))).discard) = .ok [u] ∧
        ∀ v ∈ u.leaves, v.message ≠ e.message :=
    ⟨_, _, _, _, _, _, rfl, rfl, rfl, rfl, ⟨rfl, rfl⟩, rfl, rfl, rfl, rfl, rfl, rfl, by decide⟩
  have hmade : s.Made .all := ⟨initial, none, _, .initial, trivial, hs⟩
  refine ⟨s, e, _, hs, hstests, he,
    validateSync_items Reachable.initial.equipped hmade.wellMade hn hmode hkind hvalue hpre hpass
      htests (by simp) hfound, ?_⟩
  simpa [Violation.collect] using hmessages

/-- A person with a name, and with an age whose schema is made when it is asked for. -/
def person : Recipe :=
  .make .object [.shape [
    ("name", .make .string [.required]),
    ("age", .plain (.lazy fun _ _ => .ok (.make .number [.positive])))] []]

theorem unaware_person : RecipeClass.unaware.recipe person := by
  have hrequired : RecipeClass.unaware.step .required :=
    .intro (fun _ h => nomatch h) (fun _ h => nomatch h) (fun _ h => nomatch h)
      (fun _ _ h => nomatch h)
  have hpositive : RecipeClass.unaware.step .positive :=
    .intro (fun _ h => nomatch h) (fun _ h => nomatch h) (fun _ h => nomatch h)
      (fun _ _ h => nomatch h)
  have hname : RecipeClass.unaware.recipe (.make .string [.required]) :=
    .of_steps (by simp) (List.forall_mem_singleton.mpr hrequired)
  have hnumber : RecipeClass.unaware.recipe (.make .number [.positive]) :=
    .of_steps (by simp) (List.forall_mem_singleton.mpr hpositive)
  have hage : RecipeClass.unaware.recipe
      (.plain (.lazy fun _ _ => .ok (.make .number [.positive]))) := by
    refine .lazy ⟨fun _ _ _ => rfl, fun _ _ _ h => absurd h (by simp)⟩ fun _ _ r hr => ?_
    cases hr
    exact hnumber
  refine .of_steps (by simp) (List.forall_mem_singleton.mpr (.shape ?_))
  exact List.forall_mem_cons.mpr ⟨hname, List.forall_mem_singleton.mpr hage⟩

/-- Without a name and with an age that is not positive, a call stops at the name, which is
    among the two violations that the other call collects. Both take a person with a name. -/
theorem validateSync_policies_agree_person :
    ∃ s e a r, initial.build none person = .ok s ∧
      initial.validateSync s (some (.obj [("age", .int 0)])) (asGiven.withAbort (some true)) =
        .error (.violation e) ∧ e.path = some "name" ∧
      initial.validateSync s (some (.obj [("age", .int 0)]))
        (asGiven.withAbort (some false)) = .error (.violation a) ∧
      a.inner.map Violation.path = [some "name", some "age"] ∧
      (∃ v ∈ a.inner, v.IsLeaf ∧ v.message = e.message ∧ v.path = e.path ∧ v.kind = e.kind ∧
        v.params = e.params) ∧
      initial.validateSync s (some (.obj [("age", .int 1), ("name", .str "x")]))
        (asGiven.withAbort (some true)) = .ok r ∧
      initial.validateSync s (some (.obj [("age", .int 1), ("name", .str "x")]))
        (asGiven.withAbort (some false)) = .ok r := by
  obtain ⟨s, n, b, c, t, u, e, r, v, x, hs, henter, hstops, hn, hparts, hb, hc, hbparts, hcparts,
      hchecks, hnown, hbown, hcown, hleaves, he, hpaths, hr⟩ :
      ∃ s n b c t u e r v x, initial.build none person = .ok s ∧
        initial.enter (root s (some (.obj [("age", .int 0)]))
          (asGiven.withAbort (some true))) = .ok (n.withAbort (some true)) ∧
        initial.validateSync s (some (.obj [("age", .int 0)]))
          (asGiven.withAbort (some true)) = .error (.violation e) ∧
        initial.enter (root s (some (.obj [("age", .int 0)]))
          (asGiven.withAbort (some false))) = .ok n ∧
        n.parts = [b, c] ∧
        initial.resolve b.schema b.value b.options = .ok t ∧
        initial.resolve c.schema c.value c.options = .ok u ∧
        (b.node t).parts = [] ∧ (c.node u).parts = [] ∧
        ([n.schema, t, u].all fun t =>
          (t.traits.prerequisites ++ t.traits.tests).all Test.asksCheck) = true ∧
        n.ownViolations = [] ∧ (b.node t).ownViolations = [v] ∧
        (c.node u).ownViolations = [x] ∧ (v.leaves = [v] ∧ x.leaves = [x]) ∧
        e.path = some "name" ∧ [v, x].map Violation.path = [some "name", some "age"] ∧
        initial.validateSync s (some (.obj [("age", .int 1), ("name", .str "x")]))
          (asGiven.withAbort (some true)) = .ok r :=
    ⟨_, _, _, _, _, _, _, _, _, _, rfl, rfl, rfl, rfl, rfl, rfl, rfl, rfl, rfl, rfl, rfl, rfl, rfl,
      ⟨rfl, rfl⟩, rfl, rfl, rfl⟩
  have hmade : s.Made .unaware := ⟨initial, none, person, .initial, unaware_person, hs⟩
  obtain ⟨-, hvalue⟩ := validateSync_policies_agree .initial hmade
    (some (.obj [("age", .int 0)])) asGiven
  obtain ⟨hnamed, -⟩ := validateSync_policies_agree .initial hmade
    (some (.obj [("age", .int 1), ("name", .str "x")])) asGiven
  simp only [List.all_cons, Bool.and_eq_true] at hchecks
  obtain ⟨hnc, hbc, hcc, -⟩ := hchecks
  have hvisits : ∀ m, n.Visits initial m → m.Checked ∧
      ∀ p ∈ m.parts, ∃ t, initial.resolve p.schema p.value p.options = .ok t := by
    intro m hm
    refine hm.of_parts ⟨Node.checked_of_all hnc, by simp [hparts, hb, hc]⟩ ?_
    simp only [hparts, List.forall_mem_cons]
    refine ⟨⟨t, hb, Node.visits_of_parts_eq_nil hbparts ?_⟩,
      ⟨u, hc, Node.visits_of_parts_eq_nil hcparts ?_⟩, by simp⟩
    · exact ⟨Node.checked_of_all hbc, by simp [hbparts]⟩
    · exact ⟨Node.checked_of_all hcc, by simp [hcparts]⟩
  have hviolations : n.violations initial = [v, x] := by
    simp only [Node.violations_eq, hparts, hbparts, hcparts, List.flatMap_cons, List.flatMap_nil,
      Node.part_violations hb, Node.part_violations hc, hnown, hbown, hcown]
    rfl
  have hcollects := validateSync_eq_report Reachable.initial.equipped hmade.wellMade rfl hn
    (fun m hm => (hvisits m hm).1.wait) fun m hm => (hvisits m hm).2
  rw [Node.report, hviolations, if_neg (by simp)] at hcollects
  refine ⟨s, e, _, r, hs, hstops, he, hcollects, ?_, ?_, hr, (hnamed r).mp hr⟩
  · simpa [Violation.collect, hleaves.1, hleaves.2] using hpaths
  · rcases hvalue e _ hstops hcollects with hheld | ⟨-, a, ha, hfails⟩
    · exact hheld
    · -- no schema keeps the call from its value
      exact absurd (henter.symm.trans (enter_of_entryResolves ha hfails)) (by simp)

end Workshop

end Conform
