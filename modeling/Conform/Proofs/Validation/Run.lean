/-
  Conform.Proofs.Validation.Run

  What running a node comes to. The parts of a node are worked on in some order,
  under a policy that brings what is found back into the order of the parts; the
  run succeeds exactly if the own checks pass and all parts succeed. Nothing in a
  synchronous run is waited for.
-/

import Conform.Proofs.Schema.Resolution
import Conform.Proofs.Validation.Node
import Conform.Proofs.Validation.Ranking

namespace Conform

-- ============================================================================
-- Own checks
-- ============================================================================

namespace Test

variable {t : Test} {subject : Subject}

/-- A test that is not to wait succeeds exactly if its predicate passes. -/
theorem run_result_eq_ok : (t.run true subject).result = .ok () ↔ t.outcome subject = .pass := by
  rw [run]
  cases t.outcome subject <;> simp [Outcome.isPending, Outcome.settle]

theorem ready_run (t : Test) (subject : Subject) : (t.run true subject).Ready := by
  rw [run]
  cases t.outcome subject <;> exact Job.ready_done _

end Test

namespace Node

variable {n : Node}

/-- The own checks of a node. -/
def own (n : Node) (sync : Bool) : Job Unit :=
  runOwn n.schema sync n.subject n.mode.abortEarly

/-- The policy that the own checks run under. -/
def ownPolicy (n : Node) : Policy := .plain n.mode.abortEarly n.value n.options.path

/-- The tests of type and lists, as jobs. -/
def prerequisiteJobs (n : Node) (sync : Bool) : List (Job Unit) :=
  n.schema.traits.prerequisites.map fun t => t.run sync n.subject

/-- The declared tests, as jobs. -/
def testJobs (n : Node) (sync : Bool) : List (Job Unit) :=
  n.schema.traits.tests.map fun t => t.run sync n.subject

theorem own_eq (n : Node) (sync : Bool) :
    n.own sync = Job.bind (n.ownPolicy.run (n.prerequisiteJobs sync)) fun _ =>
      n.ownPolicy.run (n.testJobs sync) := rfl

theorem own_result_eq_ok :
    (n.own true).result = .ok () ↔
      (∀ t ∈ n.schema.traits.prerequisites, t.outcome n.subject = .pass) ∧
        ∀ t ∈ n.schema.traits.tests, t.outcome n.subject = .pass := by
  rw [own_eq, Job.bind_result, bind_eq_ok]
  have hbefore : n.ownPolicy.abortEarly = false → n.ownPolicy.before = [] := fun _ => rfl
  constructor
  · rintro ⟨_, hpre, htests⟩
    have hfirst := (Policy.run_result_eq_ok.mp hpre).1
    have hsecond := (Policy.run_result_eq_ok.mp htests).1
    refine ⟨fun t ht => ?_, fun t ht => ?_⟩
    · exact Test.run_result_eq_ok.mp (hfirst _ (List.mem_map_of_mem ht))
    · exact Test.run_result_eq_ok.mp (hsecond _ (List.mem_map_of_mem ht))
  · rintro ⟨hpre, htests⟩
    refine ⟨(), Policy.run_result_eq_ok.mpr ⟨?_, hbefore⟩,
      Policy.run_result_eq_ok.mpr ⟨?_, hbefore⟩⟩
    · intro job hjob
      obtain ⟨t, ht, rfl⟩ := List.mem_map.mp hjob
      exact Test.run_result_eq_ok.mpr (hpre t ht)
    · intro job hjob
      obtain ⟨t, ht, rfl⟩ := List.mem_map.mp hjob
      exact Test.run_result_eq_ok.mpr (htests t ht)

theorem ready_own (n : Node) : (n.own true).Ready := by
  have hjobs : ∀ (tests : List Test), ∀ job ∈ tests.map fun t => t.run true n.subject,
      job.Ready := by
    intro tests job hjob
    obtain ⟨t, -, rfl⟩ := List.mem_map.mp hjob
    exact t.ready_run n.subject
  rw [own_eq]
  exact Job.ready_bind (Policy.ready_run (hjobs _)) fun _ _ => Policy.ready_run (hjobs _)

end Node

-- ============================================================================
-- Parts
-- ============================================================================

namespace Visit

variable {visit : Visit}

theorem finish_of_nil (h : visit.found = []) : visit.finish = .pure visit.value := by
  rw [finish, h]

theorem finish_of_cons {v : Violation} {rest : List Violation} (h : visit.found = v :: rest) :
    visit.finish = .fail (.violation v) := by
  rw [finish, h]

theorem ready_finish (visit : Visit) : visit.finish.Ready := by
  cases hfound : visit.found with
  | nil =>
      rw [finish_of_nil hfound]
      exact Job.ready_done _
  | cons v rest =>
      rw [finish_of_cons hfound]
      exact Job.ready_done _

end Visit

/-- The parts of a node in the order in which they are worked on: fields behind those
    that they depend on, items in the order of their positions. -/
def Node.work (n : Node) : List Part :=
  match n.mode.recursive, n.schema.kind, n.value with
  | true, .object shape, some (.obj fields) => shape.worked.map (n.fieldPart fields)
  | _, _, _ => n.parts

/-- How the parts of a node are worked on: in which order, and how violations are
    ranked. Violations at the paths of their parts are reported in the order of
    the parts. -/
structure Node.Plan (n : Node) where
  work : List Part
  rank : Violation → Nat
  perm : work.Perm n.parts
  sorts : ∀ (p : Policy), p.rank = rank → ∀ (keep : Part → Bool) (report : Part → Violation),
    (∀ q ∈ n.parts, (report q).path = q.options.path) →
    p.sortRanked ((work.filter keep).map report) = (n.parts.filter keep).map report

namespace Node

variable {n : Node}

/-- The policy for the parts, when something was found before. -/
def Plan.policy (plan : n.Plan) (found : List Violation) : Policy :=
  { abortEarly := n.mode.abortEarly, value := n.value, path := n.options.path, before := found
    rank := plan.rank }

/-- The jobs of the parts, as they are worked on. -/
def Plan.jobs (plan : n.Plan) (validatePart : ValidatePart) : List (Job Unit) :=
  plan.work.map fun p => (p.job validatePart).discard

theorem parts_object {shape : Shape Schema} {fields : Dict Value}
    (hrecursive : n.mode.recursive = true) (hkind : n.schema.kind = .object shape)
    (hvalue : n.value = some (.obj fields)) : n.parts = shape.fields.map (n.fieldPart fields) := by
  rw [parts, if_pos hrecursive, hkind, hvalue]

theorem parts_array {element : Schema} {items : List Value}
    (hrecursive : n.mode.recursive = true) (hkind : n.schema.kind = .array (.of element))
    (hvalue : n.value = some (.arr items)) :
    n.parts = items.zipIdx.map (n.itemPart element items) := by
  rw [parts, if_pos hrecursive, hkind, hvalue]

/-- Fields are worked on in the order of their dependencies. -/
def fieldPlan (n : Node) {shape : Shape Schema} {fields : Dict Value}
    (hrecursive : n.mode.recursive = true) (hkind : n.schema.kind = .object shape)
    (hvalue : n.value = some (.obj fields)) (hshape : shape.Ordered) : n.Plan where
  work := shape.worked.map (n.fieldPart fields)
  rank := fieldRank (Dict.keys shape.fields) n.options.path
  perm := by
    rw [parts_object hrecursive hkind hvalue]
    exact (Shape.worked_perm hshape).map _
  sorts := by
    intro p hrank keep report hpath
    rw [parts_object hrecursive hkind hvalue] at hpath ⊢
    rw [List.filter_map, List.filter_map, List.map_map, List.map_map]
    refine Policy.sortRanked_fields hshape.keys hrank (Shape.worked_perm hshape) _ ?_
    intro f hf
    exact hpath _ (List.mem_map_of_mem hf)

/-- Items are worked on in the order of their positions. -/
def itemPlan (n : Node) : n.Plan where
  work := n.parts
  rank := fun _ => 0
  perm := List.Perm.refl _
  sorts := by
    intro p hrank keep report _
    exact Policy.sortRanked_of_forall_eq fun v _ => congrFun hrank v

/-- A node goes down to fields, to items, or to nothing. -/
theorem descent (n : Node) :
    (∃ shape fields, n.mode.recursive = true ∧ n.schema.kind = .object shape ∧
      n.value = some (.obj fields)) ∨
    (∃ element items, n.mode.recursive = true ∧ n.schema.kind = .array (.of element) ∧
      n.value = some (.arr items)) ∨
    (n.parts = [] ∧ ∀ validatePart found,
      validateParts validatePart n.schema n.mode.recursive (n.visit found) =
        (n.visit found).finish) := by
  by_cases hrecursive : n.mode.recursive = true
  · by_cases hobject : ∃ shape fields, n.schema.kind = .object shape ∧ n.value = some (.obj fields)
    · obtain ⟨shape, fields, hkind, hvalue⟩ := hobject
      exact Or.inl ⟨shape, fields, hrecursive, hkind, hvalue⟩
    by_cases harray : ∃ element items, n.schema.kind = .array (.of element) ∧
        n.value = some (.arr items)
    · obtain ⟨element, items, hkind, hvalue⟩ := harray
      exact Or.inr (Or.inl ⟨element, items, hrecursive, hkind, hvalue⟩)
    refine Or.inr (Or.inr ⟨?_, fun validatePart found => ?_⟩)
    · rw [parts, if_pos hrecursive]
      split
      · next shape fields hkind hvalue => exact absurd ⟨shape, fields, hkind, hvalue⟩ hobject
      · next element items hkind hvalue => exact absurd ⟨element, items, hkind, hvalue⟩ harray
      · rfl
    · rw [validateParts, if_pos hrecursive]
      split
      · next shape fields hkind hvalue => exact absurd ⟨shape, fields, hkind, hvalue⟩ hobject
      · next element items hkind hvalue => exact absurd ⟨element, items, hkind, hvalue⟩ harray
      · rfl
  · refine Or.inr (Or.inr ⟨?_, fun validatePart found => ?_⟩)
    · rw [parts, if_neg hrecursive]
    · rw [validateParts, if_neg hrecursive]

theorem fieldPlan_jobs {shape : Shape Schema} {fields : Dict Value}
    (hrecursive : n.mode.recursive = true) (hkind : n.schema.kind = .object shape)
    (hvalue : n.value = some (.obj fields)) (hshape : shape.Ordered)
    (validatePart : ValidatePart) :
    (n.fieldPlan hrecursive hkind hvalue hshape).jobs validatePart =
      shape.order.filterMap fun key => (shape.fields.lookup key).map fun s =>
        ((n.fieldPart fields (key, s)).job validatePart).discard := by
  unfold Plan.jobs fieldPlan Shape.worked
  simp only [List.map_filterMap, Option.map_map]
  rfl

theorem itemPlan_jobs {element : Schema} {items : List Value}
    (hrecursive : n.mode.recursive = true) (hkind : n.schema.kind = .array (.of element))
    (hvalue : n.value = some (.arr items)) (validatePart : ValidatePart) :
    n.itemPlan.jobs validatePart = items.zipIdx.map fun item =>
      ((n.itemPart element items item).job validatePart).discard := by
  rw [Plan.jobs, itemPlan]
  simp only [parts_array hrecursive hkind hvalue, List.map_map]
  rfl

theorem work_object {shape : Shape Schema} {fields : Dict Value}
    (hrecursive : n.mode.recursive = true) (hkind : n.schema.kind = .object shape)
    (hvalue : n.value = some (.obj fields)) : n.work = shape.worked.map (n.fieldPart fields) := by
  rw [work, hrecursive, hkind, hvalue]

theorem work_array {element : Element Schema} (hkind : n.schema.kind = .array element) :
    n.work = n.parts := by
  rw [work, hkind]
  cases n.mode.recursive <;> rfl

/-- The items of an array are validated by their plan. -/
theorem validateParts_array {element : Schema} {items : List Value}
    (hrecursive : n.mode.recursive = true) (hkind : n.schema.kind = .array (.of element))
    (hvalue : n.value = some (.arr items)) (validatePart : ValidatePart)
    (found : List Violation) :
    validateParts validatePart n.schema n.mode.recursive (n.visit found) =
      Job.bind ((n.itemPlan.policy found).run (n.itemPlan.jobs validatePart)) fun _ =>
        .pure n.value := by
  have hvisit : (n.visit found).value = some (.arr items) := hvalue
  rw [itemPlan_jobs hrecursive hkind hvalue, Plan.policy, validateParts, hkind, hvisit, hvalue,
    if_pos hrecursive]
  rfl

/-- The parts of a node are validated by a plan, in the order in which they are worked
    on, unless there is nothing to go down to. -/
theorem validateParts_eq (hshape : ∀ shape, n.schema.kind = .object shape → shape.Ordered) :
    (n.parts = [] ∧ ∀ validatePart found,
      validateParts validatePart n.schema n.mode.recursive (n.visit found) =
        (n.visit found).finish) ∨
    ∃ plan : n.Plan, plan.work = n.work ∧ ∀ validatePart found,
      validateParts validatePart n.schema n.mode.recursive (n.visit found) =
        Job.bind ((plan.policy found).run (plan.jobs validatePart)) fun _ => .pure n.value := by
  rcases n.descent with ⟨shape, fields, hrecursive, hkind, hvalue⟩ |
    ⟨element, items, hrecursive, hkind, hvalue⟩ | ⟨hparts, hfinish⟩
  · refine Or.inr ⟨n.fieldPlan hrecursive hkind hvalue (hshape shape hkind),
      (work_object hrecursive hkind hvalue).symm, fun validatePart found => ?_⟩
    have hvisit : (n.visit found).value = some (.obj fields) := hvalue
    rw [fieldPlan_jobs, Plan.policy, validateParts, hkind, hvisit, hvalue, if_pos hrecursive]
    rfl
  · exact Or.inr ⟨n.itemPlan, (work_array hkind).symm,
      validateParts_array hrecursive hkind hvalue⟩
  · exact Or.inl ⟨hparts, hfinish⟩

-- ============================================================================
-- Runs
-- ============================================================================

/-- Whether a node carries a violation of its own on to its parts. -/
def collects (n : Node) : Bool := n.schema.tag.isComposite && !n.mode.abortEarly

/-- The validation of the parts, when something was found before. -/
def partsJob (n : Node) (validatePart : ValidatePart) (found : List Violation) :
    Job (Option Value) :=
  validateParts validatePart n.schema n.mode.recursive (n.visit found)

variable {sync : Bool} {validatePart : ValidatePart} {found : List Violation}

theorem run_eq (n : Node) (sync : Bool) (validatePart : ValidatePart) :
    n.run sync validatePart =
      Job.bind (collectOwn (n.own sync) n.collects) (n.partsJob validatePart) := rfl

/-- When the own checks pass, the parts decide. -/
theorem run_of_own_ok (h : (n.own sync).result = .ok ()) :
    (n.run sync validatePart).result = (n.partsJob validatePart []).result := by
  have hcollect : (collectOwn (n.own sync) n.collects).result = .ok [] := by
    simp [collectOwn, h]
  rw [run_eq, Job.bind_result, hcollect]
  rfl

/-- A violation of the own checks is carried on to the parts. -/
theorem run_of_own_violation {v : Violation} (h : (n.own sync).result = .error (.violation v))
    (hcollects : n.collects = true) :
    (n.run sync validatePart).result = (n.partsJob validatePart [v]).result := by
  have hcollect : (collectOwn (n.own sync) n.collects).result = .ok [v] := by
    simp [collectOwn, h, hcollects]
  rw [run_eq, Job.bind_result, hcollect]
  rfl

/-- Any other failure of the own checks ends the run. -/
theorem run_of_own_error {e : Failure} (h : (n.own sync).result = .error e)
    (he : (∃ v, e = .violation v) → n.collects = false) :
    (n.run sync validatePart).result = .error e := by
  have hcollect : (collectOwn (n.own sync) n.collects).result = .error e := by
    rw [collectOwn]
    cases e with
    | violation v => simp [h, he ⟨v, rfl⟩]
    | _ => simp [h]
  rw [run_eq, Job.bind_result, hcollect]
  rfl

/-- What a run comes to: the parts, when the own checks pass or when their violation is
    carried on, or else what the own checks ended with. -/
theorem run_cases (n : Node) (sync : Bool) (validatePart : ValidatePart) :
    ((n.own sync).result = .ok () ∧
      (n.run sync validatePart).result = (n.partsJob validatePart []).result) ∨
    (∃ v, (n.own sync).result = .error (.violation v) ∧ n.collects = true ∧
      (n.run sync validatePart).result = (n.partsJob validatePart [v]).result) ∨
    ∃ e, (n.own sync).result = .error e ∧ ((∃ v, e = .violation v) → n.collects = false) ∧
      (n.run sync validatePart).result = .error e := by
  cases hown : (n.own sync).result with
  | ok u => exact Or.inl ⟨rfl, run_of_own_ok hown⟩
  | error e =>
      by_cases hcarried : (∃ v, e = .violation v) ∧ n.collects = true
      · obtain ⟨⟨v, rfl⟩, hcollects⟩ := hcarried
        exact Or.inr (Or.inl ⟨v, rfl, hcollects, run_of_own_violation hown hcollects⟩)
      · have hends : (∃ v, e = .violation v) → n.collects = false :=
          fun hv => by simpa using fun hc => hcarried ⟨hv, hc⟩
        exact Or.inr (Or.inr ⟨e, rfl, hends, run_of_own_error hown hends⟩)

/-- What a plan works on are the jobs of parts. -/
theorem Plan.exists_of_job_error (plan : n.Plan) {job : Job Unit}
    (hjob : job ∈ plan.jobs validatePart) {e : Failure} (h : job.result = .error e) :
    ∃ p ∈ n.parts, (p.job validatePart).result = .error e := by
  obtain ⟨p, hp, rfl⟩ := List.mem_map.mp hjob
  exact ⟨p, plan.perm.mem_iff.mp hp, Job.discard_result_eq_error.mp h⟩

/-- Parts that fail do so with what was found before, where there is nothing to go down
    to, or as their plan does. -/
theorem partsJob_eq_error (hshape : ∀ shape, n.schema.kind = .object shape → shape.Ordered)
    {e : Failure} (h : (n.partsJob validatePart found).result = .error e) :
    (∃ v ∈ found, e = .violation v) ∨
      ∃ plan : n.Plan, ((plan.policy found).run (plan.jobs validatePart)).result = .error e := by
  rw [partsJob] at h
  rcases n.validateParts_eq hshape with ⟨-, hfinish⟩ | ⟨plan, -, hplan⟩
  · rw [hfinish] at h
    cases found with
    | nil =>
        rw [Visit.finish_of_nil rfl] at h
        exact absurd h (by simp)
    | cons v rest =>
        rw [Visit.finish_of_cons rfl] at h
        cases h
        exact Or.inl ⟨v, List.mem_cons_self, rfl⟩
  · rw [hplan, Job.bind_result] at h
    rcases bind_eq_error.mp h with hrun | ⟨_, -, h⟩
    · exact Or.inr ⟨plan, hrun⟩
    · exact absurd h (by simp)

theorem partsJob_result_eq_ok
    (hshape : ∀ shape, n.schema.kind = .object shape → shape.Ordered)
    (hfound : n.mode.abortEarly = true → found = []) {r : Option Value} :
    (n.partsJob validatePart found).result = .ok r ↔
      r = n.value ∧ found = [] ∧ ∀ p ∈ n.parts, ∃ a, (p.job validatePart).result = .ok a := by
  rw [partsJob]
  rcases n.validateParts_eq hshape with ⟨hparts, hfinish⟩ | ⟨plan, -, hplan⟩
  · rw [hfinish, hparts]
    cases found with
    | nil =>
        rw [Visit.finish_of_nil rfl]
        show Except.ok n.value = Except.ok r ↔ _
        constructor
        · intro h
          exact ⟨(Except.ok.inj h).symm, rfl, by simp⟩
        · rintro ⟨rfl, -, -⟩
          rfl
    | cons v rest =>
        rw [Visit.finish_of_cons rfl]
        simp
  · rw [hplan, Job.bind_result, bind_eq_ok]
    have hbefore : ((plan.policy found).abortEarly = false → (plan.policy found).before = []) ↔
        found = [] := by
      constructor
      · intro h
        cases habort : n.mode.abortEarly with
        | true => exact hfound habort
        | false => exact h habort
      · exact fun h _ => h
    have hjobs : (∀ job ∈ plan.jobs validatePart, job.result = .ok ()) ↔
        ∀ p ∈ n.parts, ∃ a, (p.job validatePart).result = .ok a := by
      constructor
      · intro h p hp
        exact Job.discard_result_eq_ok.mp
          (h _ (List.mem_map_of_mem (plan.perm.mem_iff.mpr hp)))
      · intro h job hjob
        obtain ⟨p, hp, rfl⟩ := List.mem_map.mp hjob
        exact Job.discard_result_eq_ok.mpr (h p (plan.perm.mem_iff.mp hp))
    constructor
    · rintro ⟨_, hrun, hr⟩
      cases hr
      obtain ⟨hall, hnone⟩ := Policy.run_result_eq_ok.mp hrun
      exact ⟨rfl, hbefore.mp hnone, hjobs.mp hall⟩
    · rintro ⟨rfl, hnone, hall⟩
      exact ⟨(), Policy.run_result_eq_ok.mpr ⟨hjobs.mpr hall, hbefore.mpr hnone⟩, rfl⟩

/-- A run succeeds, with the value of the node, exactly if the own checks pass and
    all parts succeed. -/
theorem run_result_eq_ok (hshape : ∀ shape, n.schema.kind = .object shape → shape.Ordered)
    {r : Option Value} :
    (n.run sync validatePart).result = .ok r ↔
      r = n.value ∧ (n.own sync).result = .ok () ∧
        ∀ p ∈ n.parts, ∃ a, (p.job validatePart).result = .ok a := by
  rcases n.run_cases sync validatePart with ⟨hown, hrun⟩ | ⟨v, hown, hcollects, hrun⟩ |
    ⟨e, hown, -, hrun⟩
  · rw [hrun, hown, partsJob_result_eq_ok hshape fun _ => rfl]
    simp
  · have habort : n.mode.abortEarly = false := by
      have hboth := Bool.and_eq_true_iff.mp hcollects
      simpa using hboth.2
    rw [hrun, hown, partsJob_result_eq_ok hshape (by simp [habort])]
    simp
  · rw [hrun, hown]
    simp

/-! ## Readiness -/

theorem ready_run (hshape : ∀ shape, n.schema.kind = .object shape → shape.Ordered)
    (hparts : ∀ p ∈ n.parts, (p.job validatePart).Ready) : (n.run true validatePart).Ready := by
  have hcollect : (collectOwn (n.own true) n.collects).Ready := by
    have hown := n.ready_own
    rw [collectOwn]
    split
    · exact hown
    · split <;> exact hown
    · exact hown
  rw [run_eq]
  refine Job.ready_bind hcollect fun found _ => ?_
  rw [partsJob]
  rcases n.validateParts_eq hshape with ⟨-, hfinish⟩ | ⟨plan, -, hplan⟩
  · rw [hfinish]
    exact Visit.ready_finish _
  · rw [hplan]
    refine Job.ready_bind (Policy.ready_run fun job hjob => ?_) fun _ _ => Job.ready_done _
    obtain ⟨p, hp, rfl⟩ := List.mem_map.mp hjob
    exact Job.ready_discard (hparts p (plan.perm.mem_iff.mp hp))

end Node

namespace Workshop

variable {C : RecipeClass} {w : Workshop}

theorem enter_wellMade (hw : w.Equipped C) {p : Part} (hp : p.schema.WellMade C) {n : Node}
    (h : w.enter p = .ok n) : n.schema.WellMade C :=
  resolve_wellMade hw hp (enter_eq_ok h).1

/-- Where a schema is worked on as it stands and the value is taken as it is, a call comes to
    the node of the two. -/
theorem enter_of_fixed {s : Schema} {value : Option Value} {options : CallOptions} (h : s.Fixed)
    (hstrict : (Mode.of options s.traits.options).strict = true) :
    w.enter (root s value options) = .ok { schema := s, value, raw := value, options } := by
  have hchecked : w.checkedValue s (Mode.of options s.traits.options).strict value options =
      .ok value := by
    rw [checkedValue, if_pos hstrict]
  exact bind_eq_ok.mpr ⟨s, h.resolve w value options, bind_eq_ok.mpr ⟨value, hchecked, rfl⟩⟩

/-- A part that is taken strictly is the run of its node. -/
theorem part_result {sync : Bool} {p : Part} (hstrict : p.options.strict = some true)
    (depth : Nat) :
    (p.job (w.validateWithin sync (depth + 1))).result =
      w.resolve p.schema p.value p.options >>= fun t =>
        ((p.node t).run sync (w.validateWithin sync depth)).result := by
  rw [validateWithin_succ, Job.bind_result, Job.done_result, enter_of_strict hstrict]
  cases w.resolve p.schema p.value p.options <;> rfl

/-- Nothing is waited for when a part is validated synchronously. -/
theorem ready_validateWithin (hw : w.Equipped C) {depth : Nat} {p : Part}
    (hp : p.schema.WellMade C) : (p.job (w.validateWithin true depth)).Ready := by
  induction depth generalizing p with
  | zero => exact Job.ready_done _
  | succ depth ih =>
      rw [validateWithin_succ]
      refine Job.ready_bind (Job.ready_done _) fun n hn => ?_
      have hnode := enter_wellMade hw hp hn
      exact Node.ready_run hnode.here.shape fun q hq => ih (Node.everywhere_part hnode hq)

/-- Nothing is waited for in a synchronous validation. -/
theorem ready_validateJob (hw : w.Equipped C) {s : Schema} (hs : s.WellMade C)
    (value : Option Value) (options : CallOptions) :
    (w.validateJob s value options true).Ready := by
  rw [validateJob_eq]
  refine Job.ready_bind (Job.ready_done _) fun n hn => ?_
  have hnode := enter_wellMade hw hs hn
  exact Node.ready_run hnode.here.shape
    fun q hq => ready_validateWithin hw (Node.everywhere_part hnode hq)

theorem validateSync_eq_result (hw : w.Equipped C) {s : Schema} (hs : s.WellMade C)
    (value : Option Value) (options : CallOptions) :
    w.validateSync s value options = (w.validateJob s value options true).result := by
  have hrounds : (w.validateJob s value options true).rounds = 0 :=
    ready_validateJob hw hs value options
  rw [validateSync]
  simp only [hrounds, if_true]

/-- A synchronous validation is the run of its node. -/
theorem validateSync_eq (hw : w.Equipped C) {s : Schema} (hs : s.WellMade C)
    (value : Option Value) (options : CallOptions) :
    w.validateSync s value options = w.enter (root s value options) >>= fun n =>
      (n.run true (w.validateWithin true (Value.heightOf n.value))).result := by
  rw [validateSync_eq_result hw hs, validateJob_eq, Job.bind_result, Job.done_result]

/-- Both validations are the run of the node that the call enters. -/
theorem call_eq_error (hw : w.Equipped C) {s : Schema} (hs : s.WellMade C)
    {value : Option Value} {options : CallOptions} {e : Failure}
    (h : w.validate s value options = .error e ∨ w.validateSync s value options = .error e) :
    ∃ sync, (w.enter (root s value options) >>= fun n =>
      (n.run sync (w.validateWithin sync (Value.heightOf n.value))).result) = .error e := by
  rcases h with hwait | hsync
  · refine ⟨false, ?_⟩
    rw [validate, validateJob_eq, Job.bind_result] at hwait
    exact hwait
  · refine ⟨true, ?_⟩
    rw [validateSync_eq hw hs] at hsync
    exact hsync

end Workshop

end Conform
