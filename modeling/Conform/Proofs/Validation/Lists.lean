/-
  Conform.Proofs.Validation.Lists

  What a validation says of the lists of its schema. The checks of type and lists run
  before all others, and when all failures are collected, what they report is in the
  report of the call, whatever the fields or items report besides it; only a part that
  ends the call with another failure keeps it back. As no list is without its check,
  the report names a list exactly if the value breaks it. Lazy schemas are aside: the
  lists of the lazy node itself are given up with it when the schema is made.
-/

import Conform.Proofs.Schema.Enforcement
import Conform.Proofs.Validation.Failures
import Conform.Proofs.Validation.Synchrony

namespace Conform

-- ============================================================================
-- Reports of a run
-- ============================================================================

namespace Policy

/-- What was found before is in the report of a run that collects. -/
theorem leaves_before {p : Policy} (habort : p.abortEarly = false) {jobs : List (Job Unit)}
    {report : Violation} (h : (p.run jobs).result = .error (.violation report)) :
    ∀ v ∈ p.before, ∀ u ∈ v.leaves, u ∈ report.leaves := by
  intro v hv u hu
  rw [run_of_collects habort, collected] at h
  rcases bind_eq_error.mp h with hfails | ⟨found, -, hreport⟩
  · exact absurd rfl (violations_eq_error hfails report)
  · dsimp only at hreport
    split at hreport
    · exact absurd hreport (by simp [pure, Except.pure])
    · next hsome =>
        cases hreport
        rw [Violation.leaves_collect (by simpa using hsome)]
        exact List.mem_flatMap.mpr ⟨v, List.mem_append_right _ hv, hu⟩

end Policy

/-- Whether a result is a report with a leaf. -/
def Result.Reports (r : Result (Option Value)) (leaf : Violation) : Prop :=
  ∃ report, r = .error (.violation report) ∧ leaf ∈ report.leaves

namespace Test

variable {t : Test} {c : Check} {subject : Subject}

/-- A built-in check reports a violation exactly if it does not pass. -/
theorem violation?_eq_none_of_check (h : t.predicate = .check c) :
    t.violation? subject = none ↔ t.outcome subject = .pass := by
  have hpending : (t.outcome subject).isPending = false := by
    rw [outcome, h]
    exact c.judge_isPending _
  rw [violation?]
  cases houtcome : t.outcome subject with
  | pending rounds later => simp [houtcome, Outcome.isPending] at hpending
  | _ => simp

/-- What a built-in check reports has the kind of its name and the place and value of the
    subject. -/
theorem eq_of_judge {ctx : TestContext} {v : Violation} (h : c.judge ctx = .error v) :
    v.kind = ctx.head.name ∧ v.path = ctx.subject.path ∧ v.value = ctx.subject.value := by
  unfold Check.judge at h
  split at h
  · exact absurd h (by simp)
  · split at h
    · cases h
      exact ⟨rfl, rfl, rfl⟩
    · cases h
      exact ⟨rfl, rfl, rfl⟩
    · cases h
      exact ⟨rfl, rfl, rfl⟩
    · exact absurd h (by simp)

theorem violation?_of_check (h : t.predicate = .check c) {v : Violation}
    (hv : t.violation? subject = some v) :
    v.kind = t.name ∧ v.path = subject.path ∧ v.value = subject.value := by
  rw [violation?, outcome, h, Predicate.judge] at hv
  split at hv
  · exact absurd hv (by simp)
  · cases hv
    exact ⟨rfl, rfl, rfl⟩
  · next u hjudge =>
      cases hv
      exact eq_of_judge hjudge
  · exact absurd hv (by simp)

end Test

namespace Node

variable {n : Node} {sync : Bool} {validatePart : ValidatePart} {e : Violation}

/-- What the checks of type and lists report is carried on to the parts, or ends the
    run. -/
theorem own_of_failing_prerequisites {C : RecipeClass} (hn : n.schema.Regular C)
    (habort : n.mode.abortEarly = false)
    (hfails : n.failing n.schema.traits.prerequisites ≠ []) (sync : Bool) :
    (n.own sync).result = .error (.violation (Violation.collect
      (n.failing n.schema.traits.prerequisites) n.value n.options.path)) := by
  have hwait : ∀ t ∈ n.schema.traits.prerequisites, (t.outcome n.subject).isPending = false := by
    intro t ht
    obtain ⟨c, hc⟩ := check_of_prerequisite hn ht
    rw [Test.outcome, hc]
    exact c.judge_isPending _
  have hjobs : n.prerequisiteJobs sync = n.prerequisiteJobs true := by
    cases sync with
    | true => rfl
    | false => exact List.map_congr_left fun t ht => Test.run_of_not_pending (hwait t ht)
  have hrun := ownPolicy_run habort hwait
  rw [if_neg hfails] at hrun
  rw [own_eq, Job.bind_result, hjobs, prerequisiteJobs, hrun]
  rfl

/-- Parts that report something report what was found before. -/
theorem reports_of_partsJob (hshape : ∀ shape, n.schema.kind = .object shape → shape.Ordered)
    (habort : n.mode.abortEarly = false) {v report : Violation}
    (h : (n.partsJob validatePart [v]).result = .error (.violation report)) :
    ∀ u ∈ v.leaves, u ∈ report.leaves := by
  rcases partsJob_eq_error hshape h with ⟨u, hu, heq⟩ | ⟨plan, hrun⟩
  · cases List.mem_singleton.mp hu
    cases heq
    exact fun _ hu => hu
  · exact Policy.leaves_before (p := plan.policy [v]) habort hrun v List.mem_cons_self

/-- What a check of type or lists reports is in the report of the run, unless a part
    ends the run with a failure that is no violation. -/
theorem reports_of_failing_prerequisite {C : RecipeClass} (hn : n.schema.Regular C)
    (habort : n.mode.abortEarly = false) (he : e ∈ n.failing n.schema.traits.prerequisites) :
    ((n.run sync validatePart).result.IsMistake ∧ ∃ p ∈ n.parts,
      (p.job validatePart).result = (n.run sync validatePart).result) ∨
    Result.Reports (n.run sync validatePart).result e := by
  have hfails := List.ne_nil_of_mem he
  have hown := own_of_failing_prerequisites hn habort hfails sync
  have hleaf : ∀ v ∈ n.failing n.schema.traits.prerequisites, v.IsLeaf := by
    intro v hv
    obtain ⟨t, ht, hreported⟩ := List.mem_filterMap.mp hv
    obtain ⟨c, hc⟩ := check_of_prerequisite hn ht
    refine Test.isLeaf_of_violation? (fun u hu => ?_) hreported
    rw [Test.outcome, hc] at hu
    exact Check.isLeaf_of_judge hu
  have hleaves : e ∈ (Violation.collect (n.failing n.schema.traits.prerequisites) n.value
      n.options.path).leaves := by
    rw [Violation.leaves_collect hfails, Violation.flatMap_leaves hleaf]
    exact he
  rcases n.run_cases sync validatePart with ⟨hok, -⟩ | ⟨v, hv, -, hrun⟩ | ⟨f, hf, -, hrun⟩
  · exact absurd (hown.symm.trans hok) (by simp)
  · cases hown.symm.trans hv
    rw [hrun]
    cases hparts : (n.partsJob validatePart [_]).result with
    | ok r =>
        have hfound := (partsJob_result_eq_ok hn.shape (by simp [habort])).mp hparts
        exact absurd hfound.2.1 (by simp)
    | error f =>
        by_cases hviolation : ∃ report, f = .violation report
        · obtain ⟨report, rfl⟩ := hviolation
          exact Or.inr ⟨report, rfl, reports_of_partsJob hn.shape habort hparts e hleaves⟩
        · have hmistake : ∀ v, f ≠ .violation v := fun v hv => hviolation ⟨v, hv⟩
          exact Or.inl ⟨⟨f, rfl, hmistake⟩, exists_of_partsJob_mistake hn.shape hparts hmistake⟩
  · cases hown.symm.trans hf
    exact Or.inr ⟨_, hrun, hleaves⟩

-- ============================================================================
-- Errors of lists
-- ============================================================================

/-- What the check of the allow list reports of the value of the node. -/
def allowErrors (n : Node) : List Violation := n.failing n.schema.traits.allowCheck.toList

/-- What the check of the deny list reports of the value of the node. -/
def denyErrors (n : Node) : List Violation := n.failing n.schema.traits.denyCheck.toList

theorem failing_subset {tests others : List Test} (h : ∀ t ∈ tests, t ∈ others)
    (he : e ∈ n.failing tests) : e ∈ n.failing others := by
  obtain ⟨t, ht, hreported⟩ := List.mem_filterMap.mp he
  exact List.mem_filterMap.mpr ⟨t, h t ht, hreported⟩

theorem mem_failing_of_allowErrors (he : e ∈ n.allowErrors) :
    e ∈ n.failing n.schema.traits.prerequisites :=
  failing_subset (fun _ ht => mem_prerequisites.mpr
    (Or.inr (Or.inl (Option.mem_toList.mp ht)))) he

theorem mem_failing_of_denyErrors (he : e ∈ n.denyErrors) :
    e ∈ n.failing n.schema.traits.prerequisites :=
  failing_subset (fun _ ht => mem_prerequisites.mpr
    (Or.inr (Or.inr (Option.mem_toList.mp ht)))) he

/-- A built-in check reports something exactly if it does not pass. -/
theorem exists_failing_iff {x : Test} {c : Check} (h : x.predicate = .check c) :
    (∃ e, e ∈ n.failing [x]) ↔ ¬ x.outcome n.subject = .pass := by
  rw [← Test.violation?_eq_none_of_check h, failing, List.filterMap_cons, List.filterMap_nil]
  cases x.violation? n.subject <;> simp

theorem not_lists_of_isEmpty {set : EntrySet} (h : set.isEmpty = true) : ¬ n.Lists set := by
  obtain ⟨hvalues, hrefs⟩ := EntrySet.isEmpty_iff.mp h
  rintro ⟨v, -, hadmits⟩
  simp [EntrySet.admits, EntrySet.hasLiteral, hvalues, hrefs] at hadmits

/-- The check of the allow list reports a defined value exactly if there are entries and
    none admits it. -/
theorem exists_allowError_iff (h : n.schema.traits.Enforced) (hvalue : n.value ≠ none) :
    (∃ e, e ∈ n.allowErrors) ↔
      n.schema.traits.allow.isEmpty = false ∧ ¬ n.Lists n.schema.traits.allow := by
  rw [allowErrors]
  cases hcheck : n.schema.traits.allowCheck with
  | none =>
      have hempty := (hcheck ▸ h.allow).isEmpty_of_none
      simp [failing, hempty]
  | some x =>
      have hpredicate := (h.allow.enforces x hcheck).predicate_eq
      rw [Option.toList_some, exists_failing_iff hpredicate, outcome_allowed hpredicate]
      simp [hvalue]

/-- The check of the deny list reports a value exactly if an entry admits it. -/
theorem exists_denyError_iff (h : n.schema.traits.Enforced) :
    (∃ e, e ∈ n.denyErrors) ↔ n.Lists n.schema.traits.deny := by
  rw [denyErrors]
  cases hcheck : n.schema.traits.denyCheck with
  | none =>
      have hempty := (hcheck ▸ h.deny).isEmpty_of_none
      simp [failing, not_lists_of_isEmpty hempty]
  | some x =>
      have hpredicate := (h.deny.enforces x hcheck).predicate_eq
      rw [Option.toList_some, exists_failing_iff hpredicate, outcome_notDenied hpredicate,
        not_not]

/-- The error of a list is of the kind of its check and stands at the place of the
    value. -/
theorem error_of_enforces {set : EntrySet} {o : Option Test} {name : String} {c : Check}
    (h : set.EnforcedBy name c o) (he : e ∈ n.failing o.toList) :
    e.kind = some name ∧ e.path = n.options.path ∧ e.value = n.value := by
  obtain ⟨x, hx, hreported⟩ := List.mem_filterMap.mp he
  have henforces := h.enforces x (Option.mem_toList.mp hx)
  have herror := Test.violation?_of_check henforces.predicate_eq hreported
  rw [henforces.name_eq] at herror
  exact herror

/-- A run that collects reports the errors of both lists exactly if the value breaks
    them, unless a part ends it with a failure that is no violation. -/
theorem run_reports_lists {C : RecipeClass} (hn : n.schema.Regular C)
    (h : n.schema.traits.Enforced) (habort : n.mode.abortEarly = false)
    (hvalue : n.value ≠ none) (sync : Bool) (validatePart : ValidatePart) :
    ((n.run sync validatePart).result.IsMistake ∧ ∃ p ∈ n.parts,
      (p.job validatePart).result = (n.run sync validatePart).result) ∨
    (((∃ e ∈ n.allowErrors, Result.Reports (n.run sync validatePart).result e) ↔
        n.schema.traits.allow.isEmpty = false ∧ ¬ n.Lists n.schema.traits.allow) ∧
      ((∃ e ∈ n.denyErrors, Result.Reports (n.run sync validatePart).result e) ↔
        n.Lists n.schema.traits.deny)) := by
  by_cases hmistake : (n.run sync validatePart).result.IsMistake ∧ ∃ p ∈ n.parts,
      (p.job validatePart).result = (n.run sync validatePart).result
  · exact Or.inl hmistake
  · -- every error of a list is reported, so it is enough that there is one
    have hreported {errors : List Violation}
        (herrors : ∀ e ∈ errors, e ∈ n.failing n.schema.traits.prerequisites) :
        (∃ e ∈ errors, Result.Reports (n.run sync validatePart).result e) ↔ ∃ e, e ∈ errors :=
      exists_congr fun e => and_iff_left_of_imp fun he =>
        (reports_of_failing_prerequisite hn habort (herrors e he)).resolve_left hmistake
    refine Or.inr ⟨?_, ?_⟩
    · rw [hreported fun e => mem_failing_of_allowErrors, exists_allowError_iff h hvalue]
    · rw [hreported fun e => mem_failing_of_denyErrors, exists_denyError_iff h]

end Node

-- ============================================================================
-- Calls
-- ============================================================================

namespace Workshop

variable {w : Workshop} {s : Schema} {v : Value} {options : CallOptions}

/-- Where the value is taken as it is, a call runs the node of the schema itself. -/
theorem call_of_strict (hw : w.Equipped .all) (hs : s.WellMade .all) (hlazy : s.tag ≠ .lazy)
    (hconditions : s.conditions = [])
    (hstrict : (Mode.of options s.traits.options).strict = true) {n : Node}
    (hn : n = { schema := s, value := some v, raw := some v, options }) {result : Result (Option Value)}
    (hresult : result = w.validate s (some v) options ∨ result = w.validateSync s (some v) options) :
    ∃ sync, result = (n.run sync (w.validateWithin sync (Value.heightOf n.value))).result := by
  have hfixed : s.Fixed :=
    ⟨fun pick hkind => hlazy (by rw [Schema.tag, hkind]; rfl), hconditions⟩
  have henter : w.enter (root s (some v) options) = .ok n := hn ▸ enter_of_fixed hfixed hstrict
  rcases hresult with rfl | rfl
  · refine ⟨false, ?_⟩
    rw [validate, validateJob_eq, Job.bind_result, Job.done_result, henter]
    rfl
  · refine ⟨true, ?_⟩
    rw [validateSync_eq hw hs, henter]
    rfl

/-- A list is never silently unenforced. A call that takes a defined value as it is and
    collects all failures reports an error of the allow list exactly if the list has
    entries and none admits the value, and an error of the deny list exactly if an entry
    admits it, unless a field or an item ends the call with a failure that is no
    violation. The schema is not lazy and has no conditions. -/
theorem lists_are_enforced (hw : w.Reachable .all) (hs : s.Obtained) (hlazy : s.tag ≠ .lazy)
    (hconditions : s.conditions = [])
    (hstrict : (Mode.of options s.traits.options).strict = true)
    (hcollect : (Mode.of options s.traits.options).abortEarly = false) {n : Node}
    (hn : n = { schema := s, value := some v, raw := some v, options })
    {result : Result (Option Value)}
    (hresult : result = w.validate s (some v) options ∨ result = w.validateSync s (some v) options) :
    ((∀ e ∈ n.allowErrors, e.kind = some "oneOf" ∧ e.path = options.path ∧ e.value = some v) ∧
      ∀ e ∈ n.denyErrors, e.kind = some "notOneOf" ∧ e.path = options.path ∧ e.value = some v) ∧
    ((result.IsMistake ∧ ∃ sync, ∃ p ∈ n.parts,
        (p.job (w.validateWithin sync (Value.heightOf n.value))).result = result) ∨
      ((∃ e ∈ n.allowErrors, result.Reports e) ↔
        s.traits.allow.isEmpty = false ∧ ¬ n.Lists s.traits.allow) ∧
      ((∃ e ∈ n.denyErrors, result.Reports e) ↔ n.Lists s.traits.deny)) := by
  obtain ⟨sync, hrun⟩ :=
    call_of_strict hw.equipped hs.wellMade hlazy hconditions hstrict hn hresult
  have hregular : n.schema.Regular .all := hn ▸ hs.wellMade.here
  have henforced : n.schema.traits.Enforced := hn ▸ hs.enforced.here
  have habort : n.mode.abortEarly = false := hn ▸ hcollect
  have hvalue : n.value ≠ none := by simp [hn]
  have hlists := Node.run_reports_lists hregular henforced habort hvalue sync
    (w.validateWithin sync (Value.heightOf n.value))
  rw [← hrun] at hlists
  subst hn
  exact ⟨⟨fun e he => Node.error_of_enforces henforced.allow he,
    fun e he => Node.error_of_enforces henforced.deny he⟩,
    hlists.imp_left fun ⟨hmistake, hpart⟩ => ⟨hmistake, sync, hpart⟩⟩

/-- A text that may be the first letter or what a sibling field says, and not the second
    letter. -/
def letter : Recipe :=
  .make .string [.oneOf [.value (.str "a"), .ref (Reference.ofKey "other")],
    .notOneOf [.value (.str "b")]]

/-- The second letter breaks both lists, and the call reports it for both. -/
theorem lists_are_enforced_letter :
    ∃ s e f, initial.build none letter = .ok s ∧
      Result.Reports (initial.validateSync s (some (.str "b"))
        { strictly with parent := some (.obj [("other", .str "c")]) }) e ∧
      e.kind = some "oneOf" ∧
      Result.Reports (initial.validateSync s (some (.str "b"))
        { strictly with parent := some (.obj [("other", .str "c")]) }) f ∧
      f.kind = some "notOneOf" := by
  obtain ⟨s, hs, htag, hconditions, hallow, hdeny, hstrict, hcollect⟩ :
      ∃ s, initial.build none letter = .ok s ∧ s.tag = .string ∧ s.conditions = [] ∧
        s.traits.allow = ⟨[.str "a"], [Reference.ofKey "other"]⟩ ∧
        s.traits.deny = ⟨[.str "b"], []⟩ ∧
        (Mode.of { strictly with parent := some (.obj [("other", .str "c")]) }
          s.traits.options).strict = true ∧
        (Mode.of { strictly with parent := some (.obj [("other", .str "c")]) }
          s.traits.options).abortEarly = false :=
    ⟨_, rfl, rfl, rfl, rfl, rfl, rfl, rfl⟩
  obtain ⟨n, hn⟩ : ∃ n : Node, n =
      { schema := s, value := some (.str "b"), raw := some (.str "b"),
        options := { strictly with parent := some (.obj [("other", .str "c")]) } } := ⟨_, rfl⟩
  have hparts : n.parts = [] :=
    Node.parts_of_not_isComposite (by rw [hn]; show s.tag.isComposite = false; rw [htag]; rfl)
  have hnotAllowed : ¬ n.Lists s.traits.allow := by
    rintro ⟨v, hv, hadmits⟩
    rw [hn] at hv hadmits
    cases hv
    have hrefused : EntrySet.admits ⟨[.str "a"], [Reference.ofKey "other"]⟩ (.str "b")
        (fun r => r.value (some (.obj [("other", .str "c")])) none) = false := rfl
    rw [hallow] at hadmits
    exact absurd (hrefused.symm.trans hadmits) (by simp)
  have hdenied : n.Lists s.traits.deny := ⟨.str "b", by rw [hn], by rw [hdeny]; rfl⟩
  obtain ⟨⟨hallowKind, hdenyKind⟩, ⟨-, sync, p, hp, -⟩ | ⟨hallowed, hforbidden⟩⟩ :=
    lists_are_enforced .initial (.built Schema.Obtained.stored_initial hs) (by simp [htag])
      hconditions hstrict hcollect hn (Or.inr rfl)
  · exact absurd hp (by simp [hparts])
  · obtain ⟨e, he, hereports⟩ := hallowed.mpr ⟨by rw [hallow]; rfl, hnotAllowed⟩
    obtain ⟨f, hf, hfreports⟩ := hforbidden.mpr hdenied
    exact ⟨s, e, f, hs, hereports, (hallowKind e he).1, hfreports, (hdenyKind f hf).1⟩

/-- A lazy schema with an allow list of its own. -/
def lazyLetter : Recipe :=
  .make (.lazy fun _ _ => .ok (.plain .mixed)) [.oneOf [.value (.str "a")]]

/-- An object that is to be one of none, with a field that always gives up. -/
def refusingField : Recipe :=
  .make .object [.shape [("f", .make .mixed [.when [Reference.ofKey "$flag"]
    (.resolver fun _ _ => .refuse "no")])] [], .oneOf [.value .null]]

/-- A lazy schema drops its own allow list when it is made and accepts what is not
    listed; and a field that gives up keeps the error of the object's list back. -/
theorem lists_are_not_enforced_everywhere :
    (∃ s, initial.build none lazyLetter = .ok s ∧ s.Obtained ∧ s.conditions = [] ∧
      s.isType (.str "b") = true ∧ s.traits.allow.isEmpty = false ∧
      s.traits.allow.admits (.str "b") (fun r => r.value none none) = false ∧
      initial.validateSync s (some (.str "b")) strictly = .ok (some (.str "b"))) ∧
    ∃ s, initial.build none refusingField = .ok s ∧ s.Obtained ∧ s.conditions = [] ∧
      s.tag ≠ .lazy ∧ s.isType (.obj []) = true ∧ s.traits.allow.isEmpty = false ∧
      s.traits.allow.admits (.obj []) (fun r => r.value none none) = false ∧
      initial.validateSync s (some (.obj [])) strictly = .error (.rejected "no") :=
  ⟨⟨_, rfl, .built Schema.Obtained.stored_initial (rfl : initial.build none lazyLetter = .ok _),
      rfl, rfl, rfl, rfl, by with_unfolding_all rfl⟩,
    ⟨_, rfl, .built Schema.Obtained.stored_initial (rfl : initial.build none refusingField = .ok _),
      rfl, by decide, rfl, rfl, rfl, by with_unfolding_all rfl⟩⟩

end Workshop

end Conform
