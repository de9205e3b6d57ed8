/-
  Conform.Proofs.Validation.Required

  What `required` comes to. It adds up to two tests of one name, none of which is
  exclusive. The first one clears the flag of the name, whatever earlier tests have left
  there, and drops the tests that this flag condemns; so the second one joins it instead of
  replacing it. Adding both again changes nothing, and each of them stands in the way of
  some of the values that are not there or empty.
-/

import Conform.Proofs.Validation.Failures
import Conform.Proofs.Schema.Readding

namespace Conform

-- ============================================================================
-- Tests that are added together
-- ============================================================================

namespace Test

/-- Whether tests share a name that none of them claims for itself, and can stand in one
    list. -/
structure Family (n : String) (xs : List Test) : Prop where
  named : ∀ x ∈ xs, x.name = some n
  shared : ∀ x ∈ xs, x.exclusive = false
  marked : ∀ x ∈ xs, x.Marked
  distinct : xs.Pairwise fun x y => x.predicate.sameAs y.predicate = false

namespace Family

variable {n : String} {x : Test} {rest : List Test}

theorem tail (h : Family n (x :: rest)) : Family n rest where
  named y hy := h.named y (List.mem_cons_of_mem _ hy)
  shared y hy := h.shared y (List.mem_cons_of_mem _ hy)
  marked y hy := h.marked y (List.mem_cons_of_mem _ hy)
  distinct := (List.pairwise_cons.mp h.distinct).2

end Family

end Test

namespace Traits

open Test

variable {n : String} {t : Traits} {flags : Dict Bool} {x : Test} {rest : List Test}

/-- The tests that stay when a family is added: those of other names, and those without a
    twin in it unless their name has a flag. -/
def spared (t : Traits) (n : String) (xs : List Test) : List Test :=
  t.tests.filter fun y => !(y.isNamed n &&
    (t.isExclusive (some n) || xs.any fun x => y.predicate.sameAs x.predicate))

theorem exclusive_addTest (hname : x.name = some n) (hshared : x.exclusive = false) :
    (t.addTest x).exclusive = t.exclusive.insert n false := by
  rw [addTest, hname, hshared]

theorem isExclusive_of_insert (h : t.exclusive = flags.insert n false) :
    t.isExclusive (some n) = false := by
  rw [isExclusive, h, Dict.get?_insert_self]
  rfl

/-- One member of a family that is added drops its twins, or all tests of its name. -/
theorem tests_addTest (hname : x.name = some n) (hshared : x.exclusive = false) :
    (t.addTest x).tests = t.spared n [x] ++ [x] := by
  simp [addTest, spared, displaces, isNamed, hname, hshared]

/-- The first member of a family clears the flag of its name, so that the others do not
    drop it. -/
theorem spared_addTest (h : Family n (x :: rest)) :
    (t.addTest x).spared n rest = t.spared n (x :: rest) ++ [x] := by
  have hname := h.named x List.mem_cons_self
  have hshared := h.shared x List.mem_cons_self
  have hflag : (t.addTest x).isExclusive (some n) = false :=
    isExclusive_of_insert (exclusive_addTest hname hshared)
  have hstays : (rest.any fun w => x.predicate.sameAs w.predicate) = false := by
    rw [List.any_eq_false]
    exact fun w hw => by simp [(List.pairwise_cons.mp h.distinct).1 w hw]
  rw [spared, hflag, tests_addTest hname hshared, List.filter_append, spared, List.filter_filter,
    List.filter_singleton, hstays]
  simp only [Bool.or_false, Bool.and_false, Bool.not_false, cond_true, Bool.false_or]
  congr 1
  refine List.filter_congr fun y _ => ?_
  simp only [List.any_cons, List.any_nil]
  cases y.isNamed n <;> cases t.isExclusive (some n) <;>
    cases y.predicate.sameAs x.predicate <;> simp

/-- Adding a family puts it behind the tests that it spares, and leaves no flag. -/
theorem foldl_addTest_family (h : Family n (x :: rest)) :
    ((x :: rest).foldl addTest t).tests = t.spared n (x :: rest) ++ x :: rest ∧
      ((x :: rest).foldl addTest t).exclusive = t.exclusive.insert n false := by
  induction rest generalizing x t with
  | nil =>
      have hname := h.named x List.mem_cons_self
      have hshared := h.shared x List.mem_cons_self
      exact ⟨tests_addTest hname hshared, exclusive_addTest hname hshared⟩
  | cons z rest ih =>
      obtain ⟨htests, hexclusive⟩ := ih (t := t.addTest x) h.tail
      rw [List.foldl_cons]
      constructor
      · rw [htests, spared_addTest h, List.append_assoc, List.singleton_append]
      · rw [hexclusive, exclusive_addTest (h.named x List.mem_cons_self)
          (h.shared x List.mem_cons_self), Dict.insert_insert]

/-- Adding a family again changes nothing: each member takes its own place. -/
theorem foldl_addTest_family_twice (h : Family n (x :: rest)) :
    (x :: rest).foldl addTest ((x :: rest).foldl addTest t) = (x :: rest).foldl addTest t := by
  obtain ⟨htests, hexclusive⟩ := foldl_addTest_family (t := t) h
  obtain ⟨htests', hexclusive'⟩ := foldl_addTest_family (t := (x :: rest).foldl addTest t) h
  have hspared : ((x :: rest).foldl addTest t).spared n (x :: rest) = t.spared n (x :: rest) := by
    have hgone : (x :: rest).filter (fun y => !(y.isNamed n &&
        (false || (x :: rest).any fun w => y.predicate.sameAs w.predicate))) = [] := by
      refine List.filter_eq_nil_iff.mpr fun y hy hstays => ?_
      have htwin : ((x :: rest).any fun w => y.predicate.sameAs w.predicate) = true :=
        List.any_eq_true.mpr ⟨y, hy, h.marked y hy⟩
      rw [Test.isNamed_iff.mpr (h.named y hy), htwin] at hstays
      exact absurd hstays (by simp)
    rw [spared, isExclusive_of_insert hexclusive, htests, List.filter_append, hgone,
      List.append_nil, List.filter_eq_self]
    intro y hy
    have hkept := (List.mem_filter.mp hy).2
    rw [Bool.not_eq_true', Bool.and_eq_false_iff, Bool.or_eq_false_iff] at hkept ⊢
    exact hkept.imp_right fun htwin => ⟨rfl, htwin.2⟩
  rw [foldl_addTest_eq (x :: rest) ((x :: rest).foldl addTest t), htests', hexclusive', hspared,
    hexclusive, Dict.insert_insert, ← htests, ← hexclusive]

end Traits

-- ============================================================================
-- Requiring
-- ============================================================================

/-- What a value of a kind must not be if it is required, apart from missing: the check that
    refuses it. -/
def KindTag.fullness? : KindTag → Option Check
  | .string => some .textNotEmpty
  | .array => some .itemsNotEmpty
  | _ => none

/-- The values of a kind that `required` refuses. -/
def KindTag.blanks : KindTag → List (Option Value)
  | .string => [none, some .null, some (.str "")]
  | .array => [none, some .null, some (.arr [])]
  | _ => [none, some .null]

/-- A test that `required` adds. -/
def Test.requiring (locale : Locale) (check : Check) : Test :=
  .named "required" (locale .required) (.check check)

namespace Schema

variable {w : Workshop} {s : Schema} {locale : Locale} {x : Test}

/-- The tests that `required` adds. -/
def requiredTests (s : Schema) (locale : Locale) : List Test :=
  .requiring locale .present :: s.tag.fullness?.toList.map (Test.requiring locale)

theorem required_eq (s : Schema) (locale : Locale) :
    s.required locale =
      { s with traits := (s.requiredTests locale).foldl Traits.addTest s.traits } := by
  obtain ⟨kind, conditions, traits⟩ := s
  cases kind <;> rfl

theorem eq_requiring_of_mem (h : x ∈ s.requiredTests locale) :
    ∃ check, x = .requiring locale check := by
  rcases List.mem_cons.mp h with rfl | hfullness
  · exact ⟨_, rfl⟩
  · obtain ⟨check, -, rfl⟩ := List.mem_map.mp hfullness
    exact ⟨check, rfl⟩

/-- The tests that `required` adds go together. -/
theorem family_requiredTests (s : Schema) (locale : Locale) :
    Test.Family "required" (s.requiredTests locale) where
  named x hx := by
    obtain ⟨check, rfl⟩ := eq_requiring_of_mem hx
    rfl
  shared x hx := by
    obtain ⟨check, rfl⟩ := eq_requiring_of_mem hx
    rfl
  marked x hx := by
    obtain ⟨check, rfl⟩ := eq_requiring_of_mem hx
    exact beq_self_eq_true check
  distinct := by
    rw [requiredTests]
    cases s.tag <;> simp [KindTag.fullness?, Test.requiring, Test.named, Predicate.sameAs]

/-- `required` changes nothing but tests and flags. -/
theorem required_frame (s : Schema) (locale : Locale) :
    (s.required locale).kind = s.kind ∧ (s.required locale).conditions = s.conditions ∧
      (s.required locale).traits.options = s.traits.options ∧
      (s.required locale).traits.prerequisites = s.traits.prerequisites := by
  rw [required_eq, Traits.foldl_addTest_eq]
  exact ⟨rfl, rfl, rfl, rfl⟩

/-- Behind the tests that stay, `required` puts its own. -/
theorem tests_required (s : Schema) (locale : Locale) :
    (s.required locale).traits.tests =
      s.traits.spared "required" (s.requiredTests locale) ++ s.requiredTests locale := by
  rw [required_eq]
  exact (Traits.foldl_addTest_family (s.family_requiredTests locale)).1

/-- Requiring twice is requiring once. -/
theorem required_required (s : Schema) (locale : Locale) :
    (s.required locale).required locale = s.required locale := by
  have htag : (s.required locale).requiredTests locale = s.requiredTests locale := by
    rw [required_eq]
    rfl
  rw [required_eq (s.required locale), htag, required_eq s]
  exact congrArg (fun traits => { s with traits })
    (Traits.foldl_addTest_family_twice (s.family_requiredTests locale))

/-- Where the name is claimed by a test of its own, all tests of the name give way. -/
theorem filter_isNamed_required (h : s.traits.isExclusive (some "required") = true) :
    (s.required locale).traits.tests.filter (fun x => x.isNamed "required") =
      s.requiredTests locale := by
  have hfamily := s.family_requiredTests locale
  have hnone : (s.traits.spared "required" (s.requiredTests locale)).filter
      (fun x => x.isNamed "required") = [] := by
    refine List.filter_eq_nil_iff.mpr fun x hx hname => ?_
    have hstays := (List.mem_filter.mp hx).2
    rw [h, hname] at hstays
    exact absurd hstays (by simp)
  have hall : (s.requiredTests locale).filter (fun x => x.isNamed "required") =
      s.requiredTests locale :=
    List.filter_eq_self.mpr fun x hx => Test.isNamed_iff.mpr (hfamily.named x hx)
  rw [tests_required, List.filter_append, hnone, hall, List.nil_append]

end Schema

-- ============================================================================
-- Values that are not there
-- ============================================================================

/-- A value of a kind that `required` refuses is missing, or it is empty. -/
theorem KindTag.blanks_cases {kind : KindTag} {value : Option Value} (h : value ∈ kind.blanks) :
    value = none ∨ value = some .null ∨ (kind = .string ∧ value = some (.str "")) ∨
      (kind = .array ∧ value = some (.arr [])) := by
  cases kind <;> simpa [blanks] using h

/-- A value that is missing or empty fails one of the tests that are required of its
    kind. -/
theorem Schema.exists_requiredTest_fails {s : Schema} {subject : Subject}
    (h : subject.value ∈ s.tag.blanks) (locale : Locale) :
    ∃ x ∈ s.requiredTests locale, x.outcome subject = .fail := by
  have hfull (check : Check) (hkind : s.tag.fullness? = some check) :
      Test.requiring locale check ∈ s.requiredTests locale :=
    List.mem_cons_of_mem _ (List.mem_map_of_mem (Option.mem_toList.mpr hkind))
  obtain ⟨value, raw, path, label, node, options⟩ := subject
  rcases KindTag.blanks_cases h with rfl | rfl | ⟨hkind, rfl⟩ | ⟨hkind, rfl⟩
  · exact ⟨_, List.mem_cons_self, rfl⟩
  · exact ⟨_, List.mem_cons_self, rfl⟩
  · exact ⟨_, hfull .textNotEmpty (by rw [hkind]; rfl), rfl⟩
  · exact ⟨_, hfull .itemsNotEmpty (by rw [hkind]; rfl), rfl⟩

/-- A value that is missing or empty has no parts. -/
theorem Node.parts_of_blank {n : Node} (h : n.value ∈ n.schema.tag.blanks) : n.parts = [] := by
  refine List.eq_nil_iff_forall_not_mem.mpr fun p hp => ?_
  rcases mem_parts_cases hp with ⟨shape, fields, -, hvalue, -⟩ | ⟨element, items, -, hvalue, item,
    hitem, -⟩ <;> rw [hvalue] at h <;>
    rcases KindTag.blanks_cases h with heq | heq | ⟨-, heq⟩ | ⟨-, heq⟩ <;> cases heq
  exact absurd hitem (by simp)

namespace Node

variable {n : Node} {x : Test} {validatePart : ValidatePart}

/-- Where a test fails and there are no parts, a run fails: with a violation, or because it
    is not to wait and a test is pending. -/
theorem run_of_failing_test (hshape : ∀ shape, n.schema.kind = .object shape → shape.Ordered)
    (hparts : n.parts = []) (hx : x ∈ n.schema.traits.tests) (hfails : x.outcome n.subject = .fail)
    (sync : Bool) (validatePart : ValidatePart) :
    (∃ v, (n.run sync validatePart).result = .error (.violation v)) ∨
      sync = true ∧ ∃ t ∈ n.tests, (t.outcome n.subject).isPending = true ∧
        (n.run sync validatePart).result = .error (.pendingTest t.shownName) := by
  cases hrun : (n.run sync validatePart).result with
  | ok r =>
      obtain ⟨-, hown, -⟩ := (Node.run_result_eq_ok hshape).mp hrun
      rw [own_eq, Job.bind_result] at hown
      obtain ⟨-, -, htests⟩ := bind_eq_ok.mp hown
      have hpasses := (Policy.run_result_eq_ok.mp htests).1 _ (List.mem_map_of_mem hx)
      rw [Test.run, hfails] at hpasses
      exact absurd hpasses (by simp [Outcome.isPending, Outcome.settle])
  | error e =>
      by_cases hviolation : ∃ v, e = .violation v
      · obtain ⟨v, rfl⟩ := hviolation
        exact Or.inl ⟨v, rfl⟩
      · have he : ∀ v, e ≠ .violation v := fun v hv => hviolation ⟨v, hv⟩
        rcases exists_of_run_mistake hshape hrun he with ⟨t, ht, hmistake⟩ | ⟨p, hp, -⟩
        · obtain ⟨hsync, hpending, rfl⟩ := Test.run_eq_mistake hmistake he
          exact Or.inr ⟨hsync, t, ht, hpending, rfl⟩
        · exact absurd hp (by simp [hparts])

end Node

namespace Workshop

variable {w : Workshop} {s : Schema} {locale : Locale} {value : Option Value}
  {options : CallOptions}

/-- The calls of a node that nothing of is waited for. -/
theorem calls_of_enter {n : Node} (henter : w.enter (root s value options) = .ok n)
    (hshape : ∀ shape, n.schema.kind = .object shape → shape.Ordered) (hparts : n.parts = []) :
    w.validate s value options =
        (n.run false (w.validateWithin false (Value.heightOf n.value))).result ∧
      w.validateSync s value options =
        (n.run true (w.validateWithin true (Value.heightOf n.value))).result := by
  have hjob (sync : Bool) : w.validateJob s value options sync =
      n.run sync (w.validateWithin sync (Value.heightOf n.value)) := by
    rw [validateJob_eq, henter, Job.bind_done_ok]
  have hready : (n.run true (w.validateWithin true (Value.heightOf n.value))).rounds = 0 :=
    Node.ready_run hshape fun p hp => absurd hp (by simp [hparts])
  constructor
  · rw [validate, hjob]
  · rw [validateSync, hjob]
    exact if_pos hready

/-- The tests that are required answer at once, so what is pending was there before. -/
theorem mem_of_pending {x : Test} {subject : Subject}
    (hx : x ∈ (s.required locale).traits.prerequisites ++ (s.required locale).traits.tests)
    (hpending : (x.outcome subject).isPending = true) :
    x ∈ s.traits.prerequisites ++ s.traits.tests := by
  obtain ⟨-, -, -, hprerequisites⟩ := s.required_frame locale
  rw [hprerequisites, s.tests_required] at hx
  rcases List.mem_append.mp hx with hbefore | hlisted
  · exact List.mem_append_left _ hbefore
  rcases List.mem_append.mp hlisted with hspared | hown
  · exact List.mem_append_right _ (List.mem_filter.mp hspared).1
  · obtain ⟨check, rfl⟩ := Schema.eq_requiring_of_mem hown
    exact absurd hpending (by simp [Test.outcome, Test.requiring, Test.named, Predicate.judge,
      Check.judge_isPending])

/-- A text or a list that is required and taken as it is refuses what is missing or empty. -/
theorem required_refuses (hkind : s.tag = .string ∨ s.tag = .array)
    (hconditions : s.conditions = []) (hblank : value ∈ s.tag.blanks)
    (hstrict : (Mode.of options s.traits.options).strict = true) (w : Workshop) (locale : Locale) :
    (∃ v, w.validate (s.required locale) value options = .error (.violation v)) ∧
    ((∃ v, w.validateSync (s.required locale) value options = .error (.violation v)) ∨
      ∃ x ∈ s.traits.prerequisites ++ s.traits.tests,
        (x.outcome (subjectOf (s.required locale) value value options)).isPending = true ∧
        w.validateSync (s.required locale) value options = .error (.pendingTest x.shownName)) := by
  obtain ⟨hk, hc, ho, -⟩ := s.required_frame locale
  have hkinds {kind : Kind Schema} (h : (s.required locale).kind = kind) :
      kind.tag = .string ∨ kind.tag = .array := by
    rw [← h, hk]
    exact hkind
  have hfixed : (s.required locale).Fixed :=
    ⟨fun pick hlazy => by simpa [Kind.tag] using hkinds hlazy, hc.trans hconditions⟩
  have hshape : ∀ shape, (s.required locale).kind = .object shape → shape.Ordered :=
    fun shape hobject => absurd (hkinds hobject) (by simp [Kind.tag])
  let n : Node := ⟨s.required locale, value, value, options⟩
  have henter : w.enter (root (s.required locale) value options) = .ok n :=
    enter_of_fixed hfixed (ho ▸ hstrict)
  have htag : n.schema.tag = s.tag := congrArg Kind.tag hk
  have hparts : n.parts = [] := Node.parts_of_blank (htag ▸ hblank)
  have hsubject : n.subject.value ∈ s.tag.blanks := hblank
  obtain ⟨x, hx, hfails⟩ := Schema.exists_requiredTest_fails hsubject locale
  have hmem : x ∈ n.schema.traits.tests := by
    show x ∈ (s.required locale).traits.tests
    rw [s.tests_required]
    exact List.mem_append_right _ hx
  have hrun (sync : Bool) := Node.run_of_failing_test hshape hparts hmem hfails sync
    (w.validateWithin sync (Value.heightOf value))
  obtain ⟨hwaits, hsync⟩ := calls_of_enter henter hshape hparts
  constructor
  · rw [hwaits]
    exact (hrun false).resolve_right fun h => absurd h.1 (by simp)
  · rw [hsync]
    refine (hrun true).imp_right ?_
    rintro ⟨-, t, ht, hpending, hrefused⟩
    exact ⟨t, mem_of_pending ht hpending, hpending, hrefused⟩

/-- `required` always takes full effect. Whatever stood there before, a text or a list that is
    required refuses undefined, null and what is empty, when the value is taken as it is: a
    call that may wait reports a violation, and so does one that may not, unless it refuses
    a pending test from before. Requiring twice is requiring once, and where a test claimed the
    name for itself, nothing of this name is left but the tests that are required. -/
theorem required_takes_effect (hkind : s.tag = .string ∨ s.tag = .array)
    (hconditions : s.conditions = []) (locale : Locale) :
    (∀ (w : Workshop) (value : Option Value) (options : CallOptions), value ∈ s.tag.blanks →
      (Mode.of options s.traits.options).strict = true →
      (∃ v, w.validate (s.required locale) value options = .error (.violation v)) ∧
      ((∃ v, w.validateSync (s.required locale) value options = .error (.violation v)) ∨
        ∃ x ∈ s.traits.prerequisites ++ s.traits.tests,
          (x.outcome (subjectOf (s.required locale) value value options)).isPending = true ∧
          w.validateSync (s.required locale) value options = .error (.pendingTest x.shownName))) ∧
    (s.required locale).required locale = s.required locale ∧
    (s.traits.isExclusive (some "required") = true →
      (s.required locale).traits.tests.filter (fun x => x.isNamed "required") =
        s.requiredTests locale) := by
  exact ⟨fun w value options hblank hstrict =>
      required_refuses hkind hconditions hblank hstrict w locale,
    s.required_required locale, Schema.filter_isNamed_required⟩

/-- A text with an exclusive test that always passes under the name of the required ones. -/
def nameClaimed : Recipe :=
  .make .string [.test (.draft
    { name := some "required", exclusive := true, message := none, params := []
      judge := fun _ => .pass })]

/-- The empty text passes, and is refused as soon as a text is required: the test that claimed
    the name is gone, and the flag that it left drops none of the two that come. -/
theorem required_takes_effect_nameClaimed :
    ∃ s, initial.build (some []) nameClaimed = .ok s ∧
      s.traits.isExclusive (some "required") = true ∧
      initial.validateSync s (some (.str "")) asGiven = .ok (some (.str "")) ∧
      (∃ v, initial.validateSync (s.required .standard) (some (.str "")) asGiven =
        .error (.violation v)) ∧
      (∃ v, initial.validate (s.required .standard) (some .null) asGiven =
        .error (.violation v)) ∧
      (s.required .standard).traits.tests.filter (fun x => x.isNamed "required") =
        [.requiring .standard .present, .requiring .standard .textNotEmpty] ∧
      (s.required .standard).required .standard = s.required .standard := by
  obtain ⟨s, hs, htag, hconditions, hclaimed, haccepted, hprompt⟩ :
      ∃ s, initial.build (some []) nameClaimed = .ok s ∧ s.tag = .string ∧ s.conditions = [] ∧
        s.traits.isExclusive (some "required") = true ∧
        initial.validateSync s (some (.str "")) asGiven = .ok (some (.str "")) ∧
        ∀ x ∈ s.traits.prerequisites ++ s.traits.tests, ∀ subject,
          (x.outcome subject).isPending = false := by
    refine ⟨_, rfl, rfl, rfl, rfl, rfl, ?_⟩
    refine List.forall_mem_cons.mpr ⟨fun subject => Check.judge_isPending .typed _, ?_⟩
    exact List.forall_mem_singleton.mpr fun subject => rfl
  obtain ⟨hrefuses, htwice, hnamed⟩ :=
    required_takes_effect (Or.inl htag) hconditions Locale.standard
  have hempty := (hrefuses initial (some (.str "")) asGiven (by simp [htag, KindTag.blanks]) rfl).2
  have hnull := (hrefuses initial (some .null) asGiven (by simp [htag, KindTag.blanks]) rfl).1
  refine ⟨s, hs, hclaimed, haccepted, hempty.resolve_right ?_, hnull, ?_, htwice⟩
  · rintro ⟨x, hx, hpending, -⟩
    exact absurd hpending (by simp [hprompt x hx])
  · rw [hnamed hclaimed, Schema.requiredTests, htag]
    rfl

end Workshop

end Conform
