/-
  Conform.Proofs.Validation.BadData

  What a value can do to a validation. Where no schema has conditions, is lazy or has
  a test that is waited for, a synchronous validation ends well or with a violation,
  whatever the value is: the casts inside it do not insist on the type of their
  results, and nothing else can fail.
-/

import Conform.Proofs.Schema.Obtained
import Conform.Proofs.Validation.Failures

namespace Conform

-- ============================================================================
-- Plain schemas
-- ============================================================================

/-- Whether a schema stands as it is for every value, and its tests do not wait. -/
structure Schema.Plain (s : Schema) : Prop where
  eager : ∀ pick, s.kind ≠ .lazy pick
  unconditional : s.conditions = []
  prompt : ∀ x ∈ s.traits.tests, ∀ subject, (x.outcome subject).isPending = false

namespace Schema.Plain

variable {s : Schema}

theorem resolve (h : s.Plain) (w : Workshop) (value : Option Value) (options : CallOptions) :
    w.resolve s value options = .ok s :=
  Workshop.resolve_self h.eager h.unconditional value options

/-- None of the tests of a plain schema waits: those of type and lists are built in. -/
theorem not_isPending {C : RecipeClass} (h : s.Plain) (hs : s.Regular C) {x : Test}
    (hx : x ∈ s.traits.prerequisites ++ s.traits.tests) (subject : Subject) :
    (x.outcome subject).isPending = false := by
  rcases List.mem_append.mp hx with hpre | htest
  · obtain ⟨c, hc⟩ := Node.check_of_prerequisite hs hpre
    rw [Test.outcome, hc]
    exact c.judge_isPending _
  · exact h.prompt x htest subject

end Schema.Plain

/-- A validation that starts at plain schemas comes to plain schemas. -/
theorem Node.Visits.plain {w : Workshop} {n m : Node} (h : n.Visits w m)
    (hn : n.schema.Everywhere Schema.Plain) : m.schema.Everywhere Schema.Plain := by
  refine h.everywhere ?_ hn
  intro s t value options hs ht
  cases (hs.here.resolve w value options).symm.trans ht
  exact hs

namespace Workshop

variable {w : Workshop} {castPart : CastPart} {validating : Bool} {options : CallOptions}
  {s : Schema} {raw : Option Value}

-- ============================================================================
-- Casts
-- ============================================================================

/-- A cast that does not insist on the type of its result succeeds if those of its parts
    do. -/
theorem castNode_total (hoff : options.assertType = some false)
    (hparts : ∀ a, w.CastsPart castPart validating s raw options a →
      ∃ r, (a.resolve w >>= fun t => castPart t a.value a.options) = .ok r) :
    ∃ r, w.castNode castPart validating s raw options = .ok r := by
  cases h : w.castNode castPart validating s raw options with
  | ok r => exact ⟨r, rfl⟩
  | error e =>
      rcases castNode_eq_error h with ⟨hon, -⟩ | ⟨a, ha, hfails⟩
      · exact absurd hoff hon
      · obtain ⟨r, hr⟩ := hparts a ha
        exact absurd (hr.symm.trans hfails) (by simp)

/-- A plain schema that may go down by its height casts every value. -/
theorem castWithin_total {depth : Nat} (hs : s.Everywhere Schema.Plain)
    (hdepth : s.height ≤ depth) (hoff : options.assertType = some false) :
    ∃ r, w.castWithin depth s raw options = .ok r := by
  induction depth generalizing s raw options with
  | zero =>
      have hpos := s.height_pos
      omega
  | succ depth ih =>
      rw [castWithin]
      refine castNode_total hoff fun a ha => ?_
      have hpart := hs.nested ha.nested
      have hlt := ha.nested.height_lt
      obtain ⟨r, hr⟩ : ∃ r, w.castWithin depth a.schema a.value a.options = .ok r :=
        ih hpart (by omega) (ha.options_eq.trans hoff)
      exact ⟨r, bind_eq_ok.mpr ⟨a.schema, hpart.here.resolve w _ _, hr⟩⟩

theorem castResolved_total (hs : s.Everywhere Schema.Plain)
    (hoff : options.assertType = some false) :
    ∃ r, w.castResolved validating s raw options = .ok r := by
  rw [castResolved]
  refine castNode_total hoff fun a ha => ?_
  have hpart := hs.nested ha.nested
  have hlt := ha.nested.height_lt
  obtain ⟨r, hr⟩ : ∃ r, w.castWithin (depthLimit + s.height) a.schema a.value a.options = .ok r :=
    castWithin_total hpart (by omega) (ha.options_eq.trans hoff)
  exact ⟨r, bind_eq_ok.mpr ⟨a.schema, hpart.here.resolve w _ _, hr⟩⟩

/-- Every value of a call that leaves the option for assertions open is entered. -/
theorem enter_total (hs : s.Everywhere Schema.Plain) (value : Option Value)
    (hopen : options.assertType = none) :
    ∃ n, w.enter (root s value options) = .ok n ∧ n.schema = s := by
  have hoff : (castOptions options).assertType = some false := by
    rw [castOptions, hopen]
    rfl
  have hchecked : ∀ strict, ∃ r, w.checkedValue s strict value options = .ok r := by
    intro strict
    cases strict with
    | true => exact ⟨value, rfl⟩
    | false => exact castResolved_total hs hoff
  obtain ⟨checked, hvalue⟩ := hchecked (Mode.of options s.traits.options).strict
  have hresolve : w.resolve (root s value options).schema value options = .ok s :=
    hs.here.resolve w value options
  refine ⟨⟨s, checked, rawOf value none, options⟩, ?_, rfl⟩
  rw [enter]
  exact bind_eq_ok.mpr ⟨s, hresolve, bind_eq_ok.mpr ⟨checked, hvalue, rfl⟩⟩

-- ============================================================================
-- Validations
-- ============================================================================

/-- A run that starts at a plain schema fails with a violation only. -/
theorem exists_violation_of_plain_run {C : RecipeClass} (hw : w.Equipped C) {n : Node}
    (hmade : n.schema.WellMade C) (hplain : n.schema.Everywhere Schema.Plain) {e : Failure}
    (h : (n.run true (w.validateWithin true (Value.heightOf n.value))).result = .error e) :
    ∃ v, e = .violation v := by
  by_contra hnone
  have hmistake : ∀ v, e ≠ .violation v := fun v hv => hnone ⟨v, hv⟩
  obtain ⟨m, hm, hcause⟩ := exists_visit_of_mistake hw hmade (Nat.le_refl _) hmistake h
  have hmplain := hm.plain hplain
  rcases hcause with ⟨x, hx, hfails⟩ | ⟨p, hp, hfails⟩
  · obtain ⟨-, hpending, -⟩ := Test.run_eq_mistake hfails hmistake
    rw [hmplain.here.not_isPending (visits_wellMade hw hm hmade).here hx m.subject] at hpending
    exact absurd hpending (by simp)
  · have hresolves : p.evaluation.resolve w = .ok p.schema :=
      (Node.everywhere_part hmplain hp).here.resolve w p.value p.options
    rw [hresolves] at hfails
    exact absurd hfails (by simp)

/-- A synchronous validation with plain schemas ends well or with a violation, unless
    the call insists on the types of cast results; so it always has a verdict. -/
theorem validateSync_bad_data (hw : w.Reachable .all) (hs : s.Obtained)
    (hplain : s.Everywhere Schema.Plain) (value : Option Value)
    (hopen : options.assertType = none) :
    ((∃ r, w.validateSync s value options = .ok r) ∨
      ∃ v, w.validateSync s value options = .error (.violation v)) ∧
    ∃ b, verdict (w.validateSync s value options) = .ok b := by
  -- the entry never fails, so all that can fail is the run of its node
  obtain ⟨n, henter, hschema⟩ := enter_total (w := w) hplain value hopen
  have hmade : n.schema.WellMade .all := hschema ▸ hs.wellMade
  have hsync : w.validateSync s value options =
      (n.run true (w.validateWithin true (Value.heightOf n.value))).result := by
    rw [validateSync_eq hw.equipped hs.wellMade, henter]
    rfl
  cases h : w.validateSync s value options with
  | ok r => exact ⟨Or.inl ⟨r, rfl⟩, true, rfl⟩
  | error e =>
      have hplainNode : n.schema.Everywhere Schema.Plain := hschema ▸ hplain
      obtain ⟨v, rfl⟩ := exists_violation_of_plain_run hw.equipped hmade hplainNode (hsync ▸ h)
      exact ⟨Or.inr ⟨v, rfl⟩, false, rfl⟩

/-- An object with an array of numbers. -/
def numbersInside : Recipe :=
  .make .object [.shape [("xs", .make .array [.element (.plain .number)])] []]

/-- A text in the place of a number is a mistake of the caller for a cast by itself, but
    not for a validation, which has a verdict. -/
theorem validateSync_bad_data_numbers :
    ∃ s b, initial.build none numbersInside = .ok s ∧
      (∃ path kind value result,
        initial.cast s (some (.obj [("xs", .arr [.str "t"])])) .none =
          .error (.castMismatch path kind value result)) ∧
      verdict (initial.validateSync s (some (.obj [("xs", .arr [.str "t"])])) .none) = .ok b := by
  obtain ⟨s, xs, x, hs, hkind, hxs, hx, hconditions, htests, hcast⟩ :
      ∃ s xs x, initial.build none numbersInside = .ok s ∧
        s.kind = .object ⟨[("xs", xs)], ["xs"], []⟩ ∧ xs.kind = .array (.of x) ∧
        x.kind = .number ∧
        (s.conditions = [] ∧ xs.conditions = [] ∧ x.conditions = []) ∧
        (s.traits.tests = [] ∧ xs.traits.tests = [] ∧ x.traits.tests = []) ∧
        ∃ path kind value result,
          initial.cast s (some (.obj [("xs", .arr [.str "t"])])) .none =
            .error (.castMismatch path kind value result) :=
    ⟨_, _, _, rfl, rfl, rfl, rfl, ⟨rfl, rfl, rfl⟩, ⟨rfl, rfl, rfl⟩, _, _, _, _, rfl⟩
  obtain ⟨hsplain, hxsplain, hxplain⟩ := hconditions
  obtain ⟨hstests, hxstests, hxtests⟩ := htests
  have hnumber : x.Everywhere Schema.Plain :=
    .of_children ⟨by simp [hx], hxplain, by simp [hxtests]⟩ ⟨by simp [hx], by simp [hx]⟩
      (by simp [hxplain])
  have hnumbers : xs.Everywhere Schema.Plain := by
    refine .of_children ⟨by simp [hxs], hxsplain, by simp [hxstests]⟩ ⟨by simp [hxs], ?_⟩
      (by simp [hxsplain])
    intro t ht
    cases hxs.symm.trans ht
    exact hnumber
  have hplain : s.Everywhere Schema.Plain := by
    refine .of_children ⟨by simp [hkind], hsplain, by simp [hstests]⟩ ⟨?_, by simp [hkind]⟩
      (by simp [hsplain])
    intro shape hshape f hf
    cases hkind.symm.trans hshape
    cases List.mem_singleton.mp hf
    exact hnumbers
  have hopen : CallOptions.none.assertType = none := rfl
  obtain ⟨-, b, hb⟩ := validateSync_bad_data .initial
    (.built Schema.Obtained.stored_initial hs) hplain (some (.obj [("xs", .arr [.str "t"])])) hopen
  exact ⟨s, b, hs, hcast, hb⟩

end Workshop

end Conform
