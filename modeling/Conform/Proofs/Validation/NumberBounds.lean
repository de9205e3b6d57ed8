/-
  Conform.Proofs.Validation.NumberBounds

  What the bounds of numbers tell apart. An integer and a bound are compared as binary64,
  so a bound holds exactly if it holds of the two integers rounded to 53 significant bits.
  Where these differ the bound says of the integers what it is meant to say; two integers
  beyond 2^53 that are rounded alike pass for equal, and are let through by the bounds that
  include their end and held back by the others.
-/

import Conform.Proofs.Number.Rounding
import Conform.Proofs.Schema.Resolution
import Conform.Proofs.Validation.Acceptance
import Conform.Proofs.Validation.Collection
import Conform.Proofs.Violation

namespace Conform

-- ============================================================================
-- Bounds
-- ============================================================================

/-- A bound of numbers: at least, at most, more than or less than a parameter. -/
inductive NumberBound where
  | min
  | max
  | moreThan
  | lessThan
  deriving DecidableEq

namespace NumberBound

/-- The step that sets the bound. -/
def step : NumberBound → Param → Step
  | min => .min
  | max => .max
  | moreThan => .moreThan
  | lessThan => .lessThan

/-- The name of the bound's test. A bound takes the place of the others on its side. -/
def testName : NumberBound → String
  | min | moreThan => "min"
  | max | lessThan => "max"

/-- The name of the bound's parameter. -/
def paramName : NumberBound → String
  | min => "min"
  | max => "max"
  | moreThan => "more"
  | lessThan => "less"

def messageSlot : NumberBound → MessageSlot
  | min => .numberMin
  | max => .numberMax
  | moreThan => .moreThan
  | lessThan => .lessThan

def check : NumberBound → Check
  | min => .atLeast
  | max => .atMost
  | moreThan => .above
  | lessThan => .below

/-- The test that the step adds. -/
def test (bound : NumberBound) (locale : Locale) (param : Param) : Test :=
  ((Test.named bound.testName (locale bound.messageSlot) (.check bound.check)).withParam
    bound.paramName param).exclusively

/-- Whether an integer meets the bound. -/
def Meets (bound : NumberBound) (v limit : Int) : Prop :=
  match bound with
  | min => limit ≤ v
  | max => v ≤ limit
  | moreThan => limit < v
  | lessThan => v < limit

instance (bound : NumberBound) (v limit : Int) : Decidable (bound.Meets v limit) :=
  match bound with
  | min => inferInstanceAs (Decidable (limit ≤ v))
  | max => inferInstanceAs (Decidable (v ≤ limit))
  | moreThan => inferInstanceAs (Decidable (limit < v))
  | lessThan => inferInstanceAs (Decidable (v < limit))

/-- Whether the bound lets its own end through. -/
def Inclusive (bound : NumberBound) : Prop := bound = min ∨ bound = max

variable {bound : NumberBound} {v limit : Int}

theorem meets_self_iff (bound : NumberBound) (v : Int) : bound.Meets v v ↔ bound.Inclusive := by
  cases bound <;> simp [Meets, Inclusive]

/-- A bound is met by rounded integers as it is by the integers, where these are told
    apart. -/
theorem meets_rounded_iff (h : Number.rounded v ≠ Number.rounded limit) :
    bound.Meets (Number.rounded v) (Number.rounded limit) ↔ bound.Meets v limit := by
  have hup : v ≤ limit → Number.rounded v ≤ Number.rounded limit := Number.rounded_mono
  have hdown : limit ≤ v → Number.rounded limit ≤ Number.rounded v := Number.rounded_mono
  cases bound <;> simp only [Meets] <;> constructor <;> intro hmeets <;> omega

variable {locale : Locale} {param : Param} {subject : Subject}

theorem param_test (bound : NumberBound) :
    TestContext.param ⟨(bound.test locale param).toTestHead, subject⟩ bound.paramName =
      param.resolve subject.options.parent subject.options.context := by
  have hget : Dict.get? (bound.test locale param).params bound.paramName = some param :=
    Dict.get?_insert_self _ _ _
  rw [TestContext.param, hget]
  rfl

/-- A bound compares an integer with its parameter as binary64. -/
theorem compareNumber_test (bound : NumberBound) (locale : Locale)
    (hvalue : subject.value = some (.int v))
    (hparam : param.resolve subject.options.parent subject.options.context = some (.int limit))
    (ok : Binary64 → Binary64 → Bool) :
    TestContext.compareNumber ⟨(bound.test locale param).toTestHead, subject⟩ bound.paramName ok =
      ok (Binary64.ofInt v) (Binary64.ofInt limit) := by
  have hsubject : TestContext.value ⟨(bound.test locale param).toTestHead, subject⟩ =
      some (.int v) := hvalue
  rw [TestContext.compareNumber, TestContext.numberParam, param_test, hparam, hsubject]
  rfl

/-- The test of a bound on integers passes exactly if the rounded integers meet it. -/
theorem outcome_test_iff (hvalue : subject.value = some (.int v))
    (hparam : param.resolve subject.options.parent subject.options.context = some (.int limit))
    (hv : Number.Kept v) (hlimit : Number.Kept limit) :
    (bound.test locale param).outcome subject = .pass ↔
      bound.Meets (Number.rounded v) (Number.rounded limit) := by
  have hcompare := compareNumber_test bound locale hvalue hparam
  have hpass : (bound.test locale param).outcome subject = .pass ↔
      bound.check.holds ⟨(bound.test locale param).toTestHead, subject⟩ = true :=
    Check.judge_eq_pass
  rw [hpass]
  cases bound with
  | min => exact (Bool.eq_iff_iff.mp (hcompare _)).trans (Number.ofInt_atMost_iff hlimit hv)
  | max => exact (Bool.eq_iff_iff.mp (hcompare _)).trans (Number.ofInt_atMost_iff hv hlimit)
  | moreThan => exact (Bool.eq_iff_iff.mp (hcompare _)).trans (Number.ofInt_less_iff hlimit hv)
  | lessThan => exact (Bool.eq_iff_iff.mp (hcompare _)).trans (Number.ofInt_less_iff hv hlimit)

end NumberBound

-- ============================================================================
-- Validation
-- ============================================================================

namespace Workshop

variable {w : Workshop} {bound : NumberBound} {param : Param} {mark : Option Mark} {s : Schema}
  {v limit : Int} {options : CallOptions}

/-- A number with a bound has the test of the bound and no other. -/
theorem build_bound (w : Workshop) (bound : NumberBound) (param : Param) (mark : Option Mark) :
    w.build mark (.make .number [bound.step param]) =
      .ok ((Schema.fresh w.locale .number).addTest (bound.test w.locale param)) := by
  cases bound <;> rfl

/-- An integer is valid for a number with a bound exactly if the test of the bound passes. -/
theorem valid_bound_iff {n : Node}
    (hschema : n.schema = (Schema.fresh w.locale .number).addTest (bound.test w.locale param))
    (hvalue : n.value = some (.int v)) :
    n.Valid w ↔ (bound.test w.locale param).outcome n.subject = .pass := by
  have htests : n.schema.traits.tests = [bound.test w.locale param] := by
    rw [hschema]
    rfl
  have hparts : n.parts = [] := Node.parts_of_not_isComposite (by rw [hschema]; rfl)
  constructor
  · intro hvalid
    exact hvalid.sound.tests _ (by simp [htests])
  · intro hpass
    have hsound : n.Sound :=
      { typed := fun u hu => by
          obtain rfl : .int v = u := Option.some.inj (hvalue.symm.trans hu)
          rw [hschema]
          rfl
        allowed := fun h => by rw [hschema] at h; nomatch h
        denied := fun h => by rw [hschema] at h; nomatch h
        tests := by
          rw [htests]
          exact List.forall_mem_singleton.mpr hpass }
    exact .of_parts hsound (by simp [hparts])

/-- A number with a bound is validated strictly by the test of the bound. -/
theorem validateSync_bound (hw : w.Equipped .all)
    (hs : w.build mark (.make .number [bound.step param]) = .ok s)
    (hstrict : options.strict = some true) (v : Int) :
    w.validateSync s (some (.int v)) options = .ok (some (.int v)) ↔
      (bound.test w.locale param).outcome
        (Node.subject ⟨s, some (.int v), some (.int v), options⟩) = .pass := by
  have hschema : s = (Schema.fresh w.locale .number).addTest (bound.test w.locale param) :=
    Except.ok.inj (hs.symm.trans (build_bound w bound param mark))
  have hfixed : s.Fixed := by
    rw [hschema]
    exact ⟨fun _ hkind => (nomatch hkind), rfl⟩
  have henter : w.enter (root s (some (.int v)) options) =
      .ok ⟨s, some (.int v), some (.int v), options⟩ := by
    have hresolve := hfixed.resolve w (some (.int v)) options
    rw [enter_of_strict hstrict]
    exact congrArg (Except.map _) hresolve
  rw [validateSync_eq_ok_iff_enter hw (build_wellMade hw trivial hs), henter,
    ← valid_bound_iff hschema rfl]
  constructor
  · rintro ⟨n, hn, -, hvalid⟩
    cases hn
    exact hvalid
  · intro hvalid
    exact ⟨_, rfl, rfl, hvalid⟩

/-- A strict validation of an integer passes a bound, given as a literal or read at a
    reference, exactly if the rounded integers meet it. Where the integer and its bound are
    told apart or equal, that is when the integers meet it; where they are rounded alike, it
    is when the bound lets its end through. Different integers that are rounded alike have
    more than 53 bits and are 2^11 apart at most. -/
theorem validateSync_bound_iff (hw : w.Reachable .all)
    (hs : w.build mark (.make .number [bound.step param]) = .ok s)
    (hstrict : options.strict = some true)
    (hparam : param.resolve options.parent options.context = some (.int limit))
    (hv : Number.Kept v) (hlimit : Number.Kept limit) :
    let Passes := w.validateSync s (some (.int v)) options = .ok (some (.int v))
    (Passes ↔ bound.Meets (Number.rounded v) (Number.rounded limit)) ∧
    (Number.rounded v ≠ Number.rounded limit ∨ v = limit → (Passes ↔ bound.Meets v limit)) ∧
    (Number.rounded v = Number.rounded limit →
      (Passes ↔ bound.Inclusive) ∧
      (v = limit ∨
        ¬ Number.Short v ∧ ¬ Number.Short limit ∧ (v - limit).natAbs ≤ 2048)) := by
  intro Passes
  have hpasses : Passes ↔ bound.Meets (Number.rounded v) (Number.rounded limit) :=
    (validateSync_bound hw.equipped hs hstrict v).trans
      (NumberBound.outcome_test_iff rfl hparam hv hlimit)
  refine ⟨hpasses, fun hapart => hpasses.trans ?_, fun halike => ⟨hpasses.trans ?_, ?_⟩⟩
  · rcases hapart with hne | rfl
    · exact NumberBound.meets_rounded_iff hne
    · exact (bound.meets_self_iff _).trans (bound.meets_self_iff v).symm
  · rw [halike]
    exact bound.meets_self_iff _
  · exact Number.eq_or_near_of_rounded_eq hv hlimit halike

/-- The options of a strict validation of a value beside others. -/
def strictBeside (fields : Dict Value) : CallOptions :=
  { CallOptions.none with strict := some true, parent := some (.obj fields) }

/-- The integer 2^53 + 1 is held back where more than 2^53 is called for, and 2^53 is let
    through where a sibling says that 2^53 + 1 is the least. Smaller integers are told from
    their neighbours. -/
theorem validateSync_bound_iff_neighbours :
    ∃ above least, initial.build none
        (.make .number [.moreThan (.value (.int 9007199254740992))]) = .ok above ∧
      initial.build none (.make .number [.min (.ref (Reference.ofKey "least"))]) = .ok least ∧
      initial.validateSync above (some (.int 9007199254740993)) (strictBeside []) ≠
        .ok (some (.int 9007199254740993)) ∧
      initial.validateSync least (some (.int 9007199254740992))
          (strictBeside [("least", .int 9007199254740993)]) =
        .ok (some (.int 9007199254740992)) ∧
      initial.validateSync least (some (.int 9007199254740990))
          (strictBeside [("least", .int 9007199254740991)]) ≠
        .ok (some (.int 9007199254740990)) := by
  obtain ⟨above, least, habove, hleast⟩ : ∃ above least,
      initial.build none (.make .number [NumberBound.moreThan.step
        (.value (.int 9007199254740992))]) = .ok above ∧
      initial.build none (.make .number [NumberBound.min.step
        (.ref (Reference.ofKey "least"))]) = .ok least :=
    ⟨_, _, rfl, rfl⟩
  refine ⟨above, least, habove, hleast, fun hok => ?_, ?_, fun hok => ?_⟩
  · obtain ⟨hpasses, -, -⟩ := validateSync_bound_iff .initial habove
      (rfl : (strictBeside []).strict = some true) rfl
      (by decide : Number.Kept 9007199254740993) (by decide)
    exact absurd (hpasses.mp hok) (by decide)
  · obtain ⟨hpasses, -, -⟩ := validateSync_bound_iff .initial hleast
      (rfl : (strictBeside [("least", .int 9007199254740993)]).strict = some true) rfl
      (by decide : Number.Kept 9007199254740992) (by decide)
    exact hpasses.mpr (by decide)
  · obtain ⟨-, hexact, -⟩ := validateSync_bound_iff .initial hleast
      (rfl : (strictBeside [("least", .int 9007199254740991)]).strict = some true) rfl
      (by decide : Number.Kept 9007199254740990) (by decide)
    exact absurd ((hexact (Or.inl (by decide))).mp hok) (by decide)

end Workshop

end Conform
