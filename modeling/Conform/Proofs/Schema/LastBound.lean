/-
  Conform.Proofs.Schema.LastBound

  Bounds of numbers that replace one another. All bounds on one side share a name, whatever
  they check, and each of them is exclusive. So the one that is set last is the only one on
  its side, and tests of other names are not touched. A concatenation adds the tests of its
  right side one by one, and so it goes on where the calls for the left side stopped.
-/

import Conform.Proofs.Schema.Concatenation
import Conform.Proofs.Validation.NumberBounds

namespace Conform

-- ============================================================================
-- Tests of some names
-- ============================================================================

namespace Traits

variable {t u : Traits} {x : Test} {xs : List Test} {p : Option String → Bool}

/-- Tests whose names are out of question stay as they are when a test of another name is
    added. -/
theorem filter_addTest_of_not (h : p x.name = false) :
    (t.addTest x).tests.filter (fun y => p y.name) = t.tests.filter fun y => p y.name := by
  have hkept : ∀ y ∈ t.tests, p y.name = true →
      (!displaces (x.exclusive || t.isExclusive x.name) x y) = true := by
    intro y _ hy
    have hne : y.name ≠ x.name := fun heq => by simp [heq, h] at hy
    simp [displaces, hne]
  have hfilter : (t.tests.filter fun old =>
      !displaces (x.exclusive || t.isExclusive x.name) x old).filter (fun y => p y.name) =
        t.tests.filter fun y => p y.name := by
    rw [List.filter_filter]
    refine List.filter_congr fun y hy => ?_
    cases hpy : p y.name with
    | false => rfl
    | true => rw [hkept y hy hpy]; rfl
  rw [addTest]
  dsimp only
  rw [List.filter_append, hfilter, List.filter_singleton, h]
  exact List.append_nil _

/-- Of exclusive tests of one name that are added one by one, the last one stands alone. -/
theorem filter_isNamed_foldl_addTest {n : String}
    (h : ∀ x ∈ xs, x.isNamed n = true → x.exclusive = true) :
    (xs.foldl addTest t).tests.filter (fun y => y.isNamed n) =
      match (xs.filter fun x => x.isNamed n).getLast? with
      | some x => [x]
      | none => t.tests.filter fun y => y.isNamed n := by
  induction xs generalizing t with
  | nil => rfl
  | cons x rest ih =>
      obtain ⟨hx, hrest⟩ := List.forall_mem_cons.mp h
      rw [List.foldl_cons, ih hrest, List.filter_cons]
      by_cases hname : x.isNamed n = true
      · rw [if_pos hname, List.getLast?_cons,
          filter_isNamed_addTest_self (Test.isNamed_iff.mp hname) (hx hname)]
        cases (rest.filter fun x => x.isNamed n).getLast? <;> rfl
      · have hother : (t.addTest x).tests.filter (fun y => y.isNamed n) =
            t.tests.filter fun y => y.isNamed n :=
          filter_addTest_of_not (p := fun name => name == some n)
            (by simpa [Test.isNamed] using hname)
        rw [if_neg hname, hother]

/-- Whether two nodes agree in the tests and the flags of some names. -/
structure AgreeOn (p : Option String → Bool) (t u : Traits) : Prop where
  tests : u.tests.filter (fun x => p x.name) = t.tests.filter fun x => p x.name
  exclusive : ∀ n, p (some n) = true → Dict.get? u.exclusive n = Dict.get? t.exclusive n

namespace AgreeOn

/-- A test of another name may be added on one side. -/
theorem addTest_left (h : AgreeOn p t u) (hx : p x.name = false) : AgreeOn p (t.addTest x) u where
  tests := h.tests.trans (filter_addTest_of_not hx).symm
  exclusive n hn := by
    have hne : x.name ≠ some n := fun heq => by simp [heq, hn] at hx
    rw [exclusive_addTest_of_ne hne]
    exact h.exclusive n hn

/-- A test of one of the names replaces the same tests on both sides. -/
theorem addTest (h : AgreeOn p t u) (hx : p x.name = true) :
    AgreeOn p (t.addTest x) (u.addTest x) where
  tests := by
    have hflag : u.isExclusive x.name = t.isExclusive x.name := by
      cases hname : x.name with
      | none => rfl
      | some n => simp only [isExclusive, h.exclusive n (hname ▸ hx)]
    have hcomm (tests : List Test) (keeps : Test → Bool) :
        (tests.filter keeps ++ [x]).filter (fun y => p y.name) =
          (tests.filter fun y => p y.name).filter keeps ++ [x] := by
      rw [List.filter_append, List.filter_comm, List.filter_singleton, hx]
      rfl
    rw [Traits.addTest, Traits.addTest]
    dsimp only
    rw [hcomm, hcomm, hflag, h.tests]
  exclusive n hn := by
    by_cases hname : x.name = some n
    · rw [exclusive_addTest_self hname, exclusive_addTest_self hname]
    · rw [exclusive_addTest_of_ne hname, exclusive_addTest_of_ne hname]
      exact h.exclusive n hn

/-- Of tests that are added one by one, those of other names make no difference. -/
theorem foldl_addTest (h : AgreeOn p t u) (xs : List Test) :
    AgreeOn p (xs.foldl Traits.addTest t)
      ((xs.filter fun x => p x.name).foldl Traits.addTest u) := by
  induction xs generalizing t u with
  | nil => exact h
  | cons x rest ih =>
      rw [List.filter_cons, List.foldl_cons]
      split
      · next hx => exact ih (h.addTest hx)
      · next hx => exact ih (h.addTest_left (by simpa using hx))

end AgreeOn

/-- A join adds the tests of its right side to those of its left side one by one. -/
theorem tests_join (left right : Traits) :
    (left.join right).tests = (right.tests.foldl addTest left).tests := by
  have hfold : left.join right =
      right.tests.foldl addTest (left.join { right with tests := [] }) := rfl
  have hall : AgreeOn (fun _ => true) (left.join { right with tests := [] }) left :=
    ⟨rfl, fun _ _ => rfl⟩
  rw [hfold]
  simpa using (hall.foldl_addTest right.tests).tests.symm

end Traits

-- ============================================================================
-- Bounds
-- ============================================================================

/-- The sides on which numbers are bounded. -/
inductive Side where
  | lower
  | upper
  deriving DecidableEq

/-- The name of all bounds on a side. -/
def Side.testName : Side → String
  | lower => "min"
  | upper => "max"

/-- Whether a test has the name of a bound. -/
def Test.isBound (x : Test) : Bool :=
  x.isNamed Side.lower.testName || x.isNamed Side.upper.testName

namespace Step

/-- The bound that a step sets on a side. A positive number is one that is more than zero,
    and a negative one is less than zero, in other words. -/
def bound? (locale : Locale) : Side → Step → Option Test
  | .lower, .min limit => some (NumberBound.min.test locale limit)
  | .lower, .moreThan limit => some (NumberBound.moreThan.test locale limit)
  | .lower, .positive =>
      some ((NumberBound.moreThan.test locale (.value (.int 0))).withMessage (locale .positive))
  | .upper, .max limit => some (NumberBound.max.test locale limit)
  | .upper, .lessThan limit => some (NumberBound.lessThan.test locale limit)
  | .upper, .negative =>
      some ((NumberBound.lessThan.test locale (.value (.int 0))).withMessage (locale .negative))
  | _, _ => none

/-- Whether a step sets a bound, asks for an integer, or adds a test of the caller's own
    that does not have the name of a bound. A test is only added if it is found, and it may
    be exclusive only if it has a name. -/
def BoundsNumbers (w : Workshop) : Step → Prop
  | .min _ | .max _ | .moreThan _ | .lessThan _ | .positive | .negative | .integer => True
  | .test source => ∀ mark, ∃ x, w.testOf mark source = .ok x ∧ x.isBound = false ∧
      (x.exclusive && x.name.isNone) = false
  | _ => False

/-- The last bound that steps set on a side. -/
def lastBound? (locale : Locale) (side : Side) (steps : List Step) : Option Test :=
  (steps.filterMap (bound? locale side)).getLast?

variable {locale : Locale} {side : Side} {step : Step} {x : Test}

/-- A bound has the name of its side, and replaces what has this name. -/
theorem bound?_eq_some (h : step.bound? locale side = some x) :
    x.name = some side.testName ∧ x.exclusive = true := by
  cases side <;> cases step <;> simp only [bound?, Option.some.injEq, reduceCtorEq] at h <;>
    subst h <;> exact ⟨rfl, rfl⟩

/-- Whether the name of the test that a step adds tells on which side the step sets a
    bound, if on any. -/
def Adds (locale : Locale) (step : Step) (x : Test) : Prop :=
  ∀ side : Side, step.bound? locale side = if x.isNamed side.testName then some x else none

theorem Adds.exclusive (h : step.Adds locale x) (hname : x.isNamed side.testName = true) :
    x.exclusive = true := by
  have hbound := h side
  rw [if_pos hname] at hbound
  exact (bound?_eq_some hbound).2

end Step

namespace Workshop

variable {w : Workshop} {s : Schema} {step : Step} {steps : List Step}

/-- Taking a step of bounds and tests on a number is adding one test. -/
theorem takeStep_number (hs : s.tag = .number) (hstep : step.BoundsNumbers w) (invoke : Invoke)
    (mark : Option Mark) :
    ∃ x, takeStep w invoke mark s step = .ok (s.addTest x) ∧ step.Adds w.locale x := by
  cases step
  case min limit =>
    rw [takeStep, Schema.min, hs]
    exact ⟨_, rfl, fun side => by cases side <;> rfl⟩
  case max limit =>
    rw [takeStep, Schema.max, hs]
    exact ⟨_, rfl, fun side => by cases side <;> rfl⟩
  case moreThan | lessThan | positive | negative | integer =>
    have hkind (method : String) : s.requireKind .number method = .ok s := if_pos hs
    simp only [takeStep, Schema.moreThan, Schema.lessThan, Schema.positive, Schema.negative,
      Schema.integer, hkind]
    exact ⟨_, rfl, fun side => by cases side <;> rfl⟩
  case test source =>
    obtain ⟨x, hx, hother, hnamed⟩ := hstep mark
    obtain ⟨hlower, hupper⟩ := Bool.or_eq_false_iff.mp hother
    refine ⟨x, ?_, fun side => ?_⟩
    · rw [takeStep, hx]
      exact if_neg (by simp [hnamed])
    · cases side with
      | lower => exact (if_neg (by simp [hlower])).symm
      | upper => exact (if_neg (by simp [hupper])).symm
  all_goals exact hstep.elim

/-- Taking such steps one after the other is adding their tests one after the other. The
    bounds among these are those that the steps set. -/
theorem takeSteps_number (hs : s.tag = .number) (hsteps : ∀ step ∈ steps, step.BoundsNumbers w)
    (invoke : Invoke) (mark : Option Mark) (position : Nat) :
    ∃ xs : List Test,
      takeSteps w invoke mark position s steps = .ok (xs.foldl Schema.addTest s) ∧
        ∀ side : Side,
          (xs.filter fun x => x.isNamed side.testName) =
              steps.filterMap (Step.bound? w.locale side) ∧
            ∀ x ∈ xs, x.isNamed side.testName = true → x.exclusive = true := by
  induction steps generalizing s position with
  | nil => exact ⟨[], by rw [takeSteps]; rfl, fun side => ⟨rfl, by simp⟩⟩
  | cons step rest ih =>
      obtain ⟨hstep, hrest⟩ := List.forall_mem_cons.mp hsteps
      obtain ⟨x, hstep, hx⟩ := takeStep_number hs hstep invoke (part mark position)
      obtain ⟨xs, hrest, hxs⟩ := ih (s := s.addTest x) hs hrest (position + 1)
      refine ⟨x :: xs, ?_, fun side => ⟨?_, ?_⟩⟩
      · rw [takeSteps, hstep]
        exact hrest
      · rw [List.filter_cons, List.filterMap_cons, hx side, (hxs side).1]
        split <;> rfl
      · exact List.forall_mem_cons.mpr ⟨hx.exclusive, (hxs side).2⟩

end Workshop

-- ============================================================================
-- Schemas
-- ============================================================================

namespace Schema

variable {w : Workshop} {s t u v : Schema} {step : Step} {steps left right : List Step}
  {locale : Locale} {xs ys : List Test} {side : Side} {x : Test}

/-- The tests of a schema that have the name of a bound on a side. -/
def bounds (s : Schema) (side : Side) : List Test :=
  s.traits.tests.filter fun x => x.isNamed side.testName

/-- The tests of a schema that do not have the name of a bound. -/
def unbounded (s : Schema) : List Test := s.traits.tests.filter fun x => !x.isBound

/-- Whether the bounds of a schema are those that steps leave of the bounds of another one:
    on each side the last one that is set and no other, or all from before if none is
    set. -/
structure LastBounds (locale : Locale) (steps : List Step) (s t : Schema) : Prop where
  set : ∀ side x, Step.lastBound? locale side steps = some x → t.bounds side = [x]
  unset : ∀ side, Step.lastBound? locale side steps = none → t.bounds side = s.bounds side

theorem traits_foldl_addTest (xs : List Test) (s : Schema) :
    (xs.foldl addTest s).traits = xs.foldl Traits.addTest s.traits ∧
      (xs.foldl addTest s).kind = s.kind := by
  induction xs generalizing s with
  | nil => exact ⟨rfl, rfl⟩
  | cons x rest ih => exact ih (s.addTest x)

/-- Bounds that are added replace those from before. -/
theorem LastBounds.of_foldl (htests : t.traits.tests = (xs.foldl Traits.addTest s.traits).tests)
    (hxs : ∀ side : Side, (xs.filter fun x => x.isNamed side.testName).getLast? =
        Step.lastBound? locale side steps ∧
      ∀ x ∈ xs, x.isNamed side.testName = true → x.exclusive = true) :
    LastBounds locale steps s t := by
  have hbounds (side : Side) : t.bounds side =
      match Step.lastBound? locale side steps with
      | some x => [x]
      | none => s.bounds side := by
    rw [bounds, htests, Traits.filter_isNamed_foldl_addTest (hxs side).2, (hxs side).1]
    rfl
  exact ⟨fun side x hlast => by rw [hbounds, hlast], fun side hlast => by rw [hbounds, hlast]⟩

/-- Where there was no bound, there is at most one. -/
theorem LastBounds.eq_toList (h : LastBounds locale steps s t) (hs : s.bounds side = []) :
    t.bounds side = (Step.lastBound? locale side steps).toList := by
  cases hlast : Step.lastBound? locale side steps with
  | none => exact (h.unset side hlast).trans hs
  | some x => exact h.set side x hlast

/-- Setting a bound replaces the bounds on its side, and no test of another name. -/
theorem takeStep_bound (hs : s.tag = .number) (hx : step.bound? w.locale side = some x)
    (invoke : Workshop.Invoke) (mark : Option Mark) :
    ∃ t, Workshop.takeStep w invoke mark s step = .ok t ∧ t.bounds side = [x] ∧
      t.traits.tests.filter (fun y => !y.isNamed side.testName) =
        s.traits.tests.filter fun y => !y.isNamed side.testName := by
  have hstep : step.BoundsNumbers w := by
    cases side <;> cases step <;> first | exact trivial | exact absurd hx (by simp [Step.bound?])
  obtain ⟨y, htake, hadds⟩ := Workshop.takeStep_number hs hstep invoke mark
  have hyx : y = x ∧ y.isNamed side.testName = true := by
    have hside := (hadds side).symm.trans hx
    split at hside
    · next hname => exact ⟨Option.some.inj hside, hname⟩
    · exact absurd hside (by simp)
  obtain ⟨rfl, hname⟩ := hyx
  refine ⟨_, htake, ?_, ?_⟩
  · exact Traits.filter_isNamed_addTest_self (Test.isNamed_iff.mp hname) (hadds.exclusive hname)
  · exact Traits.filter_addTest_of_not (p := fun name => !(name == some side.testName))
      (congrArg (!·) hname)

/-- A concatenation of numbers. -/
theorem concat_number (ht : t.tag = .number) (hu : u.tag = .number) :
    ∃ v, t.concat u = .ok v ∧ v.traits = t.traits.join u.traits := by
  have hkind : u.kind = .number := by
    cases hkind : u.kind <;> simp [tag, hkind, Kind.tag] at hu
    rfl
  have hcompatible : t.tag.compatible u.tag = true := by rw [ht, hu]; rfl
  exact ⟨_, concat_of_concatKind hcompatible (by rw [hkind, concatKind.eq_def]), rfl⟩

/-- Where bounds are set for a number of its own, a concatenation lets them replace those of
    its left side. -/
theorem LastBounds.concat (h : LastBounds locale steps (.fresh locale .number) u)
    (hv : v.traits = t.traits.join u.traits) : LastBounds locale steps t v := by
  have hbounds (side : Side) : u.bounds side = (Step.lastBound? locale side steps).toList :=
    h.eq_toList rfl
  refine .of_foldl (hv ▸ Traits.tests_join _ _) fun side => ⟨?_, fun x hx hname => ?_⟩
  · rw [← bounds, hbounds]
    cases Step.lastBound? locale side steps <;> rfl
  · have hlast : x ∈ (Step.lastBound? locale side steps).toList :=
      hbounds side ▸ List.mem_filter.mpr ⟨hx, hname⟩
    obtain ⟨step, -, hstep⟩ := List.mem_filterMap.mp
      (List.mem_of_getLast? (Option.mem_toList.mp hlast))
    exact (Step.bound?_eq_some hstep).2

/-- Steps after other steps replace the bounds that these have left. -/
theorem LastBounds.append (hleft : LastBounds locale left s t)
    (hright : LastBounds locale right t v) : LastBounds locale (left ++ right) s v := by
  have hlast (side : Side) : Step.lastBound? locale side (left ++ right) =
      (Step.lastBound? locale side right).or (Step.lastBound? locale side left) := by
    rw [Step.lastBound?, List.filterMap_append, List.getLast?_append]
    rfl
  constructor
  case set =>
    intro side x hx
    rw [hlast, Option.or_eq_some_iff] at hx
    rcases hx with hx | ⟨hnone, hx⟩
    · exact hright.set side x hx
    · rw [hright.unset side hnone]
      exact hleft.set side x hx
  case unset =>
    intro side hnone
    rw [hlast, Option.or_eq_none_iff] at hnone
    rw [hright.unset side hnone.1, hleft.unset side hnone.2]

/-- The bounds of the right side of a concatenation make no difference to other tests. -/
theorem unbounded_of_join (hv : v.traits = t.traits.join u.traits) :
    v.unbounded = (u.unbounded.foldl addTest t).unbounded := by
  have hagree : Traits.AgreeOn
      (fun name => !(name == some Side.lower.testName || name == some Side.upper.testName))
      t.traits t.traits := ⟨rfl, fun _ _ => rfl⟩
  rw [unbounded, hv, Traits.tests_join, unbounded, (traits_foldl_addTest u.unbounded t).1]
  exact (hagree.foldl_addTest u.traits.tests).tests.symm

/-- Steps of bounds and tests succeed on a number, and leave the last bounds that they set. -/
theorem takeSteps_lastBounds (hs : s.tag = .number) (hsteps : ∀ step ∈ steps, step.BoundsNumbers w)
    (invoke : Workshop.Invoke) (mark : Option Mark) :
    ∃ t, Workshop.takeSteps w invoke mark 0 s steps = .ok t ∧ t.tag = .number ∧
      LastBounds w.locale steps s t := by
  obtain ⟨xs, htake, hxs⟩ := Workshop.takeSteps_number hs hsteps invoke mark 0
  obtain ⟨htraits, hkind⟩ := traits_foldl_addTest xs s
  refine ⟨_, htake, by rw [tag, hkind]; exact hs, ?_⟩
  refine .of_foldl (congrArg Traits.tests htraits) fun side => ⟨?_, (hxs side).2⟩
  rw [(hxs side).1]
  rfl

/-- The last bound stands. Calls that set bounds on a number, ask for an integer or add tests
    of other names succeed. They leave on each side the last bound that is set there and no
    other one; a side on which none is set stays as it was. It is the same if the calls are
    split at any point, the later ones are made for a number of their own, and the two schemas
    are concatenated. A call that sets a bound removes no test of another name, and neither
    does a concatenation for the bounds of its right side. -/
theorem last_bound_stands (hs : s.tag = .number) (hleft : ∀ step ∈ left, step.BoundsNumbers w)
    (hright : ∀ step ∈ right, step.BoundsNumbers w) (mark mark' : Option Mark) :
    (∃ t u v,
        Workshop.takeSteps w (w.invoke Workshop.depthLimit) mark 0 s left = .ok t ∧
        w.build mark' (.make .number right) = .ok u ∧
        t.concat u = .ok v ∧
        LastBounds w.locale left s t ∧
        LastBounds w.locale (left ++ right) s v ∧
        (∀ side, s.bounds side = [] →
          v.bounds side = (Step.lastBound? w.locale side (left ++ right)).toList) ∧
        v.unbounded = (u.unbounded.foldl addTest t).unbounded) ∧
      ∀ (z : Schema) (step : Step) (side : Side) (x : Test) (mark : Option Mark),
        z.tag = .number → step.bound? w.locale side = some x →
        ∃ z', Workshop.takeStep w (w.invoke Workshop.depthLimit) mark z step = .ok z' ∧
          z'.bounds side = [x] ∧
          z'.traits.tests.filter (fun y => !y.isNamed side.testName) =
            z.traits.tests.filter fun y => !y.isNamed side.testName := by
  obtain ⟨t, ht, htag, hlast⟩ :=
    takeSteps_lastBounds hs hleft (w.invoke Workshop.depthLimit) mark
  obtain ⟨u, hu, hutag, hulast⟩ :=
    takeSteps_lastBounds (s := .fresh w.locale .number) rfl hright
      (w.invoke Workshop.depthLimit) mark'
  obtain ⟨v, hv, hjoin⟩ := concat_number htag hutag
  have hall := hlast.append (hulast.concat hjoin)
  refine ⟨⟨t, u, v, ht, ?_, hv, hlast, hall, fun side => hall.eq_toList, unbounded_of_join hjoin⟩,
    fun z step side x mark hz hx => takeStep_bound hz hx _ mark⟩
  rw [Workshop.build, Workshop.buildWith, Workshop.baseSchema]
  exact hu

/-- Three bounds, and a test of the caller's own between them. -/
def earlyBounds : List Step :=
  [.min (.value (.int 3)), .max (.value (.int 9)),
    .test (.draft { name := some "own", exclusive := false, message := none, params := [],
                    judge := fun _ => .pass }),
    .lessThan (.value (.int 5))]

/-- `positive` on the right replaces `min` on the left, as `lessThan` has replaced `max`. The
    test of another name stays. -/
theorem last_bound_stands_positive :
    ∃ t u v,
      Workshop.takeSteps Workshop.initial (Workshop.initial.invoke Workshop.depthLimit) (some []) 0
        (.fresh Locale.standard .number) earlyBounds = .ok t ∧
      Workshop.initial.build (some []) (.make .number [.positive]) = .ok u ∧
      t.concat u = .ok v ∧
      v.bounds .lower = [(NumberBound.moreThan.test .standard (.value (.int 0))).withMessage
        (Locale.standard .positive)] ∧
      v.bounds .upper = [NumberBound.lessThan.test .standard (.value (.int 5))] ∧
      v.unbounded.map (·.name) = [some "own"] := by
  have hleft : ∀ step ∈ earlyBounds, step.BoundsNumbers Workshop.initial := by
    simp only [earlyBounds, List.forall_mem_cons]
    exact ⟨trivial, trivial, fun mark => ⟨_, rfl, rfl, rfl⟩, trivial, by simp⟩
  have hright : ∀ step ∈ [Step.positive], step.BoundsNumbers Workshop.initial := by
    simp only [List.forall_mem_cons]
    exact ⟨trivial, by simp⟩
  obtain ⟨⟨t, u, v, ht, hu, hv, -, -, hlast, hothers⟩, -⟩ :=
    last_bound_stands (s := .fresh Locale.standard .number) rfl hleft hright (some []) (some [])
  refine ⟨t, u, v, ht, hu, hv, hlast .lower rfl, hlast .upper rfl, ?_⟩
  have hown : t.unbounded.map (·.name) = [some "own"] := by
    cases ht
    rfl
  have hnone : u.unbounded = [] := by
    cases hu
    rfl
  rw [hothers, hnone]
  exact hown

end Schema

end Conform
