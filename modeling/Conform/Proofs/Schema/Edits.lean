/-
  Conform.Proofs.Schema.Edits

  What the refinements of a schema amount to: a few elementary edits of its
  traits. Every step that has no recipes inside it is a sequence of edits, so it
  keeps whatever they keep. The tests that it adds have predicates of the class that
  the step belongs to; those that are made on the way bear the mark of the place.
-/

import Conform.Proofs.Schema.RecipeClass
import Conform.Proofs.Schema.TestList

namespace Conform

-- ============================================================================
-- Edits
-- ============================================================================

/-- Whether two traits agree in their tests, their lists and their dependencies. -/
structure Traits.SameChecks (t u : Traits) : Prop where
  tests : u.tests = t.tests
  exclusive : u.exclusive = t.exclusive
  typeError : u.typeError = t.typeError
  allow : u.allow = t.allow
  allowCheck : u.allowCheck = t.allowCheck
  deny : u.deny = t.deny
  denyCheck : u.denyCheck = t.denyCheck
  deps : u.deps = t.deps

namespace Schema

variable {C : RecipeClass}

/-- Whether a schema comes from another one by edits of its traits, with predicates
    of a class. -/
inductive Edited (C : RecipeClass) : Schema → Schema → Prop where
  | refl (s : Schema) : Edited C s s
  | plain {s t : Schema} (u : Traits) :
      Edited C s t → t.traits.SameChecks u → Edited C s { t with traits := u }
  | addTest {s t : Schema} {x : Test} :
      Edited C s t → C.predicate x.predicate → x.Anchored → Edited C s (t.addTest x)
  | notRequired {s t : Schema} : Edited C s t → Edited C s t.notRequired
  | withMessage {s t : Schema} (name : String) (message : Message) :
      Edited C s t → Edited C s (t.withMessage name message)
  | setTypeError {s t : Schema} (message : Message) :
      Edited C s t → Edited C s (t.setTypeError message)
  | oneOf {s t : Schema} (locale : Locale) (entries : List Param) :
      Edited C s t → Edited C s (t.oneOf locale entries)
  | notOneOf {s t : Schema} (locale : Locale) (entries : List Param) :
      Edited C s t → Edited C s (t.notOneOf locale entries)

/-- Whether edits of a schema keep a property, where the tests that they add have
    predicates with a property. -/
structure EditsKeep (P : Predicate → Prop) (N : Schema → Prop) : Prop where
  plain : ∀ {s : Schema} (u : Traits), N s → s.traits.SameChecks u → N { s with traits := u }
  addTest : ∀ {s : Schema} {x : Test}, N s → P x.predicate → x.Anchored → N (s.addTest x)
  notRequired : ∀ {s : Schema}, N s → N s.notRequired
  withMessage : ∀ {s : Schema} (name : String) (message : Message), N s →
    N (s.withMessage name message)
  setTypeError : ∀ {s : Schema} (message : Message), N s → N (s.setTypeError message)
  oneOf : ∀ {s : Schema} (locale : Locale) (entries : List Param), N s → N (s.oneOf locale entries)
  notOneOf : ∀ {s : Schema} (locale : Locale) (entries : List Param), N s →
    N (s.notOneOf locale entries)

namespace EditsKeep

variable {P : Predicate → Prop} {N : Schema → Prop} {s t : Schema}

/-- An edit that changes no tests, no lists and no dependencies. -/
theorem mapTraits (hN : EditsKeep P N) (hs : N s) {f : Traits → Traits}
    (hf : s.traits.SameChecks (f s.traits)) : N (s.mapTraits f) :=
  hN.plain (f s.traits) hs hf

theorem addTransform (hN : EditsKeep P N) (hs : N s) (f : Transform) : N (s.addTransform f) :=
  hN.mapTraits hs ⟨rfl, rfl, rfl, rfl, rfl, rfl, rfl, rfl⟩

theorem addOptions (hN : EditsKeep P N) (hs : N s) (options : NodeOptions) :
    N (s.addOptions options) :=
  hN.mapTraits hs ⟨rfl, rfl, rfl, rfl, rfl, rfl, rfl, rfl⟩

theorem addCheck (hN : EditsKeep P N) (hchecks : ∀ c, P (.check c)) (hs : N s) {x : Test}
    {c : Check} (hx : x.predicate = .check c) {name : String} (hname : x.name = some name) :
    N (s.addTest x) :=
  hN.addTest hs (hx ▸ hchecks c) (.of_name hname)

theorem bounded (hN : EditsKeep P N) (hchecks : ∀ c, P (.check c)) (hs : N s) (name : String)
    (message : Message) (check : Check) (param : String) (bound : Param) :
    N (s.bounded name message check param bound) :=
  hN.addCheck hchecks hs rfl rfl

theorem required (hN : EditsKeep P N) (hchecks : ∀ c, P (.check c)) (hs : N s) (locale : Locale) :
    N (s.required locale) := by
  have hpresent := hN.addCheck hchecks hs
    (x := .named "required" (locale .required) (.check .present)) rfl rfl
  rw [Schema.required]
  dsimp only
  split
  · exact hN.addCheck hchecks hpresent rfl rfl
  · exact hN.addCheck hchecks hpresent rfl rfl
  · exact hpresent

theorem ensure (hN : EditsKeep P N) (hs : N s) (h : s.ensure = .ok t) : N t := by
  have hfallback (v : Option Value) : N (s.setFallback v) :=
    hN.mapTraits hs ⟨rfl, rfl, rfl, rfl, rfl, rfl, rfl, rfl⟩
  rw [Schema.ensure] at h
  split at h
  · cases h
    exact hN.addTransform (hfallback _) _
  · cases h
    exact hN.addTransform (hfallback _) _
  · exact absurd h (by simp [unsupported])

theorem min (hN : EditsKeep P N) (hchecks : ∀ c, P (.check c)) (hs : N s) {locale : Locale}
    {bound : Param} (h : s.min locale bound = .ok t) : N t := by
  rw [Schema.min] at h
  split at h
  · cases h
    exact hN.bounded hchecks hs _ _ _ _ _
  · cases h
    exact hN.bounded hchecks hs _ _ _ _ _
  · cases h
    exact hN.bounded hchecks hs _ _ _ _ _
  · exact absurd h (by simp [unsupported])

theorem max (hN : EditsKeep P N) (hchecks : ∀ c, P (.check c)) (hs : N s) {locale : Locale}
    {bound : Param} (h : s.max locale bound = .ok t) : N t := by
  rw [Schema.max] at h
  split at h
  · cases h
    exact hN.bounded hchecks hs _ _ _ _ _
  · cases h
    exact hN.bounded hchecks hs _ _ _ _ _
  · cases h
    exact hN.bounded hchecks hs _ _ _ _ _
  · exact absurd h (by simp [unsupported])

theorem test (hN : EditsKeep P N) (hs : N s) {x : Test} (hx : P x.predicate)
    (h : s.test x = .ok t) : N t := by
  rw [Schema.test] at h
  split at h
  · exact absurd h (by simp)
  · next hnamed =>
      cases h
      refine hN.addTest hs hx fun hexclusive hnone => hnamed ?_
      simp [hexclusive, hnone]

end EditsKeep

namespace Edited

variable {s t : Schema}

/-- What comes from a schema by edits is kept by edits. -/
theorem editsKeep (C : RecipeClass) (s : Schema) : EditsKeep C.predicate (Edited C s) where
  plain := .plain
  addTest := .addTest
  notRequired := .notRequired
  withMessage := .withMessage
  setTypeError := .setTypeError
  oneOf := .oneOf
  notOneOf := .notOneOf

/-- An edit leaves the kind and the conditions of a schema as they are. -/
theorem kind_eq (h : Edited C s t) : t.kind = s.kind ∧ t.conditions = s.conditions := by
  induction h with
  | refl => exact ⟨rfl, rfl⟩
  | plain _ _ _ ih => exact ih
  | addTest _ _ _ ih => exact ih
  | notRequired _ ih => exact ih
  | withMessage _ _ _ ih => exact ih
  | setTypeError _ _ ih => exact ih
  | oneOf _ _ _ ih => exact ih
  | notOneOf _ _ _ ih => exact ih

end Edited

/-- A method for one kind goes on with the schema itself. -/
theorem requireKind_bind {α : Type} {s : Schema} {kind : KindTag} {method : String}
    {next : Schema → Result α} {a : α} (h : (s.requireKind kind method >>= next) = .ok a) :
    s.tag = kind ∧ next s = .ok a := by
  rw [requireKind] at h
  split at h
  · next hkind => exact ⟨hkind, h⟩
  · exact absurd h (by simp [unsupported, bind, Except.bind])

namespace EditsKeep

variable {P : Predicate → Prop} {N : Schema → Prop} {s t : Schema}

theorem round (hN : EditsKeep P N) (hs : N s) {method : String} (h : s.round method = .ok t) :
    N t := by
  obtain ⟨-, h⟩ := requireKind_bind h
  dsimp only at h
  split at h
  · cases h
    exact hN.addTransform hs _
  · exact absurd h (by simp)

theorem noUnknown (hN : EditsKeep P N) (hs : N s) {locale : Locale} {mark : Option Mark}
    {refuse : Bool} (hP : P (.custom mark (noUnknownOutcome refuse)))
    (h : s.noUnknown locale mark refuse = .ok t) : N t := by
  obtain ⟨-, h⟩ := requireKind_bind h
  cases h
  have htest := hN.addTest hs
    (x := (Test.named "noUnknown" (locale .noUnknown)
      (.custom mark (noUnknownOutcome refuse))).exclusively) hP (.of_name rfl)
  split
  · exact hN.addOptions htest _
  · exact htest

theorem matching (hN : EditsKeep P N) (hs : N s) {locale : Locale} {mark : Option Mark}
    {regex : Regex} {excludeEmpty : Bool} (hP : P (.custom mark (matchOutcome regex excludeEmpty)))
    (h : s.matching locale mark regex excludeEmpty = .ok t) : N t := by
  obtain ⟨-, h⟩ := requireKind_bind h
  cases h
  exact hN.addTest hs hP (.of_name rfl)

end EditsKeep

end Schema

-- ============================================================================
-- Steps
-- ============================================================================

/-- Whether a step changes nothing but the traits of a schema. -/
def Step.isEdit : Step → Bool
  | .when _ _ => false
  | .concat _ => false
  | .shape _ _ => false
  | .element _ => false
  | .withoutElement => false
  | .apply _ _ => false
  | _ => true

namespace Workshop

open Schema

variable {C : RecipeClass} {w : Workshop} {invoke : Invoke} {mark : Option Mark} {s t : Schema}

/-- The predicates of the tests that a step may add at a place. -/
inductive StepAdds (w : Workshop) (mark : Option Mark) : Step → Predicate → Prop where
  | check (step : Step) (c : Check) : StepAdds w mark step (.check c)
  | matching (regex : Regex) (excludeEmpty : Bool) :
      StepAdds w mark (.matching regex excludeEmpty)
        (.custom mark (matchOutcome regex excludeEmpty))
  | noUnknown (refuse : Bool) :
      StepAdds w mark (.noUnknown refuse) (.custom mark (noUnknownOutcome refuse))
  | draft (d : TestDraft) : StepAdds w mark (.test (.draft d)) (.custom mark d.judge)
  | stored {name : String} {x : Test} :
      Dict.get? w.tests name = some x → StepAdds w mark (.test (.stored name)) x.predicate

theorem StepAdds.of_testOf {source : TestSource} {x : Test} (h : w.testOf mark source = .ok x) :
    w.StepAdds mark (.test source) x.predicate := by
  cases source with
  | draft d =>
      cases h
      exact .draft d
  | stored name =>
      rw [testOf] at h
      split at h
      · next hx =>
          cases h
          exact .stored hx
      · exact absurd h (by simp)

/-- A step without schemas inside it amounts to edits, so it keeps what edits keep that
    add its predicates. -/
theorem takeStep_edits {P : Predicate → Prop} {N : Schema → Prop} (hN : EditsKeep P N) {step : Step}
    (hadds : ∀ p, w.StepAdds mark step p → P p) (hedit : step.isEdit = true) (hs : N s)
    (h : takeStep w invoke mark s step = .ok t) : N t := by
  have hchecks (c : Check) : P (.check c) := hadds _ (.check step c)
  cases step <;> simp only [takeStep] at h
  case label | metadata | fallback | nullable | strip =>
    cases h
    exact hN.plain _ hs ⟨rfl, rfl, rfl, rfl, rfl, rfl, rfl, rfl⟩
  case strict | options =>
    cases h
    exact hN.addOptions hs _
  case required => cases h; exact hN.required hchecks hs _
  case notRequired => cases h; exact hN.notRequired hs
  case min => exact hN.min hchecks hs h
  case max => exact hN.max hchecks hs h
  case length | moreThan | lessThan | positive | negative =>
    obtain ⟨-, h⟩ := requireKind_bind h
    cases h
    exact hN.bounded hchecks hs _ _ _ _ _
  case integer | email | url =>
    obtain ⟨-, h⟩ := requireKind_bind h
    cases h
    exact hN.addCheck hchecks hs rfl rfl
  case truncate | moveKey | transformKeys | keyCase | compact | compactWith =>
    obtain ⟨-, h⟩ := requireKind_bind h
    cases h
    exact hN.addTransform hs _
  case trim | lowercase | uppercase =>
    obtain ⟨-, h⟩ := requireKind_bind h
    cases h
    exact hN.addCheck hchecks (hN.addTransform hs _) rfl rfl
  case round => exact hN.round hs h
  case ensure => exact hN.ensure hs h
  case matching => exact hN.matching hs (hadds _ (.matching _ _)) h
  case transform => cases h; exact hN.addTransform hs _
  case test =>
    obtain ⟨x, hx, h⟩ := bind_eq_ok.mp h
    exact hN.test hs (hadds _ (.of_testOf hx)) h
  case withMessage => cases h; exact hN.withMessage _ _ hs
  case typeError => cases h; exact hN.setTypeError _ hs
  case oneOf => cases h; exact hN.oneOf _ _ hs
  case notOneOf => cases h; exact hN.notOneOf _ _ hs
  case noUnknown => exact hN.noUnknown hs (hadds _ (.noUnknown _)) h
  all_goals exact absurd hedit (by simp [Step.isEdit])

/-- A step of a class that has no schemas inside it amounts to edits with predicates of
    the class, if those that are stored are of the class. -/
theorem takeStep_edited
    (htests : ∀ name x, Dict.get? w.tests name = some x → C.predicate x.predicate)
    {step : Step} (hstep : C.step step) (hedit : step.isEdit = true)
    (h : takeStep w invoke mark s step = .ok t) : Edited C s t := by
  refine takeStep_edits (Edited.editsKeep C s) ?_ hedit (.refl s) h
  intro p hp
  cases hp with
  | check step c => exact C.predicate_of_builtIn (.check c)
  | matching regex excludeEmpty => exact C.predicate_of_builtIn (.matching mark regex excludeEmpty)
  | noUnknown refuse => exact C.predicate_of_builtIn (.noUnknown mark refuse)
  | draft d => exact C.predicate_of_draft mark hstep
  | stored hx => exact htests _ _ hx

end Workshop

end Conform
