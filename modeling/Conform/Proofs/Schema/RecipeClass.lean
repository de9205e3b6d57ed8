/-
  Conform.Proofs.Schema.RecipeClass

  Classes of recipes. A class says which predicates and which functions a recipe
  may bring in, and it is handed on to everything that the recipe carries out, at
  once or later.
-/

import Conform.Schema.Build

namespace Conform

-- ============================================================================
-- Classes of recipes
-- ============================================================================

/-- Whether a rule may come to a choice when it is asked. -/
inductive Rule.HasChoice {σ : Type} : Rule σ Recipe Step → Choice Recipe Step → Prop where
  | yes {guard : Guard} {decide : NodeView → Choice Recipe Step}
      {no : Option (Branch σ Recipe Step)} (view : NodeView) :
      HasChoice (.guarded guard (some (.map decide)) no) (decide view)
  | no {guard : Guard} {yes : Option (Branch σ Recipe Step)}
      {decide : NodeView → Choice Recipe Step} (view : NodeView) :
      HasChoice (.guarded guard yes (some (.map decide))) (decide view)
  | chosen {choose : List (Option Value) → NodeView → Choice Recipe Step}
      (values : List (Option Value)) (view : NodeView) :
      HasChoice (.resolver choose) (choose values view)

/-- Whether a step carries out a recipe, at once or later. -/
inductive Step.HasRecipe : Step → Recipe → Prop where
  | concat {r : Recipe} : HasRecipe (.concat r) r
  | field {fields : List (String × Recipe)} {excluded : List (String × String)}
      {f : String × Recipe} : f ∈ fields → HasRecipe (.shape fields excluded) f.2
  | element {r : Recipe} : HasRecipe (.element r) r
  | yes {refs : List Reference} {guard : Guard} {r : Recipe}
      {no : Option (Branch Recipe Recipe Step)} :
      HasRecipe (.when refs (.guarded guard (some (.join r)) no)) r
  | no {refs : List Reference} {guard : Guard} {yes : Option (Branch Recipe Recipe Step)}
      {r : Recipe} : HasRecipe (.when refs (.guarded guard yes (some (.join r)))) r
  | later {refs : List Reference} {rule : Rule Recipe Recipe Step} {r : Recipe} :
      rule.HasChoice (.replace r) → HasRecipe (.when refs rule) r

/-- Whether a step takes another one later. -/
inductive Step.HasStep : Step → Step → Prop where
  | later {refs : List Reference} {rule : Rule Recipe Recipe Step} {steps : List Step}
      {step : Step} :
      rule.HasChoice (.refine steps) → step ∈ steps → HasStep (.when refs rule) step

/-- Whether a step may come to a failure later that a function of the caller gives. -/
inductive Step.HasFailure : Step → Failure → Prop where
  | later {refs : List Reference} {rule : Rule Recipe Recipe Step} {e : Failure} :
      rule.HasChoice (.fail e) → HasFailure (.when refs rule) e

/-- The predicates of the tests that steps bring with them, not the caller. -/
inductive Predicate.BuiltIn : Predicate → Prop where
  | check (c : Check) : BuiltIn (.check c)
  | matching (mark : Option Mark) (regex : Regex) (excludeEmpty : Bool) :
      BuiltIn (.custom mark (Schema.matchOutcome regex excludeEmpty))
  | noUnknown (mark : Option Mark) (refuse : Bool) :
      BuiltIn (.custom mark (Schema.noUnknownOutcome refuse))

/-- A class of recipes: what is known of the predicates and functions in them, and of the
    failures that the functions give. It is handed on to the recipes and steps inside a
    recipe, also to those that its functions give. -/
structure RecipeClass where
  recipe : Recipe → Prop
  step : Step → Prop
  pick : (Option Value → CallOptions → Result Recipe) → Prop
  predicate : Predicate → Prop
  failure : Failure → Prop
  pick_of_make : ∀ {p steps}, recipe (.make (.lazy p) steps) → pick p
  step_of_make : ∀ {base steps}, recipe (.make base steps) → ∀ st ∈ steps, step st
  recipe_of_pick : ∀ {p value options r}, pick p → p value options = .ok r → recipe r
  failure_of_pick : ∀ {p value options e}, pick p → p value options = .error e → failure e
  recipe_of_step : ∀ {st r}, step st → st.HasRecipe r → recipe r
  step_of_step : ∀ {st other}, step st → st.HasStep other → step other
  failure_of_step : ∀ {st e}, step st → st.HasFailure e → failure e
  predicate_of_builtIn : ∀ {p}, p.BuiltIn → predicate p
  predicate_of_draft : ∀ {d} (mark : Option Mark), step (.test (.draft d)) →
    predicate (.custom mark d.judge)

namespace RecipeClass

/-- The class of all recipes. -/
def all : RecipeClass where
  recipe _ := True
  step _ := True
  pick _ := True
  predicate _ := True
  failure _ := True
  pick_of_make _ := trivial
  step_of_make _ _ _ := trivial
  recipe_of_pick _ _ := trivial
  failure_of_pick _ _ := trivial
  recipe_of_step _ _ := trivial
  step_of_step _ _ := trivial
  failure_of_step _ _ := trivial
  predicate_of_builtIn _ := trivial
  predicate_of_draft _ _ := trivial

/-- What the class knows of a choice. -/
def choice (C : RecipeClass) : Choice Recipe Step → Prop
  | .fail e => C.failure e
  | .refine steps => ∀ st ∈ steps, C.step st
  | .replace r => C.recipe r

/-- What the class knows of a rule: the choices that it may come to. -/
def rule {σ : Type} (C : RecipeClass) (r : Rule σ Recipe Step) : Prop :=
  ∀ c, r.HasChoice c → C.choice c

theorem choice_all (c : Choice Recipe Step) : RecipeClass.all.choice c := by
  cases c with
  | fail e => trivial
  | refine steps => exact fun _ _ => trivial
  | replace r => trivial

theorem rule_all {σ : Type} (r : Rule σ Recipe Step) : RecipeClass.all.rule r :=
  fun c _ => choice_all c

/-- The class is handed on to what the condition of a step decides. -/
theorem choice_of_step {C : RecipeClass} {refs : List Reference}
    {rule : Rule Recipe Recipe Step} {c : Choice Recipe Step} (h : C.step (.when refs rule))
    (hc : rule.HasChoice c) : C.choice c := by
  cases c with
  | fail e => exact C.failure_of_step h (.later hc)
  | refine steps => exact fun st hst => C.step_of_step h (.later hc hst)
  | replace r => exact C.recipe_of_step h (.later hc)

end RecipeClass

-- ============================================================================
-- Classes by what is brought in
-- ============================================================================

/-- What a lazy schema makes a recipe with. -/
abbrev Pick := Option Value → CallOptions → Result Recipe

mutual

/-- Whether properties of lazy schemas, of predicates and of the failures that functions give
    hold of all that a recipe brings in. -/
inductive Recipe.BringsIn (P : Pick → Prop) (Q : Predicate → Prop) (F : Failure → Prop) :
    Recipe → Prop where
  | make {base : Base} {steps : List Step} :
      (∀ pick, base = .lazy pick → P pick) →
      (∀ pick value options r, base = .lazy pick → pick value options = .ok r →
        Recipe.BringsIn P Q F r) →
      (∀ step ∈ steps, Step.BringsIn P Q F step) →
      Recipe.BringsIn P Q F (.make base steps)

/-- Whether the properties hold of all that a step brings in. -/
inductive Step.BringsIn (P : Pick → Prop) (Q : Predicate → Prop) (F : Failure → Prop) :
    Step → Prop where
  | intro {step : Step} :
      (∀ r, step.HasRecipe r → Recipe.BringsIn P Q F r) →
      (∀ other, step.HasStep other → Step.BringsIn P Q F other) →
      (∀ e, step.HasFailure e → F e) →
      (∀ d mark, step = .test (.draft d) → Q (.custom mark d.judge)) →
      Step.BringsIn P Q F step

end

section

variable {P : Pick → Prop} {Q : Predicate → Prop} {F : Failure → Prop}

/-- A recipe whose base is no lazy schema brings in what its steps bring in. -/
theorem Recipe.BringsIn.of_steps {base : Base} {steps : List Step}
    (hbase : ∀ pick, base ≠ .lazy pick) (h : ∀ step ∈ steps, Step.BringsIn P Q F step) :
    Recipe.BringsIn P Q F (.make base steps) :=
  .make (fun pick hpick => absurd hpick (hbase pick))
    (fun pick _ _ _ hpick => absurd hpick (hbase pick)) h

/-- A lazy schema brings in its function, and what its recipes bring in. -/
theorem Recipe.BringsIn.lazy {pick : Pick} (hpick : P pick)
    (hpicked : ∀ value options r, pick value options = .ok r → r.BringsIn P Q F) :
    Recipe.BringsIn P Q F (.plain (.lazy pick)) :=
  .make (fun p hp => by cases hp; exact hpick)
    (fun p value options r hp hr => by cases hp; exact hpicked value options r hr) (by simp)

/-- A shape brings in what the schemas of its fields bring in. -/
theorem Step.BringsIn.shape {fields : List (String × Recipe)} {excluded : List (String × String)}
    (h : ∀ f ∈ fields, f.2.BringsIn P Q F) : Step.BringsIn P Q F (.shape fields excluded) := by
  refine .intro (fun r hr => ?_) (fun _ hstep => nomatch hstep) (fun _ he => nomatch he)
    (fun _ _ hstep => nomatch hstep)
  cases hr with
  | field hf => exact h _ hf

end

namespace RecipeClass

/-- The recipes that bring in nothing but lazy schemas, predicates and failures with given
    properties. -/
def bringing (P : Pick → Prop) (Q : Predicate → Prop) (F : Failure → Prop)
    (hP : ∀ {p : Pick} {value : Option Value} {options : CallOptions} {e : Failure}, P p →
      p value options = .error e → F e)
    (hQ : ∀ {p : Predicate}, p.BuiltIn → Q p) : RecipeClass where
  recipe r := r.BringsIn P Q F
  step st := st.BringsIn P Q F
  pick p := P p ∧ ∀ value options r, p value options = .ok r → r.BringsIn P Q F
  predicate := Q
  failure := F
  pick_of_make h := by
    cases h with
    | make hpick hpicked _ => exact ⟨hpick _ rfl, fun value options r => hpicked _ value options r rfl⟩
  step_of_make h := by
    cases h with
    | make _ _ hsteps => exact hsteps
  recipe_of_pick h hr := h.2 _ _ _ hr
  failure_of_pick h he := hP h.1 he
  recipe_of_step h hr := by
    cases h with
    | intro hrecipes _ _ _ => exact hrecipes _ hr
  step_of_step h hother := by
    cases h with
    | intro _ hsteps _ _ => exact hsteps _ hother
  failure_of_step h he := by
    cases h with
    | intro _ _ hfailures _ => exact hfailures _ he
  predicate_of_builtIn := hQ
  predicate_of_draft mark h := by
    cases h with
    | intro _ _ _ hdraft => exact hdraft _ mark rfl

end RecipeClass

end Conform
