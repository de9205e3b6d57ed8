/-
  Conform.Proofs.Schema.PromptBuilding

  Building and resolving prompt forms. A prompt recipe makes the prompt form of
  the schema that the recipe makes, and the prompt form of a schema resolves to
  the prompt form of what the schema resolves to: concatenation first, then the
  steps, the methods and the conditions.
-/

import Conform.Proofs.Schema.Everywhere
import Conform.Proofs.Schema.Prompt
import Conform.Schema.Resolve

namespace Conform

namespace Schema

-- ============================================================================
-- Concatenation
-- ============================================================================

/-- The prompt form of a shape; the order of its keys stays. -/
def promptShape (shape : Shape Schema) : Shape Schema :=
  { shape with fields := promptFields shape.fields }

@[simp] theorem promptKind_object (shape : Shape Schema) :
    promptKind (.object shape) = .object (promptShape shape) := rfl

@[simp] theorem promptKind_array (element : Element Schema) :
    promptKind (.array element) = .array (promptElement element) := rfl

theorem lookup_promptFields (fields : List (String × Schema)) (key : String) :
    (promptFields fields).lookup key = (fields.lookup key).map prompt := by
  rw [promptFields_eq]
  exact Dict.get?_map prompt fields key

theorem put_promptFields (fields : List (String × Schema)) (key : String) (s : Schema) :
    promptFields (Dict.put fields key s) = Dict.put (promptFields fields) key s.prompt := by
  rw [promptFields_eq, promptFields_eq]
  exact Dict.put_map prompt fields key s

/-- Dependencies do not see predicates. -/
theorem sorted_promptFields (fields : List (String × Schema))
    (excluded : List (String × String)) :
    (Shape.sorted fields excluded).map promptShape =
      Shape.sorted (promptFields fields) excluded := by
  have hgraph : Shape.graph (promptFields fields) excluded = Shape.graph fields excluded := by
    have hdeps (s : Schema) : Shape.dependenciesOf s.prompt = Shape.dependenciesOf s := by
      rw [Shape.dependenciesOf, traits_prompt]
      rfl
    unfold Shape.graph
    rw [promptFields_eq, List.map_map]
    simp only [Function.comp_def, hdeps]
  unfold Shape.sorted
  rw [hgraph]
  split <;> rfl

mutual

/-- Concatenation pairs tests by their names and marks, so that delays pass through
    it. The induction is on the right side. -/
theorem prompt_concat (left : Schema) :
    ∀ right : Schema, (left.concat right).map prompt = left.prompt.concat right.prompt
  | ⟨kind, conditions, traits⟩ => by
      have htag : (promptKind kind).tag = kind.tag := by cases kind <;> rfl
      rw [prompt, concat, concat, tag_prompt, htag]
      split
      · rw [kind_prompt]
        refine bind_map_congr (prompt_concatKind left.kind kind) fun merged => ?_
        refine congrArg Except.ok ?_
        rw [prompt_eq]
        simp only [promptConditions_eq, List.map_append, Traits.prompt_join, conditions_prompt,
          traits_prompt]
      · rfl

theorem prompt_concatKind (left : Kind Schema) : ∀ right : Kind Schema,
    (concatKind left right).map promptKind = concatKind (promptKind left) (promptKind right)
  | .object ⟨fields, order, excluded⟩ => by
      rw [promptKind_object, promptShape, concatKind.eq_def, concatKind.eq_def (promptKind left)]
      cases left with
      | object l =>
          refine bind_map_congr (prompt_concatFields l.fields fields) fun merged => ?_
          exact bind_map_congr (sorted_promptFields merged (l.excluded ++ excluded)) fun _ => rfl
      | _ => rfl
  | .array element => by
      rw [promptKind_array, concatKind.eq_def, concatKind.eq_def (promptKind left)]
      cases left with
      | array l => exact bind_map_congr (prompt_concatElement l element) fun _ => rfl
      | _ => rfl
  | .mixed => by
      show _ = concatKind (promptKind left) .mixed
      rw [concatKind.eq_def, concatKind.eq_def]
      rfl
  | .string => by
      show _ = concatKind (promptKind left) .string
      rw [concatKind.eq_def, concatKind.eq_def]
      rfl
  | .number => by
      show _ = concatKind (promptKind left) .number
      rw [concatKind.eq_def, concatKind.eq_def]
      rfl
  | .boolean => by
      show _ = concatKind (promptKind left) .boolean
      rw [concatKind.eq_def, concatKind.eq_def]
      rfl
  | .lazy pick => by
      rw [concatKind.eq_def, promptKind, concatKind.eq_def]
      rfl

theorem prompt_concatElement (left : Element Schema) : ∀ right : Element Schema,
    (concatElement left right).map promptElement =
      concatElement (promptElement left) (promptElement right)
  | .of s => by
      rw [promptElement, concatElement.eq_def, concatElement.eq_def (promptElement left)]
      cases left with
      | of l => exact bind_map_congr (prompt_concat l s) fun _ => rfl
      | _ => rfl
  | .unset => by
      show _ = concatElement (promptElement left) .unset
      rw [concatElement.eq_def, concatElement.eq_def]
      rfl
  | .disabled => by
      show _ = concatElement (promptElement left) .disabled
      rw [concatElement.eq_def, concatElement.eq_def]
      rfl

theorem prompt_concatFields (left : List (String × Schema)) : ∀ right : List (String × Schema),
    (concatFields left right).map promptFields =
      concatFields (promptFields left) (promptFields right)
  | [] => by
      rw [concatFields, promptFields, concatFields]
      rfl
  | (key, s) :: rest => by
      rw [promptFields, concatFields_cons, concatFields_cons, lookup_promptFields]
      refine bind_map_congr (f := prompt) ?_ fun merged => ?_
      · cases left.lookup key with
        | none => rfl
        | some l => exact prompt_concat l s
      · rw [← put_promptFields]
        exact prompt_concatFields (Dict.put left key merged) rest

end

/-! ## Shapes and elements -/

theorem prompt_shape (s : Schema) (fields : List (String × Schema))
    (excluded : List (String × String)) :
    (s.shape fields excluded).map prompt = s.prompt.shape (promptFields fields) excluded := by
  have hmerged (old : List (String × Schema)) :
      promptFields (fields.foldl (fun d f => Dict.put d f.1 f.2) old) =
        (promptFields fields).foldl (fun d f => Dict.put d f.1 f.2) (promptFields old) := by
    induction fields generalizing old with
    | nil => rfl
    | cons f rest ih => rw [List.foldl_cons, ih, promptFields, List.foldl_cons, put_promptFields]
  unfold shape
  rw [kind_prompt]
  cases hkind : s.kind with
  | object old =>
      refine bind_map_congr ((sorted_promptFields _ _).trans ?_) fun shape => ?_
      · rw [hmerged]
      · exact congrArg Except.ok (s.prompt_setKind (.object shape))
  | _ => exact s.prompt_unsupported "shape"

theorem prompt_of (s element : Schema) : (s.of element).map prompt = s.prompt.of element.prompt :=
  prompt_requireKind (congrArg Except.ok (s.prompt_setKind (.array (.of element))))

theorem prompt_withoutElement (s : Schema) :
    s.withoutElement.map prompt = s.prompt.withoutElement :=
  prompt_requireKind (congrArg Except.ok (s.prompt_setKind (.array .disabled)))

end Schema

-- ============================================================================
-- Recipes
-- ============================================================================

/-- The method without the delays of the predicates in what it makes. -/
def Method.prompt (method : Method) : Method :=
  fun view args => Recipe.promptChoice (method view args)

def MethodEntry.prompt (e : MethodEntry Method) : MethodEntry Method :=
  { e with method := Method.prompt e.method }

namespace Registry

def prompt (r : Registry Method) : Registry Method := ⟨r.entries.map MethodEntry.prompt⟩

theorem method?_prompt (r : Registry Method) (kind : KindTag) (name : String) :
    r.prompt.method? kind name = (r.method? kind name).map Method.prompt := by
  have hown (kind : KindTag) :
      r.prompt.own? kind name = (r.own? kind name).map Method.prompt := by
    unfold own? prompt
    rw [List.find?_map, Option.map_map, Option.map_map]
    rfl
  unfold method?
  rw [hown, hown]
  cases r.own? kind name <;> rfl

end Registry

namespace Workshop

/-- The workshop without the delays of the predicates in what it stores. -/
def prompt (w : Workshop) : Workshop :=
  { w with
    registry := w.registry.prompt
    schemas := Schema.promptFields w.schemas
    tests := w.tests.map fun e => (e.1, e.2.prompt) }

theorem prompt_testOf (w : Workshop) (mark : Option Mark) (source : TestSource) :
    (w.testOf mark source).map Test.prompt = w.prompt.testOf mark source.prompt := by
  cases source with
  | draft d => rfl
  | stored name =>
      have hstored : Dict.get? w.prompt.tests name = (Dict.get? w.tests name).map Test.prompt :=
        Dict.get?_map Test.prompt w.tests name
      rw [TestSource.prompt, testOf, testOf, hstored]
      cases Dict.get? w.tests name <;> rfl

theorem prompt_baseSchema (w : Workshop) (base : Base) :
    (w.baseSchema base).map Schema.prompt = w.prompt.baseSchema base.prompt := by
  cases base with
  | named name =>
      have hstored : Dict.get? w.prompt.schemas name =
          (Dict.get? w.schemas name).map Schema.prompt :=
        Schema.lookup_promptFields w.schemas name
      show _ = w.prompt.baseSchema (.named name)
      rw [baseSchema, baseSchema, hstored]
      cases Dict.get? w.schemas name <;> rfl
  | _ => rfl

/-- Whether calls of methods agree on prompt forms. -/
def Agree (invoke invoke' : Invoke) : Prop :=
  ∀ s name args mark,
    (invoke s name args mark).map Schema.prompt = invoke' s.prompt name args mark

variable {w : Workshop} {invoke invoke' : Invoke}

mutual

theorem prompt_buildWith (hinvoke : Agree invoke invoke') (mark : Option Mark) : ∀ r : Recipe,
    (buildWith w invoke mark r).map Schema.prompt = buildWith w.prompt invoke' mark r.prompt
  | .make base steps => by
      rw [Recipe.prompt, buildWith, buildWith]
      refine bind_map_congr (w.prompt_baseSchema base) fun s => ?_
      exact prompt_takeSteps hinvoke mark 0 s steps

theorem prompt_takeSteps (hinvoke : Agree invoke invoke') (mark : Option Mark) (position : Nat)
    (s : Schema) : ∀ steps : List Step,
    (takeSteps w invoke mark position s steps).map Schema.prompt =
      takeSteps w.prompt invoke' mark position s.prompt (Recipe.promptSteps steps)
  | [] => by
      rw [Recipe.promptSteps, takeSteps, takeSteps]
      rfl
  | step :: rest => by
      rw [Recipe.promptSteps, takeSteps, takeSteps]
      refine bind_map_congr (prompt_takeStep hinvoke (part mark position) s step) fun next => ?_
      exact prompt_takeSteps hinvoke mark (position + 1) next rest

/-- What one step gives: the steps with recipes inside them by what the recipes make,
    the others by the refinement that they stand for. -/
theorem prompt_takeStep (hinvoke : Agree invoke invoke') (mark : Option Mark) (s : Schema) :
    ∀ step : Step,
    (takeStep w invoke mark s step).map Schema.prompt =
      takeStep w.prompt invoke' mark s.prompt step.prompt
  | .test source => by
      rw [Step.prompt, takeStep, takeStep]
      exact bind_map_congr (w.prompt_testOf mark source) fun x => s.prompt_test x
  | .when refs rule => by
      rw [Step.prompt, takeStep, takeStep]
      refine bind_map_congr (prompt_buildRule hinvoke mark rule) fun built => ?_
      exact s.prompt_when refs built
  | .concat other => by
      rw [Step.prompt, takeStep, takeStep]
      refine bind_map_congr (prompt_buildWith hinvoke mark other) fun built => ?_
      exact s.prompt_concat built
  | .shape fields excluded => by
      rw [Step.prompt, takeStep, takeStep]
      refine bind_map_congr (prompt_buildFields hinvoke mark 0 fields) fun built => ?_
      exact s.prompt_shape built excluded
  | .element r => by
      rw [Step.prompt, takeStep, takeStep]
      exact bind_map_congr (prompt_buildWith hinvoke mark r) fun built => s.prompt_of built
  | .apply method args => hinvoke s method args mark
  | .withoutElement => s.prompt_withoutElement
  | .required => congrArg Except.ok (s.prompt_required w.locale)
  | .notRequired =>
      congrArg Except.ok (Schema.prompt_mapTraits s.traits.prompt_dropRequired)
  | .withMessage name message =>
      congrArg Except.ok (Schema.prompt_mapTraits (s.traits.prompt_withMessage name message))
  | .oneOf entries =>
      congrArg Except.ok (Schema.prompt_mapTraits (s.traits.prompt_allowing _ entries))
  | .notOneOf entries =>
      congrArg Except.ok (Schema.prompt_mapTraits (s.traits.prompt_denying _ entries))
  | .label _ | .metadata _ | .fallback _ | .nullable _ | .strip _ | .transform _ | .typeError _ =>
      congrArg Except.ok (Schema.prompt_mapTraits rfl)
  | .strict _ | .options _ => congrArg Except.ok (s.prompt_addOptions _)
  | .min bound => s.prompt_min w.locale bound
  | .max bound => s.prompt_max w.locale bound
  | .round method => s.prompt_round method
  | .ensure => s.prompt_ensure
  | .noUnknown refuse => s.prompt_noUnknown w.locale mark refuse
  | .length _ | .moreThan _ | .lessThan _ | .positive | .negative =>
      Schema.prompt_requireKind (congrArg Except.ok (s.prompt_bounded ..))
  | .integer | .email | .url =>
      Schema.prompt_requireKind (congrArg Except.ok (s.prompt_addBuiltIn (.check _)))
  | .matching regex excludeEmpty =>
      Schema.prompt_requireKind
        (congrArg Except.ok (s.prompt_addBuiltIn (.matching mark regex excludeEmpty)))
  | .truncate | .moveKey _ _ _ | .transformKeys _ | .keyCase _ | .compact | .compactWith _ =>
      Schema.prompt_requireKind (congrArg Except.ok (s.prompt_addTransform _))
  | .trim | .lowercase | .uppercase => by
      refine Schema.prompt_requireKind (congrArg Except.ok ?_)
      rw [Schema.prompt_addBuiltIn _ (.check _), Schema.prompt_addTransform]
      rfl

theorem prompt_buildFields (hinvoke : Agree invoke invoke') (mark : Option Mark) (position : Nat) :
    ∀ fields : List (String × Recipe),
    (buildFields w invoke mark position fields).map Schema.promptFields =
      buildFields w.prompt invoke' mark position (Recipe.promptFields fields)
  | [] => by
      rw [Recipe.promptFields, buildFields, buildFields]
      rfl
  | (key, r) :: rest => by
      rw [Recipe.promptFields, buildFields, buildFields]
      refine bind_map_congr (prompt_buildWith hinvoke (part mark position) r) fun s => ?_
      exact bind_map_congr (prompt_buildFields hinvoke mark (position + 1) rest) fun _ => rfl

theorem prompt_buildRule (hinvoke : Agree invoke invoke') (mark : Option Mark) :
    ∀ rule : Rule Recipe Recipe Step,
    (buildRule w invoke mark rule).map Schema.promptRule =
      buildRule w.prompt invoke' mark (Recipe.promptRule rule)
  | .guarded guard yes no => by
      rw [Recipe.promptRule, buildRule, buildRule]
      refine bind_map_congr (prompt_buildBranch hinvoke (part mark 0) yes) fun builtYes => ?_
      exact bind_map_congr (prompt_buildBranch hinvoke (part mark 1) no) fun _ => rfl
  | .resolver choose => by
      rw [Recipe.promptRule, buildRule, buildRule]
      rfl

theorem prompt_buildBranch (hinvoke : Agree invoke invoke') (mark : Option Mark) :
    ∀ branch : Option (Branch Recipe Recipe Step),
    (buildBranch w invoke mark branch).map Schema.promptBranch =
      buildBranch w.prompt invoke' mark (Recipe.promptBranch branch)
  | none => by
      rw [Recipe.promptBranch, buildBranch, buildBranch]
      rfl
  | some (.join r) => by
      rw [Recipe.promptBranch, buildBranch, buildBranch]
      exact bind_map_congr (prompt_buildWith hinvoke mark r) fun _ => rfl
  | some (.map decide) => by
      rw [Recipe.promptBranch, buildBranch, buildBranch]
      rfl

end

theorem prompt_carryOut (hinvoke : Agree invoke invoke') (mark : Option Mark) (s : Schema)
    (choice : Choice Recipe Step) :
    (w.carryOut invoke mark s choice).map Schema.prompt =
      w.prompt.carryOut invoke' mark s.prompt (Recipe.promptChoice choice) := by
  cases choice with
  | fail e => rfl
  | refine steps => exact prompt_takeSteps hinvoke mark 0 s steps
  | replace r => exact prompt_buildWith hinvoke mark r

/-- Methods of the prompt form give prompt forms, however deeply they call one
    another. -/
theorem agree_invoke (w : Workshop) (depth : Nat) :
    Agree (w.invoke depth) (w.prompt.invoke depth) := by
  induction depth with
  | zero =>
      intro s name args mark
      rfl
  | succ depth ih =>
      intro s name args mark
      rw [invoke, invoke, Registry.apply, Registry.apply, Schema.tag_prompt, prompt,
        Registry.method?_prompt]
      cases w.registry.method? s.tag name with
      | none => rfl
      | some method =>
          rw [Option.map_some, prompt_carryOut ih, ← Schema.view_prompt]
          rfl

/-- A prompt recipe makes the prompt form of what the recipe makes. -/
theorem prompt_build (w : Workshop) (mark : Option Mark) (r : Recipe) :
    (w.build mark r).map Schema.prompt = w.prompt.build mark r.prompt :=
  prompt_buildWith (w.agree_invoke depthLimit) mark r

/-- Recipes that differ in delays only make schemas that differ in delays only. -/
theorem prompt_eq_of_build {w w' : Workshop} (hw : w.prompt = w'.prompt) {mark : Option Mark}
    {r r' : Recipe} (hr : r.prompt = r'.prompt) {s s' : Schema} (h : w.build mark r = .ok s)
    (h' : w'.build mark r' = .ok s') : s.prompt = s'.prompt := by
  have hsame : (w.build mark r).map Schema.prompt = (w'.build mark r').map Schema.prompt := by
    rw [prompt_build, prompt_build, hw, hr]
  rw [h, h'] at hsame
  exact Except.ok.inj hsame

theorem prompt_decided (w : Workshop) (mark : Option Mark) (s : Schema)
    (choice : Choice Recipe Step) :
    (w.decided mark s choice).map Schema.prompt =
      w.prompt.decided mark s.prompt (Recipe.promptChoice choice) :=
  prompt_carryOut (w.agree_invoke depthLimit) mark s choice

-- ============================================================================
-- Resolution
-- ============================================================================

theorem prompt_takeBranch (w : Workshop) (mark : Option Mark) (base : Schema)
    (branch : Option (Branch Schema Recipe Step)) :
    (w.takeBranch mark base branch).map Schema.prompt =
      w.prompt.takeBranch mark base.prompt (Schema.promptBranch branch) := by
  rcases branch with _ | s | decide
  · rfl
  · exact base.prompt_concat s
  · rw [takeBranch, prompt_decided, ← Schema.view_prompt]
    rfl

theorem prompt_takeRule (w : Workshop) (mark : Option Mark) (base : Schema)
    (values : List (Option Value)) (rule : Rule Schema Recipe Step) :
    (w.takeRule mark base values rule).map Schema.prompt =
      w.prompt.takeRule mark base.prompt values (Schema.promptRule rule) := by
  cases rule with
  | guarded guard yes no =>
      rw [Schema.promptRule, takeRule, takeRule, prompt_takeBranch]
      split <;> rfl
  | resolver choose =>
      rw [takeRule, prompt_decided, ← Schema.view_prompt]
      rfl

theorem prompt_takeConditions (w : Workshop) (mark : Option Mark) (position : Nat)
    (parent context : Option Value) (base : Schema) (conditions : List (Condition Schema)) :
    (w.takeConditions mark position parent context base conditions).map Schema.prompt =
      w.prompt.takeConditions mark position parent context base.prompt
        (Schema.promptConditions conditions) := by
  induction conditions generalizing base position with
  | nil => rfl
  | cons c rest ih =>
      rw [Schema.promptConditions, takeConditions, takeConditions]
      exact bind_map_congr (w.prompt_takeRule _ base (c.values parent context) c.rule)
        fun next => ih (position + 1) next

theorem prompt_resolveWithin (w : Workshop) (depth : Nat) (s : Schema) (value : Option Value)
    (options : CallOptions) :
    (w.resolveWithin depth s value options).map Schema.prompt =
      w.prompt.resolveWithin depth s.prompt value options := by
  induction depth generalizing s with
  | zero => rfl
  | succ depth ih =>
      have htaken : (do
          let resolved ← w.takeConditions (part w.evaluation depth) 0 options.parent
            options.context s.clearConditions s.conditions
          return resolved.clearConditions).map Schema.prompt = do
          let resolved ← w.prompt.takeConditions (part w.evaluation depth) 0 options.parent
            options.context s.prompt.clearConditions s.prompt.conditions
          return resolved.clearConditions := by
        rw [Schema.conditions_prompt, ← Schema.prompt_clearConditions]
        refine bind_map_congr (w.prompt_takeConditions _ _ _ _ _ _) fun resolved => ?_
        exact congrArg Except.ok resolved.prompt_clearConditions
      rw [resolveWithin, resolveWithin, Schema.kind_prompt]
      -- a lazy schema is made anew from the prompt recipe; all other kinds take their conditions
      cases s.kind with
      | lazy pick =>
          refine bind_map_congr (Recipe.promptPicked_eq _).symm fun r => ?_
          exact bind_map_congr (w.prompt_build _ r) ih
      | _ => exact htaken

/-- The prompt form of a schema resolves to the prompt form of what the schema
    resolves to. -/
theorem prompt_resolve (w : Workshop) (s : Schema) (value : Option Value)
    (options : CallOptions) :
    (w.resolve s value options).map Schema.prompt = w.prompt.resolve s.prompt value options :=
  w.prompt_resolveWithin depthLimit s value options

end Workshop

end Conform
