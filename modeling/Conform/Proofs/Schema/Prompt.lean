/-
  Conform.Proofs.Schema.Prompt

  Prompt forms. In the prompt form of a recipe or of a schema every predicate
  answers at once, with the judgement that it comes to in the end; nothing else is
  changed. Recipes and schemas that differ in nothing but delays have one prompt
  form.
-/

import Conform.Proofs.Schema.RecipeClass

namespace Conform

-- ============================================================================
-- Judgements
-- ============================================================================

namespace Outcome

/-- The judgement that is known in the end. -/
def final : Outcome → Outcome
  | pending _ later => later.final
  | outcome => outcome

@[simp] theorem final_ofBool (b : Bool) : (ofBool b).final = ofBool b := by
  cases b <;> rfl

/-- A final judgement reports at once what is otherwise waited for. -/
theorem settle_final (fallback : Violation) (outcome : Outcome) :
    outcome.final.settle fallback = .done (outcome.settle fallback).result := by
  induction outcome with
  | pending rounds later ih => exact ih
  | pass => rfl
  | fail => rfl
  | error v => rfl

end Outcome

/-- The built-in checks answer at once. -/
theorem Check.judge_final (c : Check) (ctx : TestContext) : (c.judge ctx).final = c.judge ctx := by
  unfold Check.judge
  split
  · rfl
  · cases c <;> rfl

namespace Predicate

/-- The predicate without its delays. -/
def prompt : Predicate → Predicate
  | check c => check c
  | custom mark judge => custom mark fun ctx => (judge ctx).final

theorem judge_prompt (p : Predicate) (ctx : TestContext) :
    p.prompt.judge ctx = (p.judge ctx).final := by
  cases p with
  | check c => exact (c.judge_final ctx).symm
  | custom mark judge => rfl

/-- The predicates that steps bring with them answer at once. -/
theorem BuiltIn.prompt_eq {p : Predicate} (h : p.BuiltIn) : p.prompt = p := by
  cases h with
  | check c => rfl
  | matching mark regex excludeEmpty =>
      exact congrArg (custom mark) (funext fun _ => Outcome.final_ofBool _)
  | noUnknown mark refuse =>
      exact congrArg (custom mark) (funext fun _ => Outcome.final_ofBool _)

/-- Predicates are compared by what they check or by their marks, not by what they
    answer. -/
theorem sameAs_prompt (p q : Predicate) : p.prompt.sameAs q.prompt = p.sameAs q := by
  cases p with
  | check c => cases q <;> rfl
  | custom mark judge =>
      cases q with
      | check c => cases mark <;> rfl
      | custom other judge' => cases mark <;> cases other <;> rfl

end Predicate

-- ============================================================================
-- Tests
-- ============================================================================

namespace Test

/-- The test without its delays. -/
def prompt (t : Test) : Test := { t with predicate := t.predicate.prompt }

theorem prompt_of_builtIn {t : Test} (h : t.predicate.BuiltIn) : t.prompt = t := by
  rw [prompt, h.prompt_eq]

/-- Without its delays a test reports at once what it reports in the end. -/
theorem run_prompt (t : Test) (subject : Subject) :
    t.prompt.run false subject = .done (t.run false subject).result := by
  have houtcome : t.prompt.outcome subject = (t.outcome subject).final := t.predicate.judge_prompt _
  rw [run, houtcome]
  exact Outcome.settle_final _ _

end Test

namespace Traits

/-- The traits without the delays of their tests. -/
def prompt (t : Traits) : Traits :=
  { t with
    tests := t.tests.map Test.prompt
    typeError := t.typeError.prompt
    allowCheck := t.allowCheck.map Test.prompt
    denyCheck := t.denyCheck.map Test.prompt }

theorem displaces_prompt (exclusive : Bool) (new old : Test) :
    displaces exclusive new.prompt old.prompt = displaces exclusive new old := by
  unfold displaces
  rw [Test.prompt, Test.prompt, Predicate.sameAs_prompt]

theorem prompt_addTest (t : Traits) (x : Test) :
    (t.addTest x).prompt = t.prompt.addTest x.prompt := by
  -- which tests a new one takes the place of is decided by names and marks
  have hkept (exclusive : Bool) :
      (t.tests.filter fun old => !displaces exclusive x old).map Test.prompt =
        (t.tests.map Test.prompt).filter fun old => !displaces exclusive x.prompt old := by
    rw [List.filter_map]
    congr 2
    funext old
    exact congrArg not (displaces_prompt exclusive x old).symm
  unfold addTest prompt
  simp only [List.map_append, hkept]
  rfl

theorem prompt_foldl_addTest (tests : List Test) (t : Traits) :
    (tests.foldl addTest t).prompt = (tests.map Test.prompt).foldl addTest t.prompt := by
  induction tests generalizing t with
  | nil => rfl
  | cons x rest ih => rw [List.foldl_cons, ih, prompt_addTest, List.map_cons, List.foldl_cons]

/-- The first of two checks of a list, without delays. -/
theorem prompt_orElse (x y : Option Test) :
    (x <|> y).map Test.prompt = (x.map Test.prompt <|> y.map Test.prompt) := by
  cases x <;> rfl

theorem prompt_join (left right : Traits) :
    (left.join right).prompt = left.prompt.join right.prompt := by
  rw [join, prompt_foldl_addTest, join]
  simp only [prompt, prompt_orElse]

theorem prompt_dropRequired (t : Traits) : t.dropRequired.prompt = t.prompt.dropRequired := by
  simp only [dropRequired, prompt, List.filter_map]
  rfl

theorem prompt_reword (name : String) (message : Message) (x : Test) :
    (reword name message x).prompt = reword name message x.prompt := by
  unfold reword
  rw [apply_ite Test.prompt]
  rfl

theorem prompt_withMessage (t : Traits) (name : String) (message : Message) :
    (t.withMessage name message).prompt = t.prompt.withMessage name message := by
  have hreword : Test.prompt ∘ reword name message = reword name message ∘ Test.prompt :=
    funext (prompt_reword name message)
  simp only [withMessage, prompt, List.map_map, Option.map_map, prompt_reword, hreword]

theorem prompt_allowing (t : Traits) (message : Message) (entries : List Param) :
    (t.allowing message entries).prompt = t.prompt.allowing message entries := by
  simp only [allowing, prompt, prompt_orElse]
  rfl

theorem prompt_denying (t : Traits) (message : Message) (entries : List Param) :
    (t.denying message entries).prompt = t.prompt.denying message entries := by
  simp only [denying, prompt, prompt_orElse]
  rfl

end Traits

-- ============================================================================
-- Recipes
-- ============================================================================

/-- The draft of a test without its delays. -/
def TestDraft.prompt (d : TestDraft) : TestDraft :=
  { d with judge := fun ctx => (d.judge ctx).final }

def TestSource.prompt : TestSource → TestSource
  | draft d => draft d.prompt
  | stored name => stored name

mutual

/-- The recipe without the delays of the predicates in it, also of those in the
    recipes that its functions give. -/
def Recipe.prompt : Recipe → Recipe
  | .make base steps => .make base.prompt (Recipe.promptSteps steps)

def Base.prompt : Base → Base
  | .lazy pick => .lazy fun value options => Recipe.promptPicked (pick value options)
  | base => base

def Recipe.promptPicked : Except Failure Recipe → Except Failure Recipe
  | .ok r => .ok r.prompt
  | .error e => .error e

def Recipe.promptSteps : List Step → List Step
  | [] => []
  | step :: rest => step.prompt :: Recipe.promptSteps rest

def Step.prompt : Step → Step
  | .test source => .test source.prompt
  | .when refs rule => .when refs (Recipe.promptRule rule)
  | .concat r => .concat r.prompt
  | .shape fields excluded => .shape (Recipe.promptFields fields) excluded
  | .element r => .element r.prompt
  | step => step

def Recipe.promptFields : List (String × Recipe) → List (String × Recipe)
  | [] => []
  | (key, r) :: rest => (key, r.prompt) :: Recipe.promptFields rest

def Recipe.promptRule : Rule Recipe Recipe Step → Rule Recipe Recipe Step
  | .guarded guard yes no => .guarded guard (Recipe.promptBranch yes) (Recipe.promptBranch no)
  | .resolver choose => .resolver fun values view => Recipe.promptChoice (choose values view)

def Recipe.promptBranch :
    Option (Branch Recipe Recipe Step) → Option (Branch Recipe Recipe Step)
  | none => none
  | some (.join r) => some (.join r.prompt)
  | some (.map decide) => some (.map fun view => Recipe.promptChoice (decide view))

def Recipe.promptChoice : Choice Recipe Step → Choice Recipe Step
  | .fail e => .fail e
  | .refine steps => .refine (Recipe.promptSteps steps)
  | .replace r => .replace r.prompt

end

theorem Recipe.promptPicked_eq (picked : Result Recipe) :
    Recipe.promptPicked picked = picked.map Recipe.prompt := by
  cases picked <;> rfl

-- ============================================================================
-- Schemas
-- ============================================================================

namespace Schema

mutual

/-- The schema without the delays of the predicates in it, also of those in the
    recipes that its functions give. -/
def prompt : Schema → Schema
  | ⟨kind, conditions, traits⟩ => ⟨promptKind kind, promptConditions conditions, traits.prompt⟩

def promptKind : Kind Schema → Kind Schema
  | .object ⟨fields, order, excluded⟩ => .object ⟨promptFields fields, order, excluded⟩
  | .array element => .array (promptElement element)
  | .lazy pick => .lazy fun value options => Recipe.promptPicked (pick value options)
  | kind => kind

def promptElement : Element Schema → Element Schema
  | .of s => .of s.prompt
  | element => element

def promptFields : List (String × Schema) → List (String × Schema)
  | [] => []
  | (key, s) :: rest => (key, s.prompt) :: promptFields rest

def promptConditions : List (Condition Schema) → List (Condition Schema)
  | [] => []
  | ⟨refs, rule⟩ :: rest => ⟨refs, promptRule rule⟩ :: promptConditions rest

def promptRule : Rule Schema Recipe Step → Rule Schema Recipe Step
  | .guarded guard yes no => .guarded guard (promptBranch yes) (promptBranch no)
  | .resolver choose => .resolver fun values view => Recipe.promptChoice (choose values view)

def promptBranch : Option (Branch Schema Recipe Step) → Option (Branch Schema Recipe Step)
  | none => none
  | some (.join s) => some (.join s.prompt)
  | some (.map decide) => some (.map fun view => Recipe.promptChoice (decide view))

end

/-! ## Parts of prompt schemas -/

theorem prompt_eq (s : Schema) :
    s.prompt = ⟨promptKind s.kind, promptConditions s.conditions, s.traits.prompt⟩ := by
  cases s
  rfl

@[simp] theorem kind_prompt (s : Schema) : s.prompt.kind = promptKind s.kind := by
  rw [prompt_eq]

@[simp] theorem conditions_prompt (s : Schema) :
    s.prompt.conditions = promptConditions s.conditions := by
  rw [prompt_eq]

@[simp] theorem traits_prompt (s : Schema) : s.prompt.traits = s.traits.prompt := by
  rw [prompt_eq]

theorem promptFields_eq (fields : List (String × Schema)) :
    promptFields fields = fields.map fun f => (f.1, f.2.prompt) := by
  induction fields with
  | nil => rfl
  | cons f rest ih => rw [promptFields, ih, List.map_cons]

theorem promptConditions_eq (conditions : List (Condition Schema)) :
    promptConditions conditions = conditions.map fun c => ⟨c.refs, promptRule c.rule⟩ := by
  induction conditions with
  | nil => rfl
  | cons c rest ih => rw [promptConditions, ih, List.map_cons]

@[simp] theorem tag_prompt (s : Schema) : s.prompt.tag = s.tag := by
  rw [tag, kind_prompt, tag]
  cases s.kind <;> rfl

theorem fields?_prompt (s : Schema) : s.prompt.fields? = s.fields?.map promptFields := by
  unfold fields?
  rw [kind_prompt]
  cases s.kind <;> rfl

theorem keys_promptFields (fields : List (String × Schema)) :
    (promptFields fields).map Prod.fst = fields.map Prod.fst := by
  rw [promptFields_eq, List.map_map]
  rfl

/-- Functions of the caller see the same of both forms. -/
@[simp] theorem view_prompt (s : Schema) : s.prompt.view = s.view := by
  have hkeys : (s.prompt.fields?.getD []).map Prod.fst = (s.fields?.getD []).map Prod.fst := by
    rw [fields?_prompt]
    cases s.fields? with
    | none => rfl
    | some fields => exact keys_promptFields fields
  rw [view, view, hkeys, tag_prompt, traits_prompt]
  rfl

/-! ## Refinements -/

theorem prompt_mapTraits {s : Schema} {f g : Traits → Traits}
    (h : (f s.traits).prompt = g s.traits.prompt) :
    (s.mapTraits f).prompt = s.prompt.mapTraits g := by
  rw [prompt_eq, prompt_eq s]
  exact congrArg _ h

theorem prompt_setKind (s : Schema) (kind : Kind Schema) :
    (s.setKind kind).prompt = s.prompt.setKind (promptKind kind) := by
  rw [prompt_eq, prompt_eq s]
  rfl

theorem prompt_clearConditions (s : Schema) :
    s.clearConditions.prompt = s.prompt.clearConditions := by
  rw [prompt_eq, prompt_eq s]
  rfl

theorem prompt_addTest (s : Schema) (x : Test) :
    (s.addTest x).prompt = s.prompt.addTest x.prompt :=
  prompt_mapTraits (s.traits.prompt_addTest x)

theorem prompt_addBuiltIn (s : Schema) {x : Test} (hx : x.predicate.BuiltIn) :
    (s.addTest x).prompt = s.prompt.addTest x := by
  rw [prompt_addTest, Test.prompt_of_builtIn hx]

theorem prompt_addTransform (s : Schema) (f : Transform) :
    (s.addTransform f).prompt = s.prompt.addTransform f :=
  prompt_mapTraits rfl

theorem prompt_addOptions (s : Schema) (options : NodeOptions) :
    (s.addOptions options).prompt = s.prompt.addOptions options :=
  prompt_mapTraits rfl

theorem prompt_bounded (s : Schema) (name : String) (message : Message) (check : Check)
    (param : String) (bound : Param) :
    (s.bounded name message check param bound).prompt =
      s.prompt.bounded name message check param bound :=
  s.prompt_addBuiltIn (.check check)

theorem prompt_required (s : Schema) (locale : Locale) :
    (s.required locale).prompt = s.prompt.required locale := by
  have hpresent := s.prompt_addBuiltIn
    (x := .named "required" (locale .required) (.check .present)) (.check _)
  unfold required
  dsimp only
  rw [← hpresent, tag_prompt]
  split
  · exact prompt_addBuiltIn _ (.check _)
  · exact prompt_addBuiltIn _ (.check _)
  · rfl

theorem prompt_unsupported (s : Schema) (method : String) :
    (s.unsupported method : Result Schema).map prompt = s.prompt.unsupported method := by
  rw [unsupported, unsupported, tag_prompt]
  rfl

theorem prompt_min (s : Schema) (locale : Locale) (bound : Param) :
    (s.min locale bound).map prompt = s.prompt.min locale bound := by
  unfold min
  rw [tag_prompt]
  split
  · exact congrArg Except.ok (s.prompt_bounded ..)
  · exact congrArg Except.ok (s.prompt_bounded ..)
  · exact congrArg Except.ok (s.prompt_bounded ..)
  · exact s.prompt_unsupported "min"

theorem prompt_max (s : Schema) (locale : Locale) (bound : Param) :
    (s.max locale bound).map prompt = s.prompt.max locale bound := by
  unfold max
  rw [tag_prompt]
  split
  · exact congrArg Except.ok (s.prompt_bounded ..)
  · exact congrArg Except.ok (s.prompt_bounded ..)
  · exact congrArg Except.ok (s.prompt_bounded ..)
  · exact s.prompt_unsupported "max"

theorem prompt_ensure (s : Schema) : s.ensure.map prompt = s.prompt.ensure := by
  have hfallback (v : Option Value) (f : Transform) :
      ((s.setFallback v).addTransform f).prompt = (s.prompt.setFallback v).addTransform f := by
    rw [prompt_addTransform]
    exact congrArg (addTransform · f) (prompt_mapTraits rfl)
  unfold ensure
  rw [tag_prompt]
  split
  · exact congrArg Except.ok (hfallback _ _)
  · exact congrArg Except.ok (hfallback _ _)
  · exact s.prompt_unsupported "ensure"

theorem prompt_test (s : Schema) (x : Test) : (s.test x).map prompt = s.prompt.test x.prompt := by
  unfold test
  rw [apply_ite (Except.map prompt), ← prompt_addTest]
  rfl

/-- A method for one kind goes on with the prompt form where it goes on at all. -/
theorem prompt_requireKind {s : Schema} {kind : KindTag} {method : String}
    {next next' : Schema → Result Schema} (h : (next s).map prompt = next' s.prompt) :
    (s.requireKind kind method >>= next).map prompt =
      s.prompt.requireKind kind method >>= next' := by
  unfold requireKind
  rw [tag_prompt]
  split
  · exact h
  · rw [unsupported, unsupported, tag_prompt]
    rfl

theorem prompt_round (s : Schema) (method : String) :
    (s.round method).map prompt = s.prompt.round method := by
  refine prompt_requireKind ?_
  dsimp only
  split
  · exact congrArg Except.ok (prompt_addTransform _ _)
  · rfl

/-- The judgement on unknown keys is one of those that answer at once. -/
theorem prompt_noUnknown (s : Schema) (locale : Locale) (mark : Option Mark) (refuse : Bool) :
    (s.noUnknown locale mark refuse).map prompt = s.prompt.noUnknown locale mark refuse := by
  refine prompt_requireKind (congrArg Except.ok ?_)
  have htest := s.prompt_addBuiltIn (x := (Test.named "noUnknown" (locale .noUnknown)
    (.custom mark (noUnknownOutcome refuse))).exclusively) (.noUnknown mark refuse)
  rw [apply_ite prompt, htest, ← htest]
  exact congrArg (fun t => ite _ t _) (prompt_addOptions _ _)

theorem isVoid_prompt (rule : Rule Schema Recipe Step) :
    (promptRule rule).isVoid = rule.isVoid := by
  cases rule with
  | resolver choose => rfl
  | guarded guard yes no => rcases yes with _ | _ | _ <;> rcases no with _ | _ | _ <;> rfl

theorem prompt_when (s : Schema) (refs : List Reference) (rule : Rule Schema Recipe Step) :
    (s.when refs rule).map prompt = s.prompt.when refs (promptRule rule) := by
  unfold «when»
  rw [isVoid_prompt]
  split
  · rfl
  · refine congrArg Except.ok ?_
    rw [prompt_eq, prompt_eq s, promptConditions_eq, List.map_append, ← promptConditions_eq]
    rfl

end Schema

end Conform
