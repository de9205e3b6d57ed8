/-
  Conform.Proofs.Schema.PromptCasting

  Casts of prompt forms. A cast never asks a predicate: what it reads of a schema,
  its kind, its traits but for the tests, its default and its height, is the same
  for the prompt form, and the schemas of parts resolve to prompt forms. So the
  prompt form casts every value as the schema does.
-/

import Conform.Proofs.Schema.PromptBuilding
import Conform.Schema.Validate

namespace Conform

-- ============================================================================
-- What casts read of a schema
-- ============================================================================

namespace Schema

mutual

theorem defaultValue_prompt : ∀ s : Schema, s.prompt.defaultValue = s.defaultValue
  | ⟨kind, conditions, traits⟩ => by
      rw [prompt, defaultValue, defaultValue, kindDefault_prompt kind]
      rfl

theorem kindDefault_prompt : ∀ kind : Kind Schema,
    kindDefault (promptKind kind) = kindDefault kind
  | .object ⟨fields, order, excluded⟩ => by
      have hempty : (promptFields fields).isEmpty = fields.isEmpty := by cases fields <;> rfl
      rw [promptKind, kindDefault, kindDefault, hempty, fieldDefaults_prompt fields]
  | .mixed => rfl
  | .string => rfl
  | .number => rfl
  | .boolean => rfl
  | .array _ => rfl
  | .lazy _ => rfl

theorem fieldDefaults_prompt : ∀ fields : List (String × Schema),
    fieldDefaults (promptFields fields) = fieldDefaults fields
  | [] => rfl
  | (key, s) :: rest => by
      rw [promptFields, fieldDefaults, fieldDefaults, defaultValue_prompt s,
        fieldDefaults_prompt rest]

end

mutual

theorem height_prompt : ∀ s : Schema, s.prompt.height = s.height
  | ⟨kind, conditions, traits⟩ => by
      rw [prompt, height, height, kindHeight_prompt kind, conditionsHeight_prompt conditions]

theorem kindHeight_prompt : ∀ kind : Kind Schema, kindHeight (promptKind kind) = kindHeight kind
  | .object ⟨fields, order, excluded⟩ => by
      rw [promptKind, kindHeight, kindHeight, fieldsHeight_prompt fields]
  | .array (.of s) => height_prompt s
  | .array .unset => rfl
  | .array .disabled => rfl
  | .mixed => rfl
  | .string => rfl
  | .number => rfl
  | .boolean => rfl
  | .lazy _ => rfl

theorem fieldsHeight_prompt : ∀ fields : List (String × Schema),
    fieldsHeight (promptFields fields) = fieldsHeight fields
  | [] => rfl
  | (key, s) :: rest => by
      rw [promptFields, fieldsHeight, fieldsHeight, height_prompt s, fieldsHeight_prompt rest]

theorem conditionsHeight_prompt : ∀ conditions : List (Condition Schema),
    conditionsHeight (promptConditions conditions) = conditionsHeight conditions
  | [] => rfl
  | ⟨refs, rule⟩ :: rest => by
      rw [promptConditions, conditionsHeight, conditionsHeight, ruleHeight_prompt rule,
        conditionsHeight_prompt rest]

theorem ruleHeight_prompt : ∀ rule : Rule Schema Recipe Step,
    ruleHeight (promptRule rule) = ruleHeight rule
  | .guarded guard yes no => by
      rw [promptRule, ruleHeight, ruleHeight, branchHeight_prompt yes, branchHeight_prompt no]
  | .resolver _ => rfl

theorem branchHeight_prompt : ∀ branch : Option (Branch Schema Recipe Step),
    branchHeight (promptBranch branch) = branchHeight branch
  | none => rfl
  | some (.join s) => height_prompt s
  | some (.map _) => rfl

end

end Schema

-- ============================================================================
-- Casts
-- ============================================================================

namespace Workshop

variable {w : Workshop}

/-- Whether prompt forms of parts are cast like the parts. -/
def CastsAlike (castPart castPart' : CastPart) : Prop :=
  ∀ s raw options, castPart' s.prompt raw options = castPart s raw options

variable {castPart castPart' : CastPart}

theorem resolve_bind_prompt {α : Type} (w : Workshop) {s : Schema} {value : Option Value}
    {options : CallOptions} {next next' : Schema → Result α}
    (hnext : ∀ t, next' t.prompt = next t) :
    w.prompt.resolve s.prompt value options >>= next' = w.resolve s value options >>= next := by
  rw [← prompt_resolve]
  exact map_bind_congr hnext

theorem castField_prompt (hcast : CastsAlike castPart castPart') (validating : Bool)
    (options : CallOptions) (done : Dict Value) (key : String) (field : Schema)
    (raw : Option Value) :
    w.prompt.castField castPart' validating options done key field.prompt raw =
      w.castField castPart validating options done key field raw := by
  refine w.resolve_bind_prompt fun t => ?_
  rw [hcast t]
  unfold Schema.isStripped Schema.isStrict
  rw [Schema.traits_prompt]
  rfl

theorem castKey_prompt (hcast : CastsAlike castPart castPart') (validating : Bool)
    (options : CallOptions) (fields : List (String × Schema)) (keepUnknown : Bool)
    (input done : Dict Value) (key : String) :
    w.prompt.castKey castPart' validating options (Schema.promptFields fields) keepUnknown input
        done key =
      w.castKey castPart validating options fields keepUnknown input done key := by
  unfold castKey
  rw [Schema.lookup_promptFields]
  cases fields.lookup key with
  | none => rfl
  | some field =>
      dsimp only [Option.map_some]
      rw [castField_prompt hcast]

theorem castFields_prompt (hcast : CastsAlike castPart castPart') (validating : Bool) (s : Schema)
    (shape : Shape Schema) (input : Dict Value) (options : CallOptions) :
    w.prompt.castFields castPart' validating s.prompt (Schema.promptShape shape) input options =
      w.castFields castPart validating s shape input options := by
  have hdrops : options.dropsUnknown s.prompt = options.dropsUnknown s := by
    rw [CallOptions.dropsUnknown, Schema.traits_prompt]
    rfl
  have hkeys (keepUnknown : Bool) :
      w.prompt.castKey castPart' validating options (Schema.promptFields shape.fields) keepUnknown
          input =
        w.castKey castPart validating options shape.fields keepUnknown input := by
    funext done key
    exact castKey_prompt hcast validating options shape.fields keepUnknown input done key
  unfold castFields
  rw [hdrops]
  dsimp only [Schema.promptShape]
  rw [hkeys]
  rfl

theorem castItems_prompt (hcast : CastsAlike castPart castPart') (element : Schema)
    (options : CallOptions) (position : Nat) (items : List Value) :
    w.prompt.castItems castPart' element.prompt options position items =
      w.castItems castPart element options position items := by
  induction items generalizing position with
  | nil => rfl
  | cons item rest ih =>
      rw [castItems, castItems]
      refine w.resolve_bind_prompt fun t => ?_
      rw [hcast t, ih]

theorem castParts_prompt (hcast : CastsAlike castPart castPart') (validating : Bool) (s : Schema)
    (v : Value) (options : CallOptions) :
    w.prompt.castParts castPart' validating s.prompt v options =
      w.castParts castPart validating s v options := by
  unfold castParts
  rw [Schema.kind_prompt]
  cases s.kind with
  | object shape =>
      cases v with
      | obj input => exact castFields_prompt hcast validating s shape input options
      | _ => rfl
  | array element =>
      cases element with
      | of t =>
          cases v with
          | arr items =>
              dsimp only [Schema.promptKind, Schema.promptElement]
              rw [castItems_prompt hcast]
          | _ => rfl
      | _ => rfl
  | _ => rfl

theorem castNode_prompt (hcast : CastsAlike castPart castPart') (validating : Bool) :
    CastsAlike (w.castNode castPart validating) (w.prompt.castNode castPart' validating) := by
  intro s raw options
  have hprepare : prepare s.prompt = prepare s := by
    funext v
    unfold prepare Schema.coerce Schema.isType
    rw [Schema.view_prompt, Schema.tag_prompt, Schema.traits_prompt]
    rfl
  have hassert (result : Option Value) :
      assertType s.prompt raw result options = assertType s raw result options := by
    unfold assertType Schema.accepts Schema.isType
    rw [Schema.view_prompt, Schema.tag_prompt]
  unfold castNode
  rw [hprepare, Schema.defaultValue_prompt]
  simp only [hassert, castParts_prompt hcast]

theorem castWithin_prompt (w : Workshop) (depth : Nat) :
    CastsAlike (w.castWithin depth) (w.prompt.castWithin depth) := by
  induction depth with
  | zero => exact fun _ _ _ => rfl
  | succ depth ih => exact castNode_prompt ih false

/-- The prompt form of a schema casts values as the schema does. -/
theorem castResolved_prompt (w : Workshop) (validating : Bool) :
    CastsAlike (w.castResolved validating) (w.prompt.castResolved validating) := by
  intro s raw options
  rw [castResolved, castResolved, Schema.height_prompt]
  exact castNode_prompt (w.castWithin_prompt _) validating s raw options

/-- The prompt form of a schema checks the same values. -/
theorem checkedValue_prompt (w : Workshop) (s : Schema) (strict : Bool) (value : Option Value)
    (options : CallOptions) :
    w.prompt.checkedValue s.prompt strict value options =
      w.checkedValue s strict value options := by
  rw [checkedValue, checkedValue, Schema.tag_prompt, castResolved_prompt]

end Workshop

end Conform
