/-
  Conform.Proofs.Validation.Node

  A validation as a walk over nodes. A node is a value that is checked with a
  resolved schema; its parts are the fields or items that are validated below it,
  each handed down with the schema that is declared for it. Parts are taken
  strictly, so they lie within the value of the node, and a validation that may go
  down by the height of the value never runs out.
-/

import Mathlib.Data.List.Basic
import Conform.Schema.Validate
import Conform.Proofs.Policy
import Conform.Proofs.Schema.Building

namespace Conform

-- ============================================================================
-- Nodes and parts
-- ============================================================================

/-- A value that is checked with a resolved schema. -/
structure Node where
  schema : Schema
  value : Option Value
  /-- The input that the value counts as cast from. -/
  raw : Option Value
  options : CallOptions

/-- A value that is handed down with the schema declared for it. -/
structure Part where
  schema : Schema
  value : Option Value
  raw : Option Value
  options : CallOptions

/-- The part with its schema resolved, when it is taken strictly. -/
def Part.node (p : Part) (resolved : Schema) : Node :=
  { schema := resolved, value := p.value, raw := Workshop.rawOf p.value p.raw
    options := p.options }

namespace Node

/-- What the call decides for the node. -/
def mode (n : Node) : Mode := Mode.of n.options n.schema.traits.options

/-- What the tests of the node see. -/
def subject (n : Node) : Subject := Workshop.subjectOf n.schema n.value n.raw n.options

/-- The node with its own checks run. -/
def visit (n : Node) (found : List Violation) : Visit :=
  { value := n.value, raw := n.raw, options := n.options, abortEarly := n.mode.abortEarly, found }

/-- The options for a part. -/
def partOptions (n : Node) (parent : Value) (path : String) : CallOptions :=
  { n.options with
    parent := some parent
    path := some path
    strict := some true }

/-- A field of an object, as it is handed down. -/
def fieldPart (n : Node) (fields : Dict Value) (field : String × Schema) : Part :=
  { schema := field.2
    value := Dict.get? fields field.1
    raw := Dict.get? (match n.raw with
      | some (.obj o) => o
      | _ => fields) field.1
    options := n.partOptions (.obj fields) (Path.joinKey n.options.path field.1) }

/-- An item of an array, as it is handed down. -/
def itemPart (n : Node) (element : Schema) (items : List Value) (item : Value × Nat) : Part :=
  { schema := element
    value := some item.1
    raw := (match n.raw with
      | some (.arr o) => o
      | _ => items).toArray[item.2]?
    options := n.partOptions (.arr items) (Path.joinIndex n.options.path item.2) }

/-- The parts of a node: the declared fields in the order of their declaration, or
    the items in the order of their positions. -/
def parts (n : Node) : List Part :=
  if n.mode.recursive then
    match n.schema.kind, n.value with
    | .object shape, some (.obj fields) => shape.fields.map (n.fieldPart fields)
    | .array (.of element), some (.arr items) => items.zipIdx.map (n.itemPart element items)
    | _, _ => []
  else []

end Node

/-! ## What parts inherit -/

namespace Value

theorem height_lt_of_mem_items {v : Value} {items : List Value} (h : v ∈ items) :
    v.height < 1 + itemsHeight items := by
  induction items with
  | nil => exact absurd h (by simp)
  | cons first rest ih =>
      rw [itemsHeight]
      rcases List.mem_cons.mp h with rfl | hrest
      · omega
      · have hlt := ih hrest
        omega

theorem height_lt_of_mem_fields {key : String} {v : Value} {fields : List (String × Value)}
    (h : (key, v) ∈ fields) : v.height < 1 + fieldsHeight fields := by
  induction fields with
  | nil => exact absurd h (by simp)
  | cons first rest ih =>
      rw [fieldsHeight]
      rcases List.mem_cons.mp h with rfl | hrest
      · show v.height < 1 + max v.height (fieldsHeight rest)
        omega
      · have hlt := ih hrest
        omega

end Value

namespace Node

variable {n : Node} {p : Part}

/-- A part of a node is a field of an object or an item of an array. -/
theorem mem_parts_cases (h : p ∈ n.parts) :
    (∃ shape fields, n.schema.kind = .object shape ∧ n.value = some (.obj fields) ∧
      ∃ f ∈ shape.fields, p = n.fieldPart fields f) ∨
    ∃ element items, n.schema.kind = .array (.of element) ∧ n.value = some (.arr items) ∧
      ∃ item ∈ items.zipIdx, p = n.itemPart element items item := by
  rw [parts] at h
  split at h
  · split at h
    · next shape fields hkind hvalue =>
        obtain ⟨f, hf, rfl⟩ := List.mem_map.mp h
        exact Or.inl ⟨shape, fields, hkind, hvalue, f, hf, rfl⟩
    · next element items hkind hvalue =>
        obtain ⟨item, hitem, rfl⟩ := List.mem_map.mp h
        exact Or.inr ⟨element, items, hkind, hvalue, item, hitem, rfl⟩
    · exact absurd h (by simp)
  · exact absurd h (by simp)

/-- Parts lie within the value. -/
theorem heightOf_part (h : p ∈ n.parts) : Value.heightOf p.value < Value.heightOf n.value := by
  rcases mem_parts_cases h with ⟨shape, fields, -, hvalue, f, -, rfl⟩ |
    ⟨element, items, -, hvalue, item, hitem, rfl⟩
  · rw [hvalue]
    cases hget : Dict.get? fields f.1 with
    | none =>
        simp only [fieldPart, hget, Value.heightOf]
        omega
    | some v =>
        have hlt := Value.height_lt_of_mem_fields (Dict.mem_of_get? hget)
        simp only [fieldPart, hget, Value.heightOf, Value.height]
        omega
  · rw [hvalue]
    have hmem : item.1 ∈ items := by
      have hfst := List.mem_map_of_mem (f := Prod.fst) hitem
      rwa [List.zipIdx_map_fst] at hfst
    have hlt := Value.height_lt_of_mem_items hmem
    simp only [itemPart, Value.heightOf, Value.height]
    omega

/-- Parts are taken strictly, and under the options of the node otherwise. -/
theorem options_part (h : p ∈ n.parts) :
    ∃ parent path, p.options = n.partOptions parent path := by
  rcases mem_parts_cases h with ⟨shape, fields, -, -, f, -, rfl⟩ | ⟨element, items, -, -, item, -, rfl⟩
  · exact ⟨_, _, rfl⟩
  · exact ⟨_, _, rfl⟩

theorem strict_part (h : p ∈ n.parts) : p.options.strict = some true := by
  obtain ⟨parent, path, hoptions⟩ := options_part h
  rw [hoptions, partOptions]

theorem abortEarly_part (h : p ∈ n.parts) : p.options.abortEarly = n.options.abortEarly := by
  obtain ⟨parent, path, hoptions⟩ := options_part h
  rw [hoptions, partOptions]

/-- The call decides about the first violation, if it says anything. -/
theorem mode_abortEarly {abortEarly : Bool} (h : n.options.abortEarly = some abortEarly) :
    n.mode.abortEarly = abortEarly := by
  simp [mode, Mode.of, h]

/-- The schemas of parts are declared inside the schema of the node. -/
theorem everywhere_part {N : Schema → Prop} (hn : n.schema.Everywhere N) (h : p ∈ n.parts) :
    p.schema.Everywhere N := by
  rcases mem_parts_cases h with ⟨shape, fields, hkind, -, f, hf, rfl⟩ |
    ⟨element, items, hkind, -, item, -, rfl⟩
  · exact hn.field hkind hf
  · exact hn.element hkind

end Node

-- ============================================================================
-- Walking
-- ============================================================================

/-- The job of a part. -/
def Part.job (validatePart : ValidatePart) (p : Part) : Job (Option Value) :=
  validatePart p.schema p.value p.raw p.options

/-- Validates a node: its own checks run, and then its parts are validated. -/
def Node.run (n : Node) (sync : Bool) (validatePart : ValidatePart) : Job (Option Value) :=
  Job.bind (collectOwn (runOwn n.schema sync n.subject n.mode.abortEarly)
    (n.schema.tag.isComposite && !n.mode.abortEarly)) fun found =>
      validateParts validatePart n.schema n.mode.recursive (n.visit found)

/-- What is collected of the own checks depends on what they end with. -/
theorem collectOwn_congr {own other : Job Unit} (h : own.result = other.result) (collects : Bool) :
    (collectOwn own collects).result = (collectOwn other collects).result := by
  unfold collectOwn
  rw [h]
  cases other.result with
  | ok _ => rfl
  | error e =>
      cases e with
      | violation v => cases collects <;> rfl
      | _ => rfl

namespace Workshop

variable {w : Workshop}

/-- The node of a part: the schema is resolved for the value, and the value is cast
    unless it is taken strictly. -/
def enter (w : Workshop) (p : Part) : Result Node := do
  let resolved ← w.resolve p.schema p.value p.options
  let strict := (Mode.of p.options resolved.traits.options).strict
  let checked ← w.checkedValue resolved strict p.value p.options
  return { schema := resolved, value := checked, raw := rawOf p.value p.raw, options := p.options }

/-- The node of a part holds the resolved schema and the value that was checked. -/
theorem enter_eq_ok {p : Part} {n : Node} (h : w.enter p = .ok n) :
    w.resolve p.schema p.value p.options = .ok n.schema ∧
      w.checkedValue n.schema n.mode.strict p.value p.options = .ok n.value := by
  rw [enter] at h
  obtain ⟨resolved, hresolved, h⟩ := bind_eq_ok.mp h
  obtain ⟨checked, hchecked, h⟩ := bind_eq_ok.mp h
  cases h
  exact ⟨hresolved, hchecked⟩

/-- A node stands under the options of its part. -/
theorem enter_options {p : Part} {n : Node} (h : w.enter p = .ok n) : n.options = p.options := by
  rw [enter] at h
  obtain ⟨resolved, -, h⟩ := bind_eq_ok.mp h
  obtain ⟨checked, -, h⟩ := bind_eq_ok.mp h
  cases h
  rfl

theorem enter_of_strict {p : Part} (h : p.options.strict = some true) :
    w.enter p = (w.resolve p.schema p.value p.options).map p.node := by
  rw [enter]
  cases w.resolve p.schema p.value p.options with
  | error e => rfl
  | ok resolved =>
      have hstrict : (Mode.of p.options resolved.traits.options).strict = true := by
        simp [Mode.of, h]
      simp only [bind, Except.bind, hstrict, checkedValue, if_true]
      rfl

/-- The value of a call is to be taken as it is. -/
def asGiven : CallOptions := { CallOptions.none with strict := some true }

/-- All violations are to be collected. -/
def collecting : CallOptions := { CallOptions.none with abortEarly := some false }

/-- The value of a call is to be taken as it is, and all violations are to be collected. -/
def strictly : CallOptions :=
  { CallOptions.none with strict := some true, abortEarly := some false }

/-- The value of a call, as it is handed to the walk. -/
def root (s : Schema) (value : Option Value) (options : CallOptions) : Part :=
  { schema := s, value, raw := none, options }

/-- Resolving, casting and checking a value is entering its node and running it. -/
theorem bind_validateNode (sync : Bool) (validatePart : Option Value → ValidatePart) (p : Part) :
    (Job.bind (.done (w.resolve p.schema p.value p.options)) fun resolved =>
      w.validateNode sync validatePart resolved p.value p.raw p.options) =
    Job.bind (.done (w.enter p)) fun n => n.run sync (validatePart n.value) := by
  rw [enter]
  cases w.resolve p.schema p.value p.options with
  | error e => rfl
  | ok resolved =>
      rw [Job.bind_done_ok, validateNode]
      simp only [bind, Except.bind]
      cases w.checkedValue resolved (Mode.of p.options resolved.traits.options).strict p.value
        p.options with
      | error e => rfl
      | ok checked => rfl

theorem validateWithin_succ (sync : Bool) (depth : Nat) (p : Part) :
    p.job (w.validateWithin sync (depth + 1)) =
      Job.bind (.done (w.enter p)) fun n => n.run sync (w.validateWithin sync depth) := by
  rw [Part.job, validateWithin]
  exact bind_validateNode sync (fun _ => w.validateWithin sync depth) p

theorem validateJob_eq (sync : Bool) (s : Schema) (value : Option Value) (options : CallOptions) :
    w.validateJob s value options sync =
      Job.bind (.done (w.enter (root s value options))) fun n =>
        n.run sync (w.validateWithin sync (Value.heightOf n.value)) :=
  bind_validateNode sync (fun checked => w.validateWithin sync (Value.heightOf checked))
    (root s value options)

end Workshop

end Conform
