/-
  Conform.Proofs.Validation.Overlooking

  Schemas that do not look at a key of the parent: neither their conditions nor their
  checks change if it is taken away. This is so where no reference starts with the key,
  as a reference is read by the key of its first step.
-/

import Conform.Proofs.Ascending
import Conform.Proofs.Schema.Placeless
import Conform.Proofs.Validation.Acceptance
import Conform.Proofs.Validation.FieldConditions

namespace Conform

-- ============================================================================
-- References
-- ============================================================================

/-- The object without a key; other values have no keys. -/
def Value.without (v : Value) (key : String) : Value :=
  match v with
  | .obj fields => .obj (Dict.erase fields key)
  | v => v

/-- The options with a key taken from the parent. -/
def CallOptions.without (options : CallOptions) (key : String) : CallOptions :=
  { options with parent := options.parent.map fun v => v.without key }

/-- Whether a reference does not look at a key of the parent: it reads the context, or
    starts with another key. A reference to the parent itself looks at every key. -/
def Reference.Overlooks (r : Reference) (key : String) : Prop :=
  r.isContext = true ∨ ∃ first, r.firstStep? = some first ∧ first ≠ key

theorem Reference.Overlooks.value_without {r : Reference} {key : String} (h : r.Overlooks key)
    (options : CallOptions) :
    r.value (options.without key).parent options.context =
      r.value options.parent options.context := by
  by_cases hcontext : r.isContext = true
  · exact value_context hcontext _ _ _
  · obtain ⟨first, hfirst, hne⟩ := h.resolve_left hcontext
    unfold CallOptions.without
    cases options.parent with
    | none => rfl
    | some v =>
        cases v with
        | obj fields =>
            exact value_congr (Bool.eq_false_iff.mpr hcontext) hfirst
              (Dict.get?_erase_of_ne fields hne) _
        | _ => rfl

/-- Whether a test does not look at a key of the parent. -/
def Test.Overlooks (t : Test) (key : String) : Prop := ∀ subject : Subject,
  t.outcome { subject with options := subject.options.without key } = .pass ↔
    t.outcome subject = .pass

-- ============================================================================
-- Own checks
-- ============================================================================

namespace Schema

/-- Whether the checks of a schema do not look at a key of the parent. -/
structure ChecksOverlook (s : Schema) (key : String) : Prop where
  tests : ∀ t ∈ s.traits.tests, t.Overlooks key
  allow : s.traits.allowCheck.isSome = true → ∀ r ∈ s.traits.allow.refs, r.Overlooks key
  deny : s.traits.denyCheck.isSome = true → ∀ r ∈ s.traits.deny.refs, r.Overlooks key

/-- Whether a schema stands for itself and asks of a value for its type alone, parts
    aside. -/
structure TypeOnly (s : Schema) : Prop where
  picked : ∀ pick, s.kind ≠ .lazy pick
  conditions : s.conditions = []
  tests : s.traits.tests = []
  allowCheck : s.traits.allowCheck = none
  denyCheck : s.traits.denyCheck = none

theorem TypeOnly.checksOverlook {s : Schema} (h : s.TypeOnly) (key : String) :
    s.ChecksOverlook key :=
  ⟨by simp [h.tests], by simp [h.allowCheck], by simp [h.denyCheck]⟩

end Schema

namespace Node

variable {C : RecipeClass} {t : Schema} {key : String} {value raw : Option Value}
  {options : CallOptions}

theorem lists_without {set : EntrySet} (h : ∀ r ∈ set.refs, r.Overlooks key) :
    (Node.mk t value raw (options.without key)).Lists set ↔
      (Node.mk t value raw options).Lists set := by
  have hadmits (v : Value) :
      set.admits v (fun r => r.value (options.without key).parent options.context) =
        set.admits v fun r => r.value options.parent options.context := by
    have hvalues : set.refs.map (fun r => r.value (options.without key).parent options.context) =
        set.refs.map fun r => r.value options.parent options.context :=
      List.map_congr_left fun r hr => (h r hr).value_without options
    have hany := congrArg (List.any · fun x : Option Value => x.any fun u => u.equals v) hvalues
    simp only [List.any_map] at hany
    exact congrArg (set.hasLiteral v || ·) hany
  refine exists_congr fun v => and_congr_right fun _ => ?_
  show set.admits v (fun r => r.value (options.without key).parent options.context) = true ↔ _
  rw [hadmits]

/-- The own checks pass without a key that they do not look at as with it. -/
theorem own_result_without (ht : t.Regular C) (h : t.ChecksOverlook key) :
    ((Node.mk t value raw (options.without key)).own true).result = .ok () ↔
      ((Node.mk t value raw options).own true).result = .ok () := by
  rw [own_result_eq_ok_iff_sound ht, own_result_eq_ok_iff_sound ht]
  constructor
  · rintro ⟨htyped, hallowed, hdenied, htests⟩
    exact ⟨htyped, fun hcheck => (hallowed hcheck).imp_right
        (Or.imp_right (lists_without (h.allow hcheck)).mp),
      fun hcheck hlists => hdenied hcheck ((lists_without (h.deny hcheck)).mpr hlists),
      fun u hu => (h.tests u hu _).mp (htests u hu)⟩
  · rintro ⟨htyped, hallowed, hdenied, htests⟩
    exact ⟨htyped, fun hcheck => (hallowed hcheck).imp_right
        (Or.imp_right (lists_without (h.allow hcheck)).mpr),
      fun hcheck hlists => hdenied hcheck ((lists_without (h.deny hcheck)).mp hlists),
      fun u hu => (h.tests u hu _).mpr (htests u hu)⟩

theorem own_result_of_typeOnly {n : Node} (hn : n.schema.Regular C) (h : n.schema.TypeOnly) :
    (n.own true).result = .ok () ↔ ∀ v, n.value = some v → n.schema.isType v = true := by
  rw [own_result_eq_ok_iff_sound hn]
  refine ⟨fun hsound => hsound.typed, fun htyped => ⟨htyped, ?_, ?_, ?_⟩⟩
  · simp [h.allowCheck]
  · simp [h.denyCheck]
  · simp [h.tests]

end Node

-- ============================================================================
-- Schemas
-- ============================================================================

/-- Whether values of a schema are cast in sight of the parent that values of the first
    schema have: fields have a parent of their own, but items have that of their array. -/
inductive Schema.Sights (w : Workshop) : Schema → Schema → Prop where
  | here {s : Schema} : Sights w s s
  | item {s t element x : Schema} {value : Option Value} {options : CallOptions} :
      w.resolve s value options = .ok t → t.kind = .array (.of element) → Sights w element x →
      Sights w s x

namespace Workshop

variable {C : RecipeClass} {w : Workshop} {sync : Bool} {s t f : Schema} {shape : Shape Schema}
  {key : String}

/-- Whether a schema does not look at a key of the parent: neither do its conditions and
    those of its items, nor its own checks. -/
structure Overlooks (w : Workshop) (sync : Bool) (key : String) (s : Schema) : Prop where
  resolves : ∀ x, s.Sights w x → ∀ value options,
    w.resolve x value (options.without key) = w.resolve x value options
  judges : ∀ value raw options t, w.resolve s value options = .ok t →
    ((Node.own ⟨t, value, raw, options.without key⟩ sync).result = .ok () ↔
      (Node.own ⟨t, value, raw, options⟩ sync).result = .ok ())

/-- A schema does not look at a key if no reference does: none of its conditions, those
    of its items, and its checks. -/
theorem overlooks_of_references (hw : w.Equipped C) (hf : f.WellMade C)
    (hconditions : ∀ x, f.Sights w x → (∀ pick, x.kind ≠ .lazy pick) ∧
      ∀ c ∈ x.conditions, ∀ r ∈ c.refs, r.Overlooks key)
    (hchecks : ∀ value options t, w.resolve f value options = .ok t → t.ChecksOverlook key) :
    w.Overlooks true key f where
  resolves x hx value options := by
    obtain ⟨hlazy, hrefs⟩ := hconditions x hx
    exact resolve_congr hlazy fun c hc =>
      List.map_congr_left fun r hr => (hrefs c hc r hr).value_without options
  judges value raw options t ht :=
    Node.own_result_without (resolve_wellMade hw hf ht).here (hchecks value options t ht)

/-- A value whose type alone is asked for is judged without its parent. -/
theorem overlooks_of_typeOnly (hw : w.Equipped C) (hf : f.WellMade C) (h : f.TypeOnly)
    (helement : ∀ element, f.kind ≠ .array (.of element)) : w.Overlooks true key f := by
  have hresolve := resolve_self (w := w) h.picked h.conditions
  refine overlooks_of_references hw hf (fun x hx => ?_) fun value options t ht => ?_
  · cases hx with
    | here => exact ⟨h.picked, by simp [h.conditions]⟩
    | item hu hkind _ =>
        cases (hresolve _ _).symm.trans hu
        exact absurd hkind (helement _)
  · cases (hresolve _ _).symm.trans ht
    exact h.checksOverlook key

/-- Whether no other field of an object schema looks at a key and neither do the own
    checks of the object. -/
structure Isolates (w : Workshop) (sync : Bool) (t : Schema) (shape : Shape Schema)
    (key : String) : Prop where
  others : ∀ f ∈ shape.fields, f.1 ≠ key → w.Overlooks sync key f.2
  own : ∀ fields raw options,
    (Node.own ⟨t, some (.obj (Dict.erase fields key)), raw, options⟩ sync).result = .ok () ↔
      (Node.own ⟨t, some (.obj fields), raw, options⟩ sync).result = .ok ()

theorem isolates_of_typeOnly (ht : t.Regular C) (h : t.TypeOnly) (hkind : t.kind = .object shape)
    (hothers : ∀ f ∈ shape.fields, f.1 ≠ key → w.Overlooks true key f.2) :
    w.Isolates true t shape key where
  others := hothers
  own := by
    intro fields raw options
    rw [Node.own_result_of_typeOnly ht h, Node.own_result_of_typeOnly ht h]
    have htyped (fields : Dict Value) : ∀ v, some (Value.obj fields) = some v → t.isType v = true :=
      fun v hv => Option.some.inj hv ▸ Schema.isType_obj hkind fields
    exact ⟨fun _ => htyped _, fun _ => htyped _⟩

end Workshop

end Conform
