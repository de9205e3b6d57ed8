/-
  Conform.Proofs.Schema.Ensuring

  What becomes of values that an array schema is to turn into arrays. The transform
  that wraps a value comes behind the coercion of the kind, which keeps arrays, reads
  the arrays that texts denote and gives up all other values. So the transform meets
  arrays and null only: it puts the empty array in the place of what was given up, and
  wraps nothing.
-/

import Conform.Proofs.Schema.Recasting

namespace Conform

-- ============================================================================
-- Coercion to arrays
-- ============================================================================

namespace Value

/-- The document that a text denotes, or null; other values are documents themselves. -/
def document : Value → Value
  | str text => (ofText? text).getD null
  | v => v

/-- The items that an array schema finds in a value: those of an array, or of the array
    that a text denotes. -/
def items? (v : Value) : Option (List Value) :=
  match v.document with
  | arr items => some items
  | _ => none

theorem document_of_type {v : Value} (h : v.type ≠ .string) : v.document = v := by
  cases v with
  | str text => exact absurd rfl h
  | _ => rfl

/-- No items are found in a value that is neither an array nor a text. -/
theorem items?_eq_none {v : Value} (hstring : v.type ≠ .string) (harray : v.type ≠ .array) :
    v.items? = none := by
  rw [items?, document_of_type hstring]
  cases v with
  | arr items => exact absurd rfl harray
  | _ => rfl

end Value

namespace Schema

variable {s t : Schema} {element : Element Schema}

/-- Of the type of an array schema are arrays, and null where it is allowed. -/
theorem isType_array_iff (hkind : s.kind = .array element) (v : Value) :
    s.isType v = true ↔ (∃ items, v = .arr items) ∨ (v = .null ∧ s.isType .null = true) := by
  have htag : s.tag = .array := congrArg Kind.tag hkind
  cases v with
  | arr items => simp [isType_arr hkind]
  | null => simp
  | _ => simp [isType, NodeView.isType, view, htag, KindTag.fits, Value.isNull, Value.type]

theorem toContainer_eq (view : NodeView) (v : Value) :
    Coerce.toContainer view v = if view.isType v.document then v.document else .null := by
  cases v <;> rfl

/-- Coercion makes the array that is found in a value, or null. -/
theorem coerce_array (hkind : s.kind = .array element) (v : Value) :
    s.coerce v = match v.items? with
      | some items => .arr items
      | none => .null := by
  have htag : s.tag = .array := congrArg Kind.tag hkind
  by_cases htype : s.isType v = true
  · rcases (isType_array_iff hkind v).mp htype with ⟨items, rfl⟩ | ⟨rfl, -⟩
    · exact if_pos htype
    · exact s.coerce_null
  · rw [coerce, if_neg htype, htag]
    dsimp only
    rw [toContainer_eq, ← isType, Value.items?]
    by_cases hdocument : s.isType v.document = true
    · rw [if_pos hdocument]
      rcases (isType_array_iff hkind _).mp hdocument with ⟨items, heq⟩ | ⟨heq, -⟩
      · rw [heq]
      · rw [heq]
    · rw [if_neg hdocument]
      cases hv : v.document with
      | arr items => exact absurd (hv ▸ isType_arr hkind items) hdocument
      | _ => rfl

-- ============================================================================
-- Ensured arrays
-- ============================================================================

/-- What an array schema makes of a value before it comes to the items, if arrays are
    ensured: the array that is found in it, or else null where that is allowed, or else
    the empty array. -/
def ensured (s : Schema) (v : Value) : Value :=
  match v.items? with
  | some items => .arr items
  | none => if s.isType .null then .null else .arr []

/-- The transform comes to arrays and null only, so it wraps nothing. -/
theorem toArray_coerce (hkind : s.kind = .array element) (v raw : Value) :
    Transform.toArray (some (s.coerce v)) raw s.view = some (s.ensured v) := by
  rw [coerce_array hkind, ensured]
  cases v.items? with
  | some items => exact if_pos (isType_arr hkind items)
  | none =>
      dsimp only [Transform.toArray]
      rw [← isType]
      split <;> rfl

/-- What is ensured is an array, or null where that is allowed. -/
theorem ensured_cases (s : Schema) (v : Value) :
    (∃ items, s.ensured v = .arr items) ∨ (s.ensured v = .null ∧ s.isType .null = true) := by
  rw [ensured]
  cases v.items? with
  | some items => exact Or.inl ⟨items, rfl⟩
  | none =>
      dsimp only
      split
      · next hnull => exact Or.inr ⟨rfl, hnull⟩
      · exact Or.inl ⟨[], rfl⟩

theorem ensured_isType (hkind : s.kind = .array element) (v : Value) :
    s.isType (s.ensured v) = true := by
  rcases s.ensured_cases v with ⟨items, heq⟩ | ⟨heq, hnull⟩
  · rw [heq]
    exact isType_arr hkind items
  · rw [heq]
    exact hnull

theorem ensure_eq_ok (hkind : s.kind = .array element) (h : s.ensure = .ok t) :
    t = (s.setFallback (some (.arr []))).addTransform Transform.toArray := by
  have htag : s.tag = .array := congrArg Kind.tag hkind
  rw [ensure, htag] at h
  exact (Except.ok.inj h).symm

/-- What is left as it was, and the new default. -/
theorem ensure_traits (hkind : s.kind = .array element) (h : s.ensure = .ok t) :
    t.kind = .array element ∧ t.conditions = s.conditions ∧
      t.defaultValue = some (.arr []) ∧ t.height = s.height ∧ ∀ v, t.isType v = s.isType v := by
  obtain rfl := ensure_eq_ok hkind h
  obtain ⟨kind, conditions, traits⟩ := s
  exact ⟨hkind, rfl, rfl, rfl, fun _ => rfl⟩

/-- Where there is no other transform, the ensured value is handed on. -/
theorem prepare_ensure (hkind : s.kind = .array element) (htransforms : s.traits.transforms = [])
    (h : s.ensure = .ok t) (v : Value) : Workshop.prepare t v = some (s.ensured v) := by
  obtain rfl := ensure_eq_ok hkind h
  obtain ⟨kind, conditions, traits⟩ := s
  have hnone : traits.transforms = [] := htransforms
  rw [Workshop.prepare]
  simp only [addTransform, setFallback, mapTraits, hnone, List.nil_append, List.foldl_cons,
    List.foldl_nil]
  exact toArray_coerce hkind v v

end Schema

namespace Workshop

variable {w : Workshop} {castPart : CastPart} {validating : Bool} {s t : Schema}
  {element : Element Schema} {options : CallOptions}

/-- A cast of a prepared value is the cast of its parts, if the type of what comes out is
    accepted. -/
theorem castNode_eq_castParts {raw : Option Value} {v : Value}
    (hv : raw.bind (prepare s) = some v)
    (haccepts : ∀ result, w.castParts castPart validating s v options = .ok result →
      s.accepts result = true) :
    w.castNode castPart validating s raw options =
      w.castParts castPart validating s v options := by
  cases hparts : w.castParts castPart validating s v options with
  | error e =>
      rw [castNode, hv]
      simp only [hparts, bind, Except.bind]
  | ok result => exact castNode_of_castParts hv hparts fun _ => haccepts result hparts

/-- The parts of an array are cast to an array. -/
theorem accepts_of_castParts_array {v : Value} {result : Option Value}
    (hkind : s.kind = .array element) (htype : s.isType v = true)
    (h : w.castParts castPart validating s v options = .ok result) : s.accepts result = true := by
  rcases whole_cases s v with ⟨shape, fields, hobject, -⟩ | ⟨e, items, harray, rfl⟩ | hwhole
  · exact absurd (hkind.symm.trans hobject) (by simp)
  · rw [castParts_array harray] at h
    obtain ⟨out, -, h⟩ := bind_eq_ok.mp h
    cases h
    exact Schema.isType_arr hkind out
  · rw [castParts_whole hwhole] at h
    cases h
    exact htype

/-- The cast of the parts of an array goes by the elements alone. -/
theorem castParts_congr_of_array (hs : s.kind = .array element) (ht : t.kind = .array element)
    (v : Value) :
    w.castParts castPart validating t v options = w.castParts castPart validating s v options := by
  unfold castParts
  rw [hs, ht]
  cases element <;> cases v <;> rfl

/-- An array schema casts a value of its type as its parts are cast. -/
theorem cast_array (hkind : s.kind = .array element) (hconditions : s.conditions = [])
    {raw : Option Value} {v : Value} (hv : raw.bind (prepare s) = some v)
    (htype : s.isType v = true) :
    w.cast s raw options =
      w.castParts (w.castWithin (depthLimit + s.height)) false s v options := by
  rw [cast, resolve_self (by simp [hkind]) hconditions raw options]
  exact castNode_eq_castParts hv fun _ => accepts_of_castParts_array hkind htype

/-- An array schema that ensures arrays casts every value to an array, or to null where
    that is allowed. An undefined value is cast to the empty array; any other one as the
    schema without the transform casts the array that is found in it, or null or the empty
    array if none is found. None is found in a value that is neither an array nor a text:
    it is dropped, and never wrapped. -/
theorem cast_ensure (hkind : s.kind = .array element) (hconditions : s.conditions = [])
    (htransforms : s.traits.transforms = []) (ht : s.ensure = .ok t) (w : Workshop)
    (options : CallOptions) :
    w.cast t none options = .ok (some (.arr [])) ∧
      ∀ v, w.cast t (some v) options = w.cast s (some (s.ensured v)) options ∧
        (element.schema? = none → w.cast t (some v) options = .ok (some (s.ensured v))) ∧
        (v.type ≠ .string → v.type ≠ .array →
          s.ensured v = if s.isType .null then .null else .arr []) := by
  have hprepare (v : Value) : (some v).bind (prepare t) = some (s.ensured v) := by
    rw [Option.bind_some, Schema.prepare_ensure hkind htransforms ht]
  obtain ⟨htkind, htconditions, hdefault, hheight, htypes⟩ := Schema.ensure_traits hkind ht
  have htype (v : Value) : t.isType (s.ensured v) = true :=
    (htypes _).trans (Schema.ensured_isType hkind v)
  refine ⟨?_, fun v => ?_⟩
  · rw [cast, resolve_self (by simp [htkind]) (htconditions.trans hconditions) none options,
      ← hdefault]
    rfl
  · have hensured : w.cast t (some v) options =
        w.castParts (w.castWithin (depthLimit + t.height)) false t (s.ensured v) options :=
      cast_array htkind (htconditions.trans hconditions) (hprepare v) (htype v)
    rw [hheight, castParts_congr_of_array hkind htkind] at hensured
    refine ⟨?_, fun helement => ?_, fun hstring harray => ?_⟩
    · rw [hensured, cast_array hkind hconditions
        (prepare_of_isType htransforms (Schema.ensured_isType hkind v))
        (Schema.ensured_isType hkind v)]
    · rw [hensured]
      refine castParts_whole ⟨by simp [hkind], fun e he => ?_⟩
      cases hkind.symm.trans he
      exact absurd helement (by simp [Element.schema?])
    · rw [Schema.ensured, Value.items?_eq_none hstring harray]

/-- A number is not wrapped: it is dropped as null is. An array is left as it is. -/
theorem cast_ensure_number :
    ∃ t, initial.build none (.make .array [.ensure]) = .ok t ∧
      initial.cast t (some (.int 5)) .none = .ok (some (.arr [])) ∧
      initial.cast t (some .null) .none = .ok (some (.arr [])) ∧
      initial.cast t none .none = .ok (some (.arr [])) ∧
      initial.cast t (some (.arr [.int 5])) .none = .ok (some (.arr [.int 5])) := by
  obtain ⟨s, t, ht, hkind, hconditions, htransforms, hensure, hnull⟩ :
      ∃ (s t : Schema), initial.build none (.make .array [.ensure]) = .ok t ∧
        s.kind = .array .unset ∧ s.conditions = [] ∧ s.traits.transforms = [] ∧ s.ensure = .ok t ∧
        s.isType .null = false :=
    ⟨.fresh initial.locale (.array .unset), _, rfl, rfl, rfl, rfl, rfl, rfl⟩
  obtain ⟨hnone, hcast⟩ := cast_ensure hkind hconditions htransforms hensure initial .none
  have hdropped {v : Value} (hv : s.ensured v = if s.isType .null then .null else .arr []) :
      initial.cast t (some v) .none = .ok (some (.arr [])) := by
    rw [(hcast v).2.1 rfl, hv, hnull]
    rfl
  exact ⟨t, ht, hdropped ((hcast _).2.2 (by decide) (by decide)),
    hdropped ((hcast _).2.2 (by decide) (by decide)), hnone, (hcast _).2.1 rfl⟩

end Workshop

end Conform
