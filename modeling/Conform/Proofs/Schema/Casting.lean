/-
  Conform.Proofs.Schema.Casting

  What a cast that succeeds has done. Each declared field of an object is cast once,
  behind the fields before it in the order of the shape, and stands in the result as
  its cast left it; each item of an array is cast in its place. A schema without
  transforms hands a value of its type to the cast of the parts as it is.
-/

import Conform.Schema.Validate
import Conform.Proofs.Schema.Resolution

namespace Conform

namespace Schema

variable {s : Schema}

theorem isType_obj {shape : Shape Schema} (hkind : s.kind = .object shape)
    (fields : Dict Value) : s.isType (.obj fields) = true := by
  simp [isType, NodeView.isType, view, tag, hkind, Kind.tag, KindTag.fits, Value.type]

theorem isType_arr {element : Element Schema} (hkind : s.kind = .array element)
    (items : List Value) : s.isType (.arr items) = true := by
  simp [isType, NodeView.isType, view, tag, hkind, Kind.tag, KindTag.fits, Value.type]

end Schema

namespace Workshop

variable {w : Workshop} {castPart : CastPart} {validating : Bool} {options : CallOptions}
  {fields : List (String × Schema)} {keepUnknown : Bool} {input done after : Dict Value}

-- ============================================================================
-- Fields
-- ============================================================================

/-- A field is left out if its schema strips it; it is as it was given if its schema
    is strict and the object is validated; and otherwise it is cast. -/
theorem castField_eq_ok {field : Schema} {key : String} {raw value : Option Value}
    (h : w.castField castPart validating options done key field raw = .ok value) :
    ∃ t, w.resolve field raw (options.forField done key) = .ok t ∧
      ((t.isStripped = true ∧ value = none) ∨
        (t.isStripped = false ∧ (validating && t.isStrict) = true ∧ value = raw) ∨
        (t.isStripped = false ∧ (validating && t.isStrict) = false ∧
          castPart t raw (options.forField done key) = .ok value)) := by
  rw [castField] at h
  obtain ⟨t, ht, h⟩ := bind_eq_ok.mp h
  refine ⟨t, ht, ?_⟩
  split at h
  · next hstripped =>
      cases h
      exact Or.inl ⟨hstripped, rfl⟩
  · next hkept =>
      have hkept := Bool.eq_false_iff.mpr hkept
      split at h
      · next hstrict =>
          cases h
          exact Or.inr (Or.inl ⟨hkept, hstrict, rfl⟩)
      · next hcast => exact Or.inr (Or.inr ⟨hkept, Bool.eq_false_iff.mpr hcast, h⟩)

/-- A field that is neither conditional, stripped nor strict is cast. -/
theorem castField_plain {s : Schema} {key : String} {raw : Option Value}
    (hlazy : ∀ pick, s.kind ≠ .lazy pick) (hconditions : s.conditions = [])
    (hstripped : s.isStripped = false) (hstrict : s.isStrict = false) :
    w.castField castPart validating options done key s raw =
      castPart s raw (options.forField done key) := by
  have hresolve := resolve_self (w := w) hlazy hconditions raw (options.forField done key)
  unfold castField
  dsimp only
  rw [hresolve]
  simp [bind, Except.bind, hstripped, hstrict]

/-- The cast of a key sets the field of that key, or nothing. -/
theorem castKey_eq_ok {key : String}
    (h : w.castKey castPart validating options fields keepUnknown input done key = .ok after) :
    ∃ value, (match fields.lookup key with
        | some field =>
            w.castField castPart validating options done key field (Dict.get? input key)
        | none => .ok (if keepUnknown then Dict.get? input key else none)) = .ok value ∧
      after = match value with
        | some v => done.insert key v
        | none => done := by
  rw [castKey] at h
  cases hlookup : fields.lookup key with
  | none =>
      rw [hlookup] at h
      obtain ⟨value, hvalue, h⟩ := bind_eq_ok.mp h
      exact ⟨value, hvalue, (Except.ok.inj h).symm⟩
  | some field =>
      rw [hlookup] at h
      obtain ⟨value, hvalue, h⟩ := bind_eq_ok.mp h
      exact ⟨value, hvalue, (Except.ok.inj h).symm⟩

theorem castKey_frame {key other : String} (hne : other ≠ key)
    (h : w.castKey castPart validating options fields keepUnknown input done key = .ok after) :
    Dict.get? after other = Dict.get? done other := by
  obtain ⟨value, -, h⟩ := castKey_eq_ok h
  cases value with
  | none =>
      cases h
      rfl
  | some v =>
      cases h
      exact Dict.get?_insert_of_ne done v hne

theorem foldlM_castKey_frame {keys : List String} {other : String} (hnot : other ∉ keys)
    (h : keys.foldlM (w.castKey castPart validating options fields keepUnknown input) done =
      .ok after) : Dict.get? after other = Dict.get? done other := by
  induction keys generalizing done with
  | nil =>
      cases h
      rfl
  | cons key rest ih =>
      rw [List.foldlM_cons] at h
      obtain ⟨between, hbetween, h⟩ := bind_eq_ok.mp h
      rw [ih (fun hmem => hnot (List.mem_cons_of_mem _ hmem)) h]
      exact castKey_frame (fun heq => hnot (heq ▸ List.mem_cons_self)) hbetween

/-- A key of the order is not taken over from the input as it is. -/
theorem not_mem_extraFields {shape : Shape Schema} {key : String} (h : key ∈ shape.order) :
    key ∉ Dict.keys (extraFields shape input) := by
  intro hmem
  obtain ⟨f, hf, heq⟩ := List.mem_map.mp hmem
  have hcontains := (List.mem_filter.mp hf).2
  rw [heq] at hcontains
  simp [h] at hcontains

/-- Nor does anything that is taken over hide it. -/
theorem get?_merge_extraFields {shape : Shape Schema} {key : String} (h : key ∈ shape.order)
    (done : Dict Value) (keepUnknown : Bool) :
    Dict.get? (done.merge (if keepUnknown = true then extraFields shape input else [])) key =
      Dict.get? done key := by
  refine Dict.get?_merge_of_not_mem ?_
  split
  · exact not_mem_extraFields h
  · simp [Dict.keys]

theorem takeWhile_append_cons {key : String} {before rest : List String}
    (h : key ∉ before) : (before ++ key :: rest).takeWhile (· != key) = before := by
  have hbefore : ∀ other ∈ before, (other != key) = true := by
    intro other hmem
    exact bne_iff_ne.mpr fun heq => h (heq ▸ hmem)
  rw [List.takeWhile_append_of_pos hbefore, List.takeWhile_cons]
  simp

/-- What is done when the cast comes to the rest of the order stands in the result, but
    for the keys of the rest. -/
theorem castFields_frame {s : Schema} {shape : Shape Schema} {before rest : List String}
    {other : String} {out : Dict Value} (horder : shape.order = before ++ rest)
    (hdone : before.foldlM
      (w.castKey castPart validating options shape.fields (!options.dropsUnknown s) input) [] =
        .ok done)
    (h : w.castFields castPart validating s shape input options = .ok (some (.obj out)))
    (hmem : other ∈ before) (hnot : other ∉ rest) : Dict.get? out other = Dict.get? done other := by
  rw [castFields] at h
  obtain ⟨all, hall, h⟩ := bind_eq_ok.mp h
  cases h
  have hkey : other ∈ shape.order := by simp [horder, hmem]
  rw [horder, List.foldlM_append] at hall
  obtain ⟨done', hdone', hrest⟩ := bind_eq_ok.mp hall
  cases hdone.symm.trans hdone'
  rw [get?_merge_extraFields hkey, foldlM_castKey_frame hnot hrest]

/-- A declared field is cast behind the fields that the order of the shape has before
    it, and stands in the result as its cast left it. -/
theorem castFields_field {s field : Schema} {shape : Shape Schema} {key : String}
    {out : Dict Value} (hshape : shape.Ordered) (hfield : shape.fields.lookup key = some field)
    (h : w.castFields castPart validating s shape input options = .ok (some (.obj out))) :
    ∃ done value, (shape.order.takeWhile (· != key)).foldlM
        (w.castKey castPart validating options shape.fields (!options.dropsUnknown s) input) [] =
          .ok done ∧
      w.castField castPart validating options done key field (Dict.get? input key) = .ok value ∧
      Dict.get? out key = value := by
  obtain ⟨before, rest, horder, hbefore, hrest⟩ := hshape.split_order
    (List.mem_map_of_mem (f := Prod.fst) (Dict.mem_of_get? hfield))
  have hcast := h
  rw [castFields] at h
  obtain ⟨all, hall, -⟩ := bind_eq_ok.mp h
  rw [horder, List.foldlM_append] at hall
  obtain ⟨done, hdone, hall⟩ := bind_eq_ok.mp hall
  rw [List.foldlM_cons] at hall
  obtain ⟨between, hbetween, -⟩ := bind_eq_ok.mp hall
  obtain ⟨value, hvalue, hset⟩ := castKey_eq_ok hbetween
  rw [hfield] at hvalue
  refine ⟨done, value, ?_, hvalue, ?_⟩
  · rw [horder, takeWhile_append_cons hbefore]
    exact hdone
  · have hthrough : (before ++ [key]).foldlM (w.castKey castPart validating options shape.fields
        (!options.dropsUnknown s) input) [] = .ok between := by
      rw [List.foldlM_append]
      exact bind_eq_ok.mpr ⟨done, hdone, bind_eq_ok.mpr ⟨between, hbetween, rfl⟩⟩
    rw [castFields_frame (by rw [horder, List.append_cons]) hthrough hcast (by simp) hrest, hset]
    cases value with
    | none =>
        -- nothing was set, and the key comes nowhere else in the order
        rw [foldlM_castKey_frame hbefore hdone]
        rfl
    | some v => exact Dict.get?_insert_self done key v

theorem castFields_eq_ok {s : Schema} {shape : Shape Schema} {result : Option Value}
    (h : w.castFields castPart validating s shape input options = .ok result) :
    ∃ out, result = some (.obj out) := by
  rw [castFields] at h
  obtain ⟨done, -, h⟩ := bind_eq_ok.mp h
  cases h
  exact ⟨_, rfl⟩

/-- The fields of an object that are done when the cast comes to a key, while the
    object is validated. -/
def doneBefore (w : Workshop) (castPart : CastPart) (s : Schema) (shape : Shape Schema)
    (input : Dict Value) (options : CallOptions) (key : String) : Result (Dict Value) :=
  (shape.order.takeWhile (· != key)).foldlM
    (w.castKey castPart true options shape.fields (!options.dropsUnknown s) input) []

-- ============================================================================
-- Items and nodes
-- ============================================================================

/-- Every item is cast with the element schema that is resolved for it. -/
theorem castItems_item {element : Schema} {position : Nat} {items out : List Value}
    (h : w.castItems castPart element options position items = .ok out) :
    out.length = items.length ∧ ∀ i item, items[i]? = some item →
      ∃ t r, w.resolve element (some item) (options.forItem (position + i)) = .ok t ∧
        castPart t (some item) (options.forItem (position + i)) = .ok r ∧
        out[i]? = some (r.getD .null) := by
  induction items generalizing position out with
  | nil =>
      cases h
      exact ⟨rfl, by simp⟩
  | cons first rest ih =>
      rw [castItems] at h
      obtain ⟨t, ht, h⟩ := bind_eq_ok.mp h
      obtain ⟨r, hr, h⟩ := bind_eq_ok.mp h
      obtain ⟨others, hothers, h⟩ := bind_eq_ok.mp h
      cases h
      obtain ⟨hlength, hitems⟩ := ih hothers
      refine ⟨by simp [hlength], fun i item hitem => ?_⟩
      cases i with
      | zero =>
          cases hitem
          exact ⟨t, r, ht, hr, rfl⟩
      | succ i =>
          have hposition : position + (i + 1) = position + 1 + i := by omega
          rw [hposition]
          exact hitems i item hitem

theorem castParts_object {s : Schema} {shape : Shape Schema} (hkind : s.kind = .object shape) :
    w.castParts castPart validating s (.obj input) options =
      w.castFields castPart validating s shape input options := by
  unfold castParts
  rw [hkind]

theorem castParts_array {s element : Schema} {items : List Value}
    (hkind : s.kind = .array (.of element)) :
    w.castParts castPart validating s (.arr items) options =
      w.castItems castPart element options 0 items >>= fun out => .ok (some (.arr out)) := by
  unfold castParts
  rw [hkind]
  rfl

/-- Whether a value has no parts that its schema has schemas for. -/
structure Whole (s : Schema) (v : Value) : Prop where
  object : ∀ shape, s.kind = .object shape → ∀ fields, v ≠ .obj fields
  array : ∀ element, s.kind = .array (.of element) → ∀ items, v ≠ .arr items

theorem castParts_whole {s : Schema} {v : Value} (h : Whole s v) :
    w.castParts castPart validating s v options = .ok (some v) := by
  unfold castParts
  split
  · next hkind => exact absurd rfl (h.object _ hkind _)
  · next hkind => exact absurd rfl (h.array _ hkind _)
  · rfl

/-- A value is cast field by field, item by item or not at all. -/
theorem whole_cases (s : Schema) (v : Value) :
    (∃ shape fields, s.kind = .object shape ∧ v = .obj fields) ∨
      (∃ element items, s.kind = .array (.of element) ∧ v = .arr items) ∨ Whole s v := by
  by_cases hobject : ∃ shape fields, s.kind = .object shape ∧ v = .obj fields
  · exact Or.inl hobject
  · by_cases harray : ∃ element items, s.kind = .array (.of element) ∧ v = .arr items
    · exact Or.inr (Or.inl harray)
    · exact Or.inr (Or.inr
        ⟨fun shape hkind fields heq => hobject ⟨shape, fields, hkind, heq⟩,
          fun element hkind items heq => harray ⟨element, items, hkind, heq⟩⟩)

/-- A result that is not refused is of the type of the schema, unless there was no input
    or the call turns this off. -/
theorem assertType_eq_ok {s : Schema} {raw result out : Option Value}
    (h : assertType s raw result options = .ok out) :
    out = result ∧ (raw ≠ none → options.assertType ≠ some false → s.accepts result = true) := by
  rw [assertType] at h
  split at h
  · exact absurd h (by simp)
  · next hnot =>
      cases h
      refine ⟨rfl, fun hraw hon => ?_⟩
      obtain ⟨v, rfl⟩ := Option.ne_none_iff_exists'.mp hraw
      simpa [hon] using hnot

/-- Without transforms a value of the type of the schema is prepared as it is. -/
theorem prepare_of_isType {s : Schema} {v : Value} (htransforms : s.traits.transforms = [])
    (h : s.isType v = true) : (some v).bind (prepare s) = some v := by
  rw [Option.bind_some, prepare, htransforms, List.foldl_nil, Schema.coerce, if_pos h]

/-- A cast that succeeds gives the default or has cast the parts of the prepared value,
    and the type of its result was asserted. -/
theorem castNode_cases {s : Schema} {raw result : Option Value}
    (h : w.castNode castPart validating s raw options = .ok result) :
    (raw ≠ none → options.assertType ≠ some false → s.accepts result = true) ∧
      ((raw.bind (prepare s) = none ∧ result = s.defaultValue) ∨
        ∃ v, raw.bind (prepare s) = some v ∧
          w.castParts castPart validating s v options = .ok result) := by
  rw [castNode] at h
  cases hv : raw.bind (prepare s) with
  | none =>
      rw [hv] at h
      obtain ⟨rfl, haccepts⟩ := assertType_eq_ok h
      exact ⟨haccepts, Or.inl ⟨rfl, rfl⟩⟩
  | some v =>
      rw [hv] at h
      obtain ⟨parts, hparts, hassert⟩ := bind_eq_ok.mp h
      obtain ⟨rfl, haccepts⟩ := assertType_eq_ok hassert
      exact ⟨haccepts, Or.inr ⟨v, rfl, hparts⟩⟩

/-- A cast that succeeds has cast the parts of the prepared value. -/
theorem castNode_eq_ok {s : Schema} {raw result : Option Value} {v : Value}
    (hv : raw.bind (prepare s) = some v)
    (h : w.castNode castPart validating s raw options = .ok result) :
    w.castParts castPart validating s v options = .ok result := by
  obtain ⟨-, ⟨hnone, -⟩ | ⟨v', hv', hparts⟩⟩ := castNode_cases h
  · exact absurd (hv.symm.trans hnone) (by simp)
  · cases hv.symm.trans hv'
    exact hparts

-- ============================================================================
-- Checked values
-- ============================================================================

/-- An object that is to be cast is checked in the form that its fields are cast
    to. -/
theorem checkedValue_object {t : Schema} {shape : Shape Schema}
    {value checked : Option Value} {strict : Bool}
    (hstrict : strict = false) (hkind : t.kind = .object shape)
    (hinput : value.bind (prepare t) = some (.obj input))
    (h : w.checkedValue t strict value options = .ok checked) :
    ∃ out, checked = some (.obj out) ∧
      w.castFields (w.castWithin (depthLimit + t.height)) true t shape input
        (castOptions options) = .ok (some (.obj out)) := by
  have htag : (t.tag == KindTag.object) = true := by
    rw [Schema.tag, hkind]
    rfl
  rw [checkedValue, hstrict, htag, castResolved] at h
  have hfields := castNode_eq_ok hinput h
  rw [castParts_object hkind] at hfields
  obtain ⟨out, rfl⟩ := castFields_eq_ok hfields
  exact ⟨out, rfl, hfields⟩

/-- A value of any other kind that is to be cast is checked as its cast for its own
    sake. -/
theorem checkedValue_of_tag_ne {t : Schema} (htag : t.tag ≠ .object) (value : Option Value)
    (options : CallOptions) :
    w.checkedValue t false value options =
      w.castWithin (depthLimit + t.height + 1) t value (castOptions options) := by
  have hvalidating : (t.tag == .object) = false := beq_eq_false_iff_ne.mpr htag
  rw [checkedValue, hvalidating]
  rfl

end Workshop

end Conform
