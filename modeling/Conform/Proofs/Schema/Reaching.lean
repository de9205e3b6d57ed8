/-
  Conform.Proofs.Schema.Reaching

  Following a path goes down in the schema: every step leads to a field or to the
  elements of a schema that is resolved on the way, and so what resolution and
  nesting keep of schemas holds at the end of the path. Where a schema stands for
  itself, a step comes to what the schema declares.
-/

import Conform.Schema.Reach
import Conform.Proofs.Schema.Building

namespace Conform

namespace Schema

variable {s t : Schema}

theorem nested_of_fields? {key : String}
    (h : (s.fields?.bind fun fields => fields.lookup key) = some t) : Nested t s := by
  rw [fields?] at h
  split at h
  · next shape hkind => exact .field hkind (Dict.mem_of_get? h)
  · exact absurd h (by simp)

end Schema

namespace Workshop

variable {C : RecipeClass} {w : Workshop} {path : String} {context : Option Value}
  {place after : Walk}

theorem elementOf_nested {s t : Schema} (h : elementOf path s = .ok t) : Schema.Nested t s := by
  rw [elementOf] at h
  split at h
  · next element helement =>
      cases h
      exact Schema.nested_of_element? helement
  · exact absurd h (by simp)

theorem stepToItem_wellMade (hw : w.Equipped C) (hs : place.schema.WellMade C) {position : Nat}
    (h : stepToItem w path context place position = .ok after) : after.schema.WellMade C := by
  rw [stepToItem] at h
  obtain ⟨resolved, hresolved, h⟩ := bind_eq_ok.mp h
  obtain ⟨element, helement, h⟩ := bind_eq_ok.mp h
  have hmade := (resolve_wellMade hw hs hresolved).nested (elementOf_nested helement)
  dsimp only at h
  split at h
  · split at h
    · cases h
      exact hmade
    · exact absurd h (by simp)
  · cases h
    exact hmade

theorem enterFirst_wellMade (hw : w.Equipped C) (hs : place.schema.WellMade C)
    {entered : Schema × Option Value} (h : enterFirst w path context place = .ok entered) :
    entered.1.WellMade C := by
  rw [enterFirst] at h
  obtain ⟨current, hcurrent, h⟩ := bind_eq_ok.mp h
  have hmade := resolve_wellMade hw hs hcurrent
  split at h
  · obtain ⟨again, hagain, h⟩ := bind_eq_ok.mp h
    obtain ⟨element, helement, h⟩ := bind_eq_ok.mp h
    obtain ⟨first, hfirst, h⟩ := bind_eq_ok.mp h
    cases h
    have hnested := (resolve_wellMade hw hmade hagain).nested (elementOf_nested helement)
    exact resolve_wellMade hw hnested hfirst
  · cases h
    exact hmade

theorem stepToField_wellMade (hw : w.Equipped C) (hs : place.schema.WellMade C) {name : String}
    {isQuoted : Bool} (h : stepToField w path context place name isQuoted = .ok after) :
    after.schema.WellMade C := by
  rw [stepToField] at h
  obtain ⟨⟨current, container⟩, hentered, h⟩ := bind_eq_ok.mp h
  have hmade : current.WellMade C := enterFirst_wellMade hw hs hentered
  dsimp only at h
  split at h
  · next field hfield =>
      cases h
      exact hmade.nested (Schema.nested_of_fields? hfield)
  · exact absurd h (by simp)

/-- One step of a path leads to a well-made schema. -/
theorem walk_wellMade (hw : w.Equipped C) (hs : place.schema.WellMade C) {segment : Segment}
    (h : walk w path context place segment = .ok after) : after.schema.WellMade C := by
  cases segment with
  | index position => exact stepToItem_wellMade hw hs h
  | key name isQuoted => exact stepToField_wellMade hw hs h

/-- A path leads to a well-made schema. -/
theorem reach_wellMade (hw : w.Equipped C) {s : Schema} (hs : s.WellMade C) {value : Option Value}
    {reached : Reached} (h : w.reach s path value context = .ok reached) :
    reached.schema.WellMade C := by
  have hwalk : ∀ (segments : List Segment) (context : Option Value) {place after : Walk},
      place.schema.WellMade C → segments.foldlM (walk w path context) place = .ok after →
      after.schema.WellMade C := by
    intro segments context
    induction segments with
    | nil =>
        intro place after hplace h
        cases h
        exact hplace
    | cons segment rest ih =>
        intro place after hplace h
        rw [List.foldlM_cons] at h
        obtain ⟨between, hbetween, h⟩ := bind_eq_ok.mp h
        exact ih (walk_wellMade hw hplace hbetween) h
  rw [reach] at h
  obtain ⟨last, hlast, h⟩ := bind_eq_ok.mp h
  obtain ⟨schema, hschema, h⟩ := bind_eq_ok.mp h
  cases h
  exact resolve_wellMade hw (hwalk _ _ hs hlast) hschema

theorem atPath_wellMade (hw : w.Equipped C) {s : Schema} (hs : s.WellMade C) {value : Value}
    {options below : CallOptions} {reached : Reached}
    (h : w.atPath s path value options = .ok (reached, below)) : reached.schema.WellMade C := by
  rw [atPath] at h
  obtain ⟨found, hfound, h⟩ := bind_eq_ok.mp h
  cases h
  exact reach_wellMade hw hs hfound

/-! ## Schemas that stand for themselves -/

variable {s f element : Schema} {shape : Shape Schema} {parent value : Option Value}

theorem elementOf_array (hkind : s.kind = .array (.of element)) :
    elementOf path s = .ok element := by
  rw [elementOf, Schema.element?_eq_some.mpr hkind]

/-- A step to a declared field. -/
theorem walk_field {name : String} (hs : w.resolve s value (scope parent context) = .ok s)
    (hkind : s.kind = .object shape) (hf : shape.fields.lookup name = some f) (isQuoted : Bool)
    (walked : String) :
    walk w path context ⟨s, parent, value, walked⟩ (.key name isQuoted) =
      .ok ⟨f, value, value.bind fun v => v.field? name, walked ++ keyText name isQuoted⟩ := by
  have htag : s.tag ≠ .array := by simp [Schema.tag, hkind, Kind.tag]
  have hfield : (s.fields?.bind fun fields => fields.lookup name) = some f := by
    rw [Schema.fields?, hkind]
    exact hf
  rw [walk, stepToField, enterFirst, hs]
  simp [bind, Except.bind, htag, hfield, pure, Except.pure]

/-- A step to an item that is there. -/
theorem walk_item {items : List Value} {item : Value} {position : Nat}
    (hs : w.resolve s (some (.arr items)) (scope parent context) = .ok s)
    (hkind : s.kind = .array (.of element)) (hitem : items[position]? = some item)
    (walked : String) :
    walk w path context ⟨s, parent, some (.arr items), walked⟩ (.index position) =
      .ok ⟨element, some (.arr items), some item, walked ++ "[" ++ toString position ++ "]"⟩ := by
  rw [walk, stepToItem, hs]
  simp [bind, Except.bind, elementOf_array hkind, hitem, pure, Except.pure]

/-- A step to the elements where there is no value. -/
theorem walk_element {position : Nat} (hs : w.resolve s none (scope parent context) = .ok s)
    (hkind : s.kind = .array (.of element)) (walked : String) :
    walk w path context ⟨s, parent, none, walked⟩ (.index position) =
      .ok ⟨element, parent, none, walked ++ "[" ++ toString position ++ "]"⟩ := by
  rw [walk, stepToItem, hs]
  simp [bind, Except.bind, elementOf_array hkind, pure, Except.pure]

/-- No position leads into a schema that has no elements. -/
theorem walk_no_element {position : Nat} (hs : w.resolve s value (scope parent context) = .ok s)
    (helement : s.element? = none) (walked : String) :
    walk w path context ⟨s, parent, value, walked⟩ (.index position) =
      .error (.unreachable (.noElement path s.tag)) := by
  rw [walk, stepToItem, hs]
  simp [bind, Except.bind, elementOf, helement]

end Workshop

end Conform
