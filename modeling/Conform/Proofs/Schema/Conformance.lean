/-
  Conform.Proofs.Schema.Conformance

  What a cast guarantees of a whole value. Unless a call turns the assertion of types
  off, every result conforms to the schema: it is of the type of the schema, and so
  are its fields and items, at every depth. A cast asserts the type of a node only if
  the node has an input, so defaults, which have none, are seen to conform by
  themselves, and an undefined item is null only where everything is of the type.
-/

import Conform.Proofs.Schema.Defaults
import Conform.Proofs.Schema.Obtained

namespace Conform

-- ============================================================================
-- Conforming values
-- ============================================================================

namespace Schema

/-- Whether a schema is worked on as it stands and declares no default: it is not lazy
    and has no conditions. -/
structure Direct (s : Schema) : Prop where
  eager : ∀ pick, s.kind ≠ .lazy pick
  unconditional : s.conditions = []
  undeclared : ∀ v, s.traits.fallback ≠ some (some v)

theorem Direct.resolve {s : Schema} (h : s.Direct) (w : Workshop) (value : Option Value)
    (options : CallOptions) : w.resolve s value options = .ok s :=
  Workshop.resolve_self h.eager h.unconditional value options

theorem Direct.eq_of_resolve {s t : Schema} (h : s.Direct) {w : Workshop} {value : Option Value}
    {options : CallOptions} (ht : w.resolve s value options = .ok t) : s = t :=
  Except.ok.inj ((h.resolve w value options).symm.trans ht)

/-- Whether a value is of the type of a schema, every declared field that is present in
    it conforms to the schema of the field, and every item to that of the elements. -/
inductive Conforms : Schema → Value → Prop where
  | intro {s : Schema} {v : Value} :
      s.isType v = true →
      (∀ shape fields, s.kind = .object shape → v = .obj fields → ∀ f ∈ shape.fields, ∀ part,
        Dict.get? fields f.1 = some part → Conforms f.2 part) →
      (∀ element items, s.kind = .array (.of element) → v = .arr items → ∀ item ∈ items,
        Conforms element item) →
      Conforms s v

namespace Conforms

variable {s element : Schema} {shape : Shape Schema} {v : Value}

theorem isType (h : s.Conforms v) : s.isType v = true := by
  cases h with
  | intro htype _ _ => exact htype

theorem field {fields : Dict Value} (h : s.Conforms (.obj fields)) (hkind : s.kind = .object shape)
    {f : String × Schema} (hf : f ∈ shape.fields) {part : Value}
    (hpart : Dict.get? fields f.1 = some part) : f.2.Conforms part := by
  cases h with
  | intro _ hfields _ => exact hfields shape fields hkind rfl f hf part hpart

theorem item {items : List Value} (h : s.Conforms (.arr items))
    (hkind : s.kind = .array (.of element)) {item : Value} (hitem : item ∈ items) :
    element.Conforms item := by
  cases h with
  | intro _ _ hitems => exact hitems element items hkind rfl item hitem

theorem of_fields {fields : Dict Value} (hkind : s.kind = .object shape)
    (h : ∀ f ∈ shape.fields, ∀ part, Dict.get? fields f.1 = some part → f.2.Conforms part) :
    s.Conforms (.obj fields) := by
  refine .intro (isType_obj hkind fields) ?_ (by simp [hkind])
  intro shape' fields' hkind' heq
  cases hkind.symm.trans hkind'
  cases heq
  exact h

theorem of_items {items : List Value} (hkind : s.kind = .array (.of element))
    (h : ∀ item ∈ items, element.Conforms item) : s.Conforms (.arr items) := by
  refine .intro (isType_arr hkind items) (by simp [hkind]) ?_
  intro element' items' hkind' heq
  cases hkind.symm.trans hkind'
  cases heq
  exact h

/-- A value without parts conforms by its type. -/
theorem of_whole (h : Workshop.Whole s v) (htype : s.isType v = true) : s.Conforms v :=
  .intro htype (fun shape fields hkind heq => absurd heq (h.object shape hkind fields))
    fun element items hkind heq => absurd heq (h.array element hkind items)

/-- Every value conforms to a mixed schema. -/
theorem of_mixed (h : s.kind = .mixed) (v : Value) : s.Conforms v := by
  refine of_whole ⟨by simp [h], by simp [h]⟩ ?_
  simp [Schema.isType, NodeView.isType, view, tag, h, Kind.tag, KindTag.fits]

end Conforms

/-- The default that a schema has without declaring one conforms to it: each field is
    the default of its schema. -/
theorem conforms_default {s : Schema} (hmade : s.WellMade .all) (hdirect : s.Everywhere Direct)
    {v : Value} (h : s.defaultValue = some v) : s.Conforms v := by
  induction hdirect generalizing v with
  | @intro s hs _ ih =>
      obtain ⟨shape, hkind, rfl⟩ := defaultValue_cases hs.undeclared h
      have hshape := hmade.here.shape shape hkind
      refine .of_fields hkind fun f hf part hpart => ?_
      have hlookup : shape.fields.lookup f.1 = some f.2 := Dict.get?_of_mem hshape.keys hf
      have hdefault : f.2.defaultValue = some part := by
        rw [Dict.get?_gather hshape.nodup_order (hshape.mem_order (List.mem_map_of_mem hf))] at hpart
        simpa [hlookup] using hpart
      exact ih f.2 (.field hkind hf) (hmade.field hkind hf) hdefault

end Schema

-- ============================================================================
-- Casts
-- ============================================================================

namespace Workshop

variable {w : Workshop} {s element : Schema} {shape : Shape Schema} {options : CallOptions}

/-- Whether the casts of parts conform to the schemas of the parts. Only a mixed schema
    casts a value to none. -/
structure CastsConform (castPart : CastPart) : Prop where
  conforms : ∀ {s : Schema} {raw : Option Value} {options : CallOptions} {out : Value},
    s.WellMade .all → s.Everywhere Schema.Direct → options.assertType ≠ some false →
    castPart s raw options = .ok (some out) → s.Conforms out
  dropped : ∀ {s : Schema} {raw : Value} {options : CallOptions},
    options.assertType ≠ some false → castPart s (some raw) options = .ok none → s.kind = .mixed

variable {castPart : CastPart}

/-- The fields of an object are as their casts left them. -/
theorem castFields_conforms (hcast : CastsConform castPart) (hmade : s.WellMade .all)
    (hdirect : s.Everywhere Schema.Direct) (hon : options.assertType ≠ some false)
    (hkind : s.kind = .object shape) {input out : Dict Value}
    (h : w.castFields castPart false s shape input options = .ok (some (.obj out))) :
    s.Conforms (.obj out) := by
  have hshape := hmade.here.shape shape hkind
  refine .of_fields hkind fun f hf part hpart => ?_
  obtain ⟨done, value, -, hvalue, hout⟩ :=
    castFields_field hshape (Dict.get?_of_mem hshape.keys hf) h
  obtain rfl : value = some part := hout.symm.trans hpart
  have hfield : f.2.Everywhere Schema.Direct := hdirect.field hkind hf
  obtain ⟨t, ht, hcases⟩ := castField_eq_ok hvalue
  obtain rfl : f.2 = t := hfield.here.eq_of_resolve ht
  rcases hcases with ⟨-, hnone⟩ | ⟨-, hstrict, -⟩ | ⟨-, -, hcasts⟩
  · exact absurd hnone (by simp)
  · exact absurd hstrict (by simp)
  · have hinner : (options.forField done f.1).assertType ≠ some false := hon
    exact hcast.conforms (hmade.field hkind hf) hfield hinner hcasts

/-- The items of an array are as their casts left them; where a cast left none, the
    schema takes null as it takes everything. -/
theorem castItems_conforms (hcast : CastsConform castPart) (hmade : element.WellMade .all)
    (hdirect : element.Everywhere Schema.Direct) (hon : options.assertType ≠ some false)
    {position : Nat} {items out : List Value}
    (h : w.castItems castPart element options position items = .ok out) :
    ∀ item ∈ out, element.Conforms item := by
  obtain ⟨hlength, hitems⟩ := castItems_item h
  intro item hitem
  obtain ⟨i, hi⟩ := List.getElem?_of_mem hitem
  have hlt : i < items.length := hlength ▸ (List.getElem?_eq_some_iff.mp hi).1
  obtain ⟨t, r, ht, hr, hout⟩ := hitems i items[i] (List.getElem?_eq_getElem hlt)
  obtain rfl : element = t := hdirect.here.eq_of_resolve ht
  obtain rfl : r.getD .null = item := Option.some.inj (hout.symm.trans hi)
  have hinner : (options.forItem (position + i)).assertType ≠ some false := hon
  cases r with
  | none => exact .of_mixed (hcast.dropped hinner hr) _
  | some v => exact hcast.conforms hmade hdirect hinner hr

theorem kind_of_accepts_none (h : s.accepts none = true) : s.kind = .mixed := by
  have htag : s.tag = .mixed := by simpa [Schema.accepts] using h
  cases hkind : s.kind <;> simp [Schema.tag, hkind, Kind.tag] at htag
  rfl

/-- The cast of a node conforms if those of its parts do. -/
theorem castNode_conforms (hcast : CastsConform castPart) :
    CastsConform (w.castNode castPart false) where
  conforms := by
    intro s raw options out hmade hdirect hon h
    obtain ⟨haccepts, ⟨-, hdefault⟩ | ⟨v, hv, hparts⟩⟩ := castNode_cases h
    · exact Schema.conforms_default hmade hdirect hdefault.symm
    · have hraw : raw ≠ none := by
        rintro rfl
        exact absurd hv (by simp)
      have htype : s.isType out = true := haccepts hraw hon
      rcases whole_cases s v with ⟨shape, fields, hkind, rfl⟩ | ⟨element, items, hkind, rfl⟩ |
        hwhole
      · rw [castParts_object hkind] at hparts
        obtain ⟨out', heq⟩ := castFields_eq_ok hparts
        cases heq
        exact castFields_conforms hcast hmade hdirect hon hkind hparts
      · rw [castParts_array hkind] at hparts
        obtain ⟨items', hitems, heq⟩ := bind_eq_ok.mp hparts
        cases heq
        exact .of_items hkind
          (castItems_conforms hcast (hmade.element hkind) (hdirect.element hkind) hon hitems)
      · rw [castParts_whole hwhole] at hparts
        cases hparts
        exact .of_whole hwhole htype
  dropped := by
    intro s raw options hon h
    obtain ⟨haccepts, -⟩ := castNode_cases h
    exact kind_of_accepts_none (haccepts (by simp) hon)

theorem castWithin_conforms (w : Workshop) (depth : Nat) : CastsConform (w.castWithin depth) := by
  induction depth with
  | zero => exact ⟨fun _ _ _ h => absurd h (by simp [castWithin]), fun _ h =>
      absurd h (by simp [castWithin])⟩
  | succ depth ih => exact castNode_conforms ih

/-- Whatever a cast succeeds with conforms to the schema, unless the call turns the
    assertion of types off. -/
theorem cast_conforms (hs : s.Obtained) (hdirect : s.Everywhere Schema.Direct)
    {value : Option Value} (hon : options.assertType ≠ some false) {out : Value}
    (h : w.cast s value options = .ok (some out)) : s.Conforms out := by
  rw [cast] at h
  obtain ⟨t, ht, h⟩ := bind_eq_ok.mp h
  obtain rfl : s = t := hdirect.here.eq_of_resolve ht
  exact (castNode_conforms (w.castWithin_conforms _)).conforms hs.wellMade hdirect hon h

/-- An order with a number, with tags whose blanks are trimmed and with a place. -/
def orderForm : Recipe :=
  .make .object [.shape [("count", .plain .number),
    ("tags", .make .array [.element (.make .string [.trim])]),
    ("place", .make .object [.shape [("city", .plain .string)] []])] []]

/-- Texts for the number and for the tags are read, the truth values among the tags
    become their words, and there is a place although none was given. -/
theorem cast_conforms_order :
    ∃ s out, initial.build none orderForm = .ok s ∧
      initial.cast s (some (.obj [("count", .str "7"), ("more", .null),
        ("tags", .str "[true,false]")])) .none = .ok (some (.obj out)) ∧
      out = [("count", .int 7), ("more", .null), ("place", .obj []),
        ("tags", .arr [.str "true", .str "false"])] ∧
      s.Conforms (.obj out) := by
  obtain ⟨s, count, tags, tag, place, city, hs, hcast, hkind, ⟨hcount, htags, htag, hplace, hcity⟩,
      hconditions, hfallbacks⟩ :
      ∃ s count tags tag place city, initial.build none orderForm = .ok s ∧
        initial.cast s (some (.obj [("count", .str "7"), ("more", .null),
            ("tags", .str "[true,false]")])) .none =
          .ok (some (.obj (Dict.merge
            [("count", .int 7), ("place", .obj []), ("tags", .arr [.str "true", .str "false"])]
            [("more", .null)]))) ∧
        s.kind = .object ⟨[("count", count), ("tags", tags), ("place", place)],
          ["count", "tags", "place"], []⟩ ∧
        (count.kind = .number ∧ tags.kind = .array (.of tag) ∧ tag.kind = .string ∧
          place.kind = .object ⟨[("city", city)], ["city"], []⟩ ∧ city.kind = .string) ∧
        (s.conditions = [] ∧ count.conditions = [] ∧ tags.conditions = [] ∧
          tag.conditions = [] ∧ place.conditions = [] ∧ city.conditions = []) ∧
        (s.traits.fallback = none ∧ count.traits.fallback = none ∧ tags.traits.fallback = none ∧
          tag.traits.fallback = none ∧ place.traits.fallback = none ∧
          city.traits.fallback = none) :=
    ⟨_, _, _, _, _, _, rfl, rfl, rfl, ⟨rfl, rfl, rfl, rfl, rfl⟩,
      ⟨rfl, rfl, rfl, rfl, rfl, rfl⟩, ⟨rfl, rfl, rfl, rfl, rfl, rfl⟩⟩
  obtain ⟨hs₀, hs₁, hs₂, hs₃, hs₄, hs₅⟩ := hconditions
  obtain ⟨hf₀, hf₁, hf₂, hf₃, hf₄, hf₅⟩ := hfallbacks
  have hcityDirect : city.Everywhere Schema.Direct :=
    .of_leaf ⟨by simp [hcity], hs₅, by simp [hf₅]⟩ hs₅ (by simp [hcity]) (by simp [hcity])
  have hplaceDirect : place.Everywhere Schema.Direct :=
    .of_fields ⟨by simp [hplace], hs₄, by simp [hf₄]⟩ hs₄ hplace (by simpa using hcityDirect)
  have htagDirect : tag.Everywhere Schema.Direct :=
    .of_leaf ⟨by simp [htag], hs₃, by simp [hf₃]⟩ hs₃ (by simp [htag]) (by simp [htag])
  have htagsDirect : tags.Everywhere Schema.Direct :=
    .of_element ⟨by simp [htags], hs₂, by simp [hf₂]⟩ hs₂ htags htagDirect
  have hcountDirect : count.Everywhere Schema.Direct :=
    .of_leaf ⟨by simp [hcount], hs₁, by simp [hf₁]⟩ hs₁ (by simp [hcount]) (by simp [hcount])
  have hdirect : s.Everywhere Schema.Direct :=
    .of_fields ⟨by simp [hkind], hs₀, by simp [hf₀]⟩ hs₀ hkind
      (by simpa using ⟨hcountDirect, htagsDirect, hplaceDirect⟩)
  have hon : CallOptions.none.assertType ≠ some false := by simp [CallOptions.none]
  exact ⟨s, _, hs, hcast, by simp [Dict.merge],
    cast_conforms (.built Schema.Obtained.stored_initial hs) hdirect hon hcast⟩

end Workshop

end Conform
