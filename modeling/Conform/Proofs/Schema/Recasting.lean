/-
  Conform.Proofs.Schema.Recasting

  Casting what was cast before. Without transforms, stripped fields and declared
  defaults every result of a cast is a fixed point of the cast, of whatever type it is:
  coercion leaves what it has made, the fields of an object gather to what they were
  gathered from, and the default of an object is the object of its fields' defaults.
  The options of the second cast may name another place and another parent.
-/

import Conform.Proofs.Schema.Conformance

namespace Conform

-- ============================================================================
-- Coercion
-- ============================================================================

namespace Schema

theorem toContainer_cases (view : NodeView) (v : Value) :
    view.isType (Coerce.toContainer view v) = true ∨ Coerce.toContainer view v = .null := by
  obtain ⟨u, hu⟩ : ∃ u, Coerce.toContainer view v = if view.isType u then u else .null :=
    ⟨_, rfl⟩
  rw [hu]
  by_cases htype : view.isType u = true
  · rw [if_pos htype]
    exact Or.inl htype
  · exact Or.inr (if_neg htype)

/-- A coerced value is of the type of the schema, or it was left as it is or given up. -/
theorem coerce_cases (s : Schema) (v : Value) :
    s.isType (s.coerce v) = true ∨ s.coerce v = v ∨ s.coerce v = .null := by
  by_cases htype : s.isType v = true
  · exact Or.inr (Or.inl (if_pos htype))
  · have hfits {u : Value} (h : s.tag.fits u = true) : s.isType u = true := by
      simp [isType, NodeView.isType, view, h]
    rw [coerce, if_neg htype]
    cases htag : s.tag with
    | mixed | lazy => exact Or.inr (Or.inl rfl)
    | string =>
        rw [htag] at hfits
        cases v with
        | null => exact Or.inr (Or.inl rfl)
        | _ => exact Or.inl (hfits rfl)
    | number =>
        rw [htag] at hfits
        cases v with
        | str text =>
            dsimp only [Coerce.toNumber]
            cases Coerce.numberOfText? text with
            | none => exact Or.inr (Or.inl rfl)
            | some n => exact Or.inl (hfits rfl)
        | _ => exact Or.inr (Or.inl rfl)
    | boolean =>
        rw [htag] at hfits
        cases v with
        | str text =>
            dsimp only [Coerce.toBoolean]
            cases Coerce.truthOfText? text with
            | none => exact Or.inr (Or.inl rfl)
            | some b => exact Or.inl (hfits rfl)
        | num n =>
            dsimp only [Coerce.toBoolean]
            cases Coerce.truthOfText? n.documentText with
            | none => exact Or.inr (Or.inl rfl)
            | some b => exact Or.inl (hfits rfl)
        | _ => exact Or.inr (Or.inl rfl)
    | object | array => exact (toContainer_cases s.view v).imp_right Or.inr

theorem coerce_null (s : Schema) : s.coerce .null = .null := by
  rw [coerce]
  split
  · rfl
  · cases s.tag with
    | object | array => exact ite_self _
    | _ => rfl

/-- What coercion has made it leaves as it is. -/
theorem coerce_coerce (s : Schema) (v : Value) : s.coerce (s.coerce v) = s.coerce v := by
  rcases s.coerce_cases v with htype | hsame | hnull
  · exact if_pos htype
  · rw [hsame, hsame]
  · rw [hnull, s.coerce_null]

end Schema

-- ============================================================================
-- Fields
-- ============================================================================

/-- Whether a schema is worked on as it stands, hands values on as coercion leaves them
    and stays in its object. -/
structure Schema.Steady (s : Schema) : Prop extends s.Direct where
  untransformed : s.traits.transforms = []
  kept : s.isStripped = false

/-- Whether two calls cast alike, apart from the place of the value. -/
structure CallOptions.CastLike (options other : CallOptions) : Prop where
  assertType : other.assertType = options.assertType
  stripUnknown : other.stripUnknown = options.stripUnknown

theorem CallOptions.CastLike.dropsUnknown {options other : CallOptions}
    (h : options.CastLike other) (s : Schema) : other.dropsUnknown s = options.dropsUnknown s := by
  rw [CallOptions.dropsUnknown, CallOptions.dropsUnknown, h.stripUnknown]

namespace Workshop

variable {w : Workshop} {castPart : CastPart} {s element : Schema} {shape : Shape Schema}
  {options other : CallOptions} {n : Nat}

theorem castField_steady (h : s.Steady) (done : Dict Value) (key : String) (raw : Option Value) :
    w.castField castPart false options done key s raw =
      castPart s raw (options.forField done key) := by
  rw [castField, h.resolve]
  simp [bind, Except.bind, h.kept]

/-- Where the value of each key does not depend on the keys before, the cast of an
    object gathers these values. -/
theorem castFields_eq {validating : Bool} {input : Dict Value} {value : String → Option Value}
    (h : ∀ done, ∀ key ∈ shape.order, w.keyValue castPart validating options shape.fields
      (!options.dropsUnknown s) input done key = .ok (value key)) :
    w.castFields castPart validating s shape input options =
      .ok (some (.obj ((Dict.gather value shape.order).merge
        (if !options.dropsUnknown s then extraFields shape input else [])))) := by
  rw [castFields, foldlM_castKey_eq h]
  rfl

theorem extraFields_gather (value : String → Option Value) :
    extraFields shape (Dict.gather value shape.order) = [] := by
  rw [extraFields, List.filter_eq_nil_iff]
  intro e he
  simp [Dict.mem_gather he]

/-- The extra fields of a result are those of the input. -/
theorem extraFields_merge (value : String → Option Value) (input : Dict Value) :
    extraFields shape ((Dict.gather value shape.order).merge (extraFields shape input)) =
      extraFields shape input := by
  refine Dict.filter_merge (fun e he => ?_) fun e he => (List.mem_filter.mp he).2
  simp [Dict.mem_gather he]

/-- A node is cast to what its parts are cast to, if the type of that is accepted. -/
theorem castNode_of_castParts {validating : Bool} {raw result : Option Value} {v : Value}
    (hv : raw.bind (prepare s) = some v)
    (hparts : w.castParts castPart validating s v options = .ok result)
    (haccepts : options.assertType ≠ some false → s.accepts result = true) :
    w.castNode castPart validating s raw options = .ok result := by
  rw [castNode, hv]
  refine bind_eq_ok.mpr ⟨result, hparts, ?_⟩
  show assertType s raw result options = .ok result
  rw [assertType]
  refine if_neg fun hrefused => ?_
  simp only [Bool.and_eq_true, bne_iff_ne, Bool.not_eq_true'] at hrefused
  obtain ⟨⟨-, hon⟩, hnot⟩ := hrefused
  simp [haccepts hon] at hnot

theorem prepare_untransformed (h : s.traits.transforms = []) (v : Value) :
    (some v).bind (prepare s) = some (s.coerce v) := by
  rw [Option.bind_some, prepare, h, List.foldl_nil]

-- ============================================================================
-- Defaults
-- ============================================================================

/-- Whether casts of parts that are not too high leave the defaults of the parts. -/
def CastsDefaults (n : Nat) (castPart : CastPart) : Prop :=
  ∀ {s : Schema} {options : CallOptions}, s.WellMade .all → s.Everywhere Schema.Steady →
    s.height ≤ n → castPart s s.defaultValue options = .ok s.defaultValue

theorem castNode_default (hcast : CastsDefaults n castPart) :
    CastsDefaults (n + 1) (w.castNode castPart false) := by
  intro s options hmade hsteady hheight
  cases hdefault : s.defaultValue with
  | none =>
      rw [castNode, Option.bind_none, hdefault]
      rfl
  | some v =>
      obtain ⟨shape, hkind, rfl⟩ :=
        Schema.defaultValue_cases hsteady.here.undeclared hdefault
      have hshape := hmade.here.shape shape hkind
      have htype := Schema.isType_obj hkind
      refine castNode_of_castParts (prepare_of_isType hsteady.here.untransformed (htype _)) ?_
        fun _ => htype _
      have hvalues (done : Dict Value) (key : String) (hkey : key ∈ shape.order) :
          w.keyValue castPart false options shape.fields (!options.dropsUnknown s)
            (Dict.gather (fun key => (shape.fields.lookup key).bind Schema.defaultValue)
              shape.order) done key =
            .ok ((shape.fields.lookup key).bind Schema.defaultValue) := by
        rw [keyValue, Dict.get?_gather hshape.nodup_order hkey]
        cases hlookup : shape.fields.lookup key with
        | none => exact congrArg Except.ok (ite_self _)
        | some field =>
            have hmem : (key, field) ∈ shape.fields := Dict.mem_of_get? hlookup
            have hlt := (Schema.Nested.field hkind hmem).height_lt
            have hfield := hsteady.field hkind hmem
            dsimp only [Option.bind_some]
            rw [castField_steady hfield.here]
            exact hcast (hmade.field hkind hmem) hfield (by omega)
      rw [castParts_object hkind, castFields_eq hvalues, extraFields_gather, ite_self, Dict.merge,
        List.merge_right]

theorem castWithin_default (w : Workshop) (depth : Nat) :
    CastsDefaults depth (w.castWithin depth) := by
  induction depth with
  | zero =>
      intro s _ _ _ hheight
      have hpos := s.height_pos
      omega
  | succ depth ih => exact castNode_default ih

-- ============================================================================
-- Results
-- ============================================================================

/-- Whether what casts of parts that are not too high have made is cast to itself, and
    no cast of a value gives none. -/
structure Recasts (n : Nat) (castPart : CastPart) : Prop where
  again : ∀ {s : Schema} {raw r : Option Value} {options other : CallOptions},
    s.WellMade .all → s.Everywhere Schema.Steady → s.height ≤ n → options.CastLike other →
    castPart s raw options = .ok r → castPart s r other = .ok r
  kept : ∀ {s : Schema} {raw : Value} {options : CallOptions}, s.Everywhere Schema.Steady →
    castPart s (some raw) options ≠ .ok none

/-- A key is cast to the value that it was cast to before. -/
theorem keyValue_again (hcast : Recasts n castPart) (hmade : s.WellMade .all)
    (hsteady : s.Everywhere Schema.Steady) (hheight : s.height ≤ n + 1)
    (hlike : options.CastLike other) (hkind : s.kind = .object shape) {keepUnknown : Bool}
    {input out done : Dict Value} {key : String}
    (h : w.keyValue castPart false options shape.fields keepUnknown input done key =
      .ok (Dict.get? out key)) (done' : Dict Value) :
    w.keyValue castPart false other shape.fields keepUnknown out done' key =
      .ok (Dict.get? out key) := by
  rw [keyValue] at h ⊢
  cases hlookup : shape.fields.lookup key with
  | none =>
      rw [hlookup] at h
      cases keepUnknown with
      | true => rfl
      | false => exact h
  | some field =>
      have hmem : (key, field) ∈ shape.fields := Dict.mem_of_get? hlookup
      have hlt := (Schema.Nested.field hkind hmem).height_lt
      have hfield := hsteady.field hkind hmem
      rw [hlookup] at h
      dsimp only at h ⊢
      rw [castField_steady hfield.here] at h ⊢
      have hinner : (options.forField done key).CastLike (other.forField done' key) :=
        ⟨hlike.assertType, hlike.stripUnknown⟩
      exact hcast.again (hmade.field hkind hmem) hfield (by omega) hinner h

/-- An object that was cast is cast to itself. -/
theorem castFields_again (hcast : Recasts n castPart) (hmade : s.WellMade .all)
    (hsteady : s.Everywhere Schema.Steady) (hheight : s.height ≤ n + 1)
    (hlike : options.CastLike other) (hkind : s.kind = .object shape) {input out : Dict Value}
    (h : w.castFields castPart false s shape input options = .ok (some (.obj out))) :
    w.castFields castPart false s shape out other = .ok (some (.obj out)) := by
  rw [castFields] at h
  obtain ⟨all, hall, h⟩ := bind_eq_ok.mp h
  have hout : all.merge (if !options.dropsUnknown s then extraFields shape input else []) = out :=
    Value.obj.inj (Option.some.inj (Except.ok.inj h))
  have hshape := hmade.here.shape shape hkind
  obtain ⟨hgather, hvalues⟩ := foldlM_castKey_gathers hshape.nodup_order (fun _ _ => rfl) hall
  have hget (key : String) (hkey : key ∈ shape.order) : Dict.get? out key = Dict.get? all key := by
    rw [← hout]
    refine Dict.get?_merge_of_not_mem ?_
    split
    · exact not_mem_extraFields hkey
    · simp [Dict.keys]
  have hagain (done : Dict Value) (key : String) (hkey : key ∈ shape.order) :
      w.keyValue castPart false other shape.fields (!other.dropsUnknown s) out done key =
        .ok (Dict.get? all key) := by
    obtain ⟨before, hvalue⟩ := hvalues key hkey
    rw [hlike.dropsUnknown s, ← hget key hkey]
    rw [← hget key hkey] at hvalue
    exact keyValue_again hcast hmade hsteady hheight hlike hkind hvalue done
  have hall' : Dict.gather (Dict.get? all) shape.order = all := hgather.symm
  rw [castFields_eq hagain, hlike.dropsUnknown s, hall']
  cases hdrops : options.dropsUnknown s with
  | true => simpa [hdrops] using hout
  | false =>
      have hextra : extraFields shape out = extraFields shape input := by
        rw [← hout, hdrops, ← hall']
        exact extraFields_merge _ input
      rw [hextra]
      simpa [hdrops] using hout

/-- The items of an array that were cast are cast to themselves. -/
theorem castItems_again (hcast : Recasts n castPart) (hmade : element.WellMade .all)
    (hsteady : element.Everywhere Schema.Steady) (hheight : element.height ≤ n)
    (hlike : options.CastLike other) {position : Nat} {items out : List Value}
    (h : w.castItems castPart element options position items = .ok out) :
    w.castItems castPart element other position out = .ok out := by
  induction items generalizing position out with
  | nil =>
      cases h
      rfl
  | cons item rest ih =>
      rw [castItems] at h
      obtain ⟨t, ht, h⟩ := bind_eq_ok.mp h
      obtain ⟨r, hr, h⟩ := bind_eq_ok.mp h
      obtain ⟨others, hothers, h⟩ := bind_eq_ok.mp h
      cases h
      obtain rfl : element = t := hsteady.here.eq_of_resolve ht
      have hinner : (options.forItem position).CastLike (other.forItem position) :=
        ⟨hlike.assertType, hlike.stripUnknown⟩
      cases r with
      | none => exact absurd hr (hcast.kept hsteady)
      | some v =>
          have hv := hcast.again hmade hsteady hheight hinner hr
          rw [Option.getD_some, castItems]
          exact bind_eq_ok.mpr ⟨element, hsteady.here.resolve w _ _,
            bind_eq_ok.mpr ⟨some v, hv, bind_eq_ok.mpr ⟨others, ih hothers, rfl⟩⟩⟩

/-- A value without parts is what coercion made of the input, and is cast to itself. -/
theorem castNode_whole_again {raw : Option Value} {v : Value} (hsteady : s.Steady)
    (hwhole : Whole s v) (hv : raw.bind (prepare s) = some v)
    (haccepts : options.assertType ≠ some false → s.accepts (some v) = true) :
    w.castNode castPart false s (some v) options = .ok (some v) := by
  have huntransformed := hsteady.untransformed
  cases raw with
  | none => exact absurd hv (by simp)
  | some u =>
      rw [prepare_untransformed huntransformed] at hv
      obtain rfl : s.coerce u = v := Option.some.inj hv
      have hagain : (some (s.coerce u)).bind (prepare s) = some (s.coerce u) := by
        rw [prepare_untransformed huntransformed, s.coerce_coerce]
      exact castNode_of_castParts hagain (castParts_whole hwhole) haccepts

/-- Without transforms no cast of a value gives none. -/
theorem castNode_ne_none (hsteady : s.Steady) (raw : Value) :
    w.castNode castPart false s (some raw) options ≠ .ok none := by
  intro h
  obtain ⟨-, ⟨hnone, -⟩ | ⟨v, -, hparts⟩⟩ := castNode_cases h
  · rw [prepare_untransformed hsteady.untransformed] at hnone
    exact absurd hnone (by simp)
  · rcases whole_cases s v with ⟨shape, fields, hkind, rfl⟩ | ⟨element, items, hkind, rfl⟩ | hwhole
    · rw [castParts_object hkind] at hparts
      obtain ⟨out, heq⟩ := castFields_eq_ok hparts
      exact absurd heq (by simp)
    · rw [castParts_array hkind] at hparts
      obtain ⟨out, -, heq⟩ := bind_eq_ok.mp hparts
      exact absurd heq (by simp)
    · rw [castParts_whole hwhole] at hparts
      exact absurd hparts (by simp)

/-- The cast of a node is cast to itself if those of its parts are. -/
theorem castNode_again (hdefaults : CastsDefaults n castPart) (hcast : Recasts n castPart) :
    Recasts (n + 1) (w.castNode castPart false) where
  again := by
    intro s raw r options other hmade hsteady hheight hlike h
    obtain ⟨haccepts, ⟨-, rfl⟩ | ⟨v, hv, hparts⟩⟩ := castNode_cases h
    · exact castNode_default hdefaults hmade hsteady hheight
    · have huntransformed := hsteady.here.untransformed
      rcases whole_cases s v with ⟨shape, fields, hkind, rfl⟩ | ⟨element, items, hkind, rfl⟩ |
        hwhole
      · rw [castParts_object hkind] at hparts
        obtain ⟨out, rfl⟩ := castFields_eq_ok hparts
        have htype : s.isType (.obj out) = true := Schema.isType_obj hkind out
        refine castNode_of_castParts (prepare_of_isType huntransformed htype) ?_ fun _ => htype
        rw [castParts_object hkind]
        exact castFields_again hcast hmade hsteady hheight hlike hkind hparts
      · rw [castParts_array hkind] at hparts
        obtain ⟨out, hitems, heq⟩ := bind_eq_ok.mp hparts
        cases heq
        have htype : s.isType (.arr out) = true := Schema.isType_arr hkind out
        have hlt := (Schema.Nested.element hkind).height_lt
        refine castNode_of_castParts (prepare_of_isType huntransformed htype) ?_ fun _ => htype
        rw [castParts_array hkind]
        exact bind_eq_ok.mpr ⟨out, castItems_again hcast (hmade.element hkind)
          (hsteady.element hkind) (by omega) hlike hitems, rfl⟩
      · rw [castParts_whole hwhole] at hparts
        cases hparts
        have hraw : raw ≠ none := by
          rintro rfl
          exact absurd hv (by simp)
        exact castNode_whole_again hsteady.here hwhole hv
          fun hon => haccepts hraw (hlike.assertType ▸ hon)
  kept hsteady := castNode_ne_none hsteady.here _

theorem castWithin_again (w : Workshop) (depth : Nat) : Recasts depth (w.castWithin depth) := by
  induction depth with
  | zero =>
      constructor
      case again =>
        intro s _ _ _ _ _ _ hheight
        have hpos := s.height_pos
        omega
      case kept => exact fun _ h => absurd h (by simp [castWithin])
  | succ depth ih => exact castNode_again (w.castWithin_default depth) ih

/-- What a cast has made is cast to itself. -/
theorem cast_idempotent (hs : s.Obtained) (hsteady : s.Everywhere Schema.Steady)
    {value r : Option Value} (h : w.cast s value options = .ok r) :
    w.cast s r options = .ok r := by
  rw [cast] at h ⊢
  obtain ⟨t, ht, h⟩ := bind_eq_ok.mp h
  obtain rfl : s = t := hsteady.here.eq_of_resolve ht
  have hagain := w.castWithin_again (depthLimit + s.height + 1)
  exact bind_eq_ok.mpr ⟨s, hsteady.here.resolve w _ _,
    hagain.again hs.wellMade hsteady (by omega) ⟨rfl, rfl⟩ h⟩

/-- An array of places, each with its size. -/
def places : Recipe :=
  .make .array [.element (.make .object [.shape [("size", .plain .number)] []])]

/-- Options that drop unknown keys and leave results of the wrong type. -/
def loose : CallOptions := { CallOptions.none with stripUnknown := some true, assertType := some false }

/-- A size is read and an unknown key dropped; what is no place becomes null, which is
    not of the type and is cast to itself all the same. -/
theorem cast_idempotent_places :
    ∃ s r, initial.build none places = .ok s ∧
      initial.cast s (some (.arr [.obj [("more", .bool true), ("size", .str "7")], .str "x"]))
        loose = .ok r ∧
      r = some (.arr [.obj [("size", .int 7)], .null]) ∧ initial.cast s r loose = .ok r := by
  obtain ⟨s, place, size, hs, hcast, ⟨hkind, hplace, hsize⟩, ⟨hs₀, hs₁, hs₂⟩, ⟨hf₀, hf₁, hf₂⟩,
      ⟨ht₀, ht₁, ht₂⟩, ⟨hp₀, hp₁, hp₂⟩⟩ :
      ∃ s place size, initial.build none places = .ok s ∧
        initial.cast s (some (.arr [.obj [("more", .bool true), ("size", .str "7")], .str "x"]))
          loose = .ok (some (.arr [.obj (Dict.merge [("size", .int 7)] []), .null])) ∧
        (s.kind = .array (.of place) ∧ place.kind = .object ⟨[("size", size)], ["size"], []⟩ ∧
          size.kind = .number) ∧
        (s.conditions = [] ∧ place.conditions = [] ∧ size.conditions = []) ∧
        (s.traits.fallback = none ∧ place.traits.fallback = none ∧ size.traits.fallback = none) ∧
        (s.traits.transforms = [] ∧ place.traits.transforms = [] ∧ size.traits.transforms = []) ∧
        (s.isStripped = false ∧ place.isStripped = false ∧ size.isStripped = false) :=
    ⟨_, _, _, rfl, rfl, ⟨rfl, rfl, rfl⟩, ⟨rfl, rfl, rfl⟩, ⟨rfl, rfl, rfl⟩, ⟨rfl, rfl, rfl⟩,
      ⟨rfl, rfl, rfl⟩⟩
  have hsizeSteady : size.Everywhere Schema.Steady :=
    .of_leaf ⟨⟨by simp [hsize], hs₂, by simp [hf₂]⟩, ht₂, hp₂⟩ hs₂ (by simp [hsize])
      (by simp [hsize])
  have hplaceSteady : place.Everywhere Schema.Steady :=
    .of_fields ⟨⟨by simp [hplace], hs₁, by simp [hf₁]⟩, ht₁, hp₁⟩ hs₁ hplace
      (by simpa using hsizeSteady)
  have hsteady : s.Everywhere Schema.Steady :=
    .of_element ⟨⟨by simp [hkind], hs₀, by simp [hf₀]⟩, ht₀, hp₀⟩ hs₀ hkind hplaceSteady
  exact ⟨s, _, hs, hcast, by simp [Dict.merge],
    cast_idempotent (.built Schema.Obtained.stored_initial hs) hsteady hcast⟩

end Workshop

end Conform
