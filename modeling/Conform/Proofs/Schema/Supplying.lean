/-
  Conform.Proofs.Schema.Supplying

  What a schema supplies where there is no value. A declared default is supplied as it
  is; an object schema without one supplies the object of what its fields supply, at
  every depth. The default of a schema and the cast of an empty object are two
  recursions over the fields, one over the declared schemas and one over the keys that
  an input lacks, and both come to what is supplied.
-/

import Conform.Proofs.Schema.Fitting

namespace Conform

namespace Schema

variable {s : Schema} {shape : Shape Schema} {v : Option Value}

-- ============================================================================
-- Supplied values
-- ============================================================================

/-- What a schema supplies in place of an undefined value: its declared default, or the
    object that holds what its fields supply and nothing else, if it is a schema of
    objects with fields, or else nothing. -/
inductive Supplies : Schema → Option Value → Prop where
  | declared {s : Schema} {v : Option Value} : s.traits.fallback = some v → Supplies s v
  | fields {s : Schema} {shape : Shape Schema} {d : Dict Value} :
      s.traits.fallback = none → s.kind = .object shape → shape.fields ≠ [] → d.Ascending →
      (∀ f ∈ shape.fields, Supplies f.2 (Dict.get? d f.1)) →
      (∀ key, Dict.get? shape.fields key = none → Dict.get? d key = none) →
      Supplies s (some (.obj d))
  | nothing {s : Schema} : s.traits.fallback = none → ¬ s.HasFields → Supplies s none

theorem defaultValue_of_declared (h : s.traits.fallback = some v) : s.defaultValue = v := by
  obtain ⟨kind, conditions, traits⟩ := s
  have hfallback : traits.fallback = some v := h
  rw [defaultValue, hfallback]

/-- The default that the fields of an object schema make. -/
theorem defaultValue_of_fields (hfallback : s.traits.fallback = none)
    (hkind : s.kind = .object shape) (hfields : shape.fields ≠ []) :
    s.defaultValue =
      some (.obj (Dict.gather (fun key => (shape.fields.lookup key).bind defaultValue)
        shape.order)) := by
  obtain ⟨kind, conditions, traits⟩ := s
  have hnone : traits.fallback = none := hfallback
  cases hkind
  rw [defaultValue, hnone]
  dsimp only
  rw [kindDefault_object, List.isEmpty_eq_false_iff.mpr hfields, if_neg (by decide)]

/-- Each declared field has its default in what the order of its shape gathers, and no
    other key is there. -/
theorem get?_gather_defaults (hshape : shape.Ordered) (key : String) :
    (Dict.gather (fun key => (shape.fields.lookup key).bind defaultValue) shape.order).get? key =
      (Dict.get? shape.fields key).bind defaultValue := by
  by_cases hkey : key ∈ shape.order
  · exact Dict.get?_gather hshape.nodup_order hkey
  · have hfield : Dict.get? shape.fields key = none :=
      Dict.get?_eq_none_of_not_mem fun hmem => hkey (hshape.mem_order hmem)
    rw [hfield, Dict.gather, Dict.get?_foldl_supply_of_not_mem hkey]
    rfl

/-- The default is supplied. -/
theorem supplies_defaultValue (hs : s.WellMade .all) : s.Supplies s.defaultValue := by
  induction hs with
  | @intro s hregular hparts ih =>
      cases hfallback : s.traits.fallback with
      | some v =>
          rw [defaultValue_of_declared hfallback]
          exact .declared hfallback
      | none =>
          by_cases hfields : s.HasFields
          · obtain ⟨shape, hkind, hsome⟩ := hfields
            have hshape := hregular.shape shape hkind
            rw [defaultValue_of_fields hfallback hkind hsome]
            refine .fields hfallback hkind hsome (Dict.gather_ascending _ _) (fun f hf => ?_)
              fun key hkey => ?_
            · rw [get?_gather_defaults hshape, Dict.get?_of_mem hshape.keys hf]
              exact ih f.2 (.field hkind hf)
            · rw [get?_gather_defaults hshape, hkey]
              rfl
          · rw [defaultValue_eq_none (by simp [hfallback]) hfields]
            exact .nothing hfallback hfields

/-- Nothing else is supplied. -/
theorem Supplies.eq_defaultValue (h : s.Supplies v) (hs : s.WellMade .all) :
    v = s.defaultValue := by
  induction h with
  | declared hfallback => exact (defaultValue_of_declared hfallback).symm
  | @fields s shape d hfallback hkind hsome hascending _ hothers ih =>
      have hshape := hs.here.shape shape hkind
      rw [defaultValue_of_fields hfallback hkind hsome]
      refine congrArg (fun d => some (Value.obj d))
        (hascending.ext (Dict.gather_ascending _ _) fun key => ?_)
      rw [get?_gather_defaults hshape]
      cases hfield : Dict.get? shape.fields key with
      | none => exact hothers key hfield
      | some field =>
          have hmem : (key, field) ∈ shape.fields := Dict.mem_of_get? hfield
          exact ih (key, field) hmem (hs.field hkind hmem)
  | nothing hfallback hfields => exact (defaultValue_eq_none (by simp [hfallback]) hfields).symm

/-- The default is what is supplied, and all that is. -/
theorem supplies_iff (hs : s.WellMade .all) : s.Supplies v ↔ v = s.defaultValue :=
  ⟨fun h => h.eq_defaultValue hs, fun h => h ▸ supplies_defaultValue hs⟩

-- ============================================================================
-- Casts
-- ============================================================================

/-- Whether a schema supplies the same to every call: it is neither lazy nor conditional,
    has no transforms, stays in its object, and leaves the default of an object to the
    fields. -/
structure Upfront (s : Schema) : Prop extends Fixed s where
  untransformed : s.traits.transforms = []
  kept : s.isStripped = false
  undeclared : ∀ shape, s.kind = .object shape → s.traits.fallback = none

end Schema

namespace Workshop

variable {w : Workshop} {s : Schema} {shape : Shape Schema} {castPart : CastPart}
  {options : CallOptions}

/-- A key that an empty object lacks gets the default of the field that is declared for
    it. -/
theorem keyValue_absent (hcast : ∀ field inner, castPart field none inner = .ok field.defaultValue)
    (hfields : ∀ f ∈ shape.fields, f.2.Upfront) (keepUnknown : Bool) (done : Dict Value)
    (key : String) :
    w.keyValue castPart false options shape.fields keepUnknown [] done key =
      .ok ((shape.fields.lookup key).bind Schema.defaultValue) := by
  rw [keyValue]
  cases hlookup : shape.fields.lookup key with
  | none => exact congrArg Except.ok (ite_self _)
  | some field =>
      have hfield := hfields (key, field) (Dict.mem_of_get? hlookup)
      dsimp only [Option.bind_some]
      rw [castField, hfield.resolve]
      simp [bind, Except.bind, hfield.kept, Dict.get?_nil, hcast]

/-- An empty object is cast to the default that the fields make. -/
theorem castFields_empty (hcast : ∀ field inner, castPart field none inner = .ok field.defaultValue)
    (hfields : ∀ f ∈ shape.fields, f.2.Upfront) :
    w.castFields castPart false s shape [] options =
      .ok (some (.obj (Dict.gather (fun key => (shape.fields.lookup key).bind Schema.defaultValue)
        shape.order))) := by
  rw [castFields_eq fun done key _ => keyValue_absent hcast hfields _ done key]
  have hextra : extraFields shape [] = [] := rfl
  rw [hextra, ite_self, Dict.merge, List.merge_right]

/-- In place of an undefined value a cast gives the default, at any depth that it may go
    down to. -/
theorem castWithin_none {depth : Nat} (hdepth : 0 < depth) (w : Workshop) (s : Schema)
    (options : CallOptions) : w.castWithin depth s none options = .ok s.defaultValue := by
  cases depth with
  | zero => exact absurd hdepth (by decide)
  | succ depth => rfl

/-- The default of an object schema, the cast of an undefined value and the cast of an
    empty object are all the object of what the fields supply, whatever the options are
    and whatever defaults the fields declare. -/
theorem default_agrees_with_casts (hs : s.Obtained) (hupfront : s.Everywhere Schema.Upfront)
    (hfields : s.HasFields) :
    ∃ d, s.Supplies (some (.obj d)) ∧ ∀ (w : Workshop) (options : CallOptions),
      w.getDefault s options = .ok (some (.obj d)) ∧
      w.cast s none options = .ok (some (.obj d)) ∧
      w.cast s (some (.obj [])) options = .ok (some (.obj d)) := by
  obtain ⟨shape, hkind, hsome⟩ := hfields
  have hhere := hupfront.here
  have hdefault := Schema.defaultValue_of_fields (hhere.undeclared shape hkind) hkind hsome
  refine ⟨_, (Schema.supplies_iff hs.wellMade).mpr hdefault.symm, fun w options => ?_⟩
  have hresolve (value : Option Value) := hhere.resolve w value options
  refine ⟨?_, ?_, ?_⟩
  · rw [getDefault, hresolve, ← hdefault]
    rfl
  · rw [cast, hresolve, ← hdefault]
    rfl
  · have hdepth : 0 < depthLimit + s.height := Nat.add_pos_right _ s.height_pos
    have htype := Schema.isType_obj hkind
    rw [cast, hresolve]
    refine castNode_of_castParts (prepare_of_isType hhere.untransformed (htype [])) ?_
      fun _ => htype _
    rw [castParts_object hkind]
    exact castFields_empty (fun field inner => castWithin_none hdepth w field inner)
      fun f hf => (hupfront.field hkind hf).here

/-- A profile whose age and tags declare defaults, and whose place has a default for the
    city only. -/
def profile : Recipe :=
  .make .object [.shape [("age", .make .number [.fallback (some (.int 18))]),
    ("name", .plain .string),
    ("place", .make .object [.shape [("city", .make .string [.fallback (some .null)]),
      ("zip", .plain .string)] []]),
    ("tags", .make .array [.fallback (some (.arr []))])] []]

/-- What a profile supplies. -/
def profileDefaults : Dict Value :=
  [("age", .int 18), ("place", .obj [("city", .null)]), ("tags", .arr [])]

/-- An empty profile is filled in with the defaults of its fields, at both depths, also
    where unknown keys are dropped. -/
theorem default_agrees_with_casts_profile :
    ∃ s, initial.build none profile = .ok s ∧ s.Everywhere Schema.Upfront ∧ s.HasFields ∧
      s.Supplies (some (.obj profileDefaults)) ∧
      initial.cast s none loose = .ok (some (.obj profileDefaults)) ∧
      initial.cast s (some (.obj [])) loose = .ok (some (.obj profileDefaults)) := by
  obtain ⟨s, age, name, place, city, zip, tags, hs, hdefault, ⟨hkind, hplace⟩,
      ⟨hage, hname, hcity, hzip, htags⟩, ⟨hs₀, hs₁, hs₂, hs₃, hs₄, hs₅, hs₆⟩,
      ⟨ht₀, ht₁, ht₂, ht₃, ht₄, ht₅, ht₆⟩, ⟨hp₀, hp₁, hp₂, hp₃, hp₄, hp₅, hp₆⟩, hf₀, hf₃⟩ :
      ∃ s age name place city zip tags, initial.build none profile = .ok s ∧
        initial.getDefault s loose = .ok (some (.obj profileDefaults)) ∧
        (s.kind = .object ⟨[("age", age), ("name", name), ("place", place), ("tags", tags)],
            ["age", "name", "place", "tags"], []⟩ ∧
          place.kind = .object ⟨[("city", city), ("zip", zip)], ["city", "zip"], []⟩) ∧
        (age.kind = .number ∧ name.kind = .string ∧ city.kind = .string ∧ zip.kind = .string ∧
          tags.kind = .array .unset) ∧
        (s.conditions = [] ∧ age.conditions = [] ∧ name.conditions = [] ∧
          place.conditions = [] ∧ city.conditions = [] ∧ zip.conditions = [] ∧
          tags.conditions = []) ∧
        (s.traits.transforms = [] ∧ age.traits.transforms = [] ∧ name.traits.transforms = [] ∧
          place.traits.transforms = [] ∧ city.traits.transforms = [] ∧
          zip.traits.transforms = [] ∧ tags.traits.transforms = []) ∧
        (s.isStripped = false ∧ age.isStripped = false ∧ name.isStripped = false ∧
          place.isStripped = false ∧ city.isStripped = false ∧ zip.isStripped = false ∧
          tags.isStripped = false) ∧
        s.traits.fallback = none ∧ place.traits.fallback = none :=
    ⟨_, _, _, _, _, _, _, rfl, rfl, ⟨rfl, rfl⟩, ⟨rfl, rfl, rfl, rfl, rfl⟩,
      ⟨rfl, rfl, rfl, rfl, rfl, rfl, rfl⟩, ⟨rfl, rfl, rfl, rfl, rfl, rfl, rfl⟩,
      ⟨rfl, rfl, rfl, rfl, rfl, rfl, rfl⟩, rfl, rfl⟩
  have hleaf {t : Schema} (hkind : t.kind = .number ∨ t.kind = .string ∨ t.kind = .array .unset)
      (hconditions : t.conditions = []) (htransforms : t.traits.transforms = [])
      (hkept : t.isStripped = false) : t.Everywhere Schema.Upfront := by
    have hobject : ∀ shape, t.kind ≠ .object shape := by
      rcases hkind with h | h | h <;> simp [h]
    refine .of_leaf ⟨⟨?_, hconditions⟩, htransforms, hkept, fun shape h => absurd h (hobject shape)⟩
      hconditions hobject ?_
    all_goals rcases hkind with h | h | h <;> simp [h]
  have hplaceAll : place.Everywhere Schema.Upfront :=
    .of_fields ⟨⟨by simp [hplace], hs₃⟩, ht₃, hp₃, fun _ _ => hf₃⟩ hs₃ hplace
      (by simpa using ⟨hleaf (.inr (.inl hcity)) hs₄ ht₄ hp₄, hleaf (.inr (.inl hzip)) hs₅ ht₅ hp₅⟩)
  have hupfront : s.Everywhere Schema.Upfront :=
    .of_fields ⟨⟨by simp [hkind], hs₀⟩, ht₀, hp₀, fun _ _ => hf₀⟩ hs₀ hkind
      (by simpa using ⟨hleaf (.inl hage) hs₁ ht₁ hp₁, hleaf (.inr (.inl hname)) hs₂ ht₂ hp₂,
        hplaceAll, hleaf (.inr (.inr htags)) hs₆ ht₆ hp₆⟩)
  have hfields : s.HasFields := ⟨_, hkind, by simp⟩
  obtain ⟨d, hsupplies, hcasts⟩ :=
    default_agrees_with_casts (.built Schema.Obtained.stored_initial hs) hupfront hfields
  obtain ⟨hsame, hnone, hempty⟩ := hcasts initial loose
  cases hdefault.symm.trans hsame
  exact ⟨s, hs, hupfront, hfields, hsupplies, hnone, hempty⟩

end Workshop

end Conform
