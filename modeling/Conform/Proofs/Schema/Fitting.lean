/-
  Conform.Proofs.Schema.Fitting

  Casts leave values that fit. A value that conforms to a schema, with every field
  present that would otherwise get a default, is taken apart and put together again
  with nothing lost, reordered, converted or added: its fields are gathered in the
  order of the shape and its unknown keys taken over, at every depth.
-/

import Conform.Proofs.Ascending
import Conform.Proofs.Schema.Recasting

namespace Conform

namespace Schema

-- ============================================================================
-- Filled values
-- ============================================================================

/-- Whether a schema is of objects with fields. -/
def HasFields (s : Schema) : Prop := ∃ shape, s.kind = .object shape ∧ shape.fields ≠ []

/-- Whether every declared field with fields of its own is present, in every object
    inside a value. -/
inductive Filled : Schema → Value → Prop where
  | intro {s : Schema} {v : Value} :
      (∀ shape fields, s.kind = .object shape → v = .obj fields → ∀ f ∈ shape.fields,
        f.2.HasFields → Dict.get? fields f.1 ≠ none) →
      (∀ shape fields, s.kind = .object shape → v = .obj fields → ∀ f ∈ shape.fields, ∀ part,
        Dict.get? fields f.1 = some part → Filled f.2 part) →
      (∀ element items, s.kind = .array (.of element) → v = .arr items → ∀ item ∈ items,
        Filled element item) →
      Filled s v

namespace Filled

variable {s element : Schema} {shape : Shape Schema} {fields : Dict Value} {items : List Value}
  {f : String × Schema}

theorem present (h : s.Filled (.obj fields)) (hkind : s.kind = .object shape)
    (hf : f ∈ shape.fields) (hfields : f.2.HasFields) : Dict.get? fields f.1 ≠ none := by
  cases h with
  | intro hpresent _ _ => exact hpresent shape fields hkind rfl f hf hfields

theorem field (h : s.Filled (.obj fields)) (hkind : s.kind = .object shape)
    (hf : f ∈ shape.fields) {part : Value} (hpart : Dict.get? fields f.1 = some part) :
    f.2.Filled part := by
  cases h with
  | intro _ hparts _ => exact hparts shape fields hkind rfl f hf part hpart

theorem item (h : s.Filled (.arr items)) (hkind : s.kind = .array (.of element)) {item : Value}
    (hitem : item ∈ items) : element.Filled item := by
  cases h with
  | intro _ _ hitems => exact hitems element items hkind rfl item hitem

theorem of_fields (hkind : s.kind = .object shape)
    (hpresent : ∀ f ∈ shape.fields, f.2.HasFields → Dict.get? fields f.1 ≠ none)
    (hparts : ∀ f ∈ shape.fields, ∀ part, Dict.get? fields f.1 = some part → f.2.Filled part) :
    s.Filled (.obj fields) := by
  refine .intro ?_ ?_ (by simp [hkind])
  all_goals
    intro shape' fields' hkind' heq
    cases hkind.symm.trans hkind'
    cases heq
  · exact hpresent
  · exact hparts

theorem of_items (hkind : s.kind = .array (.of element))
    (h : ∀ item ∈ items, element.Filled item) : s.Filled (.arr items) := by
  refine .intro (by simp [hkind]) (by simp [hkind]) ?_
  intro element' items' hkind' heq
  cases hkind.symm.trans hkind'
  cases heq
  exact h

theorem of_whole {v : Value} (h : Workshop.Whole s v) : s.Filled v :=
  .intro (fun shape fields hkind heq => absurd heq (h.object shape hkind fields))
    (fun shape fields hkind heq => absurd heq (h.object shape hkind fields))
    fun element items hkind heq => absurd heq (h.array element hkind items)

end Filled

/-- Only objects with fields have a default without declaring one. -/
theorem defaultValue_eq_none {s : Schema} (hfallback : ∀ v, s.traits.fallback ≠ some (some v))
    (h : ¬ s.HasFields) : s.defaultValue = none := by
  obtain ⟨kind, conditions, traits⟩ := s
  rw [defaultValue]
  split
  · next u hdeclared =>
      cases u with
      | none => rfl
      | some v => exact absurd hdeclared (hfallback v)
  · cases kind with
    | object shape =>
        have hempty : shape.fields = [] := by
          by_contra hne
          exact h ⟨shape, rfl, hne⟩
        rw [kindDefault_object, hempty]
        rfl
    | _ => rfl

end Schema

-- ============================================================================
-- Casts
-- ============================================================================

namespace Workshop

variable {w : Workshop} {castPart : CastPart} {s element : Schema} {shape : Shape Schema}
  {options : CallOptions} {n : Nat}

/-- Whether casts of parts that are not too high leave values that fit, and give the
    default where there is no value. -/
structure Leaves (n : Nat) (castPart : CastPart) : Prop where
  fitting : ∀ {s : Schema} {v : Value} {options : CallOptions}, s.WellMade .all →
    s.Everywhere Schema.Steady → (s.Everywhere fun node => options.dropsUnknown node = false) →
    s.height ≤ n → v.Ascending → s.Conforms v → s.Filled v →
    castPart s (some v) options = .ok (some v)
  absent : ∀ {s : Schema} {options : CallOptions}, s.height ≤ n →
    castPart s none options = .ok s.defaultValue

/-- A key of an object that fits has the value that it had. -/
theorem keyValue_fitting (hcast : Leaves n castPart) (hmade : s.WellMade .all)
    (hsteady : s.Everywhere Schema.Steady)
    (hkeeps : s.Everywhere fun node => options.dropsUnknown node = false)
    (hheight : s.height ≤ n + 1) (hkind : s.kind = .object shape) {fields : Dict Value}
    (hascending : (Value.obj fields).Ascending) (hconforms : s.Conforms (.obj fields))
    (hfilled : s.Filled (.obj fields)) (done : Dict Value) (key : String) :
    w.keyValue castPart false options shape.fields true fields done key =
      .ok (Dict.get? fields key) := by
  rw [keyValue]
  cases hlookup : shape.fields.lookup key with
  | none => rfl
  | some field =>
      have hmem : (key, field) ∈ shape.fields := Dict.mem_of_get? hlookup
      have hlt := (Schema.Nested.field hkind hmem).height_lt
      have hfield := hsteady.field hkind hmem
      dsimp only
      rw [castField_steady hfield.here]
      cases hpart : Dict.get? fields key with
      | none =>
          have hnot : ¬ field.HasFields := fun h => hfilled.present hkind hmem h hpart
          rw [hcast.absent (by omega), Schema.defaultValue_eq_none hfield.here.undeclared hnot]
      | some part =>
          exact hcast.fitting (hmade.field hkind hmem) hfield (hkeeps.field hkind hmem) (by omega)
            (hascending.field hpart) (hconforms.field hkind hmem hpart)
            (hfilled.field hkind hmem hpart)

/-- An object that fits is gathered and merged to itself. -/
theorem castFields_fitting (hcast : Leaves n castPart) (hmade : s.WellMade .all)
    (hsteady : s.Everywhere Schema.Steady)
    (hkeeps : s.Everywhere fun node => options.dropsUnknown node = false)
    (hheight : s.height ≤ n + 1) (hkind : s.kind = .object shape) {fields : Dict Value}
    (hascending : (Value.obj fields).Ascending) (hconforms : s.Conforms (.obj fields))
    (hfilled : s.Filled (.obj fields)) :
    w.castFields castPart false s shape fields options = .ok (some (.obj fields)) := by
  have hkeepsHere : options.dropsUnknown s = false := hkeeps.here
  have hvalues (done : Dict Value) (key : String) (_ : key ∈ shape.order) :
      w.keyValue castPart false options shape.fields (!options.dropsUnknown s) fields done key =
        .ok (Dict.get? fields key) := by
    rw [hkeepsHere]
    exact keyValue_fitting hcast hmade hsteady hkeeps hheight hkind hascending hconforms hfilled
      done key
  have hgather := Dict.gather_merge_filter (hmade.here.shape shape hkind).nodup_order
    hascending.fields
  rw [castFields_eq hvalues, hkeepsHere]
  exact congrArg (fun all => Except.ok (some (Value.obj all))) hgather

/-- Items that fit are cast to themselves. -/
theorem castItems_fitting (hcast : Leaves n castPart) (hmade : element.WellMade .all)
    (hsteady : element.Everywhere Schema.Steady)
    (hkeeps : element.Everywhere fun node => options.dropsUnknown node = false)
    (hheight : element.height ≤ n) {position : Nat} {items : List Value}
    (hitems : ∀ item ∈ items, item.Ascending ∧ element.Conforms item ∧ element.Filled item) :
    w.castItems castPart element options position items = .ok items := by
  induction items generalizing position with
  | nil => rfl
  | cons item rest ih =>
      obtain ⟨⟨hascending, hconforms, hfilled⟩, hrest⟩ := List.forall_mem_cons.mp hitems
      have hitem : castPart element (some item) (options.forItem position) = .ok (some item) :=
        hcast.fitting hmade hsteady hkeeps hheight hascending hconforms hfilled
      rw [castItems]
      exact bind_eq_ok.mpr ⟨element, hsteady.here.resolve w _ _,
        bind_eq_ok.mpr ⟨some item, hitem, bind_eq_ok.mpr ⟨rest, ih hrest, rfl⟩⟩⟩

/-- The parts of a value that fits are cast to the value. -/
theorem castParts_fitting (hcast : Leaves n castPart) (hmade : s.WellMade .all)
    (hsteady : s.Everywhere Schema.Steady)
    (hkeeps : s.Everywhere fun node => options.dropsUnknown node = false)
    (hheight : s.height ≤ n + 1) {v : Value} (hascending : v.Ascending)
    (hconforms : s.Conforms v) (hfilled : s.Filled v) :
    w.castParts castPart false s v options = .ok (some v) := by
  rcases whole_cases s v with ⟨shape, fields, hkind, rfl⟩ | ⟨element, items, hkind, rfl⟩ | hwhole
  · rw [castParts_object hkind]
    exact castFields_fitting hcast hmade hsteady hkeeps hheight hkind hascending hconforms hfilled
  · have hlt := (Schema.Nested.element hkind).height_lt
    have hitems : ∀ item ∈ items, item.Ascending ∧ element.Conforms item ∧ element.Filled item :=
      fun item hitem =>
        ⟨hascending.item hitem, hconforms.item hkind hitem, hfilled.item hkind hitem⟩
    rw [castParts_array hkind, castItems_fitting hcast (hmade.element hkind)
      (hsteady.element hkind) (hkeeps.element hkind) (by omega) hitems]
    rfl
  · exact castParts_whole hwhole

theorem castNode_leaves (hcast : Leaves n castPart) :
    Leaves (n + 1) (w.castNode castPart false) where
  fitting hmade hsteady hkeeps hheight hascending hconforms hfilled :=
    castNode_of_castParts (prepare_of_isType hsteady.here.untransformed hconforms.isType)
      (castParts_fitting hcast hmade hsteady hkeeps hheight hascending hconforms hfilled)
      fun _ => hconforms.isType
  absent _ := rfl

theorem castWithin_leaves (w : Workshop) (depth : Nat) : Leaves depth (w.castWithin depth) := by
  induction depth with
  | zero =>
      constructor
      all_goals
        intro s
        have hpos := s.height_pos
        intros
        omega
  | succ depth ih => exact castNode_leaves ih

/-- A cast leaves a value that conforms to its schema as it is, if no field that is
    absent has a default and unknown keys are kept. -/
theorem cast_fitting (hs : s.Obtained) (hsteady : s.Everywhere Schema.Steady)
    (hkeeps : s.Everywhere fun node => options.dropsUnknown node = false) {v : Value}
    (hascending : v.Ascending) (hconforms : s.Conforms v) (hfilled : s.Filled v) :
    w.cast s (some v) options = .ok (some v) := by
  rw [cast]
  have hleaves := w.castWithin_leaves (depthLimit + s.height + 1)
  exact bind_eq_ok.mpr ⟨s, hsteady.here.resolve w _ _,
    hleaves.fitting hs.wellMade hsteady hkeeps (by omega) hascending hconforms hfilled⟩

/-- A place with a city, and tags that may be null. -/
def taggedPlace : Recipe :=
  .make .object [.shape [("place", .make .object [.shape [("city", .plain .string)] []]),
    ("tags", .make .array [.element (.make .string [.nullable true])])] []]

/-- The fields of a tagged place, with unknown keys outside and inside the place. -/
def taggedFields : Dict Value :=
  [("more", .bool true), ("place", .obj [("city", .str "7"), ("zip", .int 7)]),
    ("tags", .arr [.str "true", .null])]

/-- A tagged place is left as it is: no text is read as a number, null stays among the
    tags and the unknown keys stay where they were. -/
theorem cast_fitting_tagged :
    ∃ s, initial.build none taggedPlace = .ok s ∧
      (Value.obj taggedFields).Ascending ∧ s.Conforms (.obj taggedFields) ∧
      s.Filled (.obj taggedFields) ∧
      initial.cast s (some (.obj taggedFields)) .none = .ok (some (.obj taggedFields)) := by
  obtain ⟨s, place, city, tags, tag, hs, ⟨hkind, hplace, hcity, htags, htag⟩,
      ⟨hs₀, hs₁, hs₂, hs₃, hs₄⟩, ⟨hf₀, hf₁, hf₂, hf₃, hf₄⟩, ⟨ht₀, ht₁, ht₂, ht₃, ht₄⟩,
      ⟨hp₀, hp₁, hp₂, hp₃, hp₄⟩, ⟨hk₀, hk₁, hk₂, hk₃, hk₄⟩, hnullable⟩ :
      ∃ s place city tags tag, initial.build none taggedPlace = .ok s ∧
        (s.kind = .object ⟨[("place", place), ("tags", tags)], ["place", "tags"], []⟩ ∧
          place.kind = .object ⟨[("city", city)], ["city"], []⟩ ∧ city.kind = .string ∧
          tags.kind = .array (.of tag) ∧ tag.kind = .string) ∧
        (s.conditions = [] ∧ place.conditions = [] ∧ city.conditions = [] ∧
          tags.conditions = [] ∧ tag.conditions = []) ∧
        (s.traits.fallback = none ∧ place.traits.fallback = none ∧ city.traits.fallback = none ∧
          tags.traits.fallback = none ∧ tag.traits.fallback = none) ∧
        (s.traits.transforms = [] ∧ place.traits.transforms = [] ∧
          city.traits.transforms = [] ∧ tags.traits.transforms = [] ∧
          tag.traits.transforms = []) ∧
        (s.isStripped = false ∧ place.isStripped = false ∧ city.isStripped = false ∧
          tags.isStripped = false ∧ tag.isStripped = false) ∧
        (CallOptions.none.dropsUnknown s = false ∧ CallOptions.none.dropsUnknown place = false ∧
          CallOptions.none.dropsUnknown city = false ∧
          CallOptions.none.dropsUnknown tags = false ∧
          CallOptions.none.dropsUnknown tag = false) ∧
        tag.isType .null = true :=
    ⟨_, _, _, _, _, rfl, ⟨rfl, rfl, rfl, rfl, rfl⟩, ⟨rfl, rfl, rfl, rfl, rfl⟩,
      ⟨rfl, rfl, rfl, rfl, rfl⟩, ⟨rfl, rfl, rfl, rfl, rfl⟩, ⟨rfl, rfl, rfl, rfl, rfl⟩,
      ⟨rfl, rfl, rfl, rfl, rfl⟩, rfl⟩
  have heverywhere {N : Schema → Prop} (h : N s ∧ N place ∧ N city ∧ N tags ∧ N tag) :
      s.Everywhere N := by
    obtain ⟨hs, hp, hc, ht, hi⟩ := h
    have hcityAll : city.Everywhere N := .of_leaf hc hs₂ (by simp [hcity]) (by simp [hcity])
    have htagAll : tag.Everywhere N := .of_leaf hi hs₄ (by simp [htag]) (by simp [htag])
    refine .of_fields hs hs₀ hkind (List.forall_mem_cons.mpr ⟨?_, List.forall_mem_singleton.mpr ?_⟩)
    · exact .of_fields hp hs₁ hplace (List.forall_mem_singleton.mpr hcityAll)
    · exact .of_element ht hs₃ htags htagAll
  have hsteady : s.Everywhere Schema.Steady := heverywhere
    ⟨⟨⟨by simp [hkind], hs₀, by simp [hf₀]⟩, ht₀, hp₀⟩,
      ⟨⟨by simp [hplace], hs₁, by simp [hf₁]⟩, ht₁, hp₁⟩,
      ⟨⟨by simp [hcity], hs₂, by simp [hf₂]⟩, ht₂, hp₂⟩,
      ⟨⟨by simp [htags], hs₃, by simp [hf₃]⟩, ht₃, hp₃⟩,
      ⟨⟨by simp [htag], hs₄, by simp [hf₄]⟩, ht₄, hp₄⟩⟩
  have hkeeps : s.Everywhere fun node => CallOptions.none.dropsUnknown node = false :=
    heverywhere ⟨hk₀, hk₁, hk₂, hk₃, hk₄⟩
  have hascending : (Value.obj taggedFields).Ascending := by
    refine .obj (Dict.ascending_iff_keys.mpr (by decide)) (List.forall_mem_cons.mpr ⟨.bool _, ?_⟩)
    refine List.forall_mem_cons.mpr ⟨.obj (Dict.ascending_iff_keys.mpr (by decide)) ?_,
      List.forall_mem_singleton.mpr (.arr ?_)⟩
    · simpa using ⟨.str _, .num _⟩
    · simpa using ⟨.str _, .null⟩
  have hcityWhole (v : Value) : Whole city v := ⟨by simp [hcity], by simp [hcity]⟩
  have htagWhole (v : Value) : Whole tag v := ⟨by simp [htag], by simp [htag]⟩
  have htext {t : Schema} (ht : t.kind = .string) (text : String) :
      t.isType (.str text) = true := by
    simp [Schema.isType, NodeView.isType, Schema.view, Schema.tag, ht, Kind.tag, KindTag.fits,
      Value.type]
  have hconforms : s.Conforms (.obj taggedFields) := by
    refine .of_fields hkind (List.forall_mem_cons.mpr ⟨?_, List.forall_mem_singleton.mpr ?_⟩)
    · rintro part ⟨⟩
      refine .of_fields hplace (List.forall_mem_singleton.mpr ?_)
      rintro part ⟨⟩
      exact .of_whole (hcityWhole _) (htext hcity _)
    · rintro part ⟨⟩
      exact .of_items htags (List.forall_mem_cons.mpr
        ⟨.of_whole (htagWhole _) (htext htag _),
          List.forall_mem_singleton.mpr (.of_whole (htagWhole _) hnullable)⟩)
  have hfilled : s.Filled (.obj taggedFields) := by
    refine .of_fields hkind ?_ (List.forall_mem_cons.mpr ⟨?_, List.forall_mem_singleton.mpr ?_⟩)
    · simp [taggedFields, Dict.get?]
    · rintro part ⟨⟩
      exact .of_fields hplace (by simp [Dict.get?])
        (List.forall_mem_singleton.mpr fun part _ => .of_whole (hcityWhole part))
    · rintro part ⟨⟩
      exact .of_items htags fun item _ => .of_whole (htagWhole item)
  exact ⟨s, hs, hascending, hconforms, hfilled,
    cast_fitting (.built Schema.Obtained.stored_initial hs) hsteady hkeeps hascending hconforms
      hfilled⟩

end Workshop

end Conform
