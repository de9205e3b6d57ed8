/-
  Conform.Proofs.Schema.FieldMark

  Strip marks. Objects whose fields differ in their strip marks alone have the same keys
  in the same order, the same types and the same defaults: only casts look at a mark.
-/

import Conform.Proofs.Schema.Recasting

namespace Conform

-- ============================================================================
-- Marks
-- ============================================================================

namespace Schema

/-- The same schema with another strip mark, or with none. -/
def withStrip (s : Schema) (mark : Option Bool) : Schema :=
  s.mapTraits fun t => { t with strip := mark }

theorem withStrip_self (s : Schema) : s.withStrip s.traits.strip = s := by
  obtain ⟨kind, conditions, traits⟩ := s
  rfl

theorem height_withStrip (s : Schema) (mark : Option Bool) :
    (s.withStrip mark).height = s.height := by
  obtain ⟨kind, conditions, traits⟩ := s
  rw [withStrip, mapTraits, height, height]

end Schema

namespace Shape

/-- The shape with another strip mark on the schema of a field. -/
def mark (shape : Shape Schema) (key : String) (mark : Option Bool) : Shape Schema :=
  { shape with
    fields := shape.fields.map fun f => (f.1, if f.1 = key then f.2.withStrip mark else f.2) }

variable {shape : Shape Schema} {key other : String} {f : Schema}

theorem lookup_map_fields (fields : List (String × Schema)) (g : String → Schema → Schema)
    (key : String) :
    (fields.map fun f => (f.1, g f.1 f.2)).lookup key = (fields.lookup key).map (g key) := by
  induction fields with
  | nil => rfl
  | cons first rest ih =>
      rw [List.map_cons, List.lookup_cons, List.lookup_cons, ih]
      by_cases heq : key = first.1
      · simp [heq]
      · rw [beq_eq_false_iff_ne.mpr heq]

theorem lookup_mark (shape : Shape Schema) (key other : String) (mark : Option Bool) :
    (shape.mark key mark).fields.lookup other =
      (shape.fields.lookup other).map fun f => if other = key then f.withStrip mark else f :=
  lookup_map_fields shape.fields (fun k f => if k = key then f.withStrip mark else f) other

theorem lookup_mark_self (h : shape.fields.lookup key = some f) (mark : Option Bool) :
    (shape.mark key mark).fields.lookup key = some (f.withStrip mark) := by
  rw [lookup_mark, h, Option.map_some, if_pos rfl]

theorem lookup_mark_of_ne (h : other ≠ key) (mark : Option Bool) :
    (shape.mark key mark).fields.lookup other = shape.fields.lookup other := by
  rw [lookup_mark]
  simp [h]

theorem keys_mark (shape : Shape Schema) (key : String) (mark : Option Bool) :
    (shape.mark key mark).fields.map Prod.fst = shape.fields.map Prod.fst := by
  rw [Shape.mark, List.map_map]
  rfl

theorem fieldsHeight_mark (shape : Shape Schema) (key : String) (mark : Option Bool) :
    Schema.fieldsHeight (shape.mark key mark).fields = Schema.fieldsHeight shape.fields := by
  obtain ⟨fields, order, excluded⟩ := shape
  show Schema.fieldsHeight (fields.map _) = Schema.fieldsHeight fields
  induction fields with
  | nil => rfl
  | cons first rest ih =>
      rw [List.map_cons, Schema.fieldsHeight, Schema.fieldsHeight, ih]
      split
      · rw [Schema.height_withStrip]
      · rfl

/-- The order of a shape does not depend on the strip marks. -/
theorem ordered_of_mark {mark : Option Bool} (h : (shape.mark key mark).Ordered) :
    shape.Ordered where
  keys := by
    have hkeys : ((shape.mark key mark).fields.map Prod.fst).Nodup := h.keys
    rwa [keys_mark] at hkeys
  sorted := by
    have hgraph : Shape.graph (shape.mark key mark).fields shape.excluded =
        Shape.graph shape.fields shape.excluded := by
      rw [Shape.graph, Shape.graph, Shape.mark, List.map_map]
      refine congrArg (DependencyGraph.ofFields · shape.excluded)
        (List.map_congr_left fun g _ => ?_)
      dsimp only [Function.comp]
      split <;> rfl
    have hsorted : Shape.sorted (shape.mark key mark).fields shape.excluded =
        .ok (shape.mark key mark) := h.sorted
    rw [Shape.sorted, hgraph] at hsorted
    rw [Shape.sorted]
    cases horder : (Shape.graph shape.fields shape.excluded).order with
    | error node =>
        rw [horder] at hsorted
        exact absurd hsorted (by simp)
    | ok order =>
        rw [horder] at hsorted
        have heq : order = shape.order := congrArg Shape.order (Except.ok.inj hsorted)
        rw [heq]

end Shape

namespace Schema

variable {t : Schema} {shape : Shape Schema}

/-- The object schema with another strip mark on the schema of a field. -/
def markField (t : Schema) (shape : Shape Schema) (key : String) (mark : Option Bool) : Schema :=
  t.setKind (.object (shape.mark key mark))

theorem view_markField (hkind : t.kind = .object shape) (key : String) (mark : Option Bool) :
    (t.markField shape key mark).view = t.view := by
  obtain ⟨kind, conditions, traits⟩ := t
  cases hkind
  simp only [view, markField, setKind, tag, fields?, Kind.tag, Option.getD_some, Shape.keys_mark]

theorem height_markField (hkind : t.kind = .object shape) (key : String) (mark : Option Bool) :
    (t.markField shape key mark).height = t.height := by
  obtain ⟨kind, conditions, traits⟩ := t
  cases hkind
  have hfields := shape.fieldsHeight_mark key mark
  obtain ⟨fields, order, excluded⟩ := shape
  rw [markField, setKind, height, height, kindHeight.eq_def]
  dsimp only [Shape.mark] at hfields ⊢
  rw [hfields]
  rfl

theorem isType_markField (hkind : t.kind = .object shape) (key : String) (mark : Option Bool) :
    (t.markField shape key mark).isType = t.isType := by
  funext v
  rw [isType, isType, view_markField hkind]

theorem prepare_markField (hkind : t.kind = .object shape) (key : String) (mark : Option Bool) :
    Workshop.prepare (t.markField shape key mark) = Workshop.prepare t := by
  have htag : (t.markField shape key mark).tag = t.tag := by
    rw [tag, tag, hkind]
    rfl
  funext v
  rw [Workshop.prepare, Workshop.prepare, coerce, coerce, isType_markField hkind,
    view_markField hkind, htag]
  rfl

theorem defaultValue_withStrip (s : Schema) (mark : Option Bool) :
    (s.withStrip mark).defaultValue = s.defaultValue := by
  obtain ⟨kind, conditions, traits⟩ := s
  rw [withStrip, mapTraits, defaultValue, defaultValue]

/-- A default does not depend on the strip marks of the fields. -/
theorem defaultValue_markField (hkind : t.kind = .object shape) (key : String)
    (mark : Option Bool) : (t.markField shape key mark).defaultValue = t.defaultValue := by
  obtain ⟨kind, conditions, traits⟩ := t
  cases hkind
  have hfields : (shape.mark key mark).fields.isEmpty = shape.fields.isEmpty := by
    rw [Shape.mark, List.isEmpty_map]
  have hvalues : (fun k => ((shape.mark key mark).fields.lookup k).bind defaultValue) =
      fun k => (shape.fields.lookup k).bind defaultValue := by
    funext k
    rw [Shape.lookup_mark]
    cases shape.fields.lookup k with
    | none => rfl
    | some f =>
        rw [Option.map_some, Option.bind_some, Option.bind_some]
        split
        · exact f.defaultValue_withStrip mark
        · rfl
  rw [markField, setKind, defaultValue, defaultValue, kindDefault_object, kindDefault_object,
    hfields, hvalues]
  rfl

end Schema

end Conform
