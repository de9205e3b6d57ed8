/-
  Conform.Proofs.Validation.FieldConditions

  What the conditions of a field look at. While the field is cast, its sibling
  references read the fields of the object that are done; while it is validated they
  read the finished object. The order of the shape puts a field behind the names that
  its references start with, and a field that is done does not change any more, so
  both read the same.
-/

import Conform.Proofs.Schema.Obtained
import Conform.Proofs.Validation.ItemConditions
import Conform.Proofs.Validation.StrictFields

namespace Conform

-- ============================================================================
-- First steps
-- ============================================================================

/-- What a path finds in an object is decided by the field of its first step. -/
theorem Path.get?_obj_congr {a b : Dict Value} {first : Segment} (rest : List Segment)
    (h : Dict.get? a first.asKey = Dict.get? b first.asKey) :
    Path.get? (.obj a) (first :: rest) = Path.get? (.obj b) (first :: rest) := by
  have hstep : first.step (.obj a) = first.step (.obj b) := by
    rw [Segment.step, Segment.step, h]
  cases rest with
  | nil => rw [Path.get?, Path.get?, follow, follow, hstep]
  | cons next rest => rw [Path.get?, Path.get?, follow, follow, hstep]

namespace Reference

variable {r : Reference} {dep : String}

/-- The key of the first step of a reference. The enclosing value itself takes none. -/
def firstStep? (r : Reference) : Option String := r.steps.head?.map Segment.asKey

/-- A reference by key starts with the first step of its path. -/
theorem firstStep?_withPrefix (key contextPrefix : String) :
    (withPrefix key contextPrefix).firstStep? =
      Path.firstKey? (withPrefix key contextPrefix).path := by
  rw [firstStep?, steps]
  split
  · next hself =>
      have hkey : trimText key = "." := eq_of_beq hself
      -- what is left of a point behind any prefix has no steps
      have hpoint : ∀ n, Path.firstKey? (String.ofList (List.drop n ['.'])) = none := by
        intro n
        cases n with
        | zero => rfl
        | succ n =>
            rw [List.drop_succ_cons, List.drop_nil]
            rfl
      simp only [withPrefix, hkey]
      generalize (if contextPrefix.isEmpty = true then defaultPrefix else contextPrefix) = p
      split
      · exact (hpoint p.length).symm
      · exact (hpoint 0).symm
  · rfl

theorem firstKey?_of_firstStep? (h : r.firstStep? = some dep) :
    Path.firstKey? r.path = some dep := by
  rw [firstStep?, steps] at h
  split at h
  · exact absurd h (by simp)
  · exact h

/-- A sibling reference has the same value in two objects that have the same field at
    its first step. -/
theorem value_congr (hsibling : r.isContext = false) (hfirst : r.firstStep? = some dep)
    {a b : Dict Value} (h : Dict.get? a dep = Dict.get? b dep) (context : Option Value) :
    r.value (some (.obj a)) context = r.value (some (.obj b)) context := by
  rw [firstStep?] at hfirst
  obtain ⟨first, hhead, rfl⟩ := Option.map_eq_some_iff.mp hfirst
  obtain ⟨rest, hsteps⟩ := List.head?_eq_some_iff.mp hhead
  rw [value_sibling hsibling, value_sibling hsibling, hsteps, Path.get?_obj_congr rest h]

end Reference

/-- A sibling reference of a condition makes the schema depend on its first step. -/
theorem Schema.Regular.dependsOn {C : RecipeClass} {s : Schema} (hs : s.Regular C)
    {c : Condition Schema} (hc : c ∈ s.conditions) {r : Reference} (hr : r ∈ c.refs)
    (hsibling : r.isContext = false) {dep : String} (hfirst : r.firstStep? = some dep) :
    s.DependsOn dep :=
  ⟨r, hs.deps c hc r hr hsibling, hsibling, Reference.firstKey?_of_firstStep? hfirst⟩

/-- Whether the order puts a field behind the first step of a reference: there is one,
    and its pair with the field is not excluded. -/
def Shape.Follows (shape : Shape Schema) (key : String) (r : Reference) : Prop :=
  ∃ dep, r.firstStep? = some dep ∧ (key, dep) ∉ shape.excluded

/-- Whether a field follows all sibling references of a condition. -/
def Shape.FollowsAll (shape : Shape Schema) (key : String) (c : Condition Schema) : Prop :=
  ∀ r ∈ c.refs, r.isContext = false → shape.Follows key r

-- ============================================================================
-- Objects in the making
-- ============================================================================

/-- The part of a declared field. -/
theorem Node.Hands.eq_fieldPart {n : Node} {shape : Shape Schema} {out : Dict Value}
    {key : String} {field : Schema} {p : Part} (h : n.Hands (.field key) p)
    (hshape : shape.Ordered) (hkind : n.schema.kind = .object shape)
    (hvalue : n.value = some (.obj out)) (hfield : shape.fields.lookup key = some field) :
    p = n.fieldPart out (key, field) := by
  cases h with
  | @field shape' fields f _ hkind' hvalue' hf =>
      cases hkind.symm.trans hkind'
      cases hvalue.symm.trans hvalue'
      have hlookup : shape.fields.lookup f.1 = some f.2 := Dict.get?_of_mem hshape.keys hf
      cases hfield.symm.trans hlookup
      rfl

namespace Workshop

variable {w : Workshop} {castPart : CastPart} {validating : Bool} {options : CallOptions}
  {s field : Schema} {shape : Shape Schema} {key : String} {input done out : Dict Value}

/-- A sibling reference that the field follows has the same value in what is done when
    the field is cast as in the finished object. -/
theorem value_done (hs : s.Regular .all) (hfieldRegular : field.Regular .all)
    (hkind : s.kind = .object shape) (hfield : shape.fields.lookup key = some field)
    (hdone : (shape.order.takeWhile (· != key)).foldlM
      (w.castKey castPart validating options shape.fields (!options.dropsUnknown s) input) [] =
        .ok done)
    (hcast : w.castFields castPart validating s shape input options = .ok (some (.obj out)))
    {c : Condition Schema} (hc : c ∈ field.conditions) {r : Reference} (hr : r ∈ c.refs)
    (hsibling : r.isContext = false) (hfollows : shape.Follows key r) (context : Option Value) :
    r.value (some (.obj done)) context = r.value (some (.obj out)) context := by
  have hshape : shape.Ordered := hs.shape shape hkind
  have hmem : (key, field) ∈ shape.fields := Dict.mem_of_get? hfield
  obtain ⟨before, rest, horder, hbefore, -⟩ := hshape.split_order
    (List.mem_map_of_mem (f := Prod.fst) hmem)
  obtain ⟨dep, hfirst, hexcluded⟩ := hfollows
  have hdepends : field.DependsOn dep := hfieldRegular.dependsOn hc hr hsibling hfirst
  have hdep : dep ∈ before := hshape.mem_before hmem hdepends hexcluded horder
  have hlater : dep ∉ key :: rest := by
    have hnodup := hshape.nodup_order
    rw [horder] at hnodup
    exact fun hmem => (List.nodup_append.mp hnodup).2.2 dep hdep dep hmem rfl
  rw [horder, takeWhile_append_cons hbefore] at hdone
  exact Reference.value_congr hsibling hfirst (castFields_frame horder hdone hcast hdep hlater).symm
    context

/-- The schema that a part is resolved to is obtained if the schema of the part is. -/
theorem enter_obtained {p : Part} {n : Node}
    (hstored : ∀ name t, Dict.get? w.schemas name = some t → t.Obtained)
    (hp : p.schema.Obtained) (h : w.enter p = .ok n) : n.schema.Obtained :=
  .resolved hstored hp (enter_eq_ok h).1

/-- A field is cast behind the fields done before it. A sibling reference of its
    conditions that the field follows has the same value in what is done then as in the
    finished object, which the following validation hands to the conditions. So where
    all sibling references are such, the conditions look at the same values in both
    stages, and the field has the same schema in both unless it is lazy. -/
theorem field_conditions_read_final (hs : s.Obtained) (hkind : s.kind = .object shape)
    (hcast : w.castFields castPart validating s shape input options = .ok (some (.obj out)))
    (hfield : shape.fields.lookup key = some field) :
    ∃ done value, (shape.order.takeWhile (· != key)).foldlM
        (w.castKey castPart validating options shape.fields (!options.dropsUnknown s) input) [] =
          .ok done ∧
      w.castField castPart validating options done key field (Dict.get? input key) = .ok value ∧
      Dict.get? out key = value ∧
      (∀ c ∈ field.conditions, ∀ r ∈ c.refs, r.isContext = false → shape.Follows key r →
        r.value (some (.obj done)) options.context = r.value (some (.obj out)) options.context) ∧
      ∀ (n : Node) (p : Part), n.schema = s → n.value = some (.obj out) →
        n.options.context = options.context → n.Hands (.field key) p →
        p.schema = field ∧ p.value = value ∧ p.options.parent = some (.obj out) ∧
          p.options.context = options.context ∧
          (∀ c ∈ field.conditions, shape.FollowsAll key c →
            c.Agrees (options.forField done key) p.options) ∧
          ((∀ pick, field.kind ≠ .lazy pick) → (∀ c ∈ field.conditions, shape.FollowsAll key c) →
            w.resolve p.schema p.value p.options =
              w.resolve field (Dict.get? input key) (options.forField done key)) := by
  have hnode := hs.wellMade.here
  have hfieldNode := (hs.wellMade.field hkind (Dict.mem_of_get? hfield)).here
  have hshape := hnode.shape shape hkind
  obtain ⟨done, value, hdone, hvalue, hget⟩ := castFields_field hshape hfield hcast
  have hsame : ∀ c ∈ field.conditions, ∀ r ∈ c.refs, r.isContext = false → shape.Follows key r →
      r.value (some (.obj done)) options.context = r.value (some (.obj out)) options.context :=
    fun c hc r hr hsibling hfollows =>
      value_done hnode hfieldNode hkind hfield hdone hcast hc hr hsibling hfollows _
  refine ⟨done, value, hdone, hvalue, hget, hsame, ?_⟩
  rintro n p rfl hout hcontext hp
  have hpart := hp.eq_fieldPart hshape hkind hout hfield
  subst hpart
  have hagrees : ∀ c ∈ field.conditions, shape.FollowsAll key c →
      c.Agrees (options.forField done key) (n.fieldPart out (key, field)).options := by
    intro c hc hfollows
    have hvalues : c.values (some (.obj done)) options.context =
        c.values (some (.obj out)) n.options.context := by
      rw [hcontext, Condition.values_eq_iff]
      intro r hr hsibling
      rw [← Reference.value_sibling hsibling _ options.context,
        ← Reference.value_sibling hsibling _ options.context]
      exact hsame c hc r hr hsibling (hfollows r hr hsibling)
    exact hvalues
  refine ⟨rfl, hget, rfl, hcontext, hagrees, fun hlazy hfollows => ?_⟩
  exact resolve_congr hlazy fun c hc => (hagrees c hc (hfollows c hc)).symm

/-- A field that reads a number declared behind it and an unknown key. -/
def readingBehind : Recipe :=
  .make .object [.shape [("a", Shape.reading ["c.x", "b"]), ("b", .plain .number)] []]

/-- The unknown key and the number are done when the field is cast, and its condition
    sees the number that was made of a text, as it does while the field is validated. -/
theorem field_conditions_read_number :
    ∃ s n p c done, initial.build none readingBehind = .ok s ∧
      initial.enter (root s (some (.obj [("a", .str "t"), ("b", .str "5"),
        ("c", .obj [("x", .null)])])) .none) = .ok n ∧
      done = [("b", .num (.int 5)), ("c", .obj [("x", .null)])] ∧
      n.Hands (.field "a") p ∧ p.schema.conditions = [c] ∧
      c.values (some (.obj done)) none = [some .null, some (.num (.int 5))] ∧
      c.Agrees ((castOptions .none).forField done "a") p.options := by
  obtain ⟨s, n, a, b, c, hs, henter, hkind, hstrict, hrecursive, hcontext, hprepare, hconditions,
    hrefs, hdone⟩ :
      ∃ s n a b c, initial.build none readingBehind = .ok s ∧
        initial.enter (root s (some (.obj [("a", .str "t"), ("b", .str "5"),
          ("c", .obj [("x", .null)])])) .none) = .ok n ∧
        n.schema.kind = .object ⟨[("a", a), ("b", b)], ["c", "b", "a"], []⟩ ∧
        n.mode.strict = false ∧ n.mode.recursive = true ∧ n.options.context = none ∧
        (some (.obj [("a", .str "t"), ("b", .str "5"), ("c", .obj [("x", .null)])])).bind
          (prepare n.schema) =
            some (.obj [("a", .str "t"), ("b", .str "5"), ("c", .obj [("x", .null)])]) ∧
        a.conditions = [c] ∧ c.refs = [Reference.ofKey "c.x", Reference.ofKey "b"] ∧
        initial.doneBefore (initial.castWithin (depthLimit + n.schema.height)) n.schema
          ⟨[("a", a), ("b", b)], ["c", "b", "a"], []⟩
          [("a", .str "t"), ("b", .str "5"), ("c", .obj [("x", .null)])] (castOptions .none) "a" =
            .ok [("b", .num (.int 5)), ("c", .obj [("x", .null)])] :=
    ⟨_, _, _, _, _, rfl, rfl, rfl, rfl, rfl, rfl, rfl, rfl, rfl, rfl⟩
  have hobtained : n.schema.Obtained :=
    enter_obtained Schema.Obtained.stored_initial (.built Schema.Obtained.stored_initial hs) henter
  have hchecked := checkedValue_of_enter henter
  obtain ⟨out, hout, hcast⟩ := checkedValue_object hstrict hkind hprepare hchecked
  have hfield : List.lookup "a" [("a", a), ("b", b)] = some a := rfl
  obtain ⟨done, value, hdone', -, -, -, hparts⟩ :=
    field_conditions_read_final hobtained hkind hcast hfield
  cases hdone.symm.trans hdone'
  have hp : n.Hands (.field "a") (n.fieldPart out ("a", a)) :=
    .field hrecursive hkind hout List.mem_cons_self
  obtain ⟨hschema, -, -, -, hagrees, -⟩ := hparts n _ rfl hout hcontext hp
  have hfollows : Shape.FollowsAll ⟨[("a", a), ("b", b)], ["c", "b", "a"], []⟩ "a" c := by
    intro r hr _
    rw [hrefs] at hr
    rcases List.mem_pair.mp hr with rfl | rfl
    · exact ⟨"c", Reference.firstStep?_withPrefix "c.x" defaultPrefix, by simp⟩
    · exact ⟨"b", Reference.firstStep?_withPrefix "b" defaultPrefix, by simp⟩
  refine ⟨s, n, _, c, _, hs, henter, rfl, hp, hschema ▸ hconditions, ?_, ?_⟩
  · rw [Condition.values, hrefs]
    rfl
  · exact hagrees c (by simp [hconditions]) hfollows

end Workshop

end Conform
