/-
  Conform.Proofs.Validation.ItemConditions

  What the conditions of an element schema look at when the array is a field of an
  object. While the items are cast, sibling references read the fields of the object
  that are done; while they are validated, sibling references read the array
  itself, where a key that is no position finds nothing. The two agree exactly where
  the references come to the same.
-/

import Conform.Proofs.Schema.Casting
import Conform.Proofs.Validation.Collection

namespace Conform

-- ============================================================================
-- References
-- ============================================================================

namespace Reference

/-- What the reference makes of a value read. -/
def mapped (r : Reference) (raw : Option Value) : Option Value :=
  match r.map with
  | some f => f raw
  | none => raw

/-- A sibling reference reads the enclosing value. -/
theorem value_sibling {r : Reference} (h : r.isContext = false) (v : Value)
    (context : Option Value) :
    r.value (some v) context = r.mapped (Path.get? v r.steps) := by
  have hsource : r.source (some v) context = some v := by simp [source, h]
  rw [value, mapped, hsource]
  rfl

/-- A context reference reads the context, whatever the enclosing value is. -/
theorem value_context {r : Reference} (h : r.isContext = true) (parent other : Option Value)
    (context : Option Value) : r.value parent context = r.value other context := by
  have hsource : ∀ p, r.source p context = context := fun p => by simp [source, h]
  unfold value
  rw [hsource, hsource]

/-- Whether the first step of the reference is a key that is no position. -/
def NamesField (r : Reference) : Prop :=
  ∃ name quoted rest, r.steps = .key name quoted :: rest ∧ position? name.toList = none

/-- An array has nothing at a key that is no position. -/
theorem NamesField.get?_arr {r : Reference} (h : r.NamesField) (items : List Value) :
    Path.get? (.arr items) r.steps = none := by
  obtain ⟨name, quoted, rest, hsteps, hposition⟩ := h
  have hstep : (Segment.key name quoted).step (.arr items) = none := by
    simp [Segment.step, hposition]
  rw [hsteps, Path.get?]
  cases rest with
  | nil => simp [Path.follow, hstep]
  | cons next rest => simp [Path.follow, hstep]

end Reference

/-- A condition looks at the same values in two enclosing values exactly if its
    sibling references come to the same there. -/
theorem Condition.values_eq_iff (c : Condition Schema) (v u : Value) (context : Option Value) :
    c.values (some v) context = c.values (some u) context ↔
      ∀ r ∈ c.refs, r.isContext = false →
        r.mapped (Path.get? v r.steps) = r.mapped (Path.get? u r.steps) := by
  unfold Condition.values
  rw [List.map_inj_left]
  constructor
  · intro h r hr hsibling
    rw [← Reference.value_sibling hsibling v context, ← Reference.value_sibling hsibling u context]
    exact h r hr
  · intro h r hr
    cases hcontext : r.isContext with
    | true => exact Reference.value_context hcontext _ _ context
    | false =>
        rw [Reference.value_sibling hcontext, Reference.value_sibling hcontext]
        exact h r hr hcontext

/-- Whether a condition looks at the same values under two calls' options. -/
def Condition.Agrees (c : Condition Schema) (options other : CallOptions) : Prop :=
  c.values options.parent options.context = c.values other.parent other.context

-- ============================================================================
-- Casts of items
-- ============================================================================

namespace Workshop

variable {w : Workshop} {castPart : CastPart} {options : CallOptions} {input : Dict Value}

/-- Conditions that look at the same values change a schema in the same way. -/
theorem takeConditions_congr {mark : Option Mark} {position : Nat}
    {parent other context context' : Option Value} {base : Schema}
    {conditions : List (Condition Schema)}
    (h : ∀ c ∈ conditions, c.values parent context = c.values other context') :
    w.takeConditions mark position parent context base conditions =
      w.takeConditions mark position other context' base conditions := by
  induction conditions generalizing base position with
  | nil => rfl
  | cons c rest ih =>
      rw [takeConditions, takeConditions, h c List.mem_cons_self]
      congr 1
      funext s
      exact ih fun d hd => h d (List.mem_cons_of_mem _ hd)

/-- A schema that is not lazy is resolved by the values that its conditions look
    at, and by nothing else. -/
theorem resolve_congr {s : Schema} (hlazy : ∀ pick, s.kind ≠ .lazy pick)
    {value value' : Option Value} {options options' : CallOptions}
    (h : ∀ c ∈ s.conditions, c.Agrees options options') :
    w.resolve s value options = w.resolve s value' options' := by
  rw [resolve_eager hlazy, resolve_eager hlazy, takeConditions_congr h]

/-- A field that is an array of plain items is cast item by item, behind the fields
    that are done. -/
theorem castFields_array {s a e : Schema} {shape : Shape Schema} {key : String}
    {out : Dict Value} {items : List Value} {below : CastPart} (hshape : shape.Ordered)
    (hfield : shape.fields.lookup key = some a) (hkind : a.kind = .array (.of e))
    (hconditions : a.conditions = []) (hstripped : a.isStripped = false)
    (hstrict : a.isStrict = false) (hbelow : castPart = w.castNode below false)
    (hitems : (Dict.get? input key).bind (prepare a) = some (.arr items))
    (h : w.castFields castPart true s shape input options = .ok (some (.obj out))) :
    ∃ done cast, w.doneBefore castPart s shape input options key = .ok done ∧
      w.castItems below e (options.forField done key) 0 items = .ok cast ∧
      Dict.get? out key = some (.arr cast) := by
  obtain ⟨done, value, hdone, hvalue, hkey⟩ := castFields_field hshape hfield h
  -- the array itself is cast, since it is neither stripped nor strict
  rw [hbelow, castField_plain (by simp [hkind]) hconditions hstripped hstrict] at hvalue
  have hparts := castNode_eq_ok hitems hvalue
  rw [castParts_array hkind] at hparts
  obtain ⟨cast, hcast, hresult⟩ := bind_eq_ok.mp hparts
  cases hresult
  exact ⟨done, cast, hdone, hcast, hkey⟩

-- ============================================================================
-- Both stages of a call
-- ============================================================================

/-- The options under which an item is cast, when the array is a field of the object
    that a call validates. -/
def castItemOptions (options : CallOptions) (done : Dict Value) (key : String) (i : Nat) :
    CallOptions :=
  ((castOptions options).forField done key).forItem i

/-- The node of a field that needs no resolution. -/
def fieldNode (n : Node) (out : Dict Value) (key : String) (field : Schema) : Node :=
  (n.fieldPart out (key, field)).node field

/-- The parts of an array that is a field are its items, with the array for a
    parent. -/
theorem fieldNode_part {n : Node} {out : Dict Value} {key : String} {a e : Schema}
    {cast : List Value} (harray : a.kind = .array (.of e))
    (hcast : Dict.get? out key = some (.arr cast)) {i : Nat} {p : Part}
    (hp : (fieldNode n out key a).parts[i]? = some p) :
    (∃ item, cast[i]? = some item ∧ p.value = some item) ∧ p.schema = e ∧
      p.options.parent = some (.arr cast) ∧ p.options.context = n.options.context := by
  have hvalue : (fieldNode n out key a).value = some (.arr cast) := hcast
  have hkind : (fieldNode n out key a).schema.kind = .array (.of e) := harray
  cases hrecursive : (fieldNode n out key a).mode.recursive with
  | false =>
      rw [Node.parts, hrecursive] at hp
      exact absurd hp (by simp)
  | true =>
      rw [Node.parts_array hrecursive hkind hvalue, List.getElem?_map, List.getElem?_zipIdx] at hp
      cases hitem : cast[i]? with
      | none =>
          rw [hitem] at hp
          exact absurd hp (by simp)
      | some item =>
          rw [hitem] at hp
          cases hp
          exact ⟨⟨item, rfl, rfl⟩, rfl, rfl, rfl⟩

/-- A validation that goes down comes to the node of a field. -/
theorem visits_fieldNode {w : Workshop} {n : Node} {shape : Shape Schema} {out : Dict Value}
    {key : String} {a : Schema} (hrecursive : n.mode.recursive = true)
    (hkind : n.schema.kind = .object shape) (hvalue : n.value = some (.obj out))
    (hfield : shape.fields.lookup key = some a) (hlazy : ∀ pick, a.kind ≠ .lazy pick)
    (hconditions : a.conditions = []) : n.Visits w (fieldNode n out key a) := by
  have hpart : n.fieldPart out (key, a) ∈ n.parts := by
    rw [Node.parts_object hrecursive hkind hvalue]
    exact List.mem_map_of_mem (Dict.mem_of_get? hfield)
  exact .part hpart (resolve_self hlazy hconditions _ _) .here

/-- In a validation that casts, the conditions of an element schema look at the same
    values in both stages exactly if their sibling references come to the same in
    the fields that were done when the array was cast as in the array itself; at a
    key that is no position the array has nothing. Where they agree, an item has the
    same schema in both stages. -/
theorem item_conditions_agree_iff {w : Workshop} (hw : w.Reachable .all) {s : Schema}
    (hs : s.Made .all) {value : Option Value} {options : CallOptions} {n : Node}
    (henter : w.enter (root s value options) = .ok n)
    (hcasts : (Mode.of options n.schema.traits.options).strict = false)
    {shape : Shape Schema} (hobject : n.schema.kind = .object shape)
    {key : String} {a e : Schema} (hfield : shape.fields.lookup key = some a)
    (harray : a.kind = .array (.of e)) (hconditions : a.conditions = [])
    (hstripped : a.isStripped = false) (hstrict : a.isStrict = false)
    {input : Dict Value} (hinput : value.bind (prepare n.schema) = some (.obj input))
    {items : List Value} (hitems : (Dict.get? input key).bind (prepare a) = some (.arr items)) :
    ∃ done out cast,
      w.doneBefore (w.castWithin (depthLimit + n.schema.height)) n.schema shape input
        (castOptions options) key = .ok done ∧
      n.value = some (.obj out) ∧ Dict.get? out key = some (.arr cast) ∧
      (n.mode.recursive = true → n.Visits w (fieldNode n out key a)) ∧
      ∀ i p, (fieldNode n out key a).parts[i]? = some p →
        (∃ item t depth r, items[i]? = some item ∧
          w.resolve e (some item) (castItemOptions options done key i) = .ok t ∧
          w.castWithin depth t (some item) (castItemOptions options done key i) = .ok r ∧
          p.value = some (r.getD .null)) ∧
        p.schema = e ∧
        (∀ c ∈ e.conditions,
          (c.Agrees (castItemOptions options done key i) p.options ↔
            ∀ r ∈ c.refs, r.isContext = false →
              r.mapped (Path.get? (.obj done) r.steps) = r.mapped (Path.get? (.arr cast) r.steps)) ∧
          ∀ r ∈ c.refs, r.NamesField → Path.get? (.arr cast) r.steps = none) ∧
        ((∀ pick, e.kind ≠ .lazy pick) →
          (∀ c ∈ e.conditions, c.Agrees (castItemOptions options done key i) p.options) →
          w.resolve p.schema p.value p.options =
            w.resolve e p.value (castItemOptions options done key i)) := by
  have hmade := enter_wellMade hw.equipped hs.wellMade henter
  have hshape := hmade.here.shape shape hobject
  rw [enter] at henter
  obtain ⟨t, -, henter⟩ := bind_eq_ok.mp henter
  obtain ⟨checked, hchecked, henter⟩ := bind_eq_ok.mp henter
  cases henter
  have hcast := checkedValue_object hcasts hobject hinput hchecked
  obtain ⟨out, rfl, hfields⟩ := hcast
  obtain ⟨below, hbelow⟩ : ∃ below, depthLimit + t.height = below + 1 :=
    ⟨4095 + t.height, by unfold depthLimit; omega⟩
  have hunfold : w.castWithin (depthLimit + t.height) =
      w.castNode (w.castWithin below) false := by
    rw [hbelow]
    rfl
  obtain ⟨done, cast, hdone, hitemsCast, hkey⟩ := castFields_array hshape hfield harray
    hconditions hstripped hstrict hunfold hitems hfields
  obtain ⟨hlength, hitem⟩ := castItems_item hitemsCast
  refine ⟨done, out, cast, hdone, rfl, hkey, fun hrecursive => ?_, ?_⟩
  · exact visits_fieldNode hrecursive hobject rfl hfield (by simp [harray]) hconditions
  · intro i p hp
    obtain ⟨⟨found, hfound, hvalue⟩, hschema, hparent, hcontext⟩ := fieldNode_part harray hkey hp
    refine ⟨?_, hschema, fun c _ => ⟨?_, fun r _ hr => hr.get?_arr cast⟩, ?_⟩
    · have hlt : i < items.length := by
        have hcastlt := (List.getElem?_eq_some_iff.mp hfound).1
        omega
      obtain ⟨u, r, hu, hr, hresult⟩ := hitem i items[i] (List.getElem?_eq_getElem hlt)
      rw [Nat.zero_add] at hu hr
      refine ⟨items[i], u, below, r, List.getElem?_eq_getElem hlt, hu, hr, ?_⟩
      rw [hvalue, ← hfound, hresult]
    · rw [Condition.Agrees, hparent, hcontext]
      exact c.values_eq_iff (.obj done) (.arr cast) options.context
    · intro hlazy hagree
      rw [hschema]
      exact resolve_congr hlazy fun c hc => (hagree c hc).symm

/-- A value that is required where a flag is on. -/
def flaggedItem : Recipe :=
  .make .mixed [.when [Reference.ofKey "flag"]
    (.guarded (.equal (.str "on")) (some (.refine [.required])) none)]

/-- A flag beside an array of such values. -/
def flaggedItems : Recipe :=
  .make .object [.shape
    [("flag", .plain .string), ("items", .make .array [.element flaggedItem])] []]

/-- While an item is cast its condition sees the flag; while it is validated its
    condition sees nothing. -/
theorem item_conditions_disagree :
    ∃ s e n m p c, initial.build none flaggedItems = .ok s ∧
      initial.build none flaggedItem = .ok e ∧
      initial.enter (root s (some (.obj [("flag", .str "on"), ("items", .arr [.null])])) .none) =
        .ok n ∧
      n.Visits initial m ∧ m.parts[0]? = some p ∧ p.schema = e ∧ c ∈ e.conditions ∧
      c.values (castItemOptions .none [("flag", .str "on")] "items" 0).parent
        (castItemOptions .none [("flag", .str "on")] "items" 0).context = [some (.str "on")] ∧
      c.values p.options.parent p.options.context ≠ [some (.str "on")] := by
  obtain ⟨s, e, a, shape, n, c, hs, he, henter, hcasts, hkind, hfield, harray, hconditions,
    hstripped, hstrict, hinput, hitems, hrecursive, hdown, hvalue, hdone, hcondition, hrefs⟩ :
      ∃ s e a shape n c, initial.build none flaggedItems = .ok s ∧
        initial.build none flaggedItem = .ok e ∧
        initial.enter (root s (some (.obj [("flag", .str "on"), ("items", .arr [.null])])) .none) =
          .ok n ∧
        (Mode.of .none n.schema.traits.options).strict = false ∧
        n.schema.kind = .object shape ∧ shape.fields.lookup "items" = some a ∧
        a.kind = .array (.of e) ∧ a.conditions = [] ∧ a.isStripped = false ∧
        a.isStrict = false ∧
        prepare n.schema (.obj [("flag", .str "on"), ("items", .arr [.null])]) =
          some (.obj [("flag", .str "on"), ("items", .arr [.null])]) ∧
        prepare a (.arr [.null]) = some (.arr [.null]) ∧ n.mode.recursive = true ∧
        (∀ out, (fieldNode n out "items" a).mode.recursive = true) ∧
        n.value = some (.obj (Dict.merge [("flag", .str "on"), ("items", .arr [.null])] [])) ∧
        initial.doneBefore (initial.castWithin (depthLimit + n.schema.height)) n.schema shape
          [("flag", .str "on"), ("items", .arr [.null])] (castOptions .none) "items" =
            .ok [("flag", .str "on")] ∧
        e.conditions = [c] ∧ c.refs = [Reference.ofKey "flag"] :=
    ⟨_, _, _, _, _, _, rfl, rfl, rfl, rfl, rfl, rfl, rfl, rfl, rfl, rfl, rfl, rfl, rfl,
      fun _ => rfl, rfl, rfl, rfl, rfl⟩
  obtain ⟨done, out, cast, hdone', hout, hcast, hvisits, hparts⟩ :=
    item_conditions_agree_iff .initial ⟨initial, none, flaggedItems, .initial, trivial, hs⟩
      henter hcasts hkind hfield harray hconditions hstripped hstrict hinput hitems
  cases hdone.symm.trans hdone'
  have hfields := Value.obj.inj (Option.some.inj (hvalue.symm.trans hout))
  have hnull : cast = [.null] := by
    rw [← hfields, Dict.get?_merge_of_not_mem (by simp [Dict.keys])] at hcast
    cases hcast
    rfl
  subst hnull
  have hone := Node.parts_array (hdown out) harray hcast
  obtain ⟨p, hp⟩ : ∃ p, (fieldNode n out "items" a).parts[0]? = some p := by
    rw [hone]
    exact ⟨_, rfl⟩
  obtain ⟨-, hschema, hagree, -⟩ := hparts 0 p hp
  have hc : c ∈ e.conditions := by simp [hcondition]
  obtain ⟨hiff, hmissing⟩ := hagree c hc
  have hseen : c.values (castItemOptions .none [("flag", .str "on")] "items" 0).parent
      (castItemOptions .none [("flag", .str "on")] "items" 0).context = [some (.str "on")] := by
    rw [Condition.values, hrefs]
    rfl
  refine ⟨s, e, n, _, p, c, hs, he, henter, hvisits hrecursive, hp, hschema, hc, hseen, ?_⟩
  intro hsame
  have hflag := hiff.mp (hseen.trans hsame.symm) (Reference.ofKey "flag") (by simp [hrefs]) rfl
  rw [hmissing _ (by simp [hrefs]) ⟨"flag", false, [], rfl, rfl⟩] at hflag
  exact absurd (show some (Value.str "on") = none from hflag) (by simp)

end Workshop

end Conform
