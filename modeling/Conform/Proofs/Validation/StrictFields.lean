/-
  Conform.Proofs.Validation.StrictFields

  What the tests of a strict schema are handed. The cast of an object that a call
  validates leaves its strict fields as they were given. Everywhere else the cast
  comes to a part, be its schema strict or not: it casts the fields of the objects
  below, and all items, with no regard to the mark. An access path says where a node
  stands, in the value and in the input alike.
-/

import Conform.Proofs.Schema.Casting
import Conform.Proofs.Validation.Collection

namespace Conform

-- ============================================================================
-- Access paths
-- ============================================================================

/-- A step from a value to one of its parts. -/
inductive PartKey where
  | field (key : String)
  | item (position : Nat)

namespace PartKey

/-- What a cast leaves in the place of a part: in the place of an item that comes to
    nothing it leaves null. -/
def left : PartKey → Option Value → Option Value
  | .field _, v => v
  | .item _, v => some (v.getD .null)

theorem left_some (key : PartKey) (v : Value) : key.left (some v) = some v := by
  cases key with
  | field _ => rfl
  | item _ => rfl

end PartKey

/-- What a cast leaves at an access path. -/
def leftAt (path : List PartKey) (v : Option Value) : Option Value :=
  match path.getLast? with
  | some key => key.left v
  | none => v

theorem leftAt_field (key : String) (path : List PartKey) (v : Option Value) :
    leftAt (.field key :: path) v = leftAt path v := by
  cases path with
  | nil => rfl
  | cons next rest => rw [leftAt, leftAt, List.getLast?_cons_cons]

namespace Value

/-- The part of a value at a key, if the value has such parts. -/
def part? (v : Value) : PartKey → Option Value
  | .field key => v.field? key
  | .item position => v.item? position

/-- The value at an access path; below an undefined value all is undefined. -/
def partAt (v : Option Value) : List PartKey → Option Value
  | [] => v
  | key :: rest => partAt (v.bind fun v => v.part? key) rest

theorem partAt_none (path : List PartKey) : partAt none path = none := by
  induction path with
  | nil => rfl
  | cons key rest ih => exact ih

end Value

namespace Node

variable {w : Workshop} {n m : Node} {p : Part} {key : PartKey} {path : List PartKey}

/-- Whether a node hands down a part under a key. -/
inductive Hands (n : Node) : PartKey → Part → Prop where
  | field {shape : Shape Schema} {fields : Dict Value} {f : String × Schema} :
      n.mode.recursive = true → n.schema.kind = .object shape → n.value = some (.obj fields) →
      f ∈ shape.fields → Hands n (.field f.1) (n.fieldPart fields f)
  | item {element : Schema} {items : List Value} {item : Value × Nat} :
      n.mode.recursive = true → n.schema.kind = .array (.of element) →
      n.value = some (.arr items) → item ∈ items.zipIdx →
      Hands n (.item item.2) (n.itemPart element items item)

theorem mem_parts_iff : p ∈ n.parts ↔ ∃ key, n.Hands key p := by
  constructor
  · intro h
    have hrecursive : n.mode.recursive = true := by
      by_contra hnot
      rw [parts, if_neg hnot] at h
      exact absurd h (by simp)
    rcases mem_parts_cases h with ⟨shape, fields, hkind, hvalue, f, hf, rfl⟩ |
      ⟨element, items, hkind, hvalue, item, hitem, rfl⟩
    · exact ⟨_, .field hrecursive hkind hvalue hf⟩
    · exact ⟨_, .item hrecursive hkind hvalue hitem⟩
  · rintro ⟨key, h⟩
    cases h with
    | field hrecursive hkind hvalue hf =>
        rw [parts_object hrecursive hkind hvalue]
        exact List.mem_map_of_mem hf
    | item hrecursive hkind hvalue hitem =>
        rw [parts_array hrecursive hkind hvalue]
        exact List.mem_map_of_mem hitem

/-- A part is handed the part of the value at its key. -/
theorem Hands.value (h : n.Hands key p) : p.value = n.value.bind fun v => v.part? key := by
  cases h with
  | field _ _ hvalue _ =>
      rw [hvalue]
      rfl
  | item _ _ hvalue hitem =>
      rw [hvalue]
      exact (List.mem_zipIdx_iff_getElem?.mp hitem).symm

/-- Whether a validation of a node comes to the node at an access path. -/
inductive Reaches (w : Workshop) : Node → List PartKey → Node → Prop where
  | here {n : Node} : Reaches w n [] n
  | part {n m : Node} {key : PartKey} {p : Part} {t : Schema} {path : List PartKey} :
      n.Hands key p → w.resolve p.schema p.value p.options = .ok t →
      Reaches w (p.node t) path m → Reaches w n (key :: path) m

/-- Every node that a validation comes to stands at an access path. -/
theorem visits_iff_reaches : n.Visits w m ↔ ∃ path, n.Reaches w path m := by
  constructor
  · intro h
    induction h with
    | here => exact ⟨[], .here⟩
    | part hp ht _ ih =>
        obtain ⟨path, hpath⟩ := ih
        obtain ⟨key, hkey⟩ := mem_parts_iff.mp hp
        exact ⟨key :: path, .part hkey ht hpath⟩
  · rintro ⟨path, h⟩
    induction h with
    | here => exact .here
    | part hkey ht _ ih => exact .part (mem_parts_iff.mpr ⟨_, hkey⟩) ht ih

/-- A validation that goes down comes to a field that needs no resolution. -/
theorem Reaches.field {shape : Shape Schema} {fields : Dict Value} {name : String} {s : Schema}
    (hrecursive : n.mode.recursive = true) (hkind : n.schema.kind = .object shape)
    (hvalue : n.value = some (.obj fields)) (hfield : shape.fields.lookup name = some s)
    (hlazy : ∀ pick, s.kind ≠ .lazy pick) (hconditions : s.conditions = [])
    (h : ((n.fieldPart fields (name, s)).node s).Reaches w path m) :
    n.Reaches w (.field name :: path) m :=
  .part (.field hrecursive hkind hvalue (Dict.mem_of_get? hfield))
    (Workshop.resolve_self hlazy hconditions _ _) h

/-- The first step into an object goes to a declared field. -/
theorem Reaches.lookup {shape : Shape Schema} {name : String}
    (h : n.Reaches w (.field name :: path) m) (hkind : n.schema.kind = .object shape) :
    ∃ field, shape.fields.lookup name = some field := by
  cases h with
  | part hkey _ _ =>
      cases hkey with
      | @field shape' _ f _ hkind' _ hf =>
          cases hkind.symm.trans hkind'
          cases hlookup : shape.fields.lookup f.1 with
          | none => exact absurd (List.lookup_eq_none_iff.mp hlookup f hf) (by simp)
          | some field => exact ⟨field, rfl⟩

/-- The tests of a node see the value at its access path: below the node of a call
    nothing is cast. -/
theorem Reaches.value (h : n.Reaches w path m) : m.subject.value = Value.partAt n.value path := by
  induction h with
  | here => rfl
  | part hkey _ _ ih => rw [ih, Value.partAt, ← hkey.value, Part.node]

end Node

-- ============================================================================
-- Casts below a cast
-- ============================================================================

/-- The same schema with another mark for strictness, or with none. -/
def Schema.withStrict (s : Schema) (strict : Option Bool) : Schema :=
  s.mapTraits fun t => { t with options := { t.options with strict } }

/-- A cast with a resolved schema, up to a depth of parts. -/
structure Casting where
  depth : Nat
  schema : Schema
  raw : Option Value
  options : CallOptions

namespace Casting

variable {w : Workshop} {C : RecipeClass} {c d : Casting} {key : PartKey} {path : List PartKey}
  {r : Option Value}

/-- What the cast comes to. -/
def result (w : Workshop) (c : Casting) : Result (Option Value) :=
  w.castWithin c.depth c.schema c.raw c.options

/-- The same cast with another mark for strictness on its schema. -/
def withStrict (c : Casting) (strict : Option Bool) : Casting :=
  { c with schema := c.schema.withStrict strict }

/-- The mark for strictness means nothing to a cast. -/
theorem result_withStrict (w : Workshop) (c : Casting) (strict : Option Bool) :
    (c.withStrict strict).result w = c.result w := by
  obtain ⟨depth, ⟨kind, conditions, traits⟩, raw, options⟩ := c
  cases depth with
  | zero => rfl
  | succ depth => rfl

/-- Whether a cast of an object or an array that has no transforms meets a part under a
    key: the schema that is resolved for the part, with which the part is to be cast,
    its raw value and its options. -/
inductive Meets (w : Workshop) : Casting → PartKey → Casting → Prop where
  | field {depth : Nat} {s field t : Schema} {shape : Shape Schema} {input done : Dict Value}
      {options : CallOptions} {key : String} :
      s.kind = .object shape → s.traits.transforms = [] → shape.fields.lookup key = some field →
      (shape.order.takeWhile (· != key)).foldlM (w.castKey (w.castWithin depth) false options
        shape.fields (!options.dropsUnknown s) input) [] = .ok done →
      w.resolve field (Dict.get? input key) (options.forField done key) = .ok t →
      Meets w ⟨depth + 1, s, some (.obj input), options⟩ (.field key)
        ⟨depth, t, Dict.get? input key, options.forField done key⟩
  | item {depth : Nat} {s element t : Schema} {items : List Value} {options : CallOptions}
      {position : Nat} {item : Value} :
      s.kind = .array (.of element) → s.traits.transforms = [] → items[position]? = some item →
      w.resolve element (some item) (options.forItem position) = .ok t →
      Meets w ⟨depth + 1, s, some (.arr items), options⟩ (.item position)
        ⟨depth, t, some item, options.forItem position⟩

/-- Whether a part that is met is left out instead of cast. Items never are. -/
def isStripped (d : Casting) : PartKey → Bool
  | .field _ => d.schema.isStripped
  | .item _ => false

/-- A cast of an object that has no transforms has cast its fields. -/
theorem result_object {depth : Nat} {s : Schema} {shape : Shape Schema} {input : Dict Value}
    {options : CallOptions} (hkind : s.kind = .object shape) (htransforms : s.traits.transforms = [])
    (hr : result w ⟨depth + 1, s, some (.obj input), options⟩ = .ok r) :
    ∃ out, r = some (.obj out) ∧
      w.castFields (w.castWithin depth) false s shape input options = .ok (some (.obj out)) := by
  have hprepared := Workshop.prepare_of_isType htransforms (Schema.isType_obj hkind input)
  have hparts := Workshop.castNode_eq_ok hprepared hr
  rw [Workshop.castParts_object hkind] at hparts
  obtain ⟨out, rfl⟩ := Workshop.castFields_eq_ok hparts
  exact ⟨out, rfl, hparts⟩

/-- A cast of an array that has no transforms has cast its items. -/
theorem result_array {depth : Nat} {s element : Schema} {items : List Value}
    {options : CallOptions} (hkind : s.kind = .array (.of element))
    (htransforms : s.traits.transforms = [])
    (hr : result w ⟨depth + 1, s, some (.arr items), options⟩ = .ok r) :
    ∃ out, r = some (.arr out) ∧
      w.castItems (w.castWithin depth) element options 0 items = .ok out := by
  have hprepared := Workshop.prepare_of_isType htransforms (Schema.isType_arr hkind items)
  have hparts := Workshop.castNode_eq_ok hprepared hr
  rw [Workshop.castParts_array hkind] at hparts
  obtain ⟨out, hout, hparts⟩ := bind_eq_ok.mp hparts
  cases hparts
  exact ⟨out, rfl, hout⟩

theorem Meets.raw (h : c.Meets w key d) : d.raw = c.raw.bind fun v => v.part? key := by
  cases h with
  | field => rfl
  | item _ _ hitem _ => exact hitem.symm

theorem Meets.wellMade (hw : w.Equipped C) (h : c.Meets w key d) (hc : c.schema.WellMade C) :
    d.schema.WellMade C := by
  cases h with
  | field hkind _ hfield _ hresolve =>
      exact Workshop.resolve_wellMade hw (hc.field hkind (Dict.mem_of_get? hfield)) hresolve
  | item hkind _ _ hresolve => exact Workshop.resolve_wellMade hw (hc.element hkind) hresolve

/-- What stands in the place of a part in the result of a cast comes from the cast of
    the part, be the schema of the part strict or not. -/
theorem Meets.result (h : c.Meets w key d) (hkept : d.isStripped key = false)
    (hc : c.schema.WellMade C) (hr : c.result w = .ok r) :
    ∃ u v, r = some u ∧ d.result w = .ok v ∧ u.part? key = key.left v := by
  cases h with
  | @field depth s field t shape input done options key hkind htransforms hfield hdone hresolve =>
      obtain ⟨out, rfl, hout⟩ := result_object hkind htransforms hr
      obtain ⟨done', value, hdone', hvalue, hget⟩ :=
        Workshop.castFields_field (hc.here.shape shape hkind) hfield hout
      cases hdone.symm.trans hdone'
      obtain ⟨t', ht', hcases⟩ := Workshop.castField_eq_ok hvalue
      cases hresolve.symm.trans ht'
      rcases hcases with ⟨hstripped, -⟩ | ⟨-, hstrict, -⟩ | ⟨-, -, hcast⟩
      · have hkept : t.isStripped = false := hkept
        exact absurd hstripped (by simp [hkept])
      · exact absurd hstrict (by simp)
      · exact ⟨_, value, rfl, hcast, hget⟩
  | @item depth s element t items options position item hkind htransforms hitem hresolve =>
      obtain ⟨out, rfl, hout⟩ := result_array hkind htransforms hr
      obtain ⟨-, hitems⟩ := Workshop.castItems_item hout
      obtain ⟨t', v, ht', hcast, hget⟩ := hitems position item hitem
      rw [Nat.zero_add] at ht' hcast
      cases hresolve.symm.trans ht'
      exact ⟨_, v, rfl, hcast, hget⟩

/-- Whether the schema of a cast declares a schema for a part of the raw value. -/
inductive Declares (c : Casting) : PartKey → Schema → Prop where
  | field {shape : Shape Schema} {input : Dict Value} {name : String} {s : Schema} :
      c.schema.kind = .object shape → c.raw = some (.obj input) →
      shape.fields.lookup name = some s → Declares c (.field name) s
  | item {items : List Value} {position : Nat} {item : Value} {s : Schema} :
      c.schema.kind = .array (.of s) → c.raw = some (.arr items) →
      items[position]? = some item → Declares c (.item position) s

/-- A cast without transforms that succeeds has met every part that is declared. -/
theorem Declares.meets {s : Schema} (h : c.Declares key s) (hc : c.schema.WellMade C)
    (htransforms : c.schema.traits.transforms = []) (hr : c.result w = .ok r) :
    ∃ d, c.Meets w key d := by
  obtain ⟨depth, schema, raw, options⟩ := c
  cases depth with
  | zero => exact absurd hr (by simp [result, Workshop.castWithin])
  | succ depth =>
      cases h with
      | @field shape input name s hkind hraw hfield =>
          cases hraw
          obtain ⟨out, rfl, hout⟩ := result_object hkind htransforms hr
          obtain ⟨done, value, hdone, hvalue, -⟩ :=
            Workshop.castFields_field (hc.here.shape shape hkind) hfield hout
          obtain ⟨t, ht, -⟩ := Workshop.castField_eq_ok hvalue
          exact ⟨_, .field hkind htransforms hfield hdone ht⟩
      | item hkind hraw hitem =>
          cases hraw
          obtain ⟨out, rfl, hout⟩ := result_array hkind htransforms hr
          obtain ⟨-, hitems⟩ := Workshop.castItems_item hout
          obtain ⟨t, v, ht, -, -⟩ := hitems _ _ hitem
          rw [Nat.zero_add] at ht
          exact ⟨_, .item hkind htransforms hitem ht⟩

/-- Whether a cast comes to the cast of the part at an access path. -/
inductive CastsAt (w : Workshop) : Casting → List PartKey → Casting → Prop where
  | here {c : Casting} : CastsAt w c [] c
  | part {c d e : Casting} {key : PartKey} {path : List PartKey} :
      c.Meets w key d → d.isStripped key = false → CastsAt w d path e →
      CastsAt w c (key :: path) e

/-- The raw value of a part is what the input has at the access path. -/
theorem CastsAt.raw (h : c.CastsAt w path d) : d.raw = Value.partAt c.raw path := by
  induction h with
  | here => rfl
  | part hstep _ _ ih => rw [ih, Value.partAt, hstep.raw]

/-- What stands at an access path in the result of a cast comes from the cast of the
    part that is there. -/
theorem CastsAt.result (hw : w.Equipped C) (h : c.CastsAt w path d) (hc : c.schema.WellMade C)
    (hr : c.result w = .ok r) :
    ∃ v, d.result w = .ok v ∧ Value.partAt r path = leftAt path v := by
  induction h generalizing r with
  | here => exact ⟨r, hr, rfl⟩
  | @part c d e key path hstep hkept hrest ih =>
      obtain ⟨u, v, rfl, hv, hpart⟩ := hstep.result hkept hc hr
      obtain ⟨x, hx, hat⟩ := ih (hstep.wellMade hw hc) hv
      refine ⟨x, hx, ?_⟩
      cases hrest with
      | here =>
          cases hv.symm.trans hx
          exact hpart
      | part hnext hkept' =>
          -- the part has parts itself, so it is defined
          obtain ⟨y, -, rfl, -⟩ := hnext.result hkept' (hstep.wellMade hw hc) hv
          rw [Value.partAt, Option.bind_some, hpart, key.left_some]
          exact hat

/-- Whether a cast casts no part under a key: it has transforms, declares no schema for
    the part, or leaves the part out. -/
inductive Omits (w : Workshop) (c : Casting) (key : PartKey) : Prop where
  | transformed : c.schema.traits.transforms ≠ [] → Omits w c key
  | undeclared : (∀ s, ¬ c.Declares key s) → Omits w c key
  | stripped {d : Casting} : c.Meets w key d → d.isStripped key = true → Omits w c key

/-- Whether a cast on the way to an access path omits the next step of the path. -/
def OmitsOn (w : Workshop) (c : Casting) (path : List PartKey) : Prop :=
  ∃ above key below d, path = above ++ key :: below ∧ c.CastsAt w above d ∧ d.Omits w key

/-- A cast that succeeds has come to the part at every access path of which no step is
    omitted. -/
theorem exists_castsAt (hw : w.Equipped C) (hc : c.schema.WellMade C) (hr : c.result w = .ok r)
    (path : List PartKey) : (∃ d, c.CastsAt w path d) ∨ c.OmitsOn w path := by
  induction path generalizing c r with
  | nil => exact Or.inl ⟨c, .here⟩
  | cons key rest ih =>
      by_cases homits : c.Omits w key
      · exact Or.inr ⟨[], key, rest, c, rfl, .here, homits⟩
      · have htransforms : c.schema.traits.transforms = [] := by
          by_contra hsome
          exact homits (.transformed hsome)
        obtain ⟨s, hdeclares⟩ : ∃ s, c.Declares key s := by
          by_contra hnone
          exact homits (.undeclared fun s hs => hnone ⟨s, hs⟩)
        obtain ⟨d, hd⟩ := hdeclares.meets hc htransforms hr
        have hkept : d.isStripped key = false := by
          by_contra hstripped
          exact homits (.stripped hd (by simpa using hstripped))
        obtain ⟨-, v, -, hv, -⟩ := hd.result hkept hc hr
        rcases ih (hd.wellMade hw hc) hv with ⟨e, he⟩ | ⟨above, next, below, e, rfl, he, homits⟩
        · exact Or.inl ⟨e, .part hd hkept he⟩
        · exact Or.inr ⟨key :: above, next, below, e, rfl, .part hd hkept he, homits⟩

/-- Whether a value that is seen at an access path is what the cast makes of the raw
    value there, whatever mark for strictness its schema has. -/
def Makes (w : Workshop) (d : Casting) (input : Option Value) (path : List PartKey)
    (seen : Option Value) : Prop :=
  d.raw = Value.partAt input path ∧ ∃ v, d.result w = .ok v ∧
    (∀ strict, (d.withStrict strict).result w = .ok v) ∧ seen = leftAt path v

/-- Whether a value that is seen at an access path is what a cast makes of the raw value
    there, further steps below the given cast, unless one of these steps is omitted. -/
def Governs (w : Workshop) (c : Casting) (steps : List PartKey) (input : Option Value)
    (path : List PartKey) (seen : Option Value) : Prop :=
  (∀ d, c.CastsAt w steps d → d.Makes w input path seen) ∧
    ((∃ d, c.CastsAt w steps d) ∨ c.OmitsOn w steps)

/-- A cast that succeeds governs all that is seen in its result. -/
theorem governs (hw : w.Equipped C) (hc : c.schema.WellMade C) (hr : c.result w = .ok r)
    (path : List PartKey) : c.Governs w path c.raw path (Value.partAt r path) := by
  refine ⟨fun d hd => ?_, exists_castsAt hw hc hr path⟩
  obtain ⟨v, hv, hat⟩ := hd.result hw hc hr
  exact ⟨hd.raw, v, hv, fun strict => (d.result_withStrict w strict).trans hv, hat⟩

/-- The same is seen from the object that the raw value is a field of. -/
theorem Governs.field {input : Dict Value} {name : String} {seen : Option Value}
    (h : c.Governs w path (Dict.get? input name) path seen) :
    c.Governs w path (some (.obj input)) (.field name :: path) seen := by
  obtain ⟨hmakes, hreach⟩ := h
  refine ⟨fun d hd => ?_, hreach⟩
  obtain ⟨hraw, v, hv, hmarks, hseen⟩ := hmakes d hd
  exact ⟨hraw, v, hv, hmarks, hseen.trans (leftAt_field name path v).symm⟩

end Casting

-- ============================================================================
-- Nodes of a call
-- ============================================================================

namespace Workshop

variable {w : Workshop} {s : Schema} {n m : Node} {value : Option Value} {options : CallOptions}

/-- The node of a call has the input, or the cast of the input, for its value. -/
theorem checkedValue_of_enter (h : w.enter (root s value options) = .ok n) :
    w.checkedValue n.schema n.mode.strict value options = .ok n.value :=
  (enter_eq_ok h).2

/-- In an object that is cast, a strict field is as it was given, a stripped one is
    left out, and another one is cast. -/
theorem checked_field {t : Schema} {shape : Shape Schema} {input : Dict Value} {key : String}
    {field : Schema} {checked : Option Value} (hordered : shape.Ordered)
    (hkind : t.kind = .object shape) (htransforms : t.traits.transforms = [])
    (hfield : shape.fields.lookup key = some field)
    (h : w.checkedValue t false (some (.obj input)) options = .ok checked) :
    ∃ out done u, checked = some (.obj out) ∧
      w.doneBefore (w.castWithin (depthLimit + t.height)) t shape input (castOptions options) key =
        .ok done ∧
      w.resolve field (Dict.get? input key) ((castOptions options).forField done key) = .ok u ∧
      ((u.isStripped = true ∧ Dict.get? out key = none) ∨
        (u.isStripped = false ∧ u.isStrict = true ∧ Dict.get? out key = Dict.get? input key) ∨
        (u.isStripped = false ∧ u.isStrict = false ∧
          w.castWithin (depthLimit + t.height) u (Dict.get? input key)
            ((castOptions options).forField done key) = .ok (Dict.get? out key))) := by
  obtain ⟨out, rfl, hfields⟩ :=
    checkedValue_object rfl hkind (prepare_of_isType htransforms (Schema.isType_obj hkind input)) h
  obtain ⟨done, value, hdone, hvalue, rfl⟩ := castFields_field hordered hfield hfields
  obtain ⟨u, hu, hcases⟩ := castField_eq_ok hvalue
  exact ⟨out, done, u, rfl, hdone, hu, hcases⟩

/-- What the tests of a node see, by where the node stands. If the value of the call is
    taken strictly, they see the input. If it is an object that is cast, they see the
    input in the strict fields of this object and below them, and nothing in its
    stripped fields; in and below its other fields, and everywhere in a value that is
    no object, they see what the cast of the part makes of the input, be the schema of
    the part strict or not. -/
theorem strict_fields_of_root (hw : w.Reachable .all) (hs : s.Made .all)
    (henter : w.enter (root s value options) = .ok n) {path : List PartKey}
    (hm : n.Reaches w path m) :
    (n.mode.strict = true → m.subject.value = Value.partAt value path) ∧
    (n.mode.strict = false → n.schema.traits.transforms = [] →
      ∀ shape input key rest, n.schema.kind = .object shape → value = some (.obj input) →
        path = .field key :: rest →
        ∃ field done t, shape.fields.lookup key = some field ∧
          w.doneBefore (w.castWithin (depthLimit + n.schema.height)) n.schema shape input
            (castOptions options) key = .ok done ∧
          w.resolve field (Dict.get? input key) ((castOptions options).forField done key) =
            .ok t ∧
          ((t.isStripped = true ∧ m.subject.value = none) ∨
            (t.isStripped = false ∧ t.isStrict = true ∧
              m.subject.value = Value.partAt value path) ∨
            (t.isStripped = false ∧ t.isStrict = false ∧
              Casting.Governs w
                { depth := depthLimit + n.schema.height, schema := t, raw := Dict.get? input key
                  options := (castOptions options).forField done key }
                rest value path m.subject.value))) ∧
    (n.mode.strict = false → n.schema.tag ≠ .object →
      Casting.Governs w
        { depth := depthLimit + n.schema.height + 1, schema := n.schema, raw := value
          options := castOptions options }
        path value path m.subject.value) := by
  have hmade := enter_wellMade hw.equipped hs.wellMade henter
  have hchecked := checkedValue_of_enter henter
  refine ⟨fun hstrict => ?_, fun hstrict htransforms => ?_, fun hstrict htag => ?_⟩
  · rw [hstrict] at hchecked
    rw [hm.value, ← Except.ok.inj hchecked]
  · rintro shape input key rest hkind rfl rfl
    rw [hstrict] at hchecked
    obtain ⟨field, hfield⟩ := hm.lookup hkind
    obtain ⟨out, done, t, hout, hdone, ht, hcases⟩ :=
      checked_field (hmade.here.shape shape hkind) hkind htransforms hfield hchecked
    have hseen : m.subject.value = Value.partAt (Dict.get? out key) rest := by
      rw [hm.value, hout]
      rfl
    refine ⟨field, done, t, hfield, hdone, ht, ?_⟩
    rw [hseen]
    rcases hcases with ⟨hstripped, hnone⟩ | ⟨hkept, hmark, hsame⟩ | ⟨hkept, hmark, hcast⟩
    · rw [hnone, Value.partAt_none]
      exact Or.inl ⟨hstripped, rfl⟩
    · rw [hsame]
      exact Or.inr (Or.inl ⟨hkept, hmark, rfl⟩)
    · have hwell := resolve_wellMade hw.equipped (hmade.field hkind (Dict.mem_of_get? hfield)) ht
      have hgoverns := Casting.governs hw.equipped
        (c := ⟨depthLimit + n.schema.height, t, Dict.get? input key,
          (castOptions options).forField done key⟩) hwell hcast rest
      exact Or.inr (Or.inr ⟨hkept, hmark, hgoverns.field⟩)
  · rw [hstrict, checkedValue_of_tag_ne htag] at hchecked
    rw [hm.value]
    exact Casting.governs hw.equipped (c := ⟨_, n.schema, value, castOptions options⟩) hmade
      hchecked path

/-- A number that is not to be cast. -/
def strictNumber : Recipe := .make .number [.strict true]

/-- A strict number beside an object with a strict number. -/
def strictNumbers : Recipe :=
  .make .object [.shape
    [("a", .make .object [.shape [("b", strictNumber)] []]), ("b", strictNumber)] []]

/-- The tests of the strict number of the object that is validated see the text that
    was given; those of the strict number below see the number that a cast has made of
    it. -/
theorem strict_fields_of_root_nested :
    ∃ s n m below, initial.build none strictNumbers = .ok s ∧
      initial.enter (root s
        (some (.obj [("a", .obj [("b", .str "5")]), ("b", .str "5")])) .none) = .ok n ∧
      n.Reaches initial [.field "b"] m ∧ m.schema.isStrict = true ∧
      m.subject.value = some (.str "5") ∧
      n.Reaches initial [.field "a", .field "b"] below ∧ below.schema.isStrict = true ∧
      below.subject.value = some (.num (.int 5)) := by
  obtain ⟨s, n, shape, inner, a, b, x, hs, henter, hkind, hstrict, htransforms, hrecursive, hdown,
    hvalue, ha, hb, hx, hakind, hplain, hbmark, hxmark, hastripped, hamark, hbstripped, hdone,
    d, hd, hresult⟩ :
      ∃ s n shape inner a b x, initial.build none strictNumbers = .ok s ∧
        initial.enter (root s
          (some (.obj [("a", .obj [("b", .str "5")]), ("b", .str "5")])) .none) = .ok n ∧
        n.schema.kind = .object shape ∧ n.mode.strict = false ∧
        n.schema.traits.transforms = [] ∧ n.mode.recursive = true ∧
        (∀ out, ((n.fieldPart out ("a", a)).node a).mode.recursive = true) ∧
        n.value = some (.obj (Dict.merge
          [("a", .obj (Dict.merge [("b", .num (.int 5))] [])), ("b", .str "5")] [])) ∧
        shape.fields.lookup "a" = some a ∧ shape.fields.lookup "b" = some b ∧
        inner.fields.lookup "b" = some x ∧ a.kind = .object inner ∧
        (a.conditions = [] ∧ b.conditions = [] ∧ x.conditions = [] ∧ b.kind = .number ∧
          x.kind = .number) ∧
        b.isStrict = true ∧ x.isStrict = true ∧ a.isStripped = false ∧ a.isStrict = false ∧
        b.isStripped = false ∧
        initial.doneBefore (initial.castWithin (depthLimit + n.schema.height)) n.schema shape
          [("a", .obj [("b", .str "5")]), ("b", .str "5")] (castOptions .none) "a" = .ok [] ∧
        ∃ d, Casting.CastsAt initial
          { depth := depthLimit + n.schema.height, schema := a
            raw := some (.obj [("b", .str "5")])
            options := (castOptions .none).forField [] "a" } [.field "b"] d ∧
          d.result initial = .ok (some (.num (.int 5))) :=
    ⟨_, _, _, _, _, _, _, rfl, rfl, rfl, rfl, rfl, rfl, fun _ => rfl, rfl, rfl, rfl, rfl, rfl,
      ⟨rfl, rfl, rfl, rfl, rfl⟩, rfl, rfl, rfl, rfl, rfl, rfl,
      _, .part (.field rfl rfl rfl rfl rfl) rfl .here, rfl⟩
  obtain ⟨haplain, hbplain, hxplain, hbkind, hxkind⟩ := hplain
  have hmade : s.Made .all := ⟨initial, none, strictNumbers, .initial, trivial, hs⟩
  simp only [Dict.merge, List.merge_right] at hvalue
  have hreach : n.Reaches initial [.field "b"] _ :=
    .field hrecursive hkind hvalue hb (by simp [hbkind]) hbplain .here
  have hbelow : n.Reaches initial [.field "a", .field "b"] _ :=
    .field hrecursive hkind hvalue ha (by simp [hakind]) haplain
      (.field (hdown _) hakind rfl hx (by simp [hxkind]) hxplain .here)
  obtain ⟨-, hobject, -⟩ := strict_fields_of_root .initial hmade henter hreach
  obtain ⟨-, hobjectBelow, -⟩ := strict_fields_of_root .initial hmade henter hbelow
  refine ⟨s, n, _, _, hs, henter, hreach, hbmark, ?_, hbelow, hxmark, ?_⟩
  · obtain ⟨field, done, t, hfield, -, ht, hcases⟩ :=
      hobject hstrict htransforms shape _ "b" [] hkind rfl rfl
    cases hb.symm.trans hfield
    cases (resolve_self (by simp [hbkind]) hbplain _ _).symm.trans ht
    rcases hcases with ⟨hstripped, -⟩ | ⟨-, -, hseen⟩ | ⟨-, hmark, -⟩
    · exact absurd hstripped (by simp [hbstripped])
    · exact hseen
    · exact absurd hmark (by simp [hbmark])
  · obtain ⟨field, done, t, hfield, hdone', ht, hcases⟩ :=
      hobjectBelow hstrict htransforms shape _ "a" [.field "b"] hkind rfl rfl
    cases ha.symm.trans hfield
    cases hdone.symm.trans hdone'
    cases (resolve_self (by simp [hakind]) haplain _ _).symm.trans ht
    rcases hcases with ⟨hstripped, -⟩ | ⟨-, hmark, -⟩ | ⟨-, -, hmakes, -⟩
    · exact absurd hstripped (by simp [hastripped])
    · exact absurd hmark (by simp [hamark])
    · obtain ⟨-, v, hv, -, hseen⟩ := hmakes d hd
      cases hresult.symm.trans hv
      exact hseen

end Workshop

end Conform
