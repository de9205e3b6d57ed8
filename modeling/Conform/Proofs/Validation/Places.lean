/-
  Conform.Proofs.Validation.Places

  The validation of the part at a path beside the validation of the whole. Where schemas
  read nothing but the value, the cast of the whole has the cast of the part in it, and
  the node of the part is valid wherever it stands. So the part is accepted exactly if the
  report on the whole has no leaf from the part or from below it.
-/

import Conform.Proofs.Path.Text
import Conform.Proofs.Schema.Placeless
import Conform.Proofs.Schema.Reaching
import Conform.Proofs.Validation.StrictFields

namespace Conform

-- ============================================================================
-- Access paths as text
-- ============================================================================

namespace PartKey

/-- The step of a path that goes to the part. -/
def segment : PartKey → Segment
  | .field key => .key key false
  | .item position => .index position

/-- The step that the text of the key is read as. -/
def reading : PartKey → Segment
  | .field key => Path.bareSegment key.toList
  | .item position => .index position

/-- Whether the key stands in the text of a path as one part: a name, or a position that
    fits in a machine word. -/
def Named : PartKey → Prop
  | .field key => Path.Name key
  | .item position => position ≤ greatestIndex

/-- Whether the text of a path shows the key as it is: a plain key, or a position that
    fits in a machine word. -/
def Shown : PartKey → Prop
  | .field key => Path.PlainKey key
  | .item position => position ≤ greatestIndex

theorem Shown.named {key : PartKey} (h : key.Shown) : key.Named := by
  cases key with
  | field name => exact Path.PlainKey.toName h
  | item position => exact h

theorem Shown.reading_eq {key : PartKey} (h : key.Shown) : key.reading = key.segment := by
  cases key with
  | field name => exact Path.PlainKey.bareSegment_eq h
  | item position => rfl

/-- The path of the parts below a path, as validations write it. -/
def pathBelow (base : Option String) : List PartKey → Option String
  | [] => base
  | .field key :: rest => pathBelow (some (Path.joinKey base key)) rest
  | .item position :: rest => pathBelow (some (Path.joinIndex base position)) rest

/-- The text of an access path; that of the whole value is empty. -/
def pathText (path : List PartKey) : String := (pathBelow none path).getD ""

variable {path : List PartKey} {base : Option String} {steps : List Segment}

theorem reads_pathBelow (hpath : ∀ key ∈ path, key.Named)
    (hbase : Path.Reads (base.getD "") steps) :
    Path.Reads ((pathBelow base path).getD "") (steps ++ path.map reading) := by
  induction path generalizing base steps with
  | nil =>
      rw [List.map_nil, List.append_nil]
      exact hbase
  | cons key rest ih =>
      obtain ⟨hkey, hrest⟩ := List.forall_mem_cons.mp hpath
      rw [List.map_cons, List.append_cons]
      cases key with
      | field name => exact ih hrest (hbase.joinName hkey)
      | item position => exact ih hrest (hbase.joinIndex hkey)

/-- The text of an access path is read part by part. -/
theorem parse_pathText_named (hpath : ∀ key ∈ path, key.Named) :
    Path.parse (pathText path) = path.map reading := by
  have hempty : Path.Reads ((none : Option String).getD "") [] := Path.reads_empty
  exact (reads_pathBelow hpath hempty).parse

/-- The text of an access path is read as its steps. -/
theorem parse_pathText (hpath : ∀ key ∈ path, key.Shown) :
    Path.parse (pathText path) = path.map segment := by
  rw [parse_pathText_named fun key hkey => (hpath key hkey).named]
  exact List.map_congr_left fun key hkey => (hpath key hkey).reading_eq

end PartKey

-- ============================================================================
-- Reaching a part
-- ============================================================================

/-- Whether an access path leads from a value with a schema to a part with a schema: by
    declared fields of objects, and by existing items of arrays that have an element
    schema. -/
inductive Schema.Leads : Schema → Option Value → List PartKey → Schema → Prop where
  | here {s : Schema} {v : Option Value} : Leads s v [] s
  | field {s f t : Schema} {shape : Shape Schema} {fields : Dict Value} {key : String}
      {path : List PartKey} :
      s.kind = .object shape → shape.fields.lookup key = some f →
      Leads f (Dict.get? fields key) path t →
      Leads s (some (.obj fields)) (.field key :: path) t
  | item {s element t : Schema} {items : List Value} {item : Value} {position : Nat}
      {path : List PartKey} :
      s.kind = .array (.of element) → items[position]? = some item →
      Leads element (some item) path t → Leads s (some (.arr items)) (.item position :: path) t

namespace Schema.Leads

variable {s t : Schema} {v : Option Value} {path : List PartKey}

theorem everywhere {N : Schema → Prop} (h : s.Leads v path t) (hs : s.Everywhere N) :
    t.Everywhere N := by
  induction h with
  | here => exact hs
  | field hkind hf _ ih => exact ih (hs.field hkind (Dict.mem_of_get? hf))
  | item hkind _ _ ih => exact ih (hs.element hkind)

end Schema.Leads

namespace Workshop

variable {C : RecipeClass} {w : Workshop} {s t : Schema} {v raw r : Option Value}
  {path : List PartKey} {options : CallOptions}

/-- The steps of a path lead where the access path leads. -/
theorem foldlM_walk (h : s.Leads v path t) (hs : s.Everywhere Schema.Placeless) (text : String)
    (context parent : Option Value) (walked : String) :
    ∃ last, (path.map PartKey.segment).foldlM (walk w text context) ⟨s, parent, v, walked⟩ =
        .ok last ∧ last.schema = t ∧ last.value = Value.partAt v path := by
  induction h generalizing parent walked with
  | here => exact ⟨_, rfl, rfl, rfl⟩
  | @field s f t shape fields key path hkind hf _ ih =>
      obtain ⟨last, hlast, hat⟩ := ih (hs.field hkind (Dict.mem_of_get? hf)) (some (.obj fields))
        (walked ++ keyText key false)
      refine ⟨last, ?_, hat⟩
      rw [List.map_cons, List.foldlM_cons, PartKey.segment,
        walk_field (hs.here.resolve w _ _) hkind hf]
      exact hlast
  | @item s element t items item position path hkind hitem _ ih =>
      obtain ⟨last, hlast, hschema, hvalue⟩ := ih (hs.element hkind) (some (.arr items))
        (walked ++ "[" ++ toString position ++ "]")
      refine ⟨last, ?_, hschema, ?_⟩
      · rw [List.map_cons, List.foldlM_cons, PartKey.segment,
          walk_item (hs.here.resolve w _ _) hkind hitem]
        exact hlast
      · rw [hvalue, Value.partAt, Option.bind_some, Value.part?, Value.item?, hitem]

/-- The options of a call for a part at a path. -/
def partOptions (options : CallOptions) (path : String) (parent : Option Value) : CallOptions :=
  { options with path := some path, parent := parent <|> options.parent }

/-- The validation at a path is a validation of the part with the schema of the part. -/
theorem validateSyncAt_eq (hs : s.Everywhere Schema.Placeless) {value : Value}
    (h : s.Leads (some value) path t) (hpath : ∀ key ∈ path, key.Shown) (options : CallOptions) :
    ∃ parent, w.validateSyncAt s (PartKey.pathText path) value options =
      w.validateSync t (Value.partAt (some value) path)
        (partOptions options (PartKey.pathText path) parent) := by
  obtain ⟨last, hlast, rfl, hvalue⟩ := foldlM_walk (w := w) h hs (PartKey.pathText path)
    (options.context <|> some value) none ""
  have hresolve := (h.everywhere hs).here.resolve w last.value
    (scope last.parent (options.context <|> some value))
  refine ⟨last.parent, ?_⟩
  rw [validateSyncAt, atPath, reach, PartKey.parse_pathText hpath, hlast]
  simp only [bind, Except.bind, hresolve]
  rw [← hvalue]
  rfl

/-- The cast of a value has the cast of a part at the access path of the part. -/
theorem Casts.partAt (h : w.Casts options s raw r) (hleads : s.Leads raw path t)
    (hs : s.Everywhere Schema.Placeless) (hmade : s.WellMade C)
    (hoff : options.assertType = some false) :
    w.Casts options t (Value.partAt raw path) (Value.partAt r path) := by
  induction hleads generalizing r with
  | here => exact h
  | @field s f t shape fields key path hkind hf _ ih =>
      have hmem := Dict.mem_of_get? hf
      obtain ⟨out, rfl, hfield⟩ := h.field hs hoff hkind (hmade.here.shape shape hkind) hf
      exact ih hfield (hs.field hkind hmem) (hmade.field hkind hmem)
  | @item s element t items item position path hkind hitem _ ih =>
      obtain ⟨out, v, rfl, hv, hcast⟩ := h.item hs hoff hkind hitem
      have hpart := ih hcast (hs.element hkind) (hmade.element hkind)
      rw [Value.partAt, Value.partAt, Option.bind_some, Option.bind_some, Value.part?, Value.part?,
        Value.item?, Value.item?, hitem, hv]
      exact hpart

end Workshop

-- ============================================================================
-- Nodes that stand elsewhere
-- ============================================================================

namespace Node

variable {C : RecipeClass} {w : Workshop} {n m : Node} {key : PartKey} {p q : Part}
  {path below : List PartKey}

/-- Whether two nodes are of the same value with the same schema, under options that go
    down alike. -/
structure Alike (n m : Node) : Prop where
  schema : m.schema = n.schema
  value : m.value = n.value
  recursive : m.options.recursive = n.options.recursive

theorem Alike.symm (h : n.Alike m) : m.Alike n := ⟨h.schema.symm, h.value.symm, h.recursive.symm⟩

theorem lists_alike (h : n.Alike m) {set : EntrySet} (hrefs : set.refs = [])
    (hlists : n.Lists set) : m.Lists set := by
  obtain ⟨v, hv, hadmits⟩ := hlists
  refine ⟨v, h.value.trans hv, ?_⟩
  rw [EntrySet.admits, hrefs] at hadmits ⊢
  exact hadmits

/-- A node is valid by itself wherever it stands. -/
theorem Sound.alike (hsound : n.Sound) (h : n.Alike m) (hs : n.schema.Placeless) : m.Sound := by
  obtain ⟨hallow, hdeny⟩ := hs.lists
  refine ⟨?_, ?_, ?_, ?_⟩
  · rw [h.schema, h.value]
    exact hsound.typed
  · rw [h.schema, h.value]
    exact fun hcheck => (hsound.allowed hcheck).imp_right fun hlisted =>
      hlisted.imp_right fun hlists => lists_alike h hallow hlists
  · rw [h.schema]
    exact fun hcheck hlists => hsound.denied hcheck (lists_alike h.symm hdeny hlists)
  · rw [h.schema]
    intro t ht
    have hnode : m.subject.node = n.subject.node := by
      show m.schema.view = n.schema.view
      rw [h.schema]
    exact (hs.tests t ht).alike h.value.symm hnode.symm (hsound.tests t ht)

/-- Nodes that are alike hand down parts that are alike. -/
theorem Hands.alike (hp : m.Hands key p) (h : n.Alike m) :
    ∃ q, n.Hands key q ∧ q.schema = p.schema ∧ q.value = p.value ∧
      p.options.recursive = q.options.recursive := by
  have hmode : m.mode.recursive = n.mode.recursive := by
    rw [mode, mode, Mode.of, Mode.of, h.schema, h.recursive]
  cases hp with
  | field hrecursive hkind hvalue hf =>
      rw [hmode] at hrecursive
      rw [h.schema] at hkind
      rw [h.value] at hvalue
      exact ⟨_, .field hrecursive hkind hvalue hf, rfl, rfl, h.recursive⟩
  | item hrecursive hkind hvalue hitem =>
      rw [hmode] at hrecursive
      rw [h.schema] at hkind
      rw [h.value] at hvalue
      exact ⟨_, .item hrecursive hkind hvalue hitem, rfl, rfl, h.recursive⟩

/-- A node is valid at every depth wherever it stands. -/
theorem Valid.alike (hvalid : n.Valid w) (h : n.Alike m)
    (hs : n.schema.Everywhere Schema.Placeless) : m.Valid w := by
  induction hvalid generalizing m with
  | @intro n hsound hresolves hparts ih =>
      refine .of_parts (hsound.alike h hs.here) fun p hp => ?_
      obtain ⟨key, hkey⟩ := mem_parts_iff.mp hp
      obtain ⟨q, hq, hschema, hvalue, hrecursive⟩ := hkey.alike h
      have hmem : q ∈ n.parts := mem_parts_iff.mpr ⟨key, hq⟩
      have hpart := everywhere_part hs hmem
      have hresolve := hpart.here.resolve w q.value q.options
      have hbelow := ih q hmem q.schema hresolve (m := p.node p.schema)
        ⟨hschema.symm, hvalue.symm, hrecursive⟩ hpart
      rw [hschema] at hpart
      exact ⟨p.schema, hpart.here.resolve w _ _, hbelow⟩

-- ============================================================================
-- Nodes at access paths
-- ============================================================================

theorem Reaches.append {l : Node} (h : n.Reaches w path m) (hbelow : m.Reaches w below l) :
    n.Reaches w (path ++ below) l := by
  induction h with
  | here => exact hbelow
  | part hkey ht _ ih => exact .part hkey ht (ih hbelow)

/-- The part under the key of a field. -/
theorem Hands.field_cases {name : String} (h : n.Hands (.field name) p) :
    ∃ shape fields f, n.schema.kind = .object shape ∧ n.value = some (.obj fields) ∧
      (name, f) ∈ shape.fields ∧ p = n.fieldPart fields (name, f) := by
  cases h with
  | field _ hkind hvalue hf => exact ⟨_, _, _, hkind, hvalue, hf, rfl⟩

/-- The part under the position of an item. -/
theorem Hands.item_cases {position : Nat} (h : n.Hands (.item position) p) :
    ∃ element items item, n.schema.kind = .array (.of element) ∧ n.value = some (.arr items) ∧
      items[position]? = some item ∧ p = n.itemPart element items (item, position) := by
  cases h with
  | item _ hkind hvalue hitem =>
      exact ⟨_, _, _, hkind, hvalue, List.mem_zipIdx_iff_getElem?.mp hitem, rfl⟩

/-- A validation reports a part under the path that the access path is written as. -/
theorem Reaches.options_path (h : n.Reaches w path m) :
    m.options.path = PartKey.pathBelow n.options.path path := by
  induction h with
  | here => rfl
  | part hkey _ _ ih =>
      cases hkey with
      | field _ _ _ _ => exact ih
      | item _ _ _ _ => exact ih

/-- A node hands down one part under a key. -/
theorem Hands.unique (hshape : ∀ shape, n.schema.kind = .object shape → shape.Ordered)
    (hp : n.Hands key p) (hq : n.Hands key q) : p = q := by
  cases key with
  | field name =>
      obtain ⟨shape, fields, f, hkind, hvalue, hf, rfl⟩ := hp.field_cases
      obtain ⟨shape', fields', g, hkind', hvalue', hg, rfl⟩ := hq.field_cases
      cases hkind.symm.trans hkind'
      cases hvalue.symm.trans hvalue'
      have hkeys : (Dict.keys shape.fields).Nodup := (hshape shape hkind).keys
      obtain rfl : f = g := Option.some.inj
        ((Dict.get?_of_mem hkeys hf).symm.trans (Dict.get?_of_mem hkeys hg))
      rfl
  | item position =>
      obtain ⟨element, items, item, hkind, hvalue, hitem, rfl⟩ := hp.item_cases
      obtain ⟨element', items', item', hkind', hvalue', hitem', rfl⟩ := hq.item_cases
      cases hkind.symm.trans hkind'
      cases hvalue.symm.trans hvalue'
      cases hitem.symm.trans hitem'
      rfl

/-- What is below an access path is below the node at the path. -/
theorem Reaches.of_append {l : Node} (h : n.Reaches w path m) (hw : w.Equipped C)
    (hn : n.schema.WellMade C) (hl : n.Reaches w (path ++ below) l) : m.Reaches w below l := by
  induction h with
  | here => exact hl
  | part hkey ht _ ih =>
      cases hl with
      | part hkey' ht' hl' =>
          obtain rfl := hkey.unique hn.here.shape hkey'
          cases ht.symm.trans ht'
          have hpart := everywhere_part hn (mem_parts_iff.mpr ⟨_, hkey⟩)
          exact ih (Workshop.resolve_wellMade hw hpart ht) hl'

/-- Where an access path leads, a validation that goes down comes to the node of the
    part. -/
theorem exists_reaches {s t : Schema} {raw : Option Value} {options : CallOptions}
    (hleads : s.Leads raw path t) (hschema : n.schema = s) (hs : s.Everywhere Schema.Placeless)
    (hmade : s.WellMade C) (hdown : n.options.recursive = none)
    (hoff : options.assertType = some false) (hcast : w.Casts options s raw n.value) :
    ∃ m, n.Reaches w path m ∧ m.schema = t ∧ m.options.recursive = none ∧
      m.options.abortEarly = n.options.abortEarly := by
  induction hleads generalizing n with
  | here => exact ⟨n, .here, hschema, hdown, rfl⟩
  | @field s f t shape fields key path hkind hf _ ih =>
      have hmem : (key, f) ∈ shape.fields := Dict.mem_of_get? hf
      obtain ⟨out, hvalue, hfield⟩ := hcast.field hs hoff hkind (hmade.here.shape shape hkind) hf
      have hrecursive : n.mode.recursive = true := by
        rw [mode, Mode.of, hdown, hschema, hs.here.options]
        rfl
      have hpart : n.Hands (.field key) (n.fieldPart out (key, f)) :=
        .field hrecursive (hschema ▸ hkind) hvalue hmem
      have hresolve := (hs.field hkind hmem).here.resolve w (n.fieldPart out (key, f)).value
        (n.fieldPart out (key, f)).options
      obtain ⟨m, hm, hat⟩ := ih (n := (n.fieldPart out (key, f)).node f) rfl (hs.field hkind hmem)
        (hmade.field hkind hmem) hdown hfield
      exact ⟨m, .part hpart hresolve hm, hat⟩
  | @item s element t items item position path hkind hitem _ ih =>
      obtain ⟨out, v, hvalue, hv, hcastItem⟩ := hcast.item hs hoff hkind hitem
      have hrecursive : n.mode.recursive = true := by
        rw [mode, Mode.of, hdown, hschema, hs.here.options]
        rfl
      have hmem : (v, position) ∈ out.zipIdx := List.mem_zipIdx_iff_getElem?.mpr hv
      have hpart : n.Hands (.item position) (n.itemPart element out (v, position)) :=
        .item hrecursive (hschema ▸ hkind) hvalue hmem
      have hresolve := (hs.element hkind).here.resolve w
        (n.itemPart element out (v, position)).value (n.itemPart element out (v, position)).options
      obtain ⟨m, hm, hat⟩ := ih (n := (n.itemPart element out (v, position)).node element) rfl
        (hs.element hkind) (hmade.element hkind) hdown hcastItem
      exact ⟨m, .part hpart hresolve hm, hat⟩

-- ============================================================================
-- Reports
-- ============================================================================

/-- What is validated below a node stands for itself and is judged without waiting. -/
theorem Visits.placeless (hm : n.Visits w m) (hs : n.schema.Everywhere Schema.Placeless) :
    m.schema.Everywhere Schema.Placeless := by
  induction hm with
  | here => exact hs
  | part hp ht _ ih =>
      have hpart := everywhere_part hs hp
      cases (hpart.here.resolve w _ _).symm.trans ht
      exact ih hpart

theorem ready_of_mem_invoked (hmade : n.schema.Regular C) (hs : n.schema.Placeless) {t : Test}
    (ht : t ∈ n.invoked) : (t.outcome n.subject).isPending = false := by
  rcases List.mem_append.mp ht with hpre | htest
  · obtain ⟨c, hc⟩ := check_of_prerequisite hmade hpre
    rw [Test.outcome, hc]
    exact c.judge_isPending _
  · split at htest
    · exact (hs.tests t htest).ready _
    · exact absurd htest (by simp)

/-- A run of a node ends with the report of the node. -/
theorem run_eq_report (hw : w.Equipped C) (hmade : n.schema.WellMade C)
    (hs : n.schema.Everywhere Schema.Placeless) (habort : n.options.abortEarly = some false) :
    (n.run true (w.validateWithin true (Value.heightOf n.value))).result = n.report w :=
  Workshop.run_eq_report hw hmade (Nat.le_refl _) habort
    (fun _ hm _ ht => ready_of_mem_invoked (Workshop.visits_wellMade hw hm hmade).here
      (hm.placeless hs).here ht)
    fun _ hm p hp => ⟨p.schema, (everywhere_part (hm.placeless hs) hp).here.resolve w _ _⟩

/-- A node without violations is one that is valid. -/
theorem violations_eq_nil_iff (hw : w.Equipped C) (hmade : n.schema.WellMade C)
    (hs : n.schema.Everywhere Schema.Placeless) (habort : n.options.abortEarly = some false) :
    n.violations w = [] ↔ n.Valid w := by
  have hvalid := Workshop.run_result_eq_ok_iff_valid hw hmade (Nat.le_refl _) (r := n.value)
  rw [run_eq_report hw hmade hs habort, report] at hvalid
  by_cases hnil : n.violations w = []
  · rw [if_pos hnil] at hvalid
    exact iff_of_true hnil (hvalid.mp rfl).2
  · rw [if_neg hnil] at hvalid
    exact iff_of_false hnil fun h => absurd (hvalid.mpr ⟨rfl, h⟩) (by simp)

/-- Whether a report on a node has a leaf from the part at an access path. -/
def Blames (w : Workshop) (n : Node) (path : List PartKey) (leaf : Violation) : Prop :=
  ∃ m, n.Reaches w path m ∧ ∃ v ∈ m.ownViolations, leaf ∈ v.leaves

/-- The leaves of a report are those of the parts. -/
theorem mem_leaves_iff {leaf : Violation} :
    leaf ∈ (n.violations w).flatMap Violation.leaves ↔ ∃ path, n.Blames w path leaf := by
  constructor
  · intro h
    obtain ⟨v, hv, hleaf⟩ := List.mem_flatMap.mp h
    obtain ⟨m, hm, hown⟩ := mem_violations.mp hv
    obtain ⟨path, hpath⟩ := visits_iff_reaches.mp hm
    exact ⟨path, m, hpath, v, hown, hleaf⟩
  · rintro ⟨path, m, hpath, v, hown, hleaf⟩
    exact List.mem_flatMap.mpr
      ⟨v, mem_violations.mpr ⟨m, visits_iff_reaches.mpr ⟨path, hpath⟩, hown⟩, hleaf⟩

/-- A part is valid exactly if no leaf is from it or from below it. -/
theorem Reaches.valid_iff (hm : n.Reaches w path m) (hw : w.Equipped C)
    (hmade : n.schema.WellMade C) (hs : n.schema.Everywhere Schema.Placeless)
    (habort : m.options.abortEarly = some false) :
    m.Valid w ↔ ∀ below leaf, ¬ n.Blames w (path ++ below) leaf := by
  have hvisits := visits_iff_reaches.mpr ⟨path, hm⟩
  rw [← violations_eq_nil_iff hw (Workshop.visits_wellMade hw hvisits hmade) (hvisits.placeless hs)
    habort]
  constructor
  · rintro hnil below leaf ⟨l, hl, v, hv, -⟩
    have hmem : v ∈ m.violations w :=
      mem_violations.mpr ⟨l, visits_iff_reaches.mpr ⟨below, hm.of_append hw hmade hl⟩, hv⟩
    rw [hnil] at hmem
    exact absurd hmem (by simp)
  · intro hnone
    rw [List.eq_nil_iff_forall_not_mem]
    intro v hv
    obtain ⟨l, hl, hown⟩ := mem_violations.mp hv
    obtain ⟨below, hbelow⟩ := visits_iff_reaches.mp hl
    obtain ⟨leaf, hleaf⟩ := List.exists_mem_of_ne_nil _ v.leaves_ne_nil
    exact hnone below leaf ⟨l, hm.append hbelow, v, hown, hleaf⟩

end Node

-- ============================================================================
-- Calls
-- ============================================================================

namespace Workshop

variable {C : RecipeClass} {w : Workshop} {s t : Schema} {raw r : Option Value}
  {path : List PartKey} {options : CallOptions}

/-- The node that a call enters has the cast of the value. -/
theorem enter_of_casts (hs : s.Placeless) (hstrict : options.strict = none)
    (h : w.Casts (castOptions options) s raw r) :
    w.enter (root s raw options) = .ok ⟨s, r, rawOf raw none, options⟩ := by
  have hmode : (Mode.of options s.traits.options).strict = false := by
    rw [Mode.of, hstrict, hs.options]
    rfl
  have hchecked : w.checkedValue s false raw options = .ok r := by
    rw [checkedValue]
    exact h _ _ _ (by omega) ⟨rfl, rfl⟩
  rw [enter, root, hs.resolve]
  simp only [bind, Except.bind, hmode, hchecked]
  rfl

/-- Whether a call that collects all violations has a leaf from the part at an access
    path. -/
def Blames (w : Workshop) (s : Schema) (value : Option Value) (path : List PartKey)
    (leaf : Violation) : Prop :=
  ∃ n, w.enter (root s value collecting) = .ok n ∧ n.Blames w path leaf

theorem blames_iff {n : Node} (henter : w.enter (root s raw collecting) = .ok n)
    {leaf : Violation} : w.Blames s raw path leaf ↔ n.Blames w path leaf := by
  constructor
  · rintro ⟨m, hm, hblames⟩
    cases henter.symm.trans hm
    exact hblames
  · exact fun hblames => ⟨n, henter, hblames⟩

/-- The validation of a part gives the cast of the part, if no leaf of the report on the
    whole is from the part or from below it. -/
theorem validateSyncAt_eq_ok {n : Node} (hw : w.Equipped C) (hmade : s.WellMade C)
    (hs : s.Everywhere Schema.Placeless) {value : Value} (hleads : s.Leads (some value) path t)
    (hshown : ∀ key ∈ path, key.Shown) (hcast : w.Casts (castOptions collecting) s (some value) r)
    (hn : n = ⟨s, r, rawOf (some value) none, collecting⟩) {x : Option Value} :
    w.validateSyncAt s (PartKey.pathText path) value collecting = .ok x ↔
      x = Value.partAt r path ∧ ∀ below leaf, ¬ n.Blames w (path ++ below) leaf := by
  subst hn
  obtain ⟨parent, hat⟩ := validateSyncAt_eq (w := w) hs hleads hshown collecting
  obtain ⟨m, hm, hschema, hdown, habort⟩ :=
    Node.exists_reaches (n := ⟨s, r, rawOf (some value) none, collecting⟩) hleads rfl hs hmade rfl
      rfl hcast
  have ht := hleads.everywhere hs
  have hpart : w.Casts (castOptions (partOptions collecting (PartKey.pathText path) parent)) t
      (Value.partAt (some value) path) (Value.partAt r path) :=
    (hcast.partAt hleads hs hmade rfl).of_castLike ⟨rfl, rfl⟩
  have henter := enter_of_casts ht.here rfl hpart
  have halike : Node.Alike m ⟨t, Value.partAt r path, rawOf (Value.partAt (some value) path) none,
      partOptions collecting (PartKey.pathText path) parent⟩ :=
    ⟨hschema.symm, hm.value.symm, hdown.symm⟩
  rw [hat, validateSync_eq_ok_iff_enter hw (hleads.everywhere hmade),
    ← hm.valid_iff hw hmade hs habort]
  constructor
  · rintro ⟨k, hk, rfl, hvalid⟩
    cases henter.symm.trans hk
    exact ⟨rfl, hvalid.alike halike.symm ht⟩
  · rintro ⟨rfl, hvalid⟩
    exact ⟨_, henter, rfl, hvalid.alike halike (hschema ▸ ht)⟩

/-- The validation at a path agrees with that of the whole: where schemas read nothing but
    the value, it succeeds exactly if the whole is accepted or its report has no leaf from
    the part at the path or from below it. If the whole is accepted, it gives the part of
    the result at the path. -/
theorem validateSyncAt_agrees (hw : w.Reachable .all) (hs : s.Made .all)
    (hplaceless : s.Everywhere Schema.Placeless) {value : Value}
    (hleads : s.Leads (some value) path t) (hshown : ∀ key ∈ path, key.Shown) :
    ((∃ r, w.validateSyncAt s (PartKey.pathText path) value collecting = .ok r) ↔
      (∃ r, w.validateSync s (some value) collecting = .ok r) ∨
        ∃ e, w.validateSync s (some value) collecting = .error (.violation e) ∧
          ∀ leaf ∈ e.leaves, ∀ below, ¬ w.Blames s (some value) (path ++ below) leaf) ∧
    ∀ r, w.validateSync s (some value) collecting = .ok r →
      w.validateSyncAt s (PartKey.pathText path) value collecting =
        .ok (Value.partAt r path) := by
  have hequipped := hw.equipped
  have hmade := hs.wellMade
  obtain ⟨r, hcast⟩ : ∃ r, w.Casts (castOptions collecting) s (some value) r :=
    exists_casts hplaceless rfl (some value)
  have henter := enter_of_casts hplaceless.here rfl hcast
  obtain ⟨n, hn⟩ : ∃ n : Node, n = ⟨s, r, rawOf (some value) none, collecting⟩ := ⟨_, rfl⟩
  rw [← hn] at henter
  have hpart {x : Option Value} :=
    validateSyncAt_eq_ok hequipped hmade hplaceless hleads hshown hcast hn (x := x)
  have hwhole : w.validateSync s (some value) collecting = n.report w := by
    rw [validateSync_eq hequipped hmade, henter]
    subst hn
    exact Node.run_eq_report hequipped hmade hplaceless rfl
  rw [hwhole, Node.report]
  by_cases hnil : n.violations w = []
  · have hnone : ∀ below leaf, ¬ n.Blames w (path ++ below) leaf := by
      intro below leaf hblames
      have hmem := Node.mem_leaves_iff.mpr ⟨_, hblames⟩
      rw [hnil] at hmem
      exact absurd hmem (by simp)
    rw [if_pos hnil]
    refine ⟨iff_of_true ⟨_, hpart.mpr ⟨rfl, hnone⟩⟩ (Or.inl ⟨_, rfl⟩), ?_⟩
    rintro x ⟨⟩
    subst hn
    exact hpart.mpr ⟨rfl, hnone⟩
  · rw [if_neg hnil]
    refine ⟨⟨?_, ?_⟩, by simp⟩
    · rintro ⟨x, hx⟩
      refine Or.inr ⟨_, rfl, fun leaf _ below hblames => ?_⟩
      exact (hpart.mp hx).2 below leaf ((blames_iff henter).mp hblames)
    · rintro (⟨x, hx⟩ | ⟨e, he, hnone⟩)
      · exact absurd hx (by simp)
      · cases he
        refine ⟨_, hpart.mpr ⟨rfl, fun below leaf hblames => ?_⟩⟩
        refine hnone leaf ?_ below ((blames_iff henter).mpr hblames)
        rw [Violation.leaves_collect hnil]
        exact Node.mem_leaves_iff.mpr ⟨_, hblames⟩

/-- A list of scores, none of them below three. -/
def scores : Recipe :=
  .make .object [.shape [("scores", .make .array
    [.element (.make .number [.min (.value (.int 3))])])] []]

/-- Two scores, one of which is too low. -/
def someScores : Value := .obj [("scores", .arr [.str "5", .int 1])]

/-- The first score is accepted by itself, and so the report on both has no leaf from it. -/
theorem validateSyncAt_agrees_scores :
    ∃ s t, initial.build none scores = .ok s ∧
      s.Leads (some someScores) [.field "scores", .item 0] t ∧
      initial.validateSyncAt s (PartKey.pathText [.field "scores", .item 0]) someScores collecting =
        .ok (some (.int 5)) ∧
      ((∃ r, initial.validateSync s (some someScores) collecting = .ok r) ∨
        ∃ e, initial.validateSync s (some someScores) collecting = .error (.violation e) ∧
          ∀ leaf ∈ e.leaves, ∀ below,
            ¬ initial.Blames s (some someScores) ([.field "scores", .item 0] ++ below) leaf) := by
  obtain ⟨s, list, score, atLeast, hs, hkind, hlist, hscore, hobject, harray, hnumber, htests,
      hcheck, hparams, ⟨hallow, hdeny⟩, htype, hprepare⟩ :
      ∃ s list score atLeast, initial.build none scores = .ok s ∧
        s.kind = .object ⟨[("scores", list)], ["scores"], []⟩ ∧ list.kind = .array (.of score) ∧
        score.kind = .number ∧ s.Placeless ∧ list.Placeless ∧
        (atLeast.ByValue → score.Placeless) ∧ score.traits.tests = [atLeast] ∧
        atLeast.predicate = .check .atLeast ∧ atLeast.params = [("min", .value (.int 3))] ∧
        (score.traits.allowCheck = none ∧ score.traits.denyCheck = none) ∧
        score.isType (.int 5) = true ∧
        (some (Value.str "5")).bind (prepare score) = some (.int 5) :=
    ⟨_, _, _, _, rfl, rfl, rfl, rfl,
      ⟨fun _ h => (nomatch h), rfl, rfl, rfl, fun _ h => (nomatch h), fun _ h => (nomatch h),
        rfl, rfl⟩,
      ⟨fun _ h => (nomatch h), rfl, rfl, rfl, fun _ h => (nomatch h), fun _ h => (nomatch h),
        rfl, rfl⟩,
      fun h => ⟨fun _ h => (nomatch h), rfl, rfl, rfl, fun _ h => (nomatch h),
        List.forall_mem_singleton.mpr h, rfl, rfl⟩,
      rfl, rfl, rfl, ⟨rfl, rfl⟩, rfl, rfl⟩
  have hliteral : atLeast.toTestHead.Literal := by
    rw [TestHead.Literal, hparams]
    exact List.forall_mem_singleton.mpr ⟨_, rfl⟩
  have hscorePlaceless : score.Placeless :=
    hnumber (Test.byValue_of_builtIn (hcheck ▸ .check _) hliteral (by simp [hcheck]))
  have hplaceless : s.Everywhere Schema.Placeless :=
    .of_fields hobject hobject.conditions hkind (List.forall_mem_singleton.mpr
      (.of_element harray harray.conditions hlist (.of_leaf hscorePlaceless
        hscorePlaceless.conditions (by simp [hscore]) (by simp [hscore]))))
  have hmade : s.Made .all := ⟨initial, none, scores, .initial, trivial, hs⟩
  have hleads : s.Leads (some someScores) [.field "scores", .item 0] score :=
    .field hkind rfl (.item hlist rfl .here)
  have hshown : ∀ key ∈ [PartKey.field "scores", .item 0], key.Shown := by
    refine List.forall_mem_cons.mpr ⟨⟨?_, ?_, ?_, ?_, ?_⟩,
      List.forall_mem_singleton.mpr (Nat.zero_le _)⟩ <;> decide
  have hpasses (subject : Subject) (hvalue : subject.value = some (.int 5)) :
      atLeast.outcome subject = .pass := by
    have hctx : TestContext.value ⟨atLeast.toTestHead, subject⟩ = some (.int 5) := hvalue
    have hparam : TestContext.numberParam ⟨atLeast.toTestHead, subject⟩ "min" =
        some (Binary64.ofInt 3) := by
      rw [TestContext.numberParam, TestContext.param, hparams]
      rfl
    rw [Test.outcome, hcheck]
    refine Check.judge_eq_pass.mpr ?_
    rw [Check.holds, TestContext.compareNumber, hctx, hparam]
    decide
  have hvalid (raw : Option Value) (options : CallOptions) :
      Node.Valid initial ⟨score, some (.int 5), raw, options⟩ := by
    refine .of_parts ⟨?_, by simp [hallow], by simp [hdeny], ?_⟩ fun p hp => ?_
    · rintro v ⟨⟩
      exact htype
    · rw [htests]
      exact List.forall_mem_singleton.mpr (hpasses _ rfl)
    · rw [Node.parts_of_not_isComposite (by rw [Schema.tag, hscore]; rfl)] at hp
      exact absurd hp (by simp)
  have hwhole : Whole score (.int 5) := ⟨by simp [hscore], by simp [hscore]⟩
  obtain ⟨parent, hat⟩ := validateSyncAt_eq (w := initial) hplaceless hleads hshown collecting
  have hpart : initial.validateSyncAt s (PartKey.pathText [.field "scores", .item 0]) someScores
      collecting = .ok (some (.int 5)) := by
    rw [hat, validateSync_eq_ok_iff_enter Reachable.initial.equipped
      (hleads.everywhere hmade.wellMade)]
    exact ⟨_, enter_of_casts hscorePlaceless rfl
      (casts_of_castParts rfl hprepare fun _ _ _ _ _ => castParts_whole hwhole), rfl, hvalid _ _⟩
  exact ⟨s, score, hs, hleads, hpart,
    (validateSyncAt_agrees .initial hmade hplaceless hleads hshown).1.mp ⟨_, hpart⟩⟩

/-- The item of an array that has no element schema is accepted with the array, but no path
    leads to it. -/
theorem validateSyncAt_of_no_element :
    ∃ s, initial.build none (.make .array []) = .ok s ∧
      ¬ ((∃ r, initial.validateSyncAt s (PartKey.pathText [.item 0]) (.arr [.int 1]) collecting =
          .ok r) ↔
        (∃ r, initial.validateSync s (some (.arr [.int 1])) collecting = .ok r) ∨
          ∃ e, initial.validateSync s (some (.arr [.int 1])) collecting = .error (.violation e) ∧
            ∀ leaf ∈ e.leaves, ∀ below,
              ¬ initial.Blames s (some (.arr [.int 1])) ([.item 0] ++ below) leaf) := by
  obtain ⟨s, n, hs, hkind, hplaceless, htests, hallow, hdeny, henter, hn, htype⟩ :
      ∃ s n, initial.build none (.make .array []) = .ok s ∧ s.kind = .array .unset ∧ s.Placeless ∧
        s.traits.tests = [] ∧ s.traits.allowCheck = none ∧ s.traits.denyCheck = none ∧
        initial.enter (root s (some (.arr [.int 1])) collecting) = .ok n ∧
        n = ⟨s, some (.arr [.int 1]), some (.arr [.int 1]), collecting⟩ ∧
        s.isType (.arr [.int 1]) = true :=
    ⟨_, _, rfl, rfl,
      ⟨fun _ h => (nomatch h), rfl, rfl, rfl, fun _ h => (nomatch h), fun _ h => (nomatch h),
        rfl, rfl⟩, rfl, rfl, rfl, rfl, rfl, rfl⟩
  have hmade : s.Made .all := ⟨initial, none, _, .initial, trivial, hs⟩
  have hvalid : n.Valid initial := by
    subst hn
    refine .of_parts ⟨?_, by simp [hallow], by simp [hdeny], by simp [htests]⟩ fun p hp => ?_
    · rintro v ⟨⟩
      exact htype
    · rcases Node.mem_parts_cases hp with ⟨_, _, h, -⟩ | ⟨_, _, h, -⟩ <;>
        exact absurd (hkind.symm.trans h) (by simp)
  refine ⟨s, hs, fun hiff => ?_⟩
  obtain ⟨r, hr⟩ := hiff.mpr (Or.inl ⟨_, (validateSync_eq_ok_iff_enter Reachable.initial.equipped
    hmade.wellMade).mpr ⟨n, henter, rfl, hvalid⟩⟩)
  have hresolve := hplaceless.resolve initial (some (.arr [.int 1]))
    (scope none (some (.arr [.int 1])))
  have helement : s.element? = none := by rw [Schema.element?, hkind]; rfl
  rw [validateSyncAt, atPath, reach, PartKey.parse_pathText
    (List.forall_mem_singleton.mpr (Nat.zero_le _))] at hr
  simp [walk, stepToItem, PartKey.segment, hresolve, elementOf, helement, bind, Except.bind,
    collecting, CallOptions.none] at hr

end Workshop

end Conform
