/-
  Conform.Proofs.Validation.StrippedField

  What the strip mark of a field means to a validation. A validation checks what the cast
  has left, so a stripped field is checked as an undefined one. If nothing else looks at
  the field, the mark makes no other difference: everything else is cast and checked as
  without the mark, and the result is the one without the mark less the field. Whether
  the calls with and without the mark succeed together is up to the schema of the field,
  which has to accept an undefined value in the one and the cast value in the other.
-/

import Conform.Proofs.Validation.MarkedCasts

namespace Conform

namespace Workshop

variable {w : Workshop} {sync : Bool} {s t u f : Schema} {shape : Shape Schema} {key : String}
  {mark : Option Bool} {value : Option Value} {options : CallOptions} {input : Dict Value}

-- ============================================================================
-- Nodes
-- ============================================================================

/-- The node of an object schema for what its cast has made of the value of a call. -/
def objectNode (t : Schema) (value : Option Value) (options : CallOptions) (out : Dict Value) :
    Node :=
  { schema := t, value := some (.obj out), raw := rawOf value none, options }

/-- Whether the schema of a field accepts what the field is in the result of a cast, if
    the call goes down to the fields. -/
def AcceptsField (w : Workshop) (sync : Bool) (t : Schema) (value : Option Value)
    (options : CallOptions) (out : Dict Value) (f : String × Schema) : Prop :=
  (objectNode t value options out).mode.recursive = true →
    ((objectNode t value options out).fieldPart out f).Accepted w sync

/-- A node is accepted whatever strip mark its schema has. -/
theorem accepted_withStrip {v raw : Option Value} (mark : Option Bool) :
    (Node.mk (t.withStrip mark) v raw options).Accepted w sync ↔
      (Node.mk t v raw options).Accepted w sync := by
  rw [Node.accepted_iff, Node.accepted_iff]
  rfl

/-- A field is accepted whatever strip mark its schema has. -/
theorem part_accepted_withStrip (hstands : w.MarkStands f) {v raw : Option Value}
    (mark : Option Bool) :
    (Part.mk (f.withStrip mark) v raw options).Accepted w sync ↔
      (Part.mk f v raw options).Accepted w sync := by
  have hself : w.resolve f v options = w.resolve (f.withStrip f.traits.strip) v options := by
    rw [f.withStrip_self]
  rcases hstands v options with ⟨e, he⟩ | ⟨u, hu⟩
  · constructor
    · rintro ⟨t, ht, -⟩
      exact absurd (ht.symm.trans (he mark)) (by simp)
    · rintro ⟨t, ht, -⟩
      exact absurd (ht.symm.trans (hself.trans (he _))) (by simp)
  · constructor
    · rintro ⟨t, ht, haccepted⟩
      cases ht.symm.trans (hu mark)
      exact ⟨_, hself.trans (hu _),
        (accepted_withStrip _).mpr ((accepted_withStrip _).mp haccepted)⟩
    · rintro ⟨t, ht, haccepted⟩
      cases ht.symm.trans (hself.trans (hu _))
      exact ⟨_, hu mark, (accepted_withStrip _).mpr ((accepted_withStrip _).mp haccepted)⟩

/-- A field that does not look at the key is accepted without it as with it. -/
theorem part_accepted_without (hf : w.Overlooks sync key f) {v raw : Option Value} :
    (Part.mk f v raw (options.without key)).Accepted w sync ↔
      (Part.mk f v raw options).Accepted w sync := by
  refine exists_congr fun t => ?_
  show w.resolve f v (options.without key) = .ok t ∧ _ ↔ w.resolve f v options = .ok t ∧ _
  rw [hf.resolves f .here]
  refine and_congr_right fun ht => ?_
  rw [Node.accepted_iff, Node.accepted_iff]
  exact and_congr (hf.judges v (rawOf v raw) options t ht) Iff.rfl

theorem own_markField (hkind : t.kind = .object shape) (mark : Option Bool) {v raw : Option Value} :
    (Node.mk (t.markField shape key mark) v raw options).own sync =
      (Node.mk t v raw options).own sync := by
  unfold Node.own Node.subject subjectOf
  dsimp only
  rw [Schema.view_markField hkind]
  rfl

/-- An object is accepted if its own checks pass, its other fields are accepted and the
    field is. -/
theorem accepted_object (hkind : t.kind = .object shape) (hordered : shape.Ordered)
    (hf : shape.fields.lookup key = some f) (hstands : w.MarkStands f) (mark : Option Bool)
    (out : Dict Value) :
    (objectNode (t.markField shape key mark) value options out).Accepted w sync ↔
      ((objectNode t value options out).own sync).result = .ok () ∧
        (∀ g ∈ shape.fields, g.1 ≠ key → w.AcceptsField sync t value options out g) ∧
          w.AcceptsField sync t value options out (key, f) := by
  rw [Node.accepted_iff]
  refine and_congr (by rw [objectNode, own_markField hkind]; rfl) ?_
  by_cases hrecursive : (objectNode t value options out).mode.recursive = true
  · have hmarked : (objectNode (t.markField shape key mark) value options out).mode.recursive =
        true := hrecursive
    have hparts : (objectNode (t.markField shape key mark) value options out).parts =
        shape.fields.map fun g => (objectNode t value options out).fieldPart out
          (g.1, if g.1 = key then g.2.withStrip mark else g.2) := by
      rw [Node.parts_object hmarked rfl rfl, Shape.mark, List.map_map]
      rfl
    rw [hparts, List.forall_mem_map]
    have hfield (g : String × Schema) : w.AcceptsField sync t value options out g ↔
        ((objectNode t value options out).fieldPart out g).Accepted w sync :=
      ⟨fun h => h hrecursive, fun h _ => h⟩
    constructor
    · intro h
      refine ⟨fun g hg hne => (hfield g).mpr ?_, (hfield _).mpr ?_⟩
      · have hg' := h g hg
        rw [if_neg hne] at hg'
        exact hg'
      · have hkey := h (key, f) (Dict.mem_of_get? hf)
        rw [if_pos rfl] at hkey
        exact (part_accepted_withStrip hstands mark).mp hkey
    · rintro ⟨hothers, hkey⟩ g hg
      by_cases hne : g.1 = key
      · rw [if_pos hne]
        obtain ⟨name, s⟩ := g
        obtain rfl : name = key := hne
        obtain rfl : f = s :=
          Option.some.inj (hf.symm.trans (Dict.get?_of_mem hordered.keys hg))
        exact (part_accepted_withStrip hstands mark).mpr ((hfield _).mp hkey)
      · rw [if_neg hne]
        exact (hfield g).mp (hothers g hg hne)
  · have hmarked : ¬ (objectNode (t.markField shape key mark) value options out).mode.recursive =
        true := hrecursive
    have hparts : (objectNode (t.markField shape key mark) value options out).parts = [] := by
      rw [Node.parts, if_neg hmarked]
    rw [hparts]
    exact ⟨fun _ => ⟨fun _ _ _ h => absurd h hrecursive, fun h => absurd h hrecursive⟩,
      fun _ => List.forall_mem_nil _⟩

/-- Other fields are accepted in an object without the key as in one with it. -/
theorem acceptsField_erase (hg : w.Overlooks sync key u) {other : String} (hne : other ≠ key)
    (out : Dict Value) :
    w.AcceptsField sync t value options (Dict.erase out key) (other, u) ↔
      w.AcceptsField sync t value options out (other, u) := by
  have hvalue : Dict.get? (Dict.erase out key) other = Dict.get? out other :=
    Dict.get?_erase_of_ne out hne
  have hpart : (objectNode t value options (Dict.erase out key)).fieldPart (Dict.erase out key)
      (other, u) = { (objectNode t value options out).fieldPart out (other, u) with
        options := ((objectNode t value options out).fieldPart out (other, u)).options.without
          key } := by
    unfold Node.fieldPart objectNode
    dsimp only
    rw [hvalue]
    congr 1
    split
    · rfl
    · exact hvalue
  refine imp_congr Iff.rfl ?_
  rw [hpart]
  exact part_accepted_without hg

/-- A field without parts is accepted if its own checks pass. -/
theorem acceptsField_of_leaf (hlazy : ∀ pick, f.kind ≠ .lazy pick)
    (hconditions : f.conditions = []) (hobject : ∀ shape, f.kind ≠ .object shape)
    (helement : ∀ element, f.kind ≠ .array (.of element))
    {out : Dict Value} (hrecursive : (objectNode t value options out).mode.recursive = true) :
    w.AcceptsField sync t value options out (key, f) ↔
      ((((objectNode t value options out).fieldPart out (key, f)).node f).own sync).result =
        .ok () := by
  have hresolve := resolve_self (w := w) hlazy hconditions
  constructor
  · intro h
    obtain ⟨u, hu, haccepted⟩ := h hrecursive
    cases (hresolve _ _).symm.trans hu
    exact (Node.accepted_iff.mp haccepted).1
  · intro hown _
    refine ⟨f, hresolve _ _, Node.accepted_iff.mpr ⟨hown, fun p hp => ?_⟩⟩
    rcases Node.mem_parts_cases hp with ⟨shape, _, hkind, -⟩ | ⟨element, _, hkind, -⟩
    · exact absurd hkind (hobject shape)
    · exact absurd hkind (helement element)

-- ============================================================================
-- Calls
-- ============================================================================

/-- A call that casts its value succeeds with what the cast has made, if this is
    accepted. -/
theorem call_cast_eq_ok {C : RecipeClass} (hw : w.Equipped C) (hs : s.WellMade C)
    (ht : w.resolve s value options = .ok u)
    (hstrict : (Mode.of options u.traits.options).strict = false) {r : Option Value} :
    w.call sync s value options = .ok r ↔
      w.checkedValue u false value options = .ok r ∧
        (Node.mk u r (rawOf value none) options).Accepted w sync := by
  have henter (n : Node) : w.enter (root s value options) = .ok n ↔
      ∃ checked, w.checkedValue u false value options = .ok checked ∧
        n = ⟨u, checked, rawOf value none, options⟩ := by
    rw [enter, root, ht]
    show (w.checkedValue u (Mode.of options u.traits.options).strict value options >>= _) = _ ↔ _
    rw [hstrict, bind_eq_ok]
    exact exists_congr fun checked => and_congr_right fun _ =>
      ⟨fun h => (Except.ok.inj h).symm, fun h => congrArg Except.ok h.symm⟩
  rw [call_eq_ok hw hs]
  constructor
  · rintro ⟨n, hn, rfl, haccepted⟩
    obtain ⟨checked, hchecked, rfl⟩ := (henter n).mp hn
    exact ⟨hchecked, haccepted⟩
  · rintro ⟨hchecked, haccepted⟩
    exact ⟨_, (henter _).mpr ⟨r, hchecked, rfl⟩, rfl, haccepted⟩

/-- An object is cast by its fields. -/
theorem checkedValue_object_eq_ok (hkind : u.kind = .object shape)
    (hprepared : value.bind (prepare u) = some (.obj input)) {r : Option Value} :
    w.checkedValue u false value options = .ok r ↔
      w.castFields (w.castWithin (depthLimit + u.height)) true u shape input
        (castOptions options) = .ok r := by
  constructor
  · intro h
    obtain ⟨out, rfl, hout⟩ := checkedValue_object rfl hkind hprepared h
    exact hout
  · intro h
    have htag : (u.tag == KindTag.object) = true := by
      rw [Schema.tag, hkind]
      rfl
    obtain ⟨out, rfl⟩ := castFields_eq_ok h
    rw [checkedValue, htag]
    exact castNode_of_castParts hprepared ((castParts_object hkind).trans h)
      fun _ => Schema.isType_obj hkind out

/-- A value that is no object is cast whatever the mark of a field is. -/
theorem checkedValue_markField (hkind : t.kind = .object shape)
    (hprepared : ∀ input, value.bind (prepare t) ≠ some (.obj input)) (mark : Option Bool) :
    w.checkedValue (t.markField shape key mark) false value options =
      w.checkedValue t false value options := by
  have htag : (t.markField shape key mark).tag = t.tag := by
    rw [Schema.tag, Schema.tag, hkind]
    rfl
  have haccepts : (t.markField shape key mark).accepts = t.accepts := by
    funext r
    cases r with
    | none => rw [Schema.accepts, Schema.accepts, htag]
    | some v => rw [Schema.accepts, Schema.accepts, Schema.isType_markField hkind]
  unfold checkedValue castResolved castNode
  dsimp only
  rw [htag, Schema.height_markField hkind, Schema.prepare_markField hkind,
    Schema.defaultValue_markField hkind]
  cases hv : value.bind (prepare t) with
  | none => simp only [assertType, haccepts, htag]
  | some v =>
      have hwhole (s : Schema) (hs : ∃ shape, s.kind = .object shape) : Whole s v :=
        ⟨fun _ _ fields heq => hprepared fields (heq ▸ hv), by
          obtain ⟨shape, hs⟩ := hs
          simp [hs]⟩
      dsimp only
      rw [castParts_whole (hwhole _ ⟨_, rfl⟩), castParts_whole (hwhole t ⟨_, hkind⟩)]
      simp only [assertType, haccepts, htag]

/-- A call with a mark on the field of an object. -/
theorem call_markField_eq_ok {C : RecipeClass} (hw : w.Equipped C) (hs : s.WellMade C)
    (hkind : t.kind = .object shape) (hordered : shape.Ordered)
    (hf : shape.fields.lookup key = some f) (hstands : w.MarkStands f)
    (ht : w.resolve s value options = .ok (t.markField shape key mark))
    (hstrict : (Mode.of options t.traits.options).strict = false)
    (hprepared : value.bind (prepare t) = some (.obj input)) {r : Option Value} :
    w.call sync s value options = .ok r ↔
      ∃ out, w.castFields (w.castWithin (depthLimit + t.height)) true (t.markField shape key mark)
          (shape.mark key mark) input (castOptions options) = .ok (some (.obj out)) ∧
        r = some (.obj out) ∧ ((objectNode t value options out).own sync).result = .ok () ∧
          (∀ g ∈ shape.fields, g.1 ≠ key → w.AcceptsField sync t value options out g) ∧
            w.AcceptsField sync t value options out (key, f) := by
  have hprepared' : value.bind (prepare (t.markField shape key mark)) = some (.obj input) := by
    rw [Schema.prepare_markField hkind, hprepared]
  have hstrict' : (Mode.of options (t.markField shape key mark).traits.options).strict = false :=
    hstrict
  rw [call_cast_eq_ok hw hs ht hstrict', checkedValue_object_eq_ok rfl hprepared',
    Schema.height_markField hkind]
  constructor
  · rintro ⟨hcast, haccepted⟩
    obtain ⟨out, rfl⟩ := castFields_eq_ok hcast
    exact ⟨out, hcast, rfl, (accepted_object hkind hordered hf hstands mark out).mp haccepted⟩
  · rintro ⟨out, hcast, rfl, haccepted⟩
    exact ⟨hcast, (accepted_object hkind hordered hf hstands mark out).mpr haccepted⟩

/-- What is asked of an object beside its field is asked of the object less the field. -/
theorem Isolates.erase_iff (h : w.Isolates sync t shape key) (whole : Dict Value) :
    (((objectNode t value options (Dict.erase whole key)).own sync).result = .ok () ∧
      ∀ g ∈ shape.fields, g.1 ≠ key →
        w.AcceptsField sync t value options (Dict.erase whole key) g) ↔
    ((objectNode t value options whole).own sync).result = .ok () ∧
      ∀ g ∈ shape.fields, g.1 ≠ key → w.AcceptsField sync t value options whole g :=
  and_congr (h.own whole _ options) (forall₃_congr fun g hg hne =>
    acceptsField_erase (h.others g hg hne) hne whole)

/-- A call without an object to cast does not depend on the mark of a field. -/
theorem call_markField_of_no_object {C : RecipeClass} (hw : w.Equipped C) {s₁ s₀ : Schema}
    (hs₁ : s₁.WellMade C) (hs₀ : s₀.WellMade C) (hkind : t.kind = .object shape)
    (hordered : shape.Ordered) (hf : shape.fields.lookup key = some f) (hstands : w.MarkStands f)
    {mark₁ mark₀ : Option Bool}
    (h₁ : w.resolve s₁ value options = .ok (t.markField shape key mark₁))
    (h₀ : w.resolve s₀ value options = .ok (t.markField shape key mark₀))
    (hstrict : (Mode.of options t.traits.options).strict = false)
    (hprepared : ∀ input, value.bind (prepare t) ≠ some (.obj input)) (r : Option Value) :
    w.call sync s₁ value options = .ok r ↔ w.call sync s₀ value options = .ok r := by
  have haccepted (mark : Option Bool) :
      (Node.mk (t.markField shape key mark) r (rawOf value none) options).Accepted w sync ↔
        (Node.mk (t.markField shape key none) r (rawOf value none) options).Accepted w sync := by
    by_cases hobject : ∃ out, r = some (.obj out)
    · obtain ⟨out, rfl⟩ := hobject
      exact (accepted_object hkind hordered hf hstands mark out).trans
        (accepted_object hkind hordered hf hstands none out).symm
    · have hparts (m : Option Bool) :
          (Node.mk (t.markField shape key m) r (rawOf value none) options).parts = [] := by
        rw [Node.parts]
        split
        · split
          · next hvalue => exact absurd ⟨_, hvalue⟩ hobject
          · next hkind' _ => exact absurd hkind' (by simp [Schema.markField, Schema.setKind])
          · rfl
        · rfl
      rw [Node.accepted_iff, Node.accepted_iff, hparts, hparts, own_markField hkind,
        own_markField hkind]
  have hcall {s : Schema} (hs : s.WellMade C) {mark : Option Bool}
      (ht : w.resolve s value options = .ok (t.markField shape key mark)) :
      w.call sync s value options = .ok r ↔ w.checkedValue t false value options = .ok r ∧
        (Node.mk (t.markField shape key none) r (rawOf value none) options).Accepted w sync := by
    have hstrict' : (Mode.of options (t.markField shape key mark).traits.options).strict = false :=
      hstrict
    rw [call_cast_eq_ok hw hs ht hstrict', checkedValue_markField hkind hprepared, haccepted]
  rw [hcall hs₁ h₁, hcall hs₀ h₀]

/-- A validation sets a stripped field aside that nothing else looks at. Where the call
    without the mark succeeds with an object, the call with it succeeds exactly if the
    schema of the field accepts an undefined value, and then with the object less the
    field; where the call with the mark succeeds, the call without it succeeds exactly if
    the field is cast and its schema accepts the cast. -/
theorem stripped_field_is_set_aside (hw : w.Reachable .all) {s₁ s₀ : Schema}
    (hs₁ : s₁.Made .all) (hs₀ : s₀.Made .all) (hkind : t.kind = .object shape)
    (hf : shape.fields.lookup key = some f)
    (h₁ : w.resolve s₁ value options = .ok (t.markField shape key (some true)))
    (h₀ : w.resolve s₀ value options = .ok (t.markField shape key mark))
    (hstrict : (Mode.of options t.traits.options).strict = false)
    (hstands : w.MarkStands f) (hisolates : w.Isolates sync t shape key) :
    ((∀ input, value.bind (prepare t) ≠ some (.obj input)) →
      ∀ r, w.call sync s₁ value options = .ok r ↔ w.call sync s₀ value options = .ok r) ∧
    ∀ input, value.bind (prepare t) = some (.obj input) → Dict.Ascending input →
      (∀ r₀, w.call sync s₀ value options = .ok r₀ → ∃ out, r₀ = some (.obj out) ∧
        ∀ r₁, w.call sync s₁ value options = .ok r₁ ↔
          r₁ = some (.obj (Dict.erase out key)) ∧
            w.AcceptsField sync t value options (Dict.erase out key) (key, f)) ∧
      ∀ r₁, w.call sync s₁ value options = .ok r₁ → ∃ out, r₁ = some (.obj out) ∧
        ∀ r₀, w.call sync s₀ value options = .ok r₀ ↔
          ∃ v, w.fieldCast t shape input (castOptions options) key (f.withStrip mark) = .ok v ∧
            r₀ = some (.obj (Dict.supply out key v)) ∧
            w.AcceptsField sync t value options (Dict.supply out key v) (key, f) := by
  have hw := hw.equipped
  have hordered : shape.Ordered :=
    Shape.ordered_of_mark ((resolve_wellMade hw hs₀.wellMade h₀).here.shape _ rfl)
  refine ⟨fun hprepared r => call_markField_of_no_object hw hs₁.wellMade hs₀.wellMade hkind hordered
    hf hstands h₁ h₀ hstrict hprepared r, fun input hprepared hinput => ⟨fun r₀ hr₀ => ?_,
    fun r₁ hr₁ => ?_⟩⟩
  · obtain ⟨whole, hwhole, rfl, hown, hothers, -⟩ := (call_markField_eq_ok hw hs₀.wellMade hkind
      hordered hf hstands h₀ hstrict hprepared).mp hr₀
    obtain ⟨v, hv⟩ := exists_fieldCast hordered hf hwhole
    have hmarked := castFields_marked_eq_ok hordered hf hisolates.others hstands hinput hv
    obtain ⟨hown', hothers'⟩ := (hisolates.erase_iff whole).mpr ⟨hown, hothers⟩
    refine ⟨whole, rfl, fun r₁ => ?_⟩
    rw [call_markField_eq_ok hw hs₁.wellMade hkind hordered hf hstands h₁ hstrict hprepared]
    constructor
    · rintro ⟨out, hout, rfl, -, -, hfield⟩
      obtain ⟨whole', hwhole', rfl⟩ := (hmarked out).mp hout
      cases hwhole.symm.trans hwhole'
      exact ⟨rfl, hfield⟩
    · rintro ⟨rfl, hfield⟩
      exact ⟨_, (hmarked _).mpr ⟨whole, hwhole, rfl⟩, rfl, hown', hothers', hfield⟩
  · obtain ⟨out, hout, rfl, hown, hothers, -⟩ := (call_markField_eq_ok hw hs₁.wellMade hkind
      hordered hf hstands h₁ hstrict hprepared).mp hr₁
    refine ⟨out, rfl, fun r₀ => ?_⟩
    rw [call_markField_eq_ok hw hs₀.wellMade hkind hordered hf hstands h₀ hstrict hprepared]
    constructor
    · rintro ⟨whole, hwhole, rfl, -, -, hfield⟩
      obtain ⟨v, hv⟩ := exists_fieldCast hordered hf hwhole
      have hmarked := (castFields_marked_eq_ok hordered hf hisolates.others hstands hinput hv
        _).mpr ⟨whole, hwhole, rfl⟩
      cases hmarked.symm.trans hout
      have heq : Dict.supply (Dict.erase whole key) key v = whole :=
        (castFields_marked hordered hf hisolates.others hstands hinput hv).2 whole hwhole
      exact ⟨v, hv, by rw [heq], by rw [heq]; exact hfield⟩
    · rintro ⟨v, hv, rfl, hfield⟩
      obtain ⟨whole, hwhole, rfl⟩ := (castFields_marked_eq_ok hordered hf hisolates.others
        hstands hinput hv out).mp hout
      have heq : Dict.supply (Dict.erase whole key) key v = whole :=
        (castFields_marked hordered hf hisolates.others hstands hinput hv).2 whole hwhole
      rw [heq] at hfield ⊢
      obtain ⟨hown', hothers'⟩ := (hisolates.erase_iff whole).mp ⟨hown, hothers⟩
      exact ⟨whole, hwhole, rfl, hown', hothers', hfield⟩

/-- A form with a consent, which may be required or stripped, and a name. -/
def consentForm (steps : List Step) : Recipe :=
  .make .object [.shape [("agreed", .make .boolean steps), ("name", .make .string [])] []]

/-- The fields of the form. -/
def consentShape (agreed name : Schema) : Shape Schema :=
  ⟨[("agreed", agreed), ("name", name)], ["agreed", "name"], []⟩

/-- A form that is filled in. -/
def consent : Dict Value := [("agreed", .bool true), ("name", .str "x")]

/-- The schemas of a form whose consent is made by some steps, with the mark and without. -/
structure ConsentCase (steps : List Step) (s₁ s₀ agreed name : Schema) : Prop where
  built₁ : initial.build none (consentForm (steps ++ [.strip true])) = .ok s₁
  built₀ : initial.build none (consentForm steps) = .ok s₀
  kind : s₀.kind = .object (consentShape agreed name)
  marked : s₁ = s₀.markField (consentShape agreed name) "agreed" (some true)
  unmarked : s₀ = s₀.markField (consentShape agreed name) "agreed" none
  options : s₀.traits.options = .none
  transforms : s₀.traits.transforms = []
  typeOnly : s₀.TypeOnly
  nameTypeOnly : name.TypeOnly
  nameKind : name.kind = .string
  nameType : name.isType (.str "x") = true
  agreedKind : agreed.kind = .boolean
  agreedConditions : agreed.conditions = []

namespace ConsentCase

variable {steps : List Step} {s₁ s₀ agreed name : Schema}
  (h : ConsentCase steps s₁ s₀ agreed name)

include h

theorem made : s₁.Made .all ∧ s₀.Made .all :=
  ⟨⟨initial, none, _, .initial, trivial, h.built₁⟩, ⟨initial, none, _, .initial, trivial, h.built₀⟩⟩

theorem regular : s₀.Regular .all ∧ agreed.Regular .all ∧ name.Regular .all :=
  ⟨h.made.2.wellMade.here, (h.made.2.wellMade.field h.kind List.mem_cons_self).here,
    (h.made.2.wellMade.field h.kind (List.mem_cons_of_mem _ List.mem_cons_self)).here⟩

theorem notStrict : (Mode.of .none s₀.traits.options).strict = false := by
  rw [h.options]
  rfl

theorem recursive {out : Dict Value} :
    (objectNode s₀ (some (.obj consent)) .none out).mode.recursive = true := by
  rw [objectNode, Node.mode, h.options]
  rfl

theorem stands : initial.MarkStands agreed :=
  markStands_of_plain (by simp [h.agreedKind]) h.agreedConditions

theorem isolates : initial.Isolates true s₀ (consentShape agreed name) "agreed" :=
  isolates_of_typeOnly h.regular.1 h.typeOnly h.kind (by
    simpa [consentShape] using overlooks_of_typeOnly Reachable.initial.equipped
      (h.made.2.wellMade.field h.kind (List.mem_cons_of_mem _ List.mem_cons_self)) h.nameTypeOnly
      (by simp [h.nameKind]))

theorem resolves : initial.resolve s₁ (some (.obj consent)) .none =
      .ok (s₀.markField (consentShape agreed name) "agreed" (some true)) ∧
    initial.resolve s₀ (some (.obj consent)) .none =
      .ok (s₀.markField (consentShape agreed name) "agreed" none) := by
  constructor
  · rw [h.marked]
    exact resolve_self (s := s₀.markField (consentShape agreed name) "agreed" (some true))
      (fun _ h => (nomatch h)) h.typeOnly.conditions _ _
  · exact (resolve_self h.typeOnly.picked h.typeOnly.conditions _ _).trans (congrArg _ h.unmarked)

/-- The consent is accepted if its own checks pass. -/
theorem acceptsAgreed (out : Dict Value) :
    initial.AcceptsField true s₀ (some (.obj consent)) .none out ("agreed", agreed) ↔
      ((((objectNode s₀ (some (.obj consent)) .none out).fieldPart out
        ("agreed", agreed)).node agreed).own true).result = .ok () :=
  acceptsField_of_leaf (by simp [h.agreedKind]) h.agreedConditions (by simp [h.agreedKind])
    (by simp [h.agreedKind]) h.recursive

/-- The call with a form comes down to the schema of the consent. -/
theorem call_eq_ok {s : Schema} (hs : s.Made .all) {mark : Option Bool} {out : Dict Value}
    (hresolve : initial.resolve s (some (.obj consent)) .none =
      .ok (s₀.markField (consentShape agreed name) "agreed" mark))
    (hcast : initial.castFields (initial.castWithin (depthLimit + s₀.height)) true
      (s₀.markField (consentShape agreed name) "agreed" mark)
      ((consentShape agreed name).mark "agreed" mark) consent (castOptions .none) =
        .ok (some (.obj out)))
    (hname : Dict.get? out "name" = some (.str "x")) {r : Option Value} :
    initial.call true s (some (.obj consent)) .none = .ok r ↔ r = some (.obj out) ∧
      initial.AcceptsField true s₀ (some (.obj consent)) .none out ("agreed", agreed) := by
  obtain ⟨hregular, -, hnameRegular⟩ := h.regular
  rw [call_markField_eq_ok Reachable.initial.equipped hs.wellMade h.kind (hregular.shape _ h.kind)
    rfl h.stands hresolve h.notStrict (prepare_of_isType h.transforms (Schema.isType_obj h.kind _))]
  constructor
  · rintro ⟨whole, hwhole, rfl, -, -, hagreed⟩
    cases hcast.symm.trans hwhole
    exact ⟨rfl, hagreed⟩
  · rintro ⟨rfl, hagreed⟩
    refine ⟨out, hcast, rfl, (Node.own_result_of_typeOnly hregular h.typeOnly).mpr ?_, ?_, hagreed⟩
    · rintro v ⟨⟩
      exact Schema.isType_obj h.kind out
    · suffices haccepts : initial.AcceptsField true s₀ (some (.obj consent)) .none out
          ("name", name) by
        simpa [consentShape] using haccepts
      refine (acceptsField_of_leaf h.nameTypeOnly.picked h.nameTypeOnly.conditions
        (by simp [h.nameKind]) (by simp [h.nameKind]) h.recursive).mpr
          ((Node.own_result_of_typeOnly hnameRegular h.nameTypeOnly).mpr fun v hv => ?_)
      cases hname.symm.trans hv
      exact h.nameType

end ConsentCase

/-- A consent that is not required is accepted with the mark and without it, and the form
    is the result less the consent. -/
theorem stripped_field_is_set_aside_consent :
    ∃ s₁ s₀, initial.build none (consentForm [.strip true]) = .ok s₁ ∧
      initial.build none (consentForm []) = .ok s₀ ∧
      initial.call true s₀ (some (.obj consent)) .none = .ok (some (.obj consent)) ∧
      initial.call true s₁ (some (.obj consent)) .none =
        .ok (some (.obj [("name", .str "x")])) := by
  obtain ⟨s₁, s₀, agreed, name, h, hagreed, hagreedType, hcast⟩ :
      ∃ s₁ s₀ agreed name, ConsentCase [] s₁ s₀ agreed name ∧ agreed.TypeOnly ∧
        agreed.isType (.bool true) = true ∧
        initial.castFields (initial.castWithin (depthLimit + s₀.height)) true
          (s₀.markField (consentShape agreed name) "agreed" none)
          ((consentShape agreed name).mark "agreed" none) consent (castOptions .none) =
            .ok (some (.obj (consent.merge []))) :=
    ⟨_, _, _, _, ⟨rfl, rfl, rfl, rfl, rfl, rfl, rfl,
      ⟨fun _ h => (nomatch h), rfl, rfl, rfl, rfl⟩, ⟨fun _ h => (nomatch h), rfl, rfl, rfl, rfl⟩,
      rfl, rfl, rfl, rfl⟩, ⟨fun _ h => (nomatch h), rfl, rfl, rfl, rfl⟩, rfl, rfl⟩
  rw [Dict.merge, List.merge_right] at hcast
  have haccepts (out : Dict Value)
      (htyped : ∀ v, Dict.get? out "agreed" = some v → agreed.isType v = true) :
      initial.AcceptsField true s₀ (some (.obj consent)) .none out ("agreed", agreed) :=
    (h.acceptsAgreed out).mpr ((Node.own_result_of_typeOnly h.regular.2.1 hagreed).mpr htyped)
  have hcall₀ := (h.call_eq_ok h.made.2 h.resolves.2 hcast rfl).mpr
    ⟨rfl, haccepts consent (by rintro v ⟨⟩; exact hagreedType)⟩
  refine ⟨s₁, s₀, h.built₁, h.built₀, hcall₀, ?_⟩
  obtain ⟨out, hout, hmarked⟩ := ((stripped_field_is_set_aside .initial h.made.1 h.made.2 h.kind rfl
    h.resolves.1 h.resolves.2 h.notStrict h.stands h.isolates).2 consent
      (prepare_of_isType h.transforms (Schema.isType_obj h.kind _))
      (List.pairwise_pair.mpr (by decide))).1 _ hcall₀
  cases hout
  exact (hmarked _).mpr ⟨rfl, haccepts _ (by rintro v ⟨⟩)⟩

/-- A consent that is required is missing with the mark: the form is accepted without the
    mark and refused with it. -/
theorem required_field_is_missed_when_stripped :
    ∃ s₁ s₀, initial.build none (consentForm [.required, .strip true]) = .ok s₁ ∧
      initial.build none (consentForm [.required]) = .ok s₀ ∧
      ¬ ((∃ r, initial.validateSync s₁ (some (.obj consent)) .none = .ok r) ↔
        ∃ r, initial.validateSync s₀ (some (.obj consent)) .none = .ok r) := by
  obtain ⟨s₁, s₀, agreed, name, present, h, htests, hpresent, hallow, hdeny, hagreedType,
      hcast, hmarkedCast⟩ :
      ∃ s₁ s₀ agreed name present, ConsentCase [.required] s₁ s₀ agreed name ∧
        agreed.traits.tests = [present] ∧ present.predicate = .check .present ∧
        agreed.traits.allowCheck = none ∧ agreed.traits.denyCheck = none ∧
        agreed.isType (.bool true) = true ∧
        initial.castFields (initial.castWithin (depthLimit + s₀.height)) true
          (s₀.markField (consentShape agreed name) "agreed" none)
          ((consentShape agreed name).mark "agreed" none) consent (castOptions .none) =
            .ok (some (.obj (consent.merge []))) ∧
        initial.castFields (initial.castWithin (depthLimit + s₀.height)) true
          (s₀.markField (consentShape agreed name) "agreed" (some true))
          ((consentShape agreed name).mark "agreed" (some true)) consent (castOptions .none) =
            .ok (some (.obj (Dict.merge [("name", .str "x")] []))) :=
    ⟨_, _, _, _, _, ⟨rfl, rfl, rfl, rfl, rfl, rfl, rfl,
      ⟨fun _ h => (nomatch h), rfl, rfl, rfl, rfl⟩, ⟨fun _ h => (nomatch h), rfl, rfl, rfl, rfl⟩,
      rfl, rfl, rfl, rfl⟩, rfl, rfl, rfl, rfl, rfl, rfl, rfl⟩
  rw [Dict.merge, List.merge_right] at hcast hmarkedCast
  have hpasses : initial.AcceptsField true s₀ (some (.obj consent)) .none consent
      ("agreed", agreed) := by
    refine (h.acceptsAgreed _).mpr
      ((Node.own_result_eq_ok_iff_sound h.regular.2.1).mpr ⟨?_, ?_, ?_, fun t ht => ?_⟩)
    · rintro v ⟨⟩
      exact hagreedType
    · simp [Part.node, Node.fieldPart, hallow]
    · simp [Part.node, Node.fieldPart, hdeny]
    · obtain rfl := List.mem_singleton.mp (htests ▸ ht)
      rw [Test.outcome, hpresent]
      rfl
  have hmissing : ¬ initial.AcceptsField true s₀ (some (.obj consent)) .none
      [("name", .str "x")] ("agreed", agreed) := by
    intro haccepts
    have hsound := (Node.own_result_eq_ok_iff_sound h.regular.2.1).mp
      ((h.acceptsAgreed _).mp haccepts)
    have hpass := hsound.tests present (htests ▸ List.mem_singleton_self present)
    rw [Test.outcome, hpresent] at hpass
    cases hpass
  refine ⟨s₁, s₀, h.built₁, h.built₀, fun hiff => ?_⟩
  obtain ⟨r, hr⟩ := hiff.mpr ⟨_, (h.call_eq_ok h.made.2 h.resolves.2 hcast rfl).mpr ⟨rfl, hpasses⟩⟩
  exact hmissing ((h.call_eq_ok h.made.1 h.resolves.1 hmarkedCast rfl).mp hr).2

end Workshop

end Conform
