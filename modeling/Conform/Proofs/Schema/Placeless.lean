/-
  Conform.Proofs.Schema.Placeless

  Schemas that read nothing but the value: no conditions, lazy nodes, references or
  marks, transforms of leaves only that keep values defined, and tests that judge by the
  value. Their casts succeed, and come out alike wherever they take place: the cast of an
  object or an array is put together of the casts of its parts, each of which is the cast
  of that part alone.
-/

import Conform.Proofs.Schema.Recasting
import Conform.Proofs.Violation

namespace Conform

-- ============================================================================
-- Tests
-- ============================================================================

/-- Whether a test judges a value wherever it stands, and without waiting. -/
structure Test.ByValue (t : Test) : Prop where
  alike : ∀ {subject other : Subject}, other.value = subject.value → other.node = subject.node →
    t.outcome other = .pass → t.outcome subject = .pass
  ready : ∀ subject, (t.outcome subject).isPending = false

/-- Whether the parameters of a declaration are literals. -/
def TestHead.Literal (head : TestHead) : Prop := ∀ e ∈ head.params, ∃ v, e.2 = .value v

/-- A literal parameter has the same value everywhere. -/
theorem TestHead.Literal.numberParam {head : TestHead} (h : head.Literal) (subject other : Subject)
    (name : String) :
    TestContext.numberParam ⟨head, other⟩ name = TestContext.numberParam ⟨head, subject⟩ name := by
  unfold TestContext.numberParam TestContext.param
  cases hget : Dict.get? head.params name with
  | none => rfl
  | some p =>
      obtain ⟨v, hv⟩ := h _ (Dict.mem_of_get? hget)
      obtain rfl : p = .value v := hv
      rfl

/-- The built-in checks judge by the value and the parameters; those of lists read the
    references in the lists. -/
theorem Check.holds_congr {c : Check} {head : TestHead} {subject other : Subject}
    (hlists : c ≠ .allowed ∧ c ≠ .notDenied) (hvalue : other.value = subject.value)
    (hnode : other.node = subject.node)
    (hparams : ∀ name, TestContext.numberParam ⟨head, other⟩ name =
      TestContext.numberParam ⟨head, subject⟩ name) :
    c.holds ⟨head, other⟩ = c.holds ⟨head, subject⟩ := by
  have hctx : TestContext.value ⟨head, other⟩ = TestContext.value ⟨head, subject⟩ := hvalue
  cases c <;> simp_all [holds, TestContext.onText, TestContext.compareSize,
    TestContext.compareNumber]

theorem Outcome.isPending_ofBool (b : Bool) : (Outcome.ofBool b).isPending = false := by
  cases b <;> rfl

/-- The built-in tests judge by the value and the parameters. -/
theorem Test.outcome_congr_of_builtIn {t : Test} (hbuiltIn : t.predicate.BuiltIn)
    (hlists : t.predicate ≠ .check .allowed ∧ t.predicate ≠ .check .notDenied)
    {subject other : Subject} (hvalue : other.value = subject.value)
    (hnode : other.node = subject.node)
    (hparams : ∀ name, TestContext.numberParam ⟨t.toTestHead, other⟩ name =
      TestContext.numberParam ⟨t.toTestHead, subject⟩ name) :
    t.outcome other = .pass ↔ t.outcome subject = .pass := by
  obtain ⟨head, predicate⟩ := t
  have hctx : TestContext.value ⟨head, other⟩ = TestContext.value ⟨head, subject⟩ := hvalue
  cases hbuiltIn with
  | check c =>
      have hlists : c ≠ .allowed ∧ c ≠ .notDenied := ⟨fun h => hlists.1 (h ▸ rfl),
        fun h => hlists.2 (h ▸ rfl)⟩
      show c.judge ⟨head, other⟩ = .pass ↔ c.judge ⟨head, subject⟩ = .pass
      rw [Check.judge_eq_pass, Check.judge_eq_pass, Check.holds_congr hlists hvalue hnode hparams]
  | matching mark regex excludeEmpty =>
      show Schema.matchOutcome regex excludeEmpty ⟨head, other⟩ = .pass ↔
        Schema.matchOutcome regex excludeEmpty ⟨head, subject⟩ = .pass
      rw [Schema.matchOutcome, Schema.matchOutcome, TestContext.onText, TestContext.onText, hctx]
  | noUnknown mark refuse =>
      show Schema.noUnknownOutcome refuse ⟨head, other⟩ = .pass ↔
        Schema.noUnknownOutcome refuse ⟨head, subject⟩ = .pass
      rw [Schema.noUnknownOutcome, Schema.noUnknownOutcome, hctx, hnode]

theorem Test.isPending_of_builtIn {t : Test} (hbuiltIn : t.predicate.BuiltIn) (subject : Subject) :
    (t.outcome subject).isPending = false := by
  obtain ⟨head, predicate⟩ := t
  cases hbuiltIn with
  | check c => exact c.judge_isPending _
  | matching mark regex excludeEmpty => exact Outcome.isPending_ofBool _
  | noUnknown mark refuse => exact Outcome.isPending_ofBool _

/-- The built-in tests with literal parameters judge by the value. -/
theorem Test.byValue_of_builtIn {t : Test} (hbuiltIn : t.predicate.BuiltIn)
    (hliteral : t.toTestHead.Literal)
    (hlists : t.predicate ≠ .check .allowed ∧ t.predicate ≠ .check .notDenied) : t.ByValue where
  alike hvalue hnode := (outcome_congr_of_builtIn hbuiltIn hlists hvalue hnode
    fun name => hliteral.numberParam _ _ name).mp
  ready := isPending_of_builtIn hbuiltIn

-- ============================================================================
-- Schemas
-- ============================================================================

/-- Whether a schema reads nothing but the value: neither what it is for, nor where and in
    which call it stands. -/
structure Schema.Placeless (s : Schema) : Prop where
  picked : ∀ pick, s.kind ≠ .lazy pick
  conditions : s.conditions = []
  kept : s.isStripped = false
  options : s.traits.options = .none
  transforms : ∀ f ∈ s.traits.transforms, s.tag.isComposite = false ∧
    ∀ current raw, (f (some current) raw s.view).isSome = true
  tests : ∀ t ∈ s.traits.tests, t.ByValue
  lists : s.traits.allow.refs = [] ∧ s.traits.deny.refs = []

namespace Schema.Placeless

variable {w : Workshop} {s : Schema}

theorem resolve (h : s.Placeless) (w : Workshop) (value : Option Value) (options : CallOptions) :
    w.resolve s value options = .ok s :=
  Workshop.resolve_self h.picked h.conditions value options

theorem isStrict (h : s.Placeless) : s.isStrict = false := by
  rw [Schema.isStrict, h.options]
  rfl

/-- Objects and arrays are prepared by coercion alone. -/
theorem transforms_of_isComposite (h : s.Placeless) (hcomposite : s.tag.isComposite = true) :
    s.traits.transforms = [] := by
  rw [List.eq_nil_iff_forall_not_mem]
  intro f hf
  exact absurd hcomposite (by simp [(h.transforms f hf).1])

/-- A defined value stays defined. -/
theorem exists_prepare (h : s.Placeless) (raw : Value) :
    ∃ v, (some raw).bind (Workshop.prepare s) = some v := by
  have htransforms := fun f hf => (h.transforms f hf).2
  suffices hfold : ∀ (transforms : List Transform) (current : Value),
      (∀ f ∈ transforms, ∀ current raw, (f (some current) raw s.view).isSome = true) →
      ∃ v, transforms.foldl (fun current f => f current raw s.view) (some current) = some v from
    hfold s.traits.transforms (s.coerce raw) htransforms
  intro transforms
  induction transforms with
  | nil => exact fun current _ => ⟨current, rfl⟩
  | cons f rest ih =>
      intro current hkeep
      obtain ⟨next, hnext⟩ := Option.isSome_iff_exists.mp (hkeep f List.mem_cons_self current raw)
      rw [List.foldl_cons, hnext]
      exact ih next fun g hg => hkeep g (List.mem_cons_of_mem _ hg)

end Schema.Placeless

-- ============================================================================
-- Casts
-- ============================================================================

namespace Workshop

variable {w : Workshop} {s f element : Schema} {shape : Shape Schema} {options other : CallOptions}
  {raw r : Option Value}

/-- Whether a value is cast to a result wherever the cast takes place: at every depth that
    is not too low for the schema, for its own sake or for a validation, and under all
    options that cast alike. -/
def Casts (w : Workshop) (options : CallOptions) (s : Schema) (raw r : Option Value) : Prop :=
  ∀ depth validating other, s.height ≤ depth + 1 → options.CastLike other →
    w.castNode (w.castWithin depth) validating s raw other = .ok r

theorem Casts.unique {r' : Option Value} (h : w.Casts options s raw r)
    (h' : w.Casts options s raw r') : r = r' :=
  Except.ok.inj ((h s.height false options (Nat.le_succ _) ⟨rfl, rfl⟩).symm.trans
    (h' s.height false options (Nat.le_succ _) ⟨rfl, rfl⟩))

theorem Casts.of_castLike (h : w.Casts options s raw r) (hlike : options.CastLike other) :
    w.Casts other s raw r := fun depth validating _ hdepth hother =>
  h depth validating _ hdepth
    ⟨hother.assertType.trans hlike.assertType, hother.stripUnknown.trans hlike.stripUnknown⟩

/-- The cast of a part. -/
theorem Casts.within (h : w.Casts options s raw r) {depth : Nat} (hdepth : s.height ≤ depth)
    (hlike : options.CastLike other) : w.castWithin depth s raw other = .ok r := by
  obtain ⟨below, rfl⟩ := Nat.exists_eq_add_one.mpr (Nat.lt_of_lt_of_le s.height_pos hdepth)
  exact h below false other hdepth hlike

theorem casts_of_castParts {v : Value} (hoff : options.assertType = some false)
    (hv : raw.bind (prepare s) = some v)
    (h : ∀ depth validating other, s.height ≤ depth + 1 → options.CastLike other →
      w.castParts (w.castWithin depth) validating s v other = .ok r) :
    w.Casts options s raw r := fun depth validating other hdepth hlike =>
  castNode_of_castParts hv (h depth validating other hdepth hlike)
    fun hon => absurd (hlike.assertType.trans hoff) hon

theorem casts_default (hv : raw.bind (prepare s) = none) (hoff : options.assertType = some false) :
    w.Casts options s raw s.defaultValue := by
  intro depth validating other _ hlike
  rw [castNode, hv]
  show assertType s raw s.defaultValue other = .ok s.defaultValue
  rw [assertType, hlike.assertType, hoff]
  exact if_neg (by simp)

/-- The keys of an object: those of the schema are cast, and others are taken over or
    dropped. -/
structure CastsKeys (w : Workshop) (options : CallOptions) (s : Schema) (shape : Shape Schema)
    (input : Dict Value) (value : String → Option Value) : Prop where
  declared : ∀ key f, shape.fields.lookup key = some f →
    w.Casts options f (Dict.get? input key) (value key)
  others : ∀ key, shape.fields.lookup key = none →
    value key = if !options.dropsUnknown s then Dict.get? input key else none

theorem exists_castsKeys (h : ∀ f ∈ shape.fields, ∀ raw, ∃ r, w.Casts options f.2 raw r)
    (s : Schema) (input : Dict Value) : ∃ value, w.CastsKeys options s shape input value := by
  have hkeys (key : String) : ∃ x : Option Value,
      (∀ f, shape.fields.lookup key = some f → w.Casts options f (Dict.get? input key) x) ∧
      (shape.fields.lookup key = none →
        x = if !options.dropsUnknown s then Dict.get? input key else none) := by
    cases hlookup : shape.fields.lookup key with
    | none => exact ⟨_, by simp, fun _ => rfl⟩
    | some f =>
        obtain ⟨x, hx⟩ := h (key, f) (Dict.mem_of_get? hlookup) (Dict.get? input key)
        exact ⟨x, by rintro _ ⟨⟩; exact hx, by simp⟩
  choose value hdeclared hothers using hkeys
  exact ⟨value, hdeclared, hothers⟩

/-- An object is put together of the casts of its fields. -/
theorem casts_object (hs : s.Everywhere Schema.Placeless) (hoff : options.assertType = some false)
    (hkind : s.kind = .object shape) {input : Dict Value} {value : String → Option Value}
    (hv : raw.bind (prepare s) = some (.obj input)) (h : w.CastsKeys options s shape input value) :
    w.Casts options s raw (some (.obj ((Dict.gather value shape.order).merge
      (if !options.dropsUnknown s then extraFields shape input else [])))) := by
  refine casts_of_castParts hoff hv fun depth validating other hdepth hlike => ?_
  have hkeys : ∀ done, ∀ key ∈ shape.order, w.keyValue (w.castWithin depth) validating other
      shape.fields (!other.dropsUnknown s) input done key = .ok (value key) := by
    intro done key _
    rw [keyValue]
    cases hlookup : shape.fields.lookup key with
    | none => rw [h.others key hlookup, hlike.dropsUnknown]
    | some f =>
        have hmem : (key, f) ∈ shape.fields := Dict.mem_of_get? hlookup
        have hf := (hs.field hkind hmem).here
        have hlt : f.height < s.height := (Schema.Nested.field hkind hmem).height_lt
        dsimp only
        rw [castField_plain hf.picked hf.conditions hf.kept hf.isStrict]
        exact (h.declared key f hlookup).within (by omega) ⟨hlike.assertType, hlike.stripUnknown⟩
  rw [castParts_object hkind, castFields_eq hkeys, hlike.dropsUnknown]

/-- An array is put together of the casts of its items. -/
theorem casts_array (hs : s.Everywhere Schema.Placeless) (hoff : options.assertType = some false)
    (hkind : s.kind = .array (.of element)) {items : List Value} {value : Value → Value}
    (hv : raw.bind (prepare s) = some (.arr items))
    (h : ∀ item ∈ items, w.Casts options element (some item) (some (value item))) :
    w.Casts options s raw (some (.arr (items.map value))) := by
  have helement := hs.element hkind
  refine casts_of_castParts hoff hv fun depth validating other hdepth hlike => ?_
  have hlt := (Schema.Nested.element hkind).height_lt
  have hitems (position : Nat) :
      w.castItems (w.castWithin depth) element other position items = .ok (items.map value) := by
    clear hv
    induction items generalizing position with
    | nil => rfl
    | cons item rest ih =>
        have hitem : w.castWithin depth element (some item) (other.forItem position) =
            .ok (some (value item)) :=
          (h item List.mem_cons_self).within (by omega) ⟨hlike.assertType, hlike.stripUnknown⟩
        rw [castItems, ih fun x hx => h x (List.mem_cons_of_mem _ hx)]
        exact bind_eq_ok.mpr ⟨element, helement.here.resolve w _ _, bind_eq_ok.mpr ⟨_, hitem, rfl⟩⟩
  rw [castParts_array hkind, hitems]
  rfl

theorem exists_casts_of_some (hoff : options.assertType = some false)
    (h : ∀ v : Value, ∃ x : Value, w.Casts options s (some v) (some x)) (raw : Option Value) :
    ∃ r, w.Casts options s raw r := by
  cases raw with
  | none => exact ⟨_, casts_default rfl hoff⟩
  | some v =>
      obtain ⟨x, hx⟩ := h v
      exact ⟨some x, hx⟩

/-- A defined value has a defined cast. The induction is on the height of the schema. -/
theorem exists_casts_some (hs : s.Everywhere Schema.Placeless)
    (hoff : options.assertType = some false) (input : Value) :
    ∃ x : Value, w.Casts options s (some input) (some x) := by
  induction hheight : s.height using Nat.strongRecOn generalizing s input with
  | ind height ih =>
      obtain ⟨v, hv⟩ := hs.here.exists_prepare input
      rcases whole_cases s v with ⟨shape, fields, hkind, rfl⟩ | ⟨element, items, hkind, rfl⟩ |
        hwhole
      · have hfields : ∀ f ∈ shape.fields, ∀ raw, ∃ r, w.Casts options f.2 raw r := by
          intro f hf
          have hlt := (Schema.Nested.field hkind hf).height_lt
          exact exists_casts_of_some hoff fun v =>
            ih f.2.height (hheight ▸ hlt) (hs.field hkind hf) v rfl
        obtain ⟨value, hvalue⟩ := exists_castsKeys hfields s fields
        exact ⟨_, casts_object hs hoff hkind hv hvalue⟩
      · have hitems (item : Value) :
            ∃ x : Value, w.Casts options element (some item) (some x) := by
          have hlt := (Schema.Nested.element hkind).height_lt
          exact ih element.height (hheight ▸ hlt) (hs.element hkind) item rfl
        choose value hvalue using hitems
        exact ⟨_, casts_array hs hoff hkind hv fun item _ => hvalue item⟩
      · exact ⟨v, casts_of_castParts hoff hv fun _ _ _ _ _ => castParts_whole hwhole⟩

/-- Every value has a cast. -/
theorem exists_casts (hs : s.Everywhere Schema.Placeless) (hoff : options.assertType = some false)
    (raw : Option Value) : ∃ r, w.Casts options s raw r :=
  exists_casts_of_some hoff (exists_casts_some hs hoff) raw

/-- The cast of an object has the cast of a field under the key of the field. -/
theorem Casts.field {input : Dict Value} {key : String}
    (h : w.Casts options s (some (.obj input)) r) (hs : s.Everywhere Schema.Placeless)
    (hoff : options.assertType = some false) (hkind : s.kind = .object shape)
    (hshape : shape.Ordered) (hf : shape.fields.lookup key = some f) :
    ∃ out, r = some (.obj out) ∧ w.Casts options f (Dict.get? input key) (Dict.get? out key) := by
  have htransforms : s.traits.transforms = [] :=
    hs.here.transforms_of_isComposite (by rw [Schema.tag, hkind]; rfl)
  have hfields : ∀ f ∈ shape.fields, ∀ raw, ∃ r, w.Casts options f.2 raw r :=
    fun f hf raw => exists_casts (hs.field hkind hf) hoff raw
  obtain ⟨value, hvalue⟩ := exists_castsKeys hfields s input
  refine ⟨_, h.unique (casts_object hs hoff hkind
    (prepare_of_isType htransforms (Schema.isType_obj hkind input)) hvalue), ?_⟩
  have hkey : key ∈ shape.order :=
    hshape.mem_order (List.mem_map_of_mem (f := Prod.fst) (Dict.mem_of_get? hf))
  have hextra : key ∉ Dict.keys (if (!options.dropsUnknown s) = true
      then extraFields shape input else []) := by
    split
    · exact not_mem_extraFields hkey
    · simp [Dict.keys]
  rw [Dict.get?_merge_of_not_mem hextra, Dict.get?_gather hshape.nodup_order hkey]
  exact hvalue.declared key f hf

/-- The cast of an array has the cast of an item at the position of the item. -/
theorem Casts.item {items : List Value} {position : Nat} {item : Value}
    (h : w.Casts options s (some (.arr items)) r) (hs : s.Everywhere Schema.Placeless)
    (hoff : options.assertType = some false) (hkind : s.kind = .array (.of element))
    (hitem : items[position]? = some item) :
    ∃ out v, r = some (.arr out) ∧ out[position]? = some v ∧
      w.Casts options element (some item) (some v) := by
  have htransforms : s.traits.transforms = [] :=
    hs.here.transforms_of_isComposite (by rw [Schema.tag, hkind]; rfl)
  choose value hvalue using
    fun item => exists_casts_some (w := w) (hs.element hkind) hoff item
  refine ⟨items.map value, value item, h.unique (casts_array hs hoff hkind
    (prepare_of_isType htransforms (Schema.isType_arr hkind items)) fun item _ => hvalue item), ?_,
    hvalue item⟩
  rw [List.getElem?_map, hitem, Option.map_some]

end Workshop

end Conform
