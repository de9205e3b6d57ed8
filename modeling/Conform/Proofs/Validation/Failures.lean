/-
  Conform.Proofs.Validation.Failures

  Where a failure that is no violation comes from. A cast that fails has refused its
  own result, or fails at a part: the schema of the part does not resolve, or its cast
  fails. A run that fails in such a way comes to a node at which a test is refused for
  being pending, or to a part whose schema does not resolve.
-/

import Conform.Proofs.Schema.Casting
import Conform.Proofs.Validation.Collection

namespace Conform

/-- A fold that fails has come to an element at which its step fails. -/
theorem foldlM_eq_error {ε α β : Type} {step : β → α → Except ε β} {xs : List α} {start : β} {e : ε}
    (h : xs.foldlM step start = .error e) :
    ∃ before x after reached, xs = before ++ x :: after ∧
      before.foldlM step start = .ok reached ∧ step reached x = .error e := by
  induction xs generalizing start with
  | nil => exact absurd h (by simp [pure, Except.pure])
  | cons x rest ih =>
      rw [List.foldlM_cons] at h
      rcases bind_eq_error.mp h with hx | ⟨next, hnext, hrest⟩
      · exact ⟨[], x, rest, start, rfl, rfl, hx⟩
      · obtain ⟨before, y, after, reached, rfl, hbefore, hy⟩ := ih hrest
        have hstart : (x :: before).foldlM step start = .ok reached := by
          rw [List.foldlM_cons]
          exact bind_eq_ok.mpr ⟨next, hnext, hbefore⟩
        exact ⟨x :: before, y, after, reached, rfl, hstart, hy⟩

/-- A fold fails where it comes to an element at which its step fails. -/
theorem foldlM_of_step_error {ε α β : Type} {step : β → α → Except ε β} {before after : List α}
    {x : α} {start reached : β} {e : ε} (hbefore : before.foldlM step start = .ok reached)
    (hx : step reached x = .error e) : (before ++ x :: after).foldlM step start = .error e := by
  rw [List.foldlM_append]
  refine bind_eq_error.mpr (Or.inr ⟨reached, hbefore, ?_⟩)
  show (x :: after).foldlM step reached = .error e
  rw [List.foldlM_cons]
  exact bind_eq_error.mpr (Or.inl hx)

-- ============================================================================
-- Casts
-- ============================================================================

/-- A schema that is to be resolved for a value. -/
structure Evaluation where
  schema : Schema
  value : Option Value
  options : CallOptions

/-- The effective schema of an evaluation. -/
def Evaluation.resolve (w : Workshop) (a : Evaluation) : Result Schema :=
  w.resolve a.schema a.value a.options

namespace Workshop

/-- Whether the cast of a value with a resolved schema comes to the cast of a part: to
    a declared field behind those done before it, or to an item. -/
inductive CastsPart (w : Workshop) (castPart : CastPart) (validating : Bool) (s : Schema)
    (raw : Option Value) (options : CallOptions) : Evaluation → Prop where
  | field {shape : Shape Schema} {input done : Dict Value} {before rest : List String}
      {key : String} {field : Schema} :
      s.kind = .object shape → raw.bind (prepare s) = some (.obj input) →
      shape.order = before ++ key :: rest →
      before.foldlM (w.castKey castPart validating options shape.fields
        (!options.dropsUnknown s) input) [] = .ok done →
      shape.fields.lookup key = some field →
      CastsPart w castPart validating s raw options
        ⟨field, Dict.get? input key, options.forField done key⟩
  | item {element : Schema} {items : List Value} {position : Nat} {item : Value} :
      s.kind = .array (.of element) → raw.bind (prepare s) = some (.arr items) →
      items[position]? = some item →
      CastsPart w castPart validating s raw options
        ⟨element, some item, options.forItem position⟩

/-- Whether the cast of a value comes to the cast of a part when what stands before it is
    done: to a declared field, or to an item behind items that are cast. -/
inductive CastsNext (w : Workshop) (castPart : CastPart) (validating : Bool) (s : Schema)
    (raw : Option Value) (options : CallOptions) : Evaluation → Prop where
  | field {shape : Shape Schema} {a : Evaluation} :
      s.kind = .object shape → w.CastsPart castPart validating s raw options a →
      CastsNext w castPart validating s raw options a
  | item {element : Schema} {before after done : List Value} {item : Value} :
      s.kind = .array (.of element) →
      raw.bind (prepare s) = some (.arr (before ++ item :: after)) →
      w.castItems castPart element options 0 before = .ok done →
      CastsNext w castPart validating s raw options
        ⟨element, some item, options.forItem before.length⟩

/-- Whether a resolved part goes on to be cast: a field that is stripped does not, nor does
    a strict one while its object is validated. -/
def CastsOn (validating : Bool) (s t : Schema) : Prop :=
  s.tag = .object → t.isStripped = false ∧ (validating && t.isStrict) = false

/-- Why the cast of a part fails: its schema does not resolve, or its own cast fails. -/
def PartFails (w : Workshop) (castPart : CastPart) (validating : Bool) (s : Schema)
    (a : Evaluation) (e : Failure) : Prop :=
  a.resolve w = .error e ∨
    ∃ t, a.resolve w = .ok t ∧ CastsOn validating s t ∧ castPart t a.value a.options = .error e

variable {w : Workshop} {castPart : CastPart} {validating : Bool} {options : CallOptions}
  {s t : Schema} {raw : Option Value} {a : Evaluation} {e : Failure}

/-- The schemas of parts are declared inside the schema of the cast. -/
theorem CastsPart.nested (h : w.CastsPart castPart validating s raw options a) :
    Schema.Nested a.schema s := by
  cases h with
  | field hkind _ _ _ hfield => exact .field hkind (Dict.mem_of_get? hfield)
  | item hkind _ _ => exact .element hkind

/-- A part is cast under the options of the call, but for its path and its parent. -/
theorem CastsPart.options_eq (h : w.CastsPart castPart validating s raw options a) :
    a.options.assertType = options.assertType := by
  cases h with
  | field => rfl
  | item => rfl

theorem CastsNext.castsPart (h : w.CastsNext castPart validating s raw options a) :
    w.CastsPart castPart validating s raw options a := by
  cases h with
  | field _ hpart => exact hpart
  | item hkind hinput _ => exact .item hkind hinput (by simp)

theorem castItems_eq_error {element : Schema} {position : Nat} {items : List Value}
    (h : w.castItems castPart element options position items = .error e) :
    ∃ before item after done, items = before ++ item :: after ∧
      w.castItems castPart element options position before = .ok done ∧
      (w.resolve element (some item) (options.forItem (position + before.length)) >>= fun t =>
        castPart t (some item) (options.forItem (position + before.length))) = .error e := by
  induction items generalizing position with
  | nil => exact absurd h (by simp [castItems])
  | cons first rest ih =>
      rw [castItems] at h
      rcases bind_eq_error.mp h with hresolve | ⟨t, ht, h⟩
      · exact ⟨[], first, rest, [], rfl, rfl, bind_eq_error.mpr (Or.inl hresolve)⟩
      rcases bind_eq_error.mp h with hcast | ⟨r, hr, h⟩
      · exact ⟨[], first, rest, [], rfl, rfl, bind_eq_error.mpr (Or.inr ⟨t, ht, hcast⟩)⟩
      rcases bind_eq_error.mp h with hrest | ⟨others, -, h⟩
      · obtain ⟨before, item, after, done, rfl, hdone, hfails⟩ := ih hrest
        have hposition : position + 1 + before.length = position + (first :: before).length := by
          rw [List.length_cons]
          omega
        have hbefore : w.castItems castPart element options position (first :: before) =
            .ok (r.getD .null :: done) := by
          rw [castItems]
          exact bind_eq_ok.mpr ⟨t, ht, bind_eq_ok.mpr ⟨r, hr, bind_eq_ok.mpr ⟨done, hdone, rfl⟩⟩⟩
        exact ⟨first :: before, item, after, _, rfl, hbefore, hposition ▸ hfails⟩
      · exact absurd h (by simp [pure, Except.pure])

/-- A field that fails does not resolve, or it goes on to its cast, which fails. -/
theorem castField_eq_error {done : Dict Value} {key : String} {field : Schema}
    (h : w.castField castPart validating options done key field raw = .error e) :
    w.resolve field raw (options.forField done key) = .error e ∨
      ∃ t, w.resolve field raw (options.forField done key) = .ok t ∧
        (t.isStripped = false ∧ (validating && t.isStrict) = false) ∧
        castPart t raw (options.forField done key) = .error e := by
  rw [castField] at h
  rcases bind_eq_error.mp h with hresolve | ⟨t, ht, h⟩
  · exact Or.inl hresolve
  · refine Or.inr ⟨t, ht, ?_⟩
    split at h
    · exact absurd h (by simp [pure, Except.pure])
    · next hstripped =>
        split at h
        · exact absurd h (by simp [pure, Except.pure])
        · next hstrict => exact ⟨⟨by simpa using hstripped, by simpa using hstrict⟩, h⟩

theorem castKey_eq_error {fields : List (String × Schema)} {keepUnknown : Bool}
    {input done : Dict Value} {key : String}
    (h : w.castKey castPart validating options fields keepUnknown input done key = .error e) :
    ∃ field, fields.lookup key = some field ∧
      w.castField castPart validating options done key field (Dict.get? input key) = .error e := by
  rw [castKey] at h
  cases hlookup : fields.lookup key with
  | none =>
      rw [hlookup] at h
      exact absurd h (by simp [bind, Except.bind, pure, Except.pure])
  | some field =>
      rw [hlookup] at h
      rcases bind_eq_error.mp h with hfield | ⟨value, -, h⟩
      · exact ⟨field, rfl, hfield⟩
      · exact absurd h (by simp [pure, Except.pure])

/-- Parts that fail do so at the first of them that does. -/
theorem castParts_eq_error {v : Value} (hv : raw.bind (prepare s) = some v)
    (h : w.castParts castPart validating s v options = .error e) :
    ∃ a, w.CastsNext castPart validating s raw options a ∧
      w.PartFails castPart validating s a e := by
  unfold castParts at h
  split at h
  · next shape input hkind =>
      rw [castFields] at h
      rcases bind_eq_error.mp h with hfold | ⟨out, -, h⟩
      · obtain ⟨before, key, rest, done, horder, hdone, hkey⟩ := foldlM_eq_error hfold
        obtain ⟨field, hfield, hfails⟩ := castKey_eq_error hkey
        refine ⟨_, .field hkind (.field hkind hv horder hdone hfield), ?_⟩
        rcases castField_eq_error hfails with hresolve | ⟨t, ht, hon, hcast⟩
        · exact Or.inl hresolve
        · exact Or.inr ⟨t, ht, fun _ => hon, hcast⟩
      · exact absurd h (by simp [pure, Except.pure])
  · next element items hkind =>
      have htag : s.tag ≠ .object := by
        rw [Schema.tag, hkind]
        simp [Kind.tag]
      rcases bind_eq_error.mp h with hitems | ⟨out, -, h⟩
      · obtain ⟨before, item, after, done, rfl, hdone, hfails⟩ := castItems_eq_error hitems
        rw [Nat.zero_add] at hfails
        refine ⟨_, .item hkind hv hdone, ?_⟩
        rcases bind_eq_error.mp hfails with hresolve | ⟨t, ht, hcast⟩
        · exact Or.inl hresolve
        · exact Or.inr ⟨t, ht, fun hobject => absurd hobject htag, hcast⟩
      · exact absurd h (by simp [pure, Except.pure])
  · exact absurd h (by simp)

/-- A cast that fails has refused its result, unless the call turns this off, or fails as
    the first of its parts that does. -/
theorem castNode_eq_error_or_next
    (h : w.castNode castPart validating s raw options = .error e) :
    (options.assertType ≠ some false ∧
      ∃ path kind value result, e = .castMismatch path kind value result) ∨
    ∃ a, w.CastsNext castPart validating s raw options a ∧
      w.PartFails castPart validating s a e := by
  have hassert {result : Option Value} (h : assertType s raw result options = .error e) :
      options.assertType ≠ some false ∧
        ∃ path kind value result, e = .castMismatch path kind value result := by
    unfold assertType at h
    split at h
    · next hrefused =>
        cases h
        refine ⟨fun hoff => ?_, _, _, _, _, rfl⟩
        simp [hoff] at hrefused
    · exact absurd h (by simp)
  cases hv : raw.bind (prepare s) with
  | none =>
      rw [castNode, hv] at h
      exact Or.inl (hassert h)
  | some v =>
      rw [castNode, hv] at h
      rcases bind_eq_error.mp h with hparts | ⟨result, -, hresult⟩
      · exact Or.inr (castParts_eq_error hv hparts)
      · exact Or.inl (hassert hresult)

/-- A cast that fails has refused its result, unless the call turns this off, or a part
    of it fails. -/
theorem castNode_eq_error (h : w.castNode castPart validating s raw options = .error e) :
    (options.assertType ≠ some false ∧
      ∃ path kind value result, e = .castMismatch path kind value result) ∨
    ∃ a, w.CastsPart castPart validating s raw options a ∧
      (a.resolve w >>= fun t => castPart t a.value a.options) = .error e := by
  rcases castNode_eq_error_or_next h with hrefused | ⟨a, ha, hfails⟩
  · exact Or.inl hrefused
  refine Or.inr ⟨a, ha.castsPart, ?_⟩
  rcases hfails with hresolve | ⟨t, ht, -, hcast⟩
  · exact bind_eq_error.mpr (Or.inl hresolve)
  · exact bind_eq_error.mpr (Or.inr ⟨t, ht, hcast⟩)

end Workshop

/-- Whether the cast of an evaluation comes to another one. -/
inductive Evaluation.Casts (w : Workshop) : Evaluation → Evaluation → Prop where
  | here {a : Evaluation} : Casts w a a
  | part {a b c : Evaluation} {t : Schema} {depth : Nat} {validating : Bool} :
      a.resolve w = .ok t →
      w.CastsPart (w.castWithin depth) validating t a.value a.options b → Casts w b c →
      Casts w a c

/-- What resolution keeps of schemas holds of all that a cast comes to. -/
theorem Evaluation.Casts.everywhere {w : Workshop} {N : Schema → Prop} {a b : Evaluation}
    (hN : ∀ {s t : Schema} {value : Option Value} {options : CallOptions}, s.Everywhere N →
      w.resolve s value options = .ok t → t.Everywhere N)
    (h : a.Casts w b) (ha : a.schema.Everywhere N) : b.schema.Everywhere N := by
  induction h with
  | here => exact ha
  | part ht hpart _ ih => exact ih ((hN ha ht).nested hpart.nested)

/-- A cast that fails, but for its result and for its depth, comes to a schema that does
    not resolve. -/
theorem Workshop.exists_of_castWithin_error {w : Workshop} {depth : Nat} {validating : Bool}
    {a : Evaluation} {t : Schema} {e : Failure} (ht : a.resolve w = .ok t)
    (hmismatch : ∀ path kind value result, e ≠ .castMismatch path kind value result)
    (hdeep : e ≠ .tooDeep)
    (h : w.castNode (w.castWithin depth) validating t a.value a.options = .error e) :
    ∃ b, a.Casts w b ∧ b.resolve w = .error e := by
  rcases castNode_eq_error h with ⟨-, path, kind, value, result, rfl⟩ | ⟨b, hb, hfails⟩
  · exact absurd rfl (hmismatch path kind value result)
  rcases bind_eq_error.mp hfails with hresolve | ⟨u, hu, hcast⟩
  · exact ⟨b, .part ht hb .here, hresolve⟩
  -- the schema of the part is resolved, and its own cast has one level less to go
  cases depth with
  | zero =>
      cases hcast
      exact absurd rfl hdeep
  | succ depth =>
      obtain ⟨c, hc, hresolve⟩ := exists_of_castWithin_error hu hmismatch hdeep hcast
      exact ⟨c, .part ht hb hc, hresolve⟩

-- ============================================================================
-- Runs
-- ============================================================================

/-- What is waited for ends well or with a violation. -/
theorem Outcome.settle_eq_error {o : Outcome} {fallback : Violation} {e : Failure}
    (h : (o.settle fallback).result = .error e) : ∃ v, e = .violation v := by
  induction o with
  | pass => exact absurd h (by simp [settle])
  | fail =>
      cases h
      exact ⟨_, rfl⟩
  | error v =>
      cases h
      exact ⟨_, rfl⟩
  | pending rounds later ih => exact ih h

/-- A test fails without a violation only by being refused for being pending. -/
theorem Test.run_eq_mistake {t : Test} {sync : Bool} {subject : Subject} {e : Failure}
    (h : (t.run sync subject).result = .error e) (he : ∀ v, e ≠ .violation v) :
    sync = true ∧ (t.outcome subject).isPending = true ∧ e = .pendingTest t.shownName := by
  rw [run] at h
  split at h
  · next hrefused =>
      obtain ⟨hsync, hpending⟩ := Bool.and_eq_true_iff.mp hrefused
      cases h
      exact ⟨hsync, hpending, rfl⟩
  · obtain ⟨v, rfl⟩ := Outcome.settle_eq_error h
    exact absurd rfl (he v)

namespace Node

variable {n : Node} {sync : Bool} {validatePart : ValidatePart} {e : Failure}

/-- The tests of a node: those of type and lists, and the declared ones. -/
def tests (n : Node) : List Test := n.schema.traits.prerequisites ++ n.schema.traits.tests

theorem exists_of_own_mistake (h : (n.own sync).result = .error e) (he : ∀ v, e ≠ .violation v) :
    ∃ t ∈ n.tests, (t.run sync n.subject).result = .error e := by
  rw [own_eq, Job.bind_result] at h
  rcases bind_eq_error.mp h with hpre | ⟨_, -, htests⟩
  · obtain ⟨job, hjob, hfails⟩ := Policy.exists_of_run_mistake hpre he
    obtain ⟨t, ht, rfl⟩ := List.mem_map.mp hjob
    exact ⟨t, List.mem_append_left _ ht, hfails⟩
  · obtain ⟨job, hjob, hfails⟩ := Policy.exists_of_run_mistake htests he
    obtain ⟨t, ht, rfl⟩ := List.mem_map.mp hjob
    exact ⟨t, List.mem_append_right _ ht, hfails⟩

theorem exists_of_partsJob_mistake
    (hshape : ∀ shape, n.schema.kind = .object shape → shape.Ordered) {found : List Violation}
    (h : (n.partsJob validatePart found).result = .error e) (he : ∀ v, e ≠ .violation v) :
    ∃ p ∈ n.parts, (p.job validatePart).result = .error e := by
  rcases partsJob_eq_error hshape h with ⟨v, -, rfl⟩ | ⟨plan, hrun⟩
  · exact absurd rfl (he v)
  · obtain ⟨job, hjob, hfails⟩ := Policy.exists_of_run_mistake hrun he
    exact plan.exists_of_job_error hjob hfails

/-- A run fails without a violation only by a test of its own or by a part. -/
theorem exists_of_run_mistake (hshape : ∀ shape, n.schema.kind = .object shape → shape.Ordered)
    (h : (n.run sync validatePart).result = .error e) (he : ∀ v, e ≠ .violation v) :
    (∃ t ∈ n.tests, (t.run sync n.subject).result = .error e) ∨
      ∃ p ∈ n.parts, (p.job validatePart).result = .error e := by
  rcases n.run_cases sync validatePart with ⟨-, hrun⟩ | ⟨v, -, -, hrun⟩ | ⟨f, hown, -, hrun⟩
  · exact Or.inr (exists_of_partsJob_mistake hshape (hrun ▸ h) he)
  · exact Or.inr (exists_of_partsJob_mistake hshape (hrun ▸ h) he)
  · cases hrun.symm.trans h
    exact Or.inl (exists_of_own_mistake hown he)

end Node

/-- The schema of a part, to be resolved. -/
def Part.evaluation (p : Part) : Evaluation := ⟨p.schema, p.value, p.options⟩

/-- A run that fails without a violation comes to a node with a test that does, or to a
    part whose schema does not resolve. -/
theorem Workshop.exists_visit_of_mistake {C : RecipeClass} {w : Workshop} (hw : w.Equipped C)
    {n : Node} (hn : n.schema.WellMade C) {sync : Bool} {depth : Nat}
    (hdepth : Value.heightOf n.value ≤ depth) {e : Failure} (he : ∀ v, e ≠ .violation v)
    (h : (n.run sync (w.validateWithin sync depth)).result = .error e) :
    ∃ m, n.Visits w m ∧ ((∃ t ∈ m.tests, (t.run sync m.subject).result = .error e) ∨
      ∃ p ∈ m.parts, p.evaluation.resolve w = .error e) := by
  rcases n.exists_of_run_mistake hn.here.shape h he with htest | ⟨p, hp, hfails⟩
  · exact ⟨n, .here, Or.inl htest⟩
  have hlt := Node.heightOf_part hp
  cases depth with
  | zero => omega
  | succ depth =>
      rw [part_result (Node.strict_part hp)] at hfails
      rcases bind_eq_error.mp hfails with hresolve | ⟨t, ht, hrun⟩
      · exact ⟨n, .here, Or.inr ⟨p, hp, hresolve⟩⟩
      · have hpart := resolve_wellMade hw (Node.everywhere_part hn hp) ht
        have hbelow : Value.heightOf (p.node t).value ≤ depth := by
          show Value.heightOf p.value ≤ depth
          omega
        obtain ⟨m, hm, hcause⟩ := exists_visit_of_mistake hw hpart hbelow he hrun
        exact ⟨m, .part hp ht hm, hcause⟩

end Conform
