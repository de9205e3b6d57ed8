/-
  Conform.Proofs.Validation.Stripping

  Stripped fields and the results of casts. A cast leaves out the fields whose schemas
  strip them, wherever it comes to; only where it comes to nothing does it put a default,
  and the default of an object is made of its fields' defaults, the stripped ones
  included. So a result is without stripped keys exactly if the defaults are that were
  put into it. A validation that is not strict gives the result of its cast.
-/

import Conform.Proofs.Validation.StrictFields

namespace Conform

-- ============================================================================
-- Values without stripped keys
-- ============================================================================

/-- Whether no object inside a value has a key that the schema of the object strips. -/
inductive Schema.Spares : Schema → Value → Prop where
  | intro {s : Schema} {v : Value} :
      (∀ shape fields, s.kind = .object shape → v = .obj fields → ∀ f ∈ shape.fields,
        f.2.isStripped = true → Dict.get? fields f.1 = none) →
      (∀ shape fields, s.kind = .object shape → v = .obj fields → ∀ f ∈ shape.fields, ∀ part,
        Dict.get? fields f.1 = some part → Spares f.2 part) →
      (∀ element items, s.kind = .array (.of element) → v = .arr items → ∀ item ∈ items,
        Spares element item) →
      Spares s v

theorem Schema.Spares.of_whole {s : Schema} {v : Value} (h : Workshop.Whole s v) : s.Spares v :=
  .intro (fun shape fields hkind heq => absurd heq (h.object shape hkind fields))
    (fun shape fields hkind heq => absurd heq (h.object shape hkind fields))
    fun element items hkind heq => absurd heq (h.array element hkind items)

-- ============================================================================
-- Casts of parts
-- ============================================================================

/-- A cast with a resolved schema, for its own sake or for the validation of an object. -/
structure CastCall where
  /-- How far the casts of the parts may go down. -/
  depth : Nat
  validating : Bool
  schema : Schema
  raw : Option Value
  options : CallOptions

namespace CastCall

/-- What the cast comes to. -/
def result (w : Workshop) (c : CastCall) : Result (Option Value) :=
  w.castNode (w.castWithin c.depth) c.validating c.schema c.raw c.options

/-- The value whose parts are cast. -/
def prepared (c : CastCall) : Option Value := c.raw.bind (Workshop.prepare c.schema)

/-- Whether a cast meets a part under a key: the schema that is resolved for the part,
    its raw value and its options. -/
inductive Meets (w : Workshop) : CastCall → PartKey → CastCall → Prop where
  | field {depth below : Nat} {validating : Bool} {s field t : Schema} {raw : Option Value}
      {shape : Shape Schema} {input done : Dict Value} {options : CallOptions} {key : String} :
      depth = below + 1 → raw.bind (Workshop.prepare s) = some (.obj input) →
      s.kind = .object shape → shape.fields.lookup key = some field →
      (shape.order.takeWhile (· != key)).foldlM (w.castKey (w.castWithin depth) validating
        options shape.fields (!options.dropsUnknown s) input) [] = .ok done →
      w.resolve field (Dict.get? input key) (options.forField done key) = .ok t →
      Meets w ⟨depth, validating, s, raw, options⟩ (.field key)
        ⟨below, false, t, Dict.get? input key, options.forField done key⟩
  | item {depth below : Nat} {validating : Bool} {s element t : Schema} {raw : Option Value}
      {items : List Value} {options : CallOptions} {position : Nat} {item : Value} :
      depth = below + 1 → raw.bind (Workshop.prepare s) = some (.arr items) →
      s.kind = .array (.of element) → items[position]? = some item →
      w.resolve element (some item) (options.forItem position) = .ok t →
      Meets w ⟨depth, validating, s, raw, options⟩ (.item position)
        ⟨below, false, t, some item, options.forItem position⟩

/-- Whether a part is left out because its schema strips it. Items never are. -/
def isStripped (d : CastCall) : PartKey → Bool
  | .field _ => d.schema.isStripped
  | .item _ => false

/-- Whether a part is handed on as it was given: a strict field of an object that is
    validated. -/
def handsOn (c d : CastCall) : PartKey → Bool
  | .field _ => c.validating && d.schema.isStrict
  | .item _ => false

/-- Whether a cast comes to another one by parts that it casts. -/
inductive Comes (w : Workshop) : CastCall → CastCall → Prop where
  | here {c : CastCall} : Comes w c c
  | part {c d e : CastCall} {key : PartKey} :
      c.Meets w key d → d.isStripped key = false → c.handsOn d key = false → Comes w d e →
      Comes w c e

/-- Whether a value has no stripped keys where the cast has made it: a default is without
    them, and otherwise what stands in the place of a part is no stripped field, and has
    none itself unless it was handed on as it was given. -/
inductive Spares (w : Workshop) : CastCall → Value → Prop where
  | default {c : CastCall} {v : Value} : c.prepared = none → c.schema.Spares v → Spares w c v
  | parts {c : CastCall} {v : Value} : c.prepared ≠ none →
      (∀ key d, c.Meets w key d → d.isStripped key = true → v.part? key = none) →
      (∀ key d, c.Meets w key d → c.handsOn d key = false → ∀ part, v.part? key = some part →
        Spares w d part) →
      Spares w c v

variable {w : Workshop} {C : RecipeClass} {c d : CastCall} {key : PartKey} {out : Value}

theorem Meets.prepared (h : c.Meets w key d) : c.prepared ≠ none := by
  cases h with
  | field _ hprepared => exact fun hnone => absurd (hprepared.symm.trans hnone) (by simp)
  | item _ hprepared => exact fun hnone => absurd (hprepared.symm.trans hnone) (by simp)

theorem Meets.wellMade (hw : w.Equipped C) (h : c.Meets w key d) (hc : c.schema.WellMade C) :
    d.schema.WellMade C := by
  cases h with
  | field _ _ hkind hfield _ hresolve =>
      exact Workshop.resolve_wellMade hw (hc.field hkind (Dict.mem_of_get? hfield)) hresolve
  | item _ _ hkind _ hresolve => exact Workshop.resolve_wellMade hw (hc.element hkind) hresolve

/-- What stands in the place of a part in a result: nothing for a stripped field, the raw
    value of a part that is handed on, and else what the cast of the part leaves. -/
theorem Meets.part? (h : c.Meets w key d) (hc : c.schema.WellMade C)
    (hr : c.result w = .ok (some out)) :
    (d.isStripped key = true ∧ out.part? key = none) ∨
      (d.isStripped key = false ∧ c.handsOn d key = true) ∨
      (d.isStripped key = false ∧ c.handsOn d key = false ∧
        ∃ r, d.result w = .ok r ∧ out.part? key = key.left r) := by
  cases h with
  | @field depth below validating s field t raw shape input done options key hdepth hprepared hkind
      hfield hdone hresolve =>
      subst hdepth
      have hparts := Workshop.castNode_eq_ok hprepared hr
      rw [Workshop.castParts_object hkind] at hparts
      obtain ⟨fields, heq⟩ := Workshop.castFields_eq_ok hparts
      cases heq
      obtain ⟨done', value, hdone', hvalue, hget⟩ :=
        Workshop.castFields_field (hc.here.shape shape hkind) hfield hparts
      cases hdone.symm.trans hdone'
      obtain ⟨t', ht', hcases⟩ := Workshop.castField_eq_ok hvalue
      cases hresolve.symm.trans ht'
      rcases hcases with ⟨hstripped, rfl⟩ | ⟨hkept, hstrict, -⟩ | ⟨hkept, hplain, hcast⟩
      · exact Or.inl ⟨hstripped, hget⟩
      · exact Or.inr (Or.inl ⟨hkept, hstrict⟩)
      · exact Or.inr (Or.inr ⟨hkept, hplain, value, hcast, hget⟩)
  | @item depth below validating s element t raw items options position item hdepth hprepared hkind
      hitem hresolve =>
      subst hdepth
      have hparts := Workshop.castNode_eq_ok hprepared hr
      rw [Workshop.castParts_array hkind] at hparts
      obtain ⟨out', hout, heq⟩ := bind_eq_ok.mp hparts
      cases heq
      obtain ⟨-, hitems⟩ := Workshop.castItems_item hout
      obtain ⟨t', r, ht', hcast, hget⟩ := hitems position item hitem
      rw [Nat.zero_add] at ht' hcast
      cases hresolve.symm.trans ht'
      exact Or.inr (Or.inr ⟨rfl, rfl, r, hcast, hget⟩)

/-- A cast of nothing comes to the default. -/
theorem result_of_prepared_none {r : Option Value} (hprepared : c.prepared = none)
    (hr : c.result w = .ok r) : r = c.schema.defaultValue := by
  obtain ⟨-, ⟨-, hdefault⟩ | ⟨v, hv, -⟩⟩ := Workshop.castNode_cases hr
  · exact hdefault
  · exact absurd (hprepared.symm.trans hv) (by simp)

/-- Only a cast of nothing comes to nothing. -/
theorem prepared_of_result_none (hr : c.result w = .ok none) : c.prepared = none := by
  obtain ⟨-, ⟨hnone, -⟩ | ⟨v, -, hparts⟩⟩ := Workshop.castNode_cases hr
  · exact hnone
  · rcases Workshop.whole_cases c.schema v with ⟨shape, fields, hkind, rfl⟩ |
      ⟨element, items, hkind, rfl⟩ | hwhole
    · rw [Workshop.castParts_object hkind] at hparts
      obtain ⟨fields', heq⟩ := Workshop.castFields_eq_ok hparts
      exact absurd heq (by simp)
    · rw [Workshop.castParts_array hkind] at hparts
      obtain ⟨items', -, heq⟩ := bind_eq_ok.mp hparts
      exact absurd heq (by simp)
    · rw [Workshop.castParts_whole hwhole] at hparts
      exact absurd hparts (by simp)

-- ============================================================================
-- Defaults in results
-- ============================================================================

/-- Whether the defaults that a cast puts have no stripped keys. -/
def PutsSparing (w : Workshop) (c : CastCall) : Prop :=
  ∀ d, c.Comes w d → d.prepared = none → ∀ u, d.schema.defaultValue = some u → d.schema.Spares u

theorem PutsSparing.part (h : c.PutsSparing w) (hd : c.Meets w key d)
    (hkept : d.isStripped key = false) (hcast : c.handsOn d key = false) : d.PutsSparing w :=
  fun e he => h e (.part hd hkept hcast he)

theorem spares_null (hr : d.result w = .ok none) : d.Spares w .null :=
  .default (prepared_of_result_none hr) (.of_whole ⟨by simp, by simp⟩)

/-- A result has no stripped keys if the defaults have none and the results of the parts. -/
theorem spares_of_parts (hc : c.schema.WellMade C) (hr : c.result w = .ok (some out))
    (h : c.PutsSparing w)
    (hparts : ∀ key d, c.Meets w key d → d.isStripped key = false → c.handsOn d key = false →
      ∀ v, d.result w = .ok (some v) → d.Spares w v) : c.Spares w out := by
  by_cases hprepared : c.prepared = none
  · exact .default hprepared (h c .here hprepared out (result_of_prepared_none hprepared hr).symm)
  · refine .parts hprepared (fun key d hd hstripped => ?_) fun key d hd hcast part hpart => ?_
    · rcases hd.part? hc hr with ⟨-, hnone⟩ | ⟨hkept, -⟩ | ⟨hkept, -⟩
      · exact hnone
      · exact absurd (hstripped.symm.trans hkept) (by simp)
      · exact absurd (hstripped.symm.trans hkept) (by simp)
    · rcases hd.part? hc hr with ⟨-, hnone⟩ | ⟨-, hgiven⟩ | ⟨hkept, -, r, hr', hleft⟩
      · exact absurd (hnone.symm.trans hpart) (by simp)
      · exact absurd (hgiven.symm.trans hcast) (by simp)
      · have hpart' : key.left r = some part := hleft.symm.trans hpart
        cases r with
        | none =>
            cases key with
            | field key => exact absurd hpart' (by simp [PartKey.left])
            | item position =>
                obtain rfl : Value.null = part := Option.some.inj hpart'
                exact spares_null hr'
        | some v =>
            rw [key.left_some] at hpart'
            obtain rfl : v = part := Option.some.inj hpart'
            exact hparts key d hd hkept hcast v hr'

/-- A result has no stripped keys if the defaults have none that were put into it. The
    induction is on the depth that the casts of the parts may go down by. -/
theorem spares_of_putsSparing (hw : w.Equipped C) (hc : c.schema.WellMade C)
    (hr : c.result w = .ok (some out)) (h : c.PutsSparing w) : c.Spares w out := by
  induction hdepth : c.depth generalizing c out with
  | zero =>
      refine spares_of_parts hc hr h fun key d hd => ?_
      cases hd with
      | field hbelow => exact absurd (hdepth.symm.trans hbelow) (by simp)
      | item hbelow => exact absurd (hdepth.symm.trans hbelow) (by simp)
  | succ depth ih =>
      refine spares_of_parts hc hr h fun key d hd hkept hcast v hv => ?_
      have hlower : d.depth = depth := by
        cases hd with
        | field hbelow => exact Nat.succ.inj (hbelow.symm.trans hdepth)
        | item hbelow => exact Nat.succ.inj (hbelow.symm.trans hdepth)
      exact ih (hd.wellMade hw hc) hv (h.part hd hkept hcast) hlower

/-- What a cast has made without stripped keys has none in the defaults that were put. -/
theorem putsSparing_of_spares (hw : w.Equipped C) (hc : c.schema.WellMade C)
    (hr : c.result w = .ok (some out)) (h : c.Spares w out) : c.PutsSparing w := by
  intro e he
  induction he generalizing out with
  | here =>
      intro hprepared u hu
      have hdefault := result_of_prepared_none hprepared hr
      obtain rfl : out = u := Option.some.inj (hdefault.trans hu)
      cases h with
      | default _ hspares => exact hspares
      | parts hsome _ _ => exact absurd hprepared hsome
  | @part c d e key hd hkept hcast he ih =>
      intro hprepared u hu
      cases h with
      | default hnone _ => exact absurd hnone hd.prepared
      | parts _ _ hparts =>
          rcases hd.part? hc hr with ⟨hstripped, -⟩ | ⟨-, hgiven⟩ | ⟨-, -, r, hr', hleft⟩
          · exact absurd (hstripped.symm.trans hkept) (by simp)
          · exact absurd (hgiven.symm.trans hcast) (by simp)
          · cases r with
            | none =>
                -- a cast that comes to nothing has no default and goes no further
                have hnone := prepared_of_result_none hr'
                cases he with
                | here => exact absurd ((result_of_prepared_none hnone hr').trans hu) (by simp)
                | part hnext _ _ _ => exact absurd hnone hnext.prepared
            | some v =>
                rw [key.left_some] at hleft
                exact ih (hd.wellMade hw hc) hr' (hparts key d hd hcast v hleft) hprepared u hu

end CastCall

-- ============================================================================
-- Calls
-- ============================================================================

namespace Workshop

variable {w : Workshop} {s : Schema} {value r : Option Value} {options : CallOptions}

/-- Whether a call succeeds with the result of a cast: a cast, or a validation that does
    not take the value strictly. -/
inductive Yields (w : Workshop) (s : Schema) (value : Option Value) (options : CallOptions) :
    CastCall → Option Value → Prop where
  | cast {t : Schema} {r : Option Value} :
      w.resolve s value options = .ok t → w.cast s value options = .ok r →
      Yields w s value options
        { depth := depthLimit + t.height, validating := false, schema := t, raw := value
          options } r
  | validate {sync : Bool} {t : Schema} {r : Option Value} :
      w.resolve s value options = .ok t → (Mode.of options t.traits.options).strict = false →
      w.call sync s value options = .ok r →
      Yields w s value options
        { depth := depthLimit + t.height, validating := t.tag == .object, schema := t, raw := value
          options := castOptions options } r

/-- The result of a call is that of the cast. -/
theorem Yields.result {C : RecipeClass} (hw : w.Equipped C) (hs : s.WellMade C) {c : CastCall}
    (h : w.Yields s value options c r) : c.result w = .ok r ∧ c.schema.WellMade C := by
  cases h with
  | @cast t _ ht hcast =>
      rw [Workshop.cast] at hcast
      obtain ⟨t', ht', hcast⟩ := bind_eq_ok.mp hcast
      cases ht.symm.trans ht'
      exact ⟨hcast, resolve_wellMade hw hs ht⟩
  | @validate _ t _ ht hstrict hvalid =>
      obtain ⟨n, hn, rfl, -⟩ := (call_eq_ok hw hs).mp hvalid
      obtain ⟨ht', hchecked⟩ := enter_eq_ok hn
      have hoptions := enter_options hn
      obtain ⟨u, v, raw, options'⟩ := n
      cases hoptions
      cases ht.symm.trans ht'
      have hmode : (Node.mode ⟨u, v, raw, options⟩).strict = false := hstrict
      rw [hmode] at hchecked
      exact ⟨hchecked, resolve_wellMade hw hs ht⟩

/-- A cast, or a validation that is not strict, succeeds without stripped keys in its
    result exactly if none of the defaults that were put for absent values has any. -/
theorem stripped_keys_come_from_defaults (hw : w.Reachable .all) (hs : s.Made .all)
    {c : CastCall} {out : Value} (h : w.Yields s value options c (some out)) :
    c.Spares w out ↔ c.PutsSparing w := by
  obtain ⟨hr, hc⟩ := h.result hw.equipped hs.wellMade
  exact ⟨CastCall.putsSparing_of_spares hw.equipped hc hr,
    CastCall.spares_of_putsSparing hw.equipped hc hr⟩

/-- An object with a text inside that has a default and is stripped. -/
def secretForm : Recipe :=
  .make .object [.shape [("a", .make .object [.shape
    [("b", .make .string [.fallback (some (.str "x")), .strip true])] []])] []]

/-- The stripped text is in the result, as the object that it belongs to is absent and its
    default is put. -/
theorem stripped_keys_come_from_defaults_secret :
    ∃ s c, initial.build none secretForm = .ok s ∧
      initial.Yields s (some (.obj [])) .none c (some (.obj [("a", .obj [("b", .str "x")])])) ∧
      ¬ c.Spares initial (.obj [("a", .obj [("b", .str "x")])]) := by
  obtain ⟨s, a, b, hs, hcast, hkind, hakind, hconditions, haconditions, htransforms, hdefault,
      hstripped, hastripped, hbefore⟩ :
      ∃ s a b, initial.build none secretForm = .ok s ∧
        initial.cast s (some (.obj [])) .none =
          .ok (some (.obj (Dict.merge [("a", .obj [("b", .str "x")])] []))) ∧
        s.kind = .object ⟨[("a", a)], ["a"], []⟩ ∧ a.kind = .object ⟨[("b", b)], ["b"], []⟩ ∧
        s.conditions = [] ∧ a.conditions = [] ∧ s.traits.transforms = [] ∧
        a.defaultValue = some (.obj [("b", .str "x")]) ∧ b.isStripped = true ∧
        a.isStripped = false ∧
        ∀ castPart, (["a"].takeWhile (· != "a")).foldlM (initial.castKey castPart false .none
          [("a", a)] (!CallOptions.none.dropsUnknown s) []) [] = .ok [] :=
    ⟨_, _, _, rfl, rfl, rfl, rfl, rfl, rfl, rfl, rfl, rfl, rfl, fun _ => rfl⟩
  rw [Dict.merge, List.merge_right] at hcast
  have hmade : s.Made .all := ⟨initial, none, secretForm, .initial, trivial, hs⟩
  have hyields : initial.Yields s (some (.obj [])) .none _ _ :=
    .cast (resolve_self (by simp [hkind]) hconditions _ _) hcast
  refine ⟨s, _, hs, hyields, fun hspares => ?_⟩
  have hputs := (stripped_keys_come_from_defaults .initial hmade hyields).mp hspares
  obtain ⟨below, hbelow⟩ : ∃ below, depthLimit + s.height = below + 1 :=
    Nat.exists_eq_add_one.mpr (Nat.add_pos_left (by decide) _)
  have hcomes : CastCall.Comes initial _ _ :=
    .part (.field hbelow (prepare_of_isType htransforms (Schema.isType_obj hkind [])) hkind rfl
      (hbefore _) (resolve_self (by simp [hakind]) haconditions _ _)) hastripped rfl .here
  have hsparing := hputs _ hcomes rfl _ hdefault
  cases hsparing with
  | intro hnone _ _ =>
      have hb : Dict.get? [("b", Value.str "x")] "b" = none :=
        hnone _ _ hakind rfl ("b", b) List.mem_cons_self hstripped
      exact absurd hb (by simp [Dict.get?])

end Workshop

end Conform
