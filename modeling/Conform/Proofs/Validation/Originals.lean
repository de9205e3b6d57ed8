/-
  Conform.Proofs.Validation.Originals

  What tests are told of the input that their value was cast from. The whole input is
  handed down beside the value, part by part. Where it lacks a part, or has null there,
  the value that came out of the cast stands in for it, and goes on standing in for all
  that is below. So a test that asks for the input of a field is told a default, or what
  became of null, as if it had been given.
-/

import Conform.Proofs.Schema.Supplying
import Conform.Proofs.Validation.StrictFields

namespace Conform

-- ============================================================================
-- Inputs along access paths
-- ============================================================================

namespace Value

variable {v : Option Value} {path : List PartKey}

/-- Absent values have no parts. -/
theorem bind_part?_of_absent (h : isAbsent v = true) (key : PartKey) :
    (v.bind fun v => v.part? key) = none := by
  rcases v with _ | v
  · rfl
  · cases v with
    | null => cases key <;> rfl
    | _ => exact absurd h (by simp [isAbsent, isNull])

/-- Only objects have fields. -/
theorem bind_field?_of_ne (h : ∀ fields, v ≠ some (.obj fields)) (key : String) :
    (v.bind fun v => v.part? (.field key)) = none := by
  rcases v with _ | v
  · rfl
  · cases v with
    | obj fields => exact absurd rfl (h fields)
    | _ => rfl

/-- Only arrays have items. -/
theorem bind_item?_of_ne (h : ∀ items, v ≠ some (.arr items)) (position : Nat) :
    (v.bind fun v => v.part? (.item position)) = none := by
  rcases v with _ | v
  · rfl
  · cases v with
    | arr items => exact absurd rfl (h items)
    | _ => rfl

theorem partAt_of_absent (h : isAbsent v = true) (hpath : path ≠ []) : partAt v path = none := by
  cases path with
  | nil => exact absurd rfl hpath
  | cons key rest => rw [partAt, bind_part?_of_absent h, partAt_none]

end Value

namespace Workshop

variable {value raw : Option Value}

theorem rawOf_of_absent (h : isAbsent raw = true) : rawOf value raw = value := if_pos h

theorem rawOf_of_given (h : isAbsent raw = false) : rawOf value raw = raw :=
  if_neg (by simp [h])

theorem rawOf_self (value : Option Value) : rawOf value value = value := ite_self value

end Workshop

namespace Node

open Workshop (rawOf rawOf_of_absent rawOf_of_given rawOf_self)

variable {w : Workshop} {n m : Node} {p : Part} {key : PartKey} {path : List PartKey}

/-- The input of a part is the part of the input, if that is there. -/
theorem Hands.raw (h : n.Hands key p) :
    rawOf p.value p.raw = rawOf p.value (n.raw.bind fun v => v.part? key) := by
  cases h with
  | @field shape fields f _ _ _ _ =>
      dsimp only [fieldPart]
      split
      · next input hraw =>
          rw [hraw]
          rfl
      · next hraw =>
          rw [Value.bind_field?_of_ne hraw, rawOf_self]
          rfl
  | @item element items item _ _ _ hitem =>
      dsimp only [itemPart]
      split
      · next input hraw =>
          rw [hraw, List.getElem?_toArray]
          rfl
      · next hraw =>
          have hsame : items.toArray[item.2]? = some item.1 := by
            rw [List.getElem?_toArray]
            exact List.mem_zipIdx_iff_getElem?.mp hitem
          rw [Value.bind_item?_of_ne hraw, hsame, rawOf_self]
          rfl

/-- Below a node, tests are told what the input has at the access path, or the value that
    they are to judge, where it has nothing or null there. -/
theorem Reaches.raw (h : n.Reaches w path m) (hpath : path ≠ []) :
    m.raw = rawOf m.value (Value.partAt n.raw path) := by
  induction h with
  | here => exact absurd rfl hpath
  | @part n m key p t path hkey _ hrest ih =>
      have hnode : (p.node t).raw = rawOf p.value (n.raw.bind fun v => v.part? key) := hkey.raw
      have hstep : Value.partAt n.raw (key :: path) =
          Value.partAt (n.raw.bind fun v => v.part? key) path := rfl
      by_cases hlast : path = []
      · subst hlast
        cases hrest
        exact hnode
      · rw [ih hlast, hnode, hstep]
        cases habsent : isAbsent (n.raw.bind fun v => v.part? key) with
        | false => rw [rawOf_of_given habsent]
        | true =>
            -- the value of the part stands in for it, and with its parts for what is below
            have hvalue : Value.partAt p.value path = m.value := hrest.value.symm
            rw [rawOf_of_absent habsent, hvalue, rawOf_self,
              Value.partAt_of_absent habsent hlast, rawOf_of_absent rfl]

end Node

-- ============================================================================
-- Nodes of a call
-- ============================================================================

namespace Workshop

variable {w : Workshop} {s : Schema} {n m : Node} {value : Option Value} {options : CallOptions}
  {path : List PartKey} {key : String} {input : Dict Value}

/-- The tests of the value of a call are told the input as it is, be it null or not. -/
theorem raw_of_enter (h : w.enter (root s value options) = .ok n) : n.raw = value := by
  rw [enter] at h
  obtain ⟨resolved, -, h⟩ := bind_eq_ok.mp h
  obtain ⟨checked, -, h⟩ := bind_eq_ok.mp h
  cases h
  rfl

/-- What tests are told is the input at the access path, but for one difference: below the
    value of the call, what is undefined or null counts as if the value that comes out of
    the cast had been given. -/
theorem original_of_reaches (henter : w.enter (root s value options) = .ok n)
    (hm : n.Reaches w path m) :
    m.subject.raw =
      if path = [] then value else rawOf m.subject.value (Value.partAt value path) := by
  have hraw := raw_of_enter henter
  split
  · next hnil =>
      subst hnil
      cases hm
      exact hraw
  · next hsome => exact hraw ▸ hm.raw hsome

/-- The tests of a field that is missing from an object that is cast see the default of the
    schema that is resolved for it, unless the field is strict or left out. -/
theorem seen_of_missing (hw : w.Reachable .all) (hs : s.Made .all)
    (henter : w.enter (root s (some (.obj input)) options) = .ok n)
    (hm : n.Reaches w [.field key] m) (hstrict : n.mode.strict = false)
    (htransforms : n.schema.traits.transforms = []) (hmissing : Dict.get? input key = none) :
    ∃ shape field done t, n.schema.kind = .object shape ∧
      shape.fields.lookup key = some field ∧
      w.doneBefore (w.castWithin (depthLimit + n.schema.height)) n.schema shape input
        (castOptions options) key = .ok done ∧
      w.resolve field none ((castOptions options).forField done key) = .ok t ∧
      (t.isStripped = false → t.isStrict = false → m.subject.value = t.defaultValue) := by
  obtain ⟨shape, hkind⟩ : ∃ shape, n.schema.kind = .object shape := by
    cases hm with
    | part hkey _ _ => cases hkey with | field _ hkind _ _ => exact ⟨_, hkind⟩
  obtain ⟨field, hfield⟩ := hm.lookup hkind
  have hordered := (enter_wellMade hw.equipped hs.wellMade henter).here.shape shape hkind
  have hchecked := checkedValue_of_enter henter
  rw [hstrict] at hchecked
  obtain ⟨out, done, t, hout, hdone, ht, hcases⟩ :=
    checked_field hordered hkind htransforms hfield hchecked
  rw [hmissing] at ht hcases
  refine ⟨shape, field, done, t, hkind, hfield, hdone, ht, fun hkept hmark => ?_⟩
  have hseen : m.subject.value = Dict.get? out key := by
    rw [hm.value, hout]
    rfl
  rcases hcases with ⟨hstripped, -⟩ | ⟨-, hstrict', -⟩ | ⟨-, -, hcast⟩
  · exact absurd hstripped (by simp [hkept])
  · exact absurd hstrict' (by simp [hmark])
  · rw [castWithin_none (Nat.add_pos_right _ n.schema.height_pos)] at hcast
    rw [hseen]
    exact (Except.ok.inj hcast).symm

/-- What the tests of a declared field of an object are told is the input of the field,
    unless the object lacks the field or has null there. Then they are told what they are
    to judge, so the input of the field is told only if the cast made nothing else of it.
    For a field that is missing it is the default of the schema of the field, where the
    object is cast and the field is neither strict nor left out. -/
theorem original_of_field (hw : w.Reachable .all) (hs : s.Made .all)
    (henter : w.enter (root s (some (.obj input)) options) = .ok n)
    (hm : n.Reaches w [.field key] m) :
    (isAbsent (Dict.get? input key) = false → m.subject.raw = Dict.get? input key) ∧
    (isAbsent (Dict.get? input key) = true → m.subject.raw = m.subject.value) ∧
    (m.subject.raw = Dict.get? input key ↔
      (isAbsent (Dict.get? input key) = true → m.subject.value = Dict.get? input key)) ∧
    (n.mode.strict = false → n.schema.traits.transforms = [] → Dict.get? input key = none →
      ∃ shape field done t, n.schema.kind = .object shape ∧
        shape.fields.lookup key = some field ∧
        w.doneBefore (w.castWithin (depthLimit + n.schema.height)) n.schema shape input
          (castOptions options) key = .ok done ∧
        w.resolve field none ((castOptions options).forField done key) = .ok t ∧
        (t.isStripped = false → t.isStrict = false → m.subject.raw = t.defaultValue)) := by
  have hraw : m.subject.raw = rawOf m.subject.value (Dict.get? input key) :=
    original_of_reaches henter hm
  have hgiven (h : isAbsent (Dict.get? input key) = false) :
      m.subject.raw = Dict.get? input key := hraw.trans (rawOf_of_given h)
  have habsent (h : isAbsent (Dict.get? input key) = true) :
      m.subject.raw = m.subject.value := hraw.trans (rawOf_of_absent h)
  refine ⟨hgiven, habsent, ⟨fun heq h => (habsent h).symm.trans heq, fun heq => ?_⟩, ?_⟩
  · cases h : isAbsent (Dict.get? input key) with
    | false => exact hgiven h
    | true => exact (habsent h).trans (heq h)
  · intro hstrict htransforms hmissing
    obtain ⟨shape, field, done, t, hkind, hfield, hdone, ht, hseen⟩ :=
      seen_of_missing hw hs henter hm hstrict htransforms hmissing
    have htold : m.subject.raw = m.subject.value := habsent (hmissing ▸ rfl)
    exact ⟨shape, field, done, t, hkind, hfield, hdone, ht, fun hkept hmark =>
      htold.trans (hseen hkept hmark)⟩

/-- An order with a default for its currency, a note that is not to be null, and a count. -/
def order : Recipe :=
  .make .object [.shape [("currency", .make .string [.fallback (some (.str "EUR"))]),
    ("note", .make .string [.ensure]), ("count", .plain .number)] []]

/-- The tests of a currency that is missing are told the default, and those of a note that
    is null are told the empty text; only those of the count are told what was given. -/
theorem original_of_field_order :
    ∃ s n currency note count, initial.build none order = .ok s ∧
      initial.enter (root s (some (.obj [("count", .str "5"), ("note", .null)])) .none) = .ok n ∧
      n.Reaches initial [.field "currency"] currency ∧
      currency.subject.raw = some (.str "EUR") ∧
      n.Reaches initial [.field "note"] note ∧ note.subject.raw = some (.str "") ∧
      n.Reaches initial [.field "count"] count ∧ count.subject.raw = some (.str "5") ∧
      count.subject.value = some (.int 5) := by
  obtain ⟨s, n, shape, a, b, c, hs, henter, hrecursive, hkind, hvalue, ⟨ha, hb, hc⟩,
      ⟨hakind, hbkind, hckind⟩, haplain, hbplain, hcplain⟩ :
      ∃ s n shape a b c, initial.build none order = .ok s ∧
        initial.enter (root s (some (.obj [("count", .str "5"), ("note", .null)])) .none) =
          .ok n ∧
        n.mode.recursive = true ∧ n.schema.kind = .object shape ∧
        n.value = some (.obj (Dict.merge
          [("count", .int 5), ("currency", .str "EUR"), ("note", .str "")] [])) ∧
        (shape.fields.lookup "currency" = some a ∧ shape.fields.lookup "note" = some b ∧
          shape.fields.lookup "count" = some c) ∧
        (a.kind = .string ∧ b.kind = .string ∧ c.kind = .number) ∧
        a.conditions = [] ∧ b.conditions = [] ∧ c.conditions = [] :=
    ⟨_, _, _, _, _, _, rfl, rfl, rfl, rfl, rfl, ⟨rfl, rfl, rfl⟩, ⟨rfl, rfl, rfl⟩, rfl, rfl, rfl⟩
  simp only [Dict.merge, List.merge_right] at hvalue
  have hmade : s.Made .all := ⟨initial, none, order, .initial, trivial, hs⟩
  have hcurrency : n.Reaches initial [.field "currency"] _ :=
    .field hrecursive hkind hvalue ha (by simp [hakind]) haplain .here
  have hnote : n.Reaches initial [.field "note"] _ :=
    .field hrecursive hkind hvalue hb (by simp [hbkind]) hbplain .here
  have hcount : n.Reaches initial [.field "count"] _ :=
    .field hrecursive hkind hvalue hc (by simp [hckind]) hcplain .here
  obtain ⟨-, hmissing, -⟩ := original_of_field .initial hmade henter hcurrency
  obtain ⟨-, hnull, -⟩ := original_of_field .initial hmade henter hnote
  obtain ⟨hgiven, -⟩ := original_of_field .initial hmade henter hcount
  exact ⟨s, n, _, _, _, hs, henter, hcurrency, hmissing rfl, hnote, hnull rfl, hcount, hgiven rfl,
    rfl⟩

end Workshop

end Conform
