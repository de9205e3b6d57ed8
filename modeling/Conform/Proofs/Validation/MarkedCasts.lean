/-
  Conform.Proofs.Validation.MarkedCasts

  Casts of objects with a strip mark on a field. A stripped field is never written, so if
  nothing else looks at the field, every other key is cast as without the mark, and the
  result is the one without the mark less the field.
-/

import Conform.Proofs.Ascending
import Conform.Proofs.Schema.FieldMark
import Conform.Proofs.Validation.Overlooking
import Conform.Proofs.Validation.Stripping

namespace Conform

namespace Workshop

variable {w : Workshop} {sync : Bool} {s t f : Schema} {shape : Shape Schema} {key : String}
  {mark : Option Bool} {options : CallOptions}

/-- Whether the strip mark of a schema stands: whatever it is, the schema resolves to the
    same schema with this mark. -/
def MarkStands (w : Workshop) (s : Schema) : Prop :=
  ∀ value options, (∃ e, ∀ mark, w.resolve (s.withStrip mark) value options = .error e) ∨
    ∃ u : Schema, ∀ mark, w.resolve (s.withStrip mark) value options = .ok (u.withStrip mark)

theorem markStands_of_plain (hlazy : ∀ pick, s.kind ≠ .lazy pick)
    (hconditions : s.conditions = []) :
    w.MarkStands s :=
  fun value options => Or.inr ⟨s, fun mark =>
    resolve_self (s := s.withStrip mark) hlazy hconditions value options⟩

-- ============================================================================
-- Casts
-- ============================================================================

/-- A cast that no condition looks at the key for is the same without the key. The
    induction is on the depth of the cast; only items are cast with the same parent. -/
theorem castWithin_without (depth : Nat)
    (h : ∀ element, t.kind = .array (.of element) → ∀ x, element.Sights w x → ∀ value options,
      w.resolve x value (options.without key) = w.resolve x value options)
    (raw : Option Value) (options : CallOptions) :
    w.castWithin depth t raw (options.without key) = w.castWithin depth t raw options := by
  induction depth generalizing t raw options with
  | zero => rfl
  | succ depth ih =>
      have hparts (v : Value) :
          w.castParts (w.castWithin depth) false t v (options.without key) =
            w.castParts (w.castWithin depth) false t v options := by
        rcases whole_cases t v with ⟨shape, fields, hkind, rfl⟩ | ⟨element, items, hkind, rfl⟩ |
          hwhole
        · rw [castParts_object hkind, castParts_object hkind]
          rfl
        · have hitems (position : Nat) :
              w.castItems (w.castWithin depth) element (options.without key) position items =
                w.castItems (w.castWithin depth) element options position items := by
            induction items generalizing position with
            | nil => rfl
            | cons item rest ihitems =>
                have hoptions : (options.without key).forItem position =
                    (options.forItem position).without key := rfl
                rw [castItems, castItems, ihitems, hoptions, h element hkind element .here]
                cases hu : w.resolve element (some item) (options.forItem position) with
                | error e => rfl
                | ok u =>
                    have hitem := ih (t := u) (fun e he x hx => h element hkind x (.item hu he hx))
                      (some item) (options.forItem position)
                    simp only [bind, Except.bind, hitem]
          rw [castParts_array hkind, castParts_array hkind, hitems]
        · rw [castParts_whole hwhole, castParts_whole hwhole]
      show w.castNode (w.castWithin depth) false t raw (options.without key) =
        w.castNode (w.castWithin depth) false t raw options
      rw [castNode, castNode]
      cases raw.bind (prepare t) with
      | none => rfl
      | some v =>
          dsimp only
          rw [hparts v]
          rfl

/-- The value of another field does not depend on whether the key stands in the object. -/
theorem castField_without (hf : w.Overlooks sync key f) {depth : Nat} {validating : Bool}
    (done : Dict Value) (other : String) (raw : Option Value) :
    w.castField (w.castWithin depth) validating options (Dict.erase done key) other f raw =
      w.castField (w.castWithin depth) validating options done other f raw := by
  have hinner : options.forField (Dict.erase done key) other =
      (options.forField done other).without key := rfl
  rw [castField, castField, hinner, hf.resolves f .here]
  cases hu : w.resolve f raw (options.forField done other) with
  | error e => rfl
  | ok u =>
      have hcast := castWithin_without (t := u) depth
        (fun e he x hx => hf.resolves x (.item hu he hx)) raw (options.forField done other)
      simp only [bind, Except.bind, hcast]

variable {castPart : CastPart} {validating keepUnknown : Bool} {input done after : Dict Value}

/-- The fields that are done ascend. -/
theorem foldlM_castKey_ascending {fields : List (String × Schema)} {keys : List String}
    (hdone : Dict.Ascending done)
    (h : keys.foldlM (w.castKey castPart validating options fields keepUnknown input) done =
      .ok after) : Dict.Ascending after := by
  induction keys generalizing done with
  | nil =>
      cases h
      exact hdone
  | cons first rest ih =>
      rw [List.foldlM_cons, castKey_eq] at h
      obtain ⟨between, hbetween, h⟩ := bind_eq_ok.mp h
      obtain ⟨value, -, hset⟩ := bind_eq_ok.mp hbetween
      cases hset
      exact ih (hdone.supply first value) h

/-- Casts of keys without a key that nothing looks at are the casts with it, less the key. -/
theorem foldlM_castKey_erase {depth : Nat} {keys : List String}
    (hothers : ∀ f ∈ shape.fields, f.1 ≠ key → w.Overlooks sync key f.2) (hkey : key ∉ keys)
    (hdone : Dict.Ascending done) :
    keys.foldlM (w.castKey (w.castWithin depth) validating options shape.fields keepUnknown input)
        (Dict.erase done key) =
      (keys.foldlM (w.castKey (w.castWithin depth) validating options shape.fields keepUnknown
        input) done).map fun d => Dict.erase d key := by
  induction keys generalizing done with
  | nil => rfl
  | cons first rest ih =>
      obtain ⟨hfirst, hrest⟩ := not_or.mp fun h => hkey (List.mem_cons.mpr h)
      have hne : first ≠ key := Ne.symm hfirst
      have hvalue : w.keyValue (w.castWithin depth) validating options shape.fields keepUnknown
          input (Dict.erase done key) first =
          w.keyValue (w.castWithin depth) validating options shape.fields keepUnknown input done
            first := by
        rw [keyValue, keyValue]
        cases hlookup : shape.fields.lookup first with
        | none => rfl
        | some f => exact castField_without (hothers _ (Dict.mem_of_get? hlookup) hne) done first _
      rw [List.foldlM_cons, List.foldlM_cons, castKey_eq, castKey_eq, hvalue]
      cases w.keyValue (w.castWithin depth) validating options shape.fields keepUnknown input done
        first with
      | error e => rfl
      | ok v =>
          have hset := Dict.erase_supply_of_ne hdone hne v
          show rest.foldlM _ ((Dict.erase done key).supply first v) =
            Except.map _ (rest.foldlM _ (done.supply first v))
          rw [← hset, ih hrest (hdone.supply first v)]

/-- The mark of a field means nothing to the casts of other keys. -/
theorem foldlM_castKey_mark {keys : List String} (hkey : key ∉ keys) (mark : Option Bool) :
    keys.foldlM (w.castKey castPart validating options (shape.mark key mark).fields keepUnknown
        input) done =
      keys.foldlM (w.castKey castPart validating options shape.fields keepUnknown input) done := by
  induction keys generalizing done with
  | nil => rfl
  | cons first rest ih =>
      obtain ⟨hfirst, hrest⟩ := not_or.mp fun h => hkey (List.mem_cons.mpr h)
      rw [List.foldlM_cons, List.foldlM_cons, castKey_eq, castKey_eq, keyValue, keyValue,
        Shape.lookup_mark_of_ne (Ne.symm hfirst)]
      exact bind_congr fun d => ih hrest

/-- The value that the cast of an object has for a field. -/
def fieldCast (w : Workshop) (t : Schema) (shape : Shape Schema) (input : Dict Value)
    (options : CallOptions) (key : String) (f : Schema) : Result (Option Value) := do
  let done ← w.doneBefore (w.castWithin (depthLimit + t.height)) t shape input options key
  w.castField (w.castWithin (depthLimit + t.height)) true options done key f (Dict.get? input key)

/-- A field that is marked is left out where it would be cast. -/
theorem castField_marked {done : Dict Value} {raw v : Option Value} (hstands : w.MarkStands f)
    (h : w.castField castPart validating options done key (f.withStrip mark) raw = .ok v) :
    w.castField castPart validating options done key (f.withStrip (some true)) raw =
      .ok none := by
  obtain ⟨u, hu, -⟩ := castField_eq_ok h
  rcases hstands raw (options.forField done key) with ⟨e, he⟩ | ⟨t, ht⟩
  · exact absurd (hu.symm.trans (he mark)) (by simp)
  · rw [castField, ht]
    rfl

/-- The cast of an object whose field has a mark: the keys before, the field, and the keys
    behind. -/
theorem foldlM_castKey_split {before rest : List String} (hf : shape.fields.lookup key = some f)
    (hbefore : key ∉ before) (hrest : key ∉ rest) (mark : Option Bool) :
    (before ++ key :: rest).foldlM (w.castKey castPart validating options
        (shape.mark key mark).fields keepUnknown input) [] =
      before.foldlM (w.castKey castPart validating options shape.fields keepUnknown input) [] >>=
        fun done => w.castField castPart validating options done key (f.withStrip mark)
          (Dict.get? input key) >>= fun v =>
            rest.foldlM (w.castKey castPart validating options shape.fields keepUnknown input)
              (Dict.supply done key v) := by
  rw [List.foldlM_append, foldlM_castKey_mark hbefore]
  refine bind_congr fun done => ?_
  rw [List.foldlM_cons, castKey_eq, keyValue, Shape.lookup_mark_self hf]
  dsimp only
  cases w.castField castPart validating options done key (f.withStrip mark)
    (Dict.get? input key) with
  | error e => rfl
  | ok v => exact foldlM_castKey_mark hrest mark

/-- Where the field has a cast, the keys of an object are cast with the mark to what they
    are cast to without it, less the field. -/
theorem foldlM_castKey_marked (hordered : shape.Ordered) (hf : shape.fields.lookup key = some f)
    (hothers : ∀ f ∈ shape.fields, f.1 ≠ key → w.Overlooks sync key f.2) (hstands : w.MarkStands f)
    {depth : Nat} {v : Option Value}
    (hcast : ((shape.order.takeWhile (· != key)).foldlM (w.castKey (w.castWithin depth) true options
        shape.fields keepUnknown input) [] >>= fun done =>
          w.castField (w.castWithin depth) true options done key (f.withStrip mark)
            (Dict.get? input key)) = .ok v) :
    shape.order.foldlM (w.castKey (w.castWithin depth) true options
        (shape.mark key (some true)).fields keepUnknown input) [] =
      (shape.order.foldlM (w.castKey (w.castWithin depth) true options
        (shape.mark key mark).fields keepUnknown input) []).map (fun d => Dict.erase d key) ∧
    ∀ whole, shape.order.foldlM (w.castKey (w.castWithin depth) true options
        (shape.mark key mark).fields keepUnknown input) [] = .ok whole →
      Dict.get? whole key = v := by
  obtain ⟨before, rest, horder, hbefore, hrest⟩ := hordered.split_order
    (List.mem_map_of_mem (f := Prod.fst) (Dict.mem_of_get? hf))
  rw [horder, takeWhile_append_cons hbefore] at hcast
  obtain ⟨done, hdone, hv⟩ := bind_eq_ok.mp hcast
  have hnew : Dict.get? done key = none := foldlM_castKey_frame hbefore hdone
  have hdoneAscending : Dict.Ascending done := foldlM_castKey_ascending List.Pairwise.nil hdone
  have hleft : Dict.erase (Dict.supply done key v) key = done :=
    Dict.erase_supply_self hdoneAscending hnew v
  have hbehind : rest.foldlM (w.castKey (w.castWithin depth) true options shape.fields keepUnknown
      input) done = (rest.foldlM (w.castKey (w.castWithin depth) true options shape.fields
        keepUnknown input) (Dict.supply done key v)).map fun d => Dict.erase d key := by
    rw [← foldlM_castKey_erase hothers hrest (hdoneAscending.supply key v), hleft]
  rw [horder, foldlM_castKey_split hf hbefore hrest, foldlM_castKey_split hf hbefore hrest, hdone]
  simp only [bind, Except.bind, hv, castField_marked hstands hv]
  refine ⟨hbehind, fun whole hwhole => ?_⟩
  rw [foldlM_castKey_frame hrest hwhole, Dict.get?_supply_self hnew]

/-- The cast of an object has a cast of each field. -/
theorem exists_fieldCast (hordered : shape.Ordered) (hf : shape.fields.lookup key = some f)
    {out : Option Value}
    (h : w.castFields (w.castWithin (depthLimit + t.height)) true (t.markField shape key mark)
      (shape.mark key mark) input options = .ok out) :
    ∃ v, w.fieldCast t shape input options key (f.withStrip mark) = .ok v := by
  obtain ⟨before, rest, horder, hbefore, hrest⟩ := hordered.split_order
    (List.mem_map_of_mem (f := Prod.fst) (Dict.mem_of_get? hf))
  have hmarked : (shape.mark key mark).order = before ++ key :: rest := horder
  rw [castFields, hmarked, foldlM_castKey_split hf hbefore hrest] at h
  obtain ⟨all, hall, -⟩ := bind_eq_ok.mp h
  obtain ⟨done, hdone, hall⟩ := bind_eq_ok.mp hall
  obtain ⟨v, hv, -⟩ := bind_eq_ok.mp hall
  refine ⟨v, bind_eq_ok.mpr ⟨done, ?_, hv⟩⟩
  rw [doneBefore, horder, takeWhile_append_cons hbefore]
  exact hdone

/-- The keys of an input that a cast takes over as they are. -/
def takenOver (t : Schema) (shape : Shape Schema) (input : Dict Value) (options : CallOptions) :
    Dict Value :=
  if !options.dropsUnknown t then extraFields shape input else []

theorem takenOver_ascending (hinput : Dict.Ascending input) :
    Dict.Ascending (takenOver t shape input options) := by
  rw [takenOver]
  split
  · exact List.Pairwise.filter _ hinput
  · exact List.Pairwise.nil

theorem ne_of_mem_takenOver {other : String} (h : other ∈ shape.order) {e : String × Value}
    (he : e ∈ takenOver t shape input options) : other ≠ e.1 := by
  rintro rfl
  rw [takenOver] at he
  split at he
  · exact not_mem_extraFields h (List.mem_map_of_mem he)
  · exact absurd he (by simp)

/-- Where the field has a cast, an object is cast with the mark to what it is cast to
    without it, less the field. -/
theorem castFields_marked (hordered : shape.Ordered) (hf : shape.fields.lookup key = some f)
    (hothers : ∀ f ∈ shape.fields, f.1 ≠ key → w.Overlooks sync key f.2) (hstands : w.MarkStands f)
    (hinput : Dict.Ascending input) {v : Option Value}
    (hcast : w.fieldCast t shape input options key (f.withStrip mark) = .ok v) :
    w.castFields (w.castWithin (depthLimit + t.height)) true (t.markField shape key (some true))
        (shape.mark key (some true)) input options =
      (w.castFields (w.castWithin (depthLimit + t.height)) true (t.markField shape key mark)
        (shape.mark key mark) input options).map (Option.map fun v => v.without key) ∧
    ∀ whole, w.castFields (w.castWithin (depthLimit + t.height)) true (t.markField shape key mark)
        (shape.mark key mark) input options = .ok (some (.obj whole)) →
      Dict.supply (Dict.erase whole key) key v = whole := by
  have hkey : key ∈ shape.order :=
    hordered.mem_order (List.mem_map_of_mem (f := Prod.fst) (Dict.mem_of_get? hf))
  obtain ⟨hmarked, hget⟩ := foldlM_castKey_marked hordered hf hothers hstands hcast
  have hunfold (m : Option Bool) :
      w.castFields (w.castWithin (depthLimit + t.height)) true (t.markField shape key m)
        (shape.mark key m) input options =
      (shape.order.foldlM (w.castKey (w.castWithin (depthLimit + t.height)) true options
        (shape.mark key m).fields (!options.dropsUnknown t) input) []).map fun all =>
          some (.obj (all.merge (takenOver t shape input options))) := by
    rw [castFields]
    exact (map_eq_pure_bind _ _).symm
  rw [hunfold, hunfold, hmarked]
  cases hall : shape.order.foldlM (w.castKey (w.castWithin (depthLimit + t.height)) true options
      (shape.mark key mark).fields (!options.dropsUnknown t) input) [] with
  | error e => exact ⟨rfl, fun whole h => absurd h (by simp [Except.map])⟩
  | ok all =>
      have hallAscending : Dict.Ascending all := foldlM_castKey_ascending List.Pairwise.nil hall
      have htaken : Dict.Ascending (takenOver t shape input options) := takenOver_ascending hinput
      have hdisjoint : ∀ a ∈ all, ∀ b ∈ takenOver t shape input options, a.1 ≠ b.1 := by
        intro a ha b hb
        rw [(foldlM_castKey_gathers hordered.nodup_order (fun _ _ => rfl) hall).1] at ha
        exact ne_of_mem_takenOver (Dict.mem_gather ha) hb
      have hnot : key ∉ Dict.keys (takenOver t shape input options) := by
        intro hmem
        obtain ⟨e, he, heq⟩ := List.mem_map.mp hmem
        exact ne_of_mem_takenOver hkey he heq.symm
      constructor
      · have herase := Dict.erase_merge hallAscending htaken hdisjoint
          fun e he => (ne_of_mem_takenOver hkey he).symm
        exact congrArg (fun d => Except.ok (some (Value.obj d))) herase.symm
      · intro whole hwhole
        obtain rfl : all.merge (takenOver t shape input options) = whole :=
          Value.obj.inj (Option.some.inj (Except.ok.inj hwhole))
        rw [← hget all hall, ← Dict.get?_merge_of_not_mem hnot]
        exact Dict.supply_erase (hallAscending.merge htaken hdisjoint)

/-- Where the field has a cast, the casts with the mark and without succeed together. -/
theorem castFields_marked_eq_ok (hordered : shape.Ordered) (hf : shape.fields.lookup key = some f)
    (hothers : ∀ f ∈ shape.fields, f.1 ≠ key → w.Overlooks sync key f.2) (hstands : w.MarkStands f)
    (hinput : Dict.Ascending input) {v : Option Value}
    (hcast : w.fieldCast t shape input options key (f.withStrip mark) = .ok v) (out : Dict Value) :
    w.castFields (w.castWithin (depthLimit + t.height)) true (t.markField shape key (some true))
        (shape.mark key (some true)) input options = .ok (some (.obj out)) ↔
      ∃ whole, w.castFields (w.castWithin (depthLimit + t.height)) true
          (t.markField shape key mark) (shape.mark key mark) input options =
            .ok (some (.obj whole)) ∧ out = Dict.erase whole key := by
  rw [(castFields_marked hordered hf hothers hstands hinput hcast).1]
  constructor
  · intro h
    cases hwhole : w.castFields (w.castWithin (depthLimit + t.height)) true
        (t.markField shape key mark) (shape.mark key mark) input options with
    | error e =>
        rw [hwhole] at h
        exact absurd h (by simp [Except.map])
    | ok r =>
        obtain ⟨whole, rfl⟩ := castFields_eq_ok hwhole
        rw [hwhole] at h
        obtain rfl : Dict.erase whole key = out :=
          Value.obj.inj (Option.some.inj (Except.ok.inj h))
        exact ⟨whole, rfl, rfl⟩
  · rintro ⟨whole, hwhole, rfl⟩
    rw [hwhole]
    rfl

end Workshop

end Conform
