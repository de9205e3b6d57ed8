/-
  Conform.Proofs.Value.Equality

  Numeric equality is an equivalence of documents. An object equals another one of the
  same size if each of its fields has an equal one there, so going the other way needs
  that no key of the objects comes twice, as is the case in every document.
-/

import Conform.Proofs.Dict
import Conform.Value.Equality
import Mathlib.Data.List.Forall2
import Mathlib.Data.List.Perm.Subperm

namespace Conform

namespace Value

-- ============================================================================
-- Parts
-- ============================================================================

/-- Whether no object inside a value has a key twice. -/
inductive Proper : Value → Prop where
  | null : Proper null
  | bool (b : Bool) : Proper (bool b)
  | num (n : Number) : Proper (num n)
  | str (s : String) : Proper (str s)
  | arr {items : List Value} : (∀ v ∈ items, Proper v) → Proper (arr items)
  | obj {fields : List (String × Value)} :
      (Dict.keys fields).Nodup → (∀ f ∈ fields, Proper f.2) → Proper (obj fields)

theorem itemsEqual_iff {xs ys : List Value} :
    itemsEqual xs ys = true ↔ List.Forall₂ (fun x y => x.equals y = true) xs ys := by
  induction xs generalizing ys with
  | nil => cases ys <;> simp [itemsEqual]
  | cons x xs ih => cases ys <;> simp [itemsEqual, ih]

theorem fieldsEqual_iff {xs ys : List (String × Value)} :
    fieldsEqual xs ys = true ↔
      ∀ f ∈ xs, ∃ y, Dict.get? ys f.1 = some y ∧ f.2.equals y = true := by
  induction xs with
  | nil => simp [fieldsEqual]
  | cons f rest ih =>
      obtain ⟨key, x⟩ := f
      rw [fieldsEqual, Bool.and_eq_true, ih, List.forall_mem_cons]
      cases Dict.get? ys key <;> simp

/-- An array equals the arrays with equal items. -/
theorem arr_equals_iff {xs : List Value} {y : Value} :
    (arr xs).equals y = true ↔
      ∃ ys, y = arr ys ∧ List.Forall₂ (fun x y => x.equals y = true) xs ys := by
  cases y <;> simp [equals, itemsEqual_iff]

/-- An object equals the objects of its size that have its keys, with equal values. -/
theorem obj_equals_iff {xs : List (String × Value)} {y : Value} :
    (obj xs).equals y = true ↔ ∃ ys, y = obj ys ∧ xs.length = ys.length ∧
      ∀ f ∈ xs, ∃ v, Dict.get? ys f.1 = some v ∧ f.2.equals v = true := by
  cases y <;> simp [equals, fieldsEqual_iff]

-- ============================================================================
-- Equivalence
-- ============================================================================

variable {x y z : Value}

theorem Proper.equals_self (hx : x.Proper) : x.equals x = true := by
  induction hx with
  | null => rfl
  | bool b => simp [equals]
  | num n => simp [equals, Number.equals, Binary64.equals]
  | str s => simp [equals]
  | arr _ ih => exact arr_equals_iff.mpr ⟨_, rfl, List.forall₂_same.mpr ih⟩
  | obj hkeys _ ih =>
      exact obj_equals_iff.mpr
        ⟨_, rfl, rfl, fun f hf => ⟨f.2, Dict.get?_of_mem hkeys hf, ih f hf⟩⟩

/-- Of two dictionaries of one size, each has the keys of the other once one of them has. -/
theorem mem_keys_of_subset {xs ys : List (String × Value)} (hkeys : (Dict.keys xs).Nodup)
    (hlength : xs.length = ys.length) (hsubset : Dict.keys xs ⊆ Dict.keys ys) {key : String}
    (h : key ∈ Dict.keys ys) : key ∈ Dict.keys xs := by
  have hle : (Dict.keys ys).length ≤ (Dict.keys xs).length := by simp [Dict.keys, hlength]
  have hperm := (List.subperm_of_subset hkeys hsubset).perm_of_length_le hle
  exact hperm.mem_iff.mpr h

theorem Proper.equals_symm (hx : x.Proper) (hy : y.Proper) (h : x.equals y = true) :
    y.equals x = true := by
  induction hx generalizing y with
  | null | bool _ | num _ | str _ =>
      cases hy <;> simp_all [equals, Number.equals, Binary64.equals]
  | @arr xs hxs ih =>
      obtain ⟨ys, rfl, hitems⟩ := arr_equals_iff.mp h
      cases hy with
      | arr hys =>
          refine arr_equals_iff.mpr ⟨xs, rfl, ?_⟩
          clear h hxs
          induction hitems with
          | nil => exact .nil
          | cons hfirst _ ihitems =>
              rw [List.forall_mem_cons] at hys
              have hrest := ihitems (fun v hv => ih v (List.mem_cons_of_mem _ hv)) hys.2
              exact .cons (ih _ List.mem_cons_self hys.1 hfirst) hrest
  | @obj xs hxkeys _ ih =>
      obtain ⟨ys, rfl, hlength, hfields⟩ := obj_equals_iff.mp h
      cases hy with
      | obj hykeys hys =>
          refine obj_equals_iff.mpr ⟨xs, rfl, hlength.symm, fun g hg => ?_⟩
          have hsubset : Dict.keys xs ⊆ Dict.keys ys := by
            intro key hkey
            obtain ⟨f, hf, rfl⟩ := List.mem_map.mp hkey
            obtain ⟨v, hv, -⟩ := hfields f hf
            exact List.mem_map.mpr ⟨_, Dict.mem_of_get? hv, rfl⟩
          have hkey := mem_keys_of_subset hxkeys hlength hsubset (List.mem_map_of_mem hg)
          obtain ⟨f, hf, heq⟩ := List.mem_map.mp hkey
          obtain ⟨v, hv, hequals⟩ := hfields f hf
          rw [heq, Dict.get?_of_mem hykeys hg] at hv
          cases hv
          exact ⟨f.2, heq ▸ Dict.get?_of_mem hxkeys hf, ih f hf (hys g hg) hequals⟩

theorem Proper.equals_trans (hx : x.Proper) (hxy : x.equals y = true) (hyz : y.equals z = true) :
    x.equals z = true := by
  induction hx generalizing y z with
  | null | bool _ | num _ | str _ =>
      cases y <;> cases z <;> simp_all [equals, Number.equals, Binary64.equals]
  | @arr xs hxs ih =>
      obtain ⟨ys, rfl, hleft⟩ := arr_equals_iff.mp hxy
      obtain ⟨zs, rfl, hright⟩ := arr_equals_iff.mp hyz
      refine arr_equals_iff.mpr ⟨zs, rfl, ?_⟩
      clear hxy hyz hxs
      induction hleft generalizing zs with
      | nil =>
          cases hright
          exact .nil
      | cons hfirst _ ihitems =>
          cases hright with
          | cons hnext hothers =>
              have hrest := ihitems (fun v hv => ih v (List.mem_cons_of_mem _ hv)) _ hothers
              exact .cons (ih _ List.mem_cons_self hfirst hnext) hrest
  | obj _ _ ih =>
      obtain ⟨ys, rfl, hleft, hfields⟩ := obj_equals_iff.mp hxy
      obtain ⟨zs, rfl, hright, hothers⟩ := obj_equals_iff.mp hyz
      refine obj_equals_iff.mpr ⟨zs, rfl, hleft.trans hright, fun f hf => ?_⟩
      obtain ⟨v, hv, hequals⟩ := hfields f hf
      obtain ⟨w, hw, hnext⟩ := hothers _ (Dict.mem_of_get? hv)
      exact ⟨w, hw, ih f hf hequals hnext⟩

end Value

end Conform
