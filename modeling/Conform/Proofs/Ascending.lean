/-
  Conform.Proofs.Ascending

  Dictionaries whose keys ascend, as those of documents do. What is gathered key by key
  ascends whatever the order of the keys, and so does a merge of dictionaries without a
  common key. A dictionary that ascends is known by its entries, so an object that is
  taken apart by an order of keys and put together again is the object it was.
-/

import Conform.Proofs.Schema.Defaults
import Mathlib.Data.List.Perm.Subperm
import Mathlib.Data.List.Sort
import Mathlib.Data.String.Basic

namespace Conform

-- ============================================================================
-- Dictionaries
-- ============================================================================

namespace Dict

variable {α : Type} {d other : Dict α} {key : String} {keys : List String}
  {value : String → Option α}

/-- Whether the keys ascend, each of them once. -/
def Ascending (d : Dict α) : Prop := d.Pairwise fun a b => a.1 < b.1

theorem ascending_iff_keys : d.Ascending ↔ d.keys.Pairwise (· < ·) := List.pairwise_map.symm

namespace Ascending

theorem nodup_keys (h : d.Ascending) : d.keys.Nodup :=
  (ascending_iff_keys.mp h).imp fun hlt => hlt.ne

/-- Of two dictionaries that ascend, one that has the entries of the other is the other. -/
theorem eq_of_mem_iff (hd : d.Ascending) (hother : other.Ascending)
    (h : ∀ e, e ∈ d ↔ e ∈ other) : d = other := by
  have hperm : d.Perm other :=
    (List.perm_ext_iff_of_nodup (nodup_of_keys hd.nodup_keys)
      (nodup_of_keys hother.nodup_keys)).mpr h
  exact hperm.eq_of_pairwise (fun _ _ _ _ hab hba => absurd hba hab.asymm) hd hother

/-- Of two dictionaries of one size that ascend, one whose entries the other has is the
    other. -/
theorem eq_of_subset (hd : d.Ascending) (hother : other.Ascending)
    (hlength : d.length = other.length) (hsubset : d ⊆ other) : d = other := by
  have hperm : d.Perm other :=
    (List.subperm_of_subset (nodup_of_keys hd.nodup_keys) hsubset).perm_of_length_le hlength.ge
  exact hd.eq_of_mem_iff hother fun _ => hperm.mem_iff

/-- Of two dictionaries that ascend, one in which all keys are found as in the other is the
    other. -/
theorem ext (hd : d.Ascending) (hother : other.Ascending)
    (h : ∀ key, d.get? key = other.get? key) : d = other := by
  refine hd.eq_of_mem_iff hother fun e => ⟨fun he => ?_, fun he => ?_⟩
  · exact mem_of_get? ((h e.1).symm.trans (get?_of_mem hd.nodup_keys he))
  · exact mem_of_get? ((h e.1).trans (get?_of_mem hother.nodup_keys he))

theorem map_values {β : Type} (h : d.Ascending) (f : α → β) :
    Ascending (d.map fun e => (e.1, f e.2)) :=
  List.pairwise_map.mpr h

theorem erase (h : d.Ascending) (key : String) : (d.erase key).Ascending := List.Pairwise.filter _ h

theorem insert (h : d.Ascending) (key : String) (v : α) : (d.insert key v).Ascending := by
  induction d with
  | nil => exact List.pairwise_singleton _ _
  | cons first rest ih =>
      obtain ⟨hfirst, hrest⟩ := List.pairwise_cons.mp h
      rw [Dict.insert]
      split
      · next heq => exact List.pairwise_cons.mpr ⟨fun e he => heq ▸ hfirst e he, hrest⟩
      · next hne =>
          split
          · next hlt =>
              refine List.pairwise_cons.mpr ⟨fun e he => ?_, h⟩
              rcases List.mem_cons.mp he with rfl | hmem
              · exact hlt
              · exact hlt.trans (hfirst e hmem)
          · next hge =>
              have hgt : first.1 < key := lt_of_le_of_ne (not_lt.mp hge) (Ne.symm hne)
              refine List.pairwise_cons.mpr ⟨fun e he => ?_, ih hrest⟩
              rcases mem_insert he with hold | heq
              · exact hfirst e hold
              · exact heq ▸ hgt

theorem supply (h : d.Ascending) (key : String) (v : Option α) : (d.supply key v).Ascending := by
  cases v with
  | none => exact h
  | some v => exact h.insert key v

theorem foldl_supply (h : d.Ascending) (keys : List String) :
    (keys.foldl (fun d key => d.supply key (value key)) d).Ascending := by
  induction keys generalizing d with
  | nil => exact h
  | cons key rest ih => exact ih (h.supply key (value key))

theorem merge (hd : d.Ascending) (hother : other.Ascending)
    (hdisjoint : ∀ a ∈ d, ∀ b ∈ other, a.1 ≠ b.1) : (d.merge other).Ascending := by
  have hle : (d.merge other).Pairwise fun a b => (decide (a.1 ≤ b.1)) = true :=
    List.pairwise_merge
      (fun a b c hab hbc => decide_eq_true ((of_decide_eq_true hab).trans (of_decide_eq_true hbc)))
      (fun a b => by simpa using le_total a.1 b.1) _ _
      (hd.imp fun hlt => decide_eq_true hlt.le) (hother.imp fun hlt => decide_eq_true hlt.le)
  have hne : (d.merge other).Pairwise fun a b => a.1 ≠ b.1 := by
    have happend : (d ++ other).Pairwise fun a b => a.1 ≠ b.1 :=
      List.pairwise_append.mpr ⟨hd.imp fun hlt => hlt.ne, hother.imp fun hlt => hlt.ne, hdisjoint⟩
    exact happend.perm (List.merge_perm_append _).symm Ne.symm
  exact (hle.and hne).imp fun h => lt_of_le_of_ne (of_decide_eq_true h.1) h.2

end Ascending

theorem gather_ascending (value : String → Option α) (keys : List String) :
    (gather value keys).Ascending :=
  Ascending.foldl_supply List.Pairwise.nil keys

/-- The entries of a dictionary under some keys, gathered, and the entries under other
    keys make the dictionary. -/
theorem gather_merge_filter (hnodup : keys.Nodup) (hd : d.Ascending) :
    (gather d.get? keys).merge (d.filter fun e => !keys.contains e.1) = d := by
  have hgather := gather_ascending d.get? keys
  have hextra : Ascending (d.filter fun e => !keys.contains e.1) := List.Pairwise.filter _ hd
  refine (hgather.merge hextra fun a ha b hb heq => ?_).eq_of_mem_iff hd fun e => ?_
  · have hnot := (List.mem_filter.mp hb).2
    simp [← heq, mem_gather ha] at hnot
  · rw [merge, List.mem_merge, List.mem_filter]
    constructor
    · rintro (hmem | ⟨hmem, -⟩)
      · have hget := get?_of_mem hgather.nodup_keys hmem
        rw [get?_gather hnodup (mem_gather hmem)] at hget
        exact mem_of_get? hget
      · exact hmem
    · intro hmem
      by_cases hkey : e.1 ∈ keys
      · have hget : (gather d.get? keys).get? e.1 = some e.2 := by
          rw [get?_gather hnodup hkey, get?_of_mem hd.nodup_keys hmem]
        exact Or.inl (mem_of_get? hget)
      · exact Or.inr ⟨hmem, by simpa using hkey⟩

/-! ## Keys that are left out -/

theorem get?_erase_of_ne {k : String} (d : Dict α) (h : k ≠ key) :
    (d.erase key).get? k = d.get? k :=
  get?_filter_keys (· != key) d (bne_iff_ne.mpr h)

/-- Setting a key and leaving out another one may change places. -/
theorem erase_supply_of_ne (hd : d.Ascending) {k : String} (h : k ≠ key) (v : Option α) :
    (d.supply k v).erase key = (d.erase key).supply k v := by
  refine ((hd.supply k v).erase key).ext ((hd.erase key).supply k v) fun other => ?_
  by_cases hkey : other = key
  · subst hkey
    rw [get?_erase_self, get?_supply_of_ne _ _ (Ne.symm h), get?_erase_self]
  · rw [get?_erase_of_ne _ hkey]
    by_cases hk : other = k
    · subst hk
      cases v with
      | none => exact (get?_erase_of_ne d hkey).symm
      | some v => exact (get?_insert_self _ _ _).trans (get?_insert_self _ _ _).symm
    · rw [get?_supply_of_ne _ _ hk, get?_supply_of_ne _ _ hk, get?_erase_of_ne _ hkey]

/-- A key that is set and left out again. -/
theorem erase_supply_self (hd : d.Ascending) (hnew : d.get? key = none) (v : Option α) :
    (d.supply key v).erase key = d := by
  refine ((hd.supply key v).erase key).ext hd fun other => ?_
  by_cases hkey : other = key
  · subst hkey
    rw [get?_erase_self, hnew]
  · rw [get?_erase_of_ne _ hkey, get?_supply_of_ne _ _ hkey]

/-- A key that only one side of a merge has is left out of that side. -/
theorem erase_merge (hd : d.Ascending) (hother : other.Ascending)
    (hdisjoint : ∀ a ∈ d, ∀ b ∈ other, a.1 ≠ b.1) (hkey : ∀ e ∈ other, e.1 ≠ key) :
    (d.merge other).erase key = (d.erase key).merge other := by
  have hleft : (d.erase key).Ascending := hd.erase key
  have hright : ((d.erase key).merge other).Ascending :=
    hleft.merge hother fun a ha b hb => hdisjoint a (List.mem_of_mem_filter ha) b hb
  refine ((hd.merge hother hdisjoint).erase key).eq_of_mem_iff hright fun e => ?_
  rw [erase, List.mem_filter, merge, merge, List.mem_merge, List.mem_merge, erase, List.mem_filter]
  constructor
  · rintro ⟨hmem | hmem, hne⟩
    · exact Or.inl ⟨hmem, hne⟩
    · exact Or.inr hmem
  · rintro (⟨hmem, hne⟩ | hmem)
    · exact ⟨Or.inl hmem, hne⟩
    · exact ⟨Or.inr hmem, bne_iff_ne.mpr (hkey e hmem)⟩

/-- A key that is left out and set again. -/
theorem supply_erase (hd : d.Ascending) : (d.erase key).supply key (d.get? key) = d := by
  refine ((hd.erase key).supply key _).ext hd fun other => ?_
  by_cases hkey : other = key
  · subst hkey
    exact get?_supply_self (get?_erase_self d other) _
  · rw [get?_supply_of_ne _ _ hkey, get?_erase_of_ne _ hkey]

end Dict

-- ============================================================================
-- Documents
-- ============================================================================

namespace Value

/-- Whether the keys of every object inside a value ascend. -/
inductive Ascending : Value → Prop where
  | null : Ascending null
  | bool (b : Bool) : Ascending (bool b)
  | num (n : Number) : Ascending (num n)
  | str (s : String) : Ascending (str s)
  | arr {items : List Value} : (∀ v ∈ items, Ascending v) → Ascending (arr items)
  | obj {fields : List (String × Value)} :
      Dict.Ascending fields → (∀ f ∈ fields, Ascending f.2) → Ascending (obj fields)

namespace Ascending

theorem item {items : List Value} (h : (Value.arr items).Ascending) {v : Value} (hv : v ∈ items) :
    v.Ascending := by
  cases h with
  | arr hitems => exact hitems v hv

theorem fields {fields : List (String × Value)} (h : (Value.obj fields).Ascending) :
    Dict.Ascending fields := by
  cases h with
  | obj hfields _ => exact hfields

theorem field {fields : Dict Value} (h : (Value.obj fields).Ascending) {key : String} {v : Value}
    (hv : Dict.get? fields key = some v) : v.Ascending := by
  cases h with
  | obj _ hparts => exact hparts (key, v) (Dict.mem_of_get? hv)

end Ascending

end Value

end Conform
