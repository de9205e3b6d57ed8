/-
  Conform.Proofs.EntrySet.Additions

  What a set of entries becomes when entries are added one by one. No entry is there
  twice, so a set can be added again: an empty set becomes the set itself, and the set
  stays what it is, though its references change places on the way. Of a list of
  entries every literal counts in the end, but of references of one key the last only.
-/

import Conform.Proofs.EntrySet
import Mathlib.Data.List.Induction
import Mathlib.Data.List.Nodup

namespace Conform

namespace EntrySet

variable {set other : EntrySet} {values : List Value} {refs : List Reference}

theorem hasLiteral_eq_false {v : Value} :
    set.hasLiteral v = false ↔ ∀ x ∈ set.values, x.equals v = false := by
  rw [hasLiteral, List.any_eq_false]
  simp

theorem hasLiteral_of_mem (hset : set.Proper) {v : Value} (hv : v ∈ set.values) :
    set.hasLiteral v = true :=
  List.any_eq_true.mpr ⟨v, hv, (hset _ (value_mem_entries.mpr hv)).equals_self⟩

-- ============================================================================
-- Entries that differ
-- ============================================================================

/-- Whether no literal of a set equals a later one, and no two references have one
    key. -/
structure Distinct (set : EntrySet) : Prop where
  values : set.values.Pairwise fun x y => x.equals y = false
  refs : (set.refs.map Reference.key).Nodup

namespace Distinct

theorem empty : EntrySet.empty.Distinct := ⟨.nil, List.nodup_nil⟩

theorem add (h : set.Distinct) (p : Param) : (set.add p).Distinct := by
  cases p with
  | value v =>
      rw [EntrySet.add]
      split
      · exact h
      · next hnew =>
          have habsent := hasLiteral_eq_false.mp (by simpa using hnew)
          refine ⟨List.pairwise_append.mpr ⟨h.values, List.pairwise_singleton _ _, ?_⟩, h.refs⟩
          intro x hx y hy
          exact List.mem_singleton.mp hy ▸ habsent x hx
  | ref r =>
      refine ⟨h.values, ?_⟩
      have hkept : ((set.refs.filter fun x => x.key != r.key).map Reference.key).Nodup :=
        h.refs.sublist (List.filter_sublist.map _)
      rw [EntrySet.add, List.map_append]
      refine hkept.append (List.nodup_singleton _) ?_
      intro key hkey hnew
      obtain ⟨x, hx, rfl⟩ := List.mem_map.mp hkey
      have hne : x.key ≠ r.key := bne_iff_ne.mp (List.mem_filter.mp hx).2
      exact hne (List.mem_singleton.mp hnew)

theorem remove (h : set.Distinct) (p : Param) : (set.remove p).Distinct := by
  cases p with
  | value v => exact ⟨h.values.filter _, h.refs⟩
  | ref r => exact ⟨h.values, h.refs.sublist (List.filter_sublist.map _)⟩

theorem foldl_add (h : set.Distinct) (entries : List Param) :
    (entries.foldl EntrySet.add set).Distinct := by
  induction entries generalizing set with
  | nil => exact h
  | cons p rest ih => exact ih (h.add p)

theorem foldl_remove (h : set.Distinct) (entries : List Param) :
    (entries.foldl EntrySet.remove set).Distinct := by
  induction entries generalizing set with
  | nil => exact h
  | cons p rest ih => exact ih (h.remove p)

theorem union (h : set.Distinct) (other : EntrySet) : (set.union other).Distinct :=
  h.foldl_add other.entries

end Distinct

-- ============================================================================
-- Sets that are added again
-- ============================================================================

/-- Literals that differ from those before them go behind these. -/
theorem foldl_add_new_values {done : List Value}
    (h : (done ++ values).Pairwise fun x y => x.equals y = false) :
    (values.map Param.value).foldl add ⟨done, refs⟩ = ⟨done ++ values, refs⟩ := by
  induction values generalizing done with
  | nil => simp
  | cons v rest ih =>
      have habsent : hasLiteral ⟨done, refs⟩ v = false := by
        refine hasLiteral_eq_false.mpr fun x hx => ?_
        exact (List.pairwise_append.mp h).2.2 x hx v List.mem_cons_self
      rw [List.append_cons] at h ⊢
      rw [List.map_cons, List.foldl_cons, add, if_neg (by simp [habsent])]
      exact ih h

/-- References of new keys go behind those before them. -/
theorem foldl_add_new_refs {done : List Reference} (h : ((done ++ refs).map Reference.key).Nodup) :
    (refs.map Param.ref).foldl add ⟨values, done⟩ = ⟨values, done ++ refs⟩ := by
  induction refs generalizing done with
  | nil => simp
  | cons r rest ih =>
      have hkept : done.filter (fun x => x.key != r.key) = done := by
        refine List.filter_eq_self.mpr fun x hx => bne_iff_ne.mpr ?_
        rw [List.map_append] at h
        exact (List.nodup_append.mp h).2.2 x.key (List.mem_map_of_mem hx) r.key (by simp)
      rw [List.append_cons] at h ⊢
      rw [List.map_cons, List.foldl_cons, add]
      dsimp only
      rw [hkept]
      exact ih h

/-- A set is what the additions of its entries make of no entries. -/
theorem Distinct.empty_union (h : set.Distinct) : EntrySet.empty.union set = set := by
  rw [EntrySet.union, entries, List.foldl_append, EntrySet.empty,
    foldl_add_new_values (by simpa using h.values), List.nil_append,
    foldl_add_new_refs (by simpa using h.refs), List.nil_append]

/-- Literals that are there stay where they are. -/
theorem foldl_add_old_values (hset : set.Proper) (h : values ⊆ set.values) :
    (values.map Param.value).foldl add set = set := by
  induction values with
  | nil => rfl
  | cons v rest ih =>
      obtain ⟨hv, hrest⟩ := List.cons_subset.mp h
      rw [List.map_cons, List.foldl_cons, add, if_pos (hasLiteral_of_mem hset hv)]
      exact ih hrest

/-- References that are added again move behind the others one by one, until all are in
    their old order. -/
theorem foldl_add_old_refs {done : List Reference} (h : ((refs ++ done).map Reference.key).Nodup) :
    (refs.map Param.ref).foldl add ⟨values, refs ++ done⟩ = ⟨values, done ++ refs⟩ := by
  induction refs generalizing done with
  | nil => simp
  | cons r rest ih =>
      rw [List.cons_append, List.map_cons, List.nodup_cons] at h
      obtain ⟨hr, hothers⟩ := h
      have hkept : (rest ++ done).filter (fun x => x.key != r.key) = rest ++ done := by
        refine List.filter_eq_self.mpr fun x hx => bne_iff_ne.mpr fun heq => ?_
        exact hr (heq ▸ List.mem_map_of_mem hx)
      have hmoved : ((rest ++ (done ++ [r])).map Reference.key).Nodup := by
        rw [← List.append_assoc, List.map_append]
        exact hothers.append (List.nodup_singleton _) (by simpa using hr)
      rw [List.map_cons, List.foldl_cons, add]
      dsimp only
      rw [List.cons_append, List.filter_cons_of_neg (by simp), hkept, List.append_assoc,
        ih hmoved, List.append_assoc, List.singleton_append]

/-- A set to which its own entries are added stays as it is. -/
theorem Distinct.union_self (h : set.Distinct) (hset : set.Proper) : set.union set = set := by
  rw [EntrySet.union, entries, List.foldl_append, foldl_add_old_values hset fun _ => id]
  have hrefs : (set.refs.map Param.ref).foldl EntrySet.add
      (EntrySet.mk set.values (set.refs ++ [])) =
      EntrySet.mk set.values ([] ++ set.refs) := foldl_add_old_refs (by simpa using h.refs)
  rwa [List.append_nil, List.nil_append] at hrefs

end EntrySet

-- ============================================================================
-- Entries that count
-- ============================================================================

namespace Param

variable {p q : Param} {entries : List Param}

/-- Whether an entry takes the place of another one: it is a reference, and the other
    one is a reference of its key. -/
def Replaces : Param → Param → Prop
  | ref q, ref r => q.key = r.key
  | _, _ => False

/-- Whether an entry of a list is there when all are added: no later one takes its
    place. -/
def CountsIn (p : Param) (entries : List Param) : Prop :=
  ∃ before rest, entries = before ++ p :: rest ∧ ∀ q ∈ rest, ¬ q.Replaces p

theorem countsIn_value {v : Value} : (value v).CountsIn entries ↔ value v ∈ entries := by
  constructor
  · rintro ⟨before, rest, rfl, -⟩
    simp
  · intro hmem
    obtain ⟨before, rest, rfl⟩ := List.append_of_mem hmem
    refine ⟨before, rest, rfl, fun q _ => ?_⟩
    cases q <;> exact id

theorem not_countsIn_nil : ¬ p.CountsIn [] := by
  rintro ⟨before, rest, heq, -⟩
  exact absurd heq (by simp)

theorem countsIn_append_singleton :
    p.CountsIn (entries ++ [q]) ↔ p.CountsIn entries ∧ ¬ q.Replaces p ∨ p = q := by
  constructor
  · rintro ⟨before, rest, heq, hlast⟩
    rcases List.eq_nil_or_concat rest with rfl | ⟨init, last, rfl⟩
    · obtain ⟨-, hq⟩ := List.append_inj' heq rfl
      exact Or.inr (List.singleton_inj.mp hq).symm
    · rw [List.concat_eq_append] at heq hlast
      rw [← List.cons_append, ← List.append_assoc] at heq
      obtain ⟨rfl, hq⟩ := List.append_inj' heq rfl
      cases List.singleton_inj.mp hq
      have hinit : ∀ x ∈ init, ¬ x.Replaces p := fun x hx => hlast x (by simp [hx])
      exact Or.inl ⟨⟨before, init, rfl, hinit⟩, hlast q (by simp)⟩
  · rintro (⟨⟨before, rest, rfl, hlast⟩, hq⟩ | rfl)
    · refine ⟨before, rest ++ [q], by simp, fun x hx => ?_⟩
      rcases List.mem_append.mp hx with hold | hnew
      · exact hlast x hold
      · exact List.mem_singleton.mp hnew ▸ hq
    · exact ⟨entries, [], rfl, by simp⟩

/-- Of two entries the first one counts unless the second one takes its place. -/
theorem countsIn_pair (q r p : Param) :
    p.CountsIn [q, r] ↔ (p = q ∧ ¬ r.Replaces q) ∨ p = r := by
  have hpair : [q, r] = ([] ++ [q]) ++ [r] := rfl
  rw [hpair, countsIn_append_singleton, countsIn_append_singleton]
  constructor
  · rintro (⟨⟨hnone, -⟩ | rfl, hstays⟩ | rfl)
    · exact absurd hnone not_countsIn_nil
    · exact Or.inl ⟨rfl, hstays⟩
    · exact Or.inr rfl
  · rintro (⟨rfl, hstays⟩ | rfl)
    · exact Or.inl ⟨Or.inr rfl, hstays⟩
    · exact Or.inr rfl

end Param

/-- Whether a value is that of an entry that counts in a list, references being read at a
    place. -/
def Value.IsCounted (v : Value) (entries : List Param) (parent context : Option Value) : Prop :=
  ∃ (p : Param) (u : Value), p.CountsIn entries ∧ p.resolve parent context = some u ∧
    u.equals v = true

namespace EntrySet

variable {set : EntrySet} {entries : List Param} {v w x : Value}

/-- The references behind additions to no entries are those that count. -/
theorem mem_refs_foldl_add {r : Reference} :
    r ∈ (entries.foldl add empty).refs ↔ (Param.ref r).CountsIn entries := by
  induction entries using List.reverseRecOn with
  | nil => simp [empty, Param.not_countsIn_nil]
  | append_singleton init p ih =>
      rw [Param.countsIn_append_singleton, ← ih, List.foldl_append, List.foldl_cons,
        List.foldl_nil]
      cases p with
      | value v =>
          rw [add]
          split <;> simp [Param.Replaces]
      | ref q =>
          rw [add]
          simp only [List.mem_append, List.mem_filter, bne_iff_ne, List.mem_singleton,
            Param.Replaces, Param.ref.injEq, ne_comm, Ne]

theorem hasLiteral_iff : set.hasLiteral x = true ↔ ∃ v ∈ set.values, v.equals x = true := by
  rw [hasLiteral, List.any_eq_true]

/-- Equal values are among the same literals. -/
theorem hasLiteral_of_equals (hset : set.Proper) (h : set.hasLiteral v = true)
    (hequals : v.equals x = true) : set.hasLiteral x = true := by
  obtain ⟨u, hu, huv⟩ := hasLiteral_iff.mp h
  have hproper : u.Proper := hset _ (value_mem_entries.mpr hu)
  exact hasLiteral_iff.mpr ⟨u, hu, hproper.equals_trans huv hequals⟩

/-- A literal that is added brings the values that equal it. -/
theorem hasLiteral_add_value (hset : set.Proper) :
    (set.add (.value w)).hasLiteral x = true ↔ w.equals x = true ∨ set.hasLiteral x = true := by
  rw [add]
  split
  · next hhas =>
      exact ⟨Or.inr, fun h => h.elim (hasLiteral_of_equals hset hhas) id⟩
  · simp [hasLiteral, or_comm]

/-- Entries that are added one by one bring the values that equal a literal of them. -/
theorem hasLiteral_foldl_add (hset : set.Proper) (hentries : ∀ p ∈ entries, p.Proper) :
    (entries.foldl add set).hasLiteral x = true ↔
      set.hasLiteral x = true ∨ ∃ w, .value w ∈ entries ∧ w.equals x = true := by
  induction entries generalizing set with
  | nil => simp
  | cons p rest ih =>
      obtain ⟨hp, hrest⟩ := List.forall_mem_cons.mp hentries
      rw [List.foldl_cons, ih (hset.add hp) hrest]
      cases p with
      | value v =>
          rw [hasLiteral_add_value hset]
          simp [or_and_right, exists_or, or_assoc, or_comm]
      | ref r =>
          have hsame : (set.add (.ref r)).hasLiteral x = set.hasLiteral x := rfl
          simp [hsame]

/-- What a list admits behind additions: the values of the entries that count. -/
theorem admits_foldl_add (hset : set.Distinct) (hproper : ∀ p ∈ set.entries ++ entries, p.Proper)
    (parent context : Option Value) (v : Value) :
    (entries.foldl add set).admits v (fun r => r.value parent context) = true ↔
      v.IsCounted (set.entries ++ entries) parent context := by
  have hfold : entries.foldl add set = (set.entries ++ entries).foldl add empty := by
    have hmade : set.entries.foldl add empty = set := hset.empty_union
    rw [List.foldl_append, hmade]
  have hliterals : ((set.entries ++ entries).foldl add empty).hasLiteral v = true ↔
      ∃ w, .value w ∈ set.entries ++ entries ∧ w.equals v = true := by
    rw [hasLiteral_foldl_add Proper.empty hproper]
    simp [empty, hasLiteral]
  rw [hfold, admits, Bool.or_eq_true, hliterals]
  constructor
  · rintro (⟨w, hw, hequals⟩ | hrefs)
    · exact ⟨.value w, w, Param.countsIn_value.mpr hw, rfl, hequals⟩
    · obtain ⟨r, hr, hany⟩ := List.any_eq_true.mp hrefs
      obtain ⟨u, hu, hequals⟩ := (Option.any_eq_true _ _).mp hany
      exact ⟨.ref r, u, mem_refs_foldl_add.mp hr, hu, hequals⟩
  · rintro ⟨p, u, hcounts, hresolve, hequals⟩
    cases p with
    | value w =>
        cases hresolve
        exact Or.inl ⟨u, Param.countsIn_value.mp hcounts, hequals⟩
    | ref r =>
        refine Or.inr (List.any_eq_true.mpr ⟨r, mem_refs_foldl_add.mpr hcounts, ?_⟩)
        exact (Option.any_eq_true _ _).mpr ⟨u, hresolve, hequals⟩

theorem isEmpty_iff_entries : set.isEmpty = true ↔ set.entries = [] := by
  simp [isEmpty_iff, entries]

/-- A list has no entries behind additions exactly if there were none and none came. -/
theorem isEmpty_foldl_add (hproper : ∀ p ∈ set.entries ++ entries, p.Proper) :
    (entries.foldl add set).isEmpty = true ↔ set.entries ++ entries = [] := by
  obtain ⟨hset, hentries⟩ := List.forall_mem_append.mp hproper
  rw [isEmpty_iff_entries, List.eq_nil_iff_forall_not_mem, List.eq_nil_iff_forall_not_mem]
  constructor
  · intro hnone p hp
    obtain ⟨r, hr, -⟩ := exists_meets_foldl_add hset hentries (List.mem_append.mp hp)
    exact hnone r hr
  · intro hnone p hp
    exact hnone p (List.mem_append.mpr (mem_foldl_add hp))

end EntrySet

end Conform
