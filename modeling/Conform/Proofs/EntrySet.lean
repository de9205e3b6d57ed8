/-
  Conform.Proofs.EntrySet

  What a set of entries holds behind additions, removals and unions, and when two sets
  are apart. Two entries meet if they are literals that are equal up to numeric value,
  or references of one key; sets are apart if no entry of one meets an entry of the
  other. An addition may leave out its entry, but only beside one that it meets, so what
  met the entry still meets the set.
-/

import Conform.EntrySet
import Conform.Proofs.Value.Equality

namespace Conform

-- ============================================================================
-- Entries that meet
-- ============================================================================

namespace Param

/-- Whether a literal is a document, in which no object has a key twice. -/
def Proper : Param → Prop
  | value v => v.Proper
  | ref _ => True

/-- Whether two entries are the same for a list: literals of equal value, or references
    of one key. -/
inductive Meets : Param → Param → Prop where
  | value {v w : Value} : v.Proper → w.Proper → v.equals w = true → Meets (value v) (value w)
  | ref {r q : Reference} : r.key = q.key → Meets (ref r) (ref q)

namespace Meets

variable {p q r : Param}

theorem refl (h : p.Proper) : p.Meets p := by
  cases p with
  | value v => exact .value h h (Value.Proper.equals_self h)
  | ref r => exact .ref rfl

theorem symm (h : p.Meets q) : q.Meets p := by
  cases h with
  | value hv hw hequals => exact .value hw hv (hv.equals_symm hw hequals)
  | ref hkey => exact .ref hkey.symm

theorem trans (hpq : p.Meets q) (hqr : q.Meets r) : p.Meets r := by
  cases hpq with
  | value hv _ hleft =>
      cases hqr with
      | value _ hz hright => exact .value hv hz (hv.equals_trans hleft hright)
  | ref hleft =>
      cases hqr with
      | ref hright => exact .ref (hleft.trans hright)

end Meets

end Param

namespace EntrySet

variable {set other third : EntrySet} {entries : List Param} {p q : Param}

/-! ## No entries -/

theorem isEmpty_iff : set.isEmpty = true ↔ set.values = [] ∧ set.refs = [] := by
  rw [isEmpty, Bool.and_eq_true, List.isEmpty_iff, List.isEmpty_iff]

theorem isEmpty_remove (h : set.isEmpty = true) (p : Param) : (set.remove p).isEmpty = true := by
  obtain ⟨hvalues, hrefs⟩ := isEmpty_iff.mp h
  cases p with
  | value v => exact isEmpty_iff.mpr ⟨by simp [remove, hvalues], hrefs⟩
  | ref r => exact isEmpty_iff.mpr ⟨hvalues, by simp [remove, hrefs]⟩

/-- Entries are left behind a removal only if there were entries. -/
theorem isEmpty_foldl_remove (h : (entries.foldl remove set).isEmpty = false) :
    set.isEmpty = false := by
  induction entries generalizing set with
  | nil => exact h
  | cons p rest ih =>
      have hremoved : (set.remove p).isEmpty = false := ih h
      by_contra hempty
      rw [isEmpty_remove (by simpa using hempty)] at hremoved
      exact absurd hremoved (by simp)

/-- A union has entries only if a side has. -/
theorem isEmpty_union (h : (set.union other).isEmpty = false) :
    set.isEmpty = false ∨ other.isEmpty = false := by
  by_cases hother : other.isEmpty = true
  · obtain ⟨hvalues, hrefs⟩ := isEmpty_iff.mp hother
    have hsame : set.union other = set := by
      rw [union, entries, hvalues, hrefs]
      rfl
    exact Or.inl (hsame ▸ h)
  · exact Or.inr (by simpa using hother)

/-! ## Entries of a set -/

@[simp]
theorem value_mem_entries {v : Value} : .value v ∈ set.entries ↔ v ∈ set.values := by
  simp [EntrySet.entries]

@[simp]
theorem ref_mem_entries {r : Reference} : .ref r ∈ set.entries ↔ r ∈ set.refs := by
  simp [EntrySet.entries]

theorem mem_add (h : q ∈ (set.add p).entries) : q ∈ set.entries ∨ q = p := by
  cases p with
  | value v =>
      rw [add] at h
      split at h
      · exact Or.inl h
      · cases q <;> simpa using h
  | ref r =>
      cases q with
      | value v => exact Or.inl (by simpa [add] using h)
      | ref s =>
          have hmem : s ∈ set.refs ∧ s.key ≠ r.key ∨ s = r := by simpa [add] using h
          exact hmem.imp (fun hold => ref_mem_entries.mpr hold.1) (congrArg Param.ref)

theorem mem_remove (h : q ∈ (set.remove p).entries) : q ∈ set.entries ∧ ¬ q.Meets p := by
  cases p with
  | value v =>
      cases q with
      | value w =>
          have hmem : w ∈ set.values ∧ w.equals v = false := by simpa [remove] using h
          refine ⟨value_mem_entries.mpr hmem.1, fun hmeets => ?_⟩
          cases hmeets with
          | value _ _ hequals => exact absurd (hmem.2.symm.trans hequals) (by simp)
      | ref r => exact ⟨by simpa [remove] using h, nofun⟩
  | ref r =>
      cases q with
      | value w => exact ⟨by simpa [remove] using h, nofun⟩
      | ref s =>
          have hmem : s ∈ set.refs ∧ s.key ≠ r.key := by simpa [remove] using h
          refine ⟨ref_mem_entries.mpr hmem.1, fun hmeets => ?_⟩
          cases hmeets with
          | ref hkey => exact hmem.2 hkey

theorem mem_foldl_add (h : q ∈ (entries.foldl add set).entries) :
    q ∈ set.entries ∨ q ∈ entries := by
  induction entries generalizing set with
  | nil => exact Or.inl h
  | cons p rest ih =>
      rcases ih h with hadded | hrest
      · exact (mem_add hadded).imp_right fun heq => List.mem_cons.mpr (Or.inl heq)
      · exact Or.inr (List.mem_cons_of_mem _ hrest)

theorem mem_foldl_remove (h : q ∈ (entries.foldl remove set).entries) :
    q ∈ set.entries ∧ ∀ p ∈ entries, ¬ q.Meets p := by
  induction entries generalizing set with
  | nil => exact ⟨h, by simp⟩
  | cons p rest ih =>
      obtain ⟨hremoved, hrest⟩ := ih h
      obtain ⟨hset, hp⟩ := mem_remove hremoved
      exact ⟨hset, List.forall_mem_cons.mpr ⟨hp, hrest⟩⟩

theorem mem_union (h : q ∈ (set.union other).entries) : q ∈ set.entries ∨ q ∈ other.entries :=
  mem_foldl_add h

/-! ## Entries that are met -/

/-- Whether all literals of a set are documents. -/
def Proper (set : EntrySet) : Prop := ∀ p ∈ set.entries, p.Proper

theorem Proper.empty : EntrySet.empty.Proper := by simp [Proper, EntrySet.empty, entries]

theorem Proper.add (h : set.Proper) (hp : p.Proper) : (set.add p).Proper := by
  intro q hq
  rcases mem_add hq with hold | rfl
  · exact h q hold
  · exact hp

theorem mem_add_value (v : Value) (h : q ∈ set.entries) : q ∈ (set.add (.value v)).entries := by
  rw [EntrySet.add]
  split
  · exact h
  · cases q with
    | value w => simp [value_mem_entries.mp h]
    | ref r => simpa using h

/-- An entry that is there is met in the set with another one. -/
theorem exists_meets_add (hset : set.Proper) (hq : q ∈ set.entries) (p : Param) :
    ∃ r ∈ (set.add p).entries, r.Meets q := by
  have hself : q.Meets q := .refl (hset q hq)
  cases p with
  | value v => exact ⟨q, mem_add_value v hq, hself⟩
  | ref r =>
      cases q with
      | value w => exact ⟨.value w, by simpa [EntrySet.add] using hq, hself⟩
      | ref s =>
          by_cases hkey : s.key = r.key
          · exact ⟨.ref r, by simp [EntrySet.add], .ref hkey.symm⟩
          · have hmem : s ∈ set.refs := ref_mem_entries.mp hq
            exact ⟨.ref s, by simp [EntrySet.add, hmem, hkey], hself⟩

/-- An entry that is added is met in the set. -/
theorem exists_meets_add_self (hset : set.Proper) (hp : p.Proper) :
    ∃ r ∈ (set.add p).entries, r.Meets p := by
  cases p with
  | value v =>
      rw [add]
      split
      · next hhas =>
          obtain ⟨x, hx, hequals⟩ := List.any_eq_true.mp hhas
          have hmem := value_mem_entries.mpr hx
          exact ⟨.value x, hmem, .value (hset _ hmem) hp hequals⟩
      · exact ⟨.value v, by simp, .refl hp⟩
  | ref r => exact ⟨.ref r, by simp [add], .ref rfl⟩

/-- Entries that are there and entries that are added are met in the set. -/
theorem exists_meets_foldl_add (hset : set.Proper) (hentries : ∀ p ∈ entries, p.Proper)
    (hq : q ∈ set.entries ∨ q ∈ entries) :
    ∃ r ∈ (entries.foldl add set).entries, r.Meets q := by
  induction entries generalizing set q with
  | nil =>
      have hq : q ∈ set.entries := hq.resolve_right (by simp)
      exact ⟨q, hq, .refl (hset q hq)⟩
  | cons p rest ih =>
      obtain ⟨hp, hrest⟩ := List.forall_mem_cons.mp hentries
      have hadded : (set.add p).Proper := hset.add hp
      have hlater {r : Param} (hr : r ∈ (set.add p).entries) (hmeets : r.Meets q) :
          ∃ r ∈ (rest.foldl add (set.add p)).entries, r.Meets q := by
        obtain ⟨r', hr', hmeets'⟩ := ih hadded hrest (Or.inl hr)
        exact ⟨r', hr', hmeets'.trans hmeets⟩
      rcases hq with hold | hnew
      · obtain ⟨r, hr, hmeets⟩ := exists_meets_add hset hold p
        exact hlater hr hmeets
      · rcases List.mem_cons.mp hnew with rfl | hmem
        · obtain ⟨r, hr, hmeets⟩ := exists_meets_add_self hset hp
          exact hlater hr hmeets
        · exact ih hadded hrest (Or.inr hmem)

-- ============================================================================
-- Sets that are apart
-- ============================================================================

/-- Whether no literal of a set equals one of the other, and no reference has the key of
    one of the other. -/
def Apart (set other : EntrySet) : Prop :=
  ∀ p ∈ set.entries, ∀ q ∈ other.entries, ¬ p.Meets q

namespace Apart

theorem symm (h : set.Apart other) : other.Apart set :=
  fun p hp q hq hmeets => h q hq p hp hmeets.symm

theorem empty (other : EntrySet) : EntrySet.empty.Apart other := by
  simp [Apart, EntrySet.empty, entries]

/-- Entries that are added to a set and removed from the other leave them apart. -/
theorem moved (h : set.Apart other) (entries : List Param) :
    (entries.foldl add set).Apart (entries.foldl remove other) := by
  intro p hp q hq hmeets
  obtain ⟨hother, hentries⟩ := mem_foldl_remove hq
  rcases mem_foldl_add hp with hset | hadded
  · exact h p hset q hother hmeets
  · exact hentries p hadded hmeets.symm

theorem union (hset : set.Apart third) (hother : other.Apart third) :
    (set.union other).Apart third := by
  intro p hp
  rcases mem_union hp with hleft | hright
  · exact hset p hleft
  · exact hother p hright

/-- What is apart from a union is apart from both sides. -/
theorem of_union (h : (set.union other).Apart third) (hset : set.Proper) (hother : other.Proper) :
    set.Apart third ∧ other.Apart third := by
  have hside {p : Param} (hp : p ∈ set.entries ∨ p ∈ other.entries) :
      ∀ q ∈ third.entries, ¬ p.Meets q := by
    intro q hq hmeets
    obtain ⟨r, hr, hrp⟩ := exists_meets_foldl_add hset hother hp
    exact h r hr q hq (hrp.trans hmeets)
  exact ⟨fun p hp => hside (Or.inl hp), fun p hp => hside (Or.inr hp)⟩

end Apart

end EntrySet

end Conform
