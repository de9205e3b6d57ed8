/-
  Conform.Proofs.Dict

  The keys of dictionaries, and where entries are found: behind entries that are put
  one after the other, and in the merge of two dictionaries.
-/

import Conform.Dict
import Mathlib.Data.List.Nodup

namespace Conform

namespace Dict

variable {α : Type} {d other : Dict α} {key : String} {value : α}

/-- Of two values that are set for one key the later one stays. -/
theorem insert_insert (d : Dict α) (key : String) (first second : α) :
    (d.insert key first).insert key second = d.insert key second := by
  induction d with
  | nil => simp [insert]
  | cons e rest ih =>
      obtain ⟨k, v⟩ := e
      rw [insert, insert]
      split
      · simp [insert]
      · next hne =>
          split
          · simp [insert]
          · next hbehind => rw [insert, if_neg hne, if_neg hbehind, ih]

/-! ## Look-up by keys -/

theorem nodup_of_keys (h : d.keys.Nodup) : d.Nodup := List.Nodup.of_map Prod.fst h

theorem get?_eq_none_of_not_mem (h : key ∉ d.keys) : d.get? key = none := by
  rw [get?, List.lookup_eq_none_iff]
  intro e he
  have hne : key ≠ e.1 := by
    rintro rfl
    exact h (List.mem_map_of_mem he)
  exact bne_iff_ne.mpr hne

/-- Where keys differ, every entry is found under its key. -/
theorem get?_of_mem (h : d.keys.Nodup) {e : String × α} (he : e ∈ d) : d.get? e.1 = some e.2 := by
  induction d with
  | nil => exact absurd he (by simp)
  | cons first rest ih =>
      obtain ⟨hfirst, hrest⟩ := List.nodup_cons.mp h
      obtain ⟨k, v⟩ := first
      rw [get?_cons]
      rcases List.mem_cons.mp he with rfl | htail
      · rw [if_pos rfl]
      · have hne : e.1 ≠ k := by
          intro heq
          have hmem : e.1 ∈ Dict.keys rest := List.mem_map_of_mem htail
          exact hfirst (heq ▸ hmem)
        rw [if_neg hne]
        exact ih hrest htail

/-- A filter by keys leaves what is found under a key that it keeps. -/
theorem get?_filter_keys (keeps : String → Bool) (d : Dict α) (h : keeps key = true) :
    get? (d.filter fun e => keeps e.1) key = d.get? key := by
  induction d with
  | nil => rfl
  | cons e rest ih =>
      obtain ⟨k, v⟩ := e
      rw [List.filter_cons]
      split
      · rw [get?_cons, get?_cons, ih]
      · next hdropped =>
          have hne : key ≠ k := fun heq => hdropped (heq ▸ h)
          rw [get?_cons, if_neg hne, ih]

/-! ## Entries that are put -/

theorem mem_keys_put {k : String} (h : k ∈ (d.put key value).keys) :
    k ∈ d.keys ∨ k = key := by
  induction d with
  | nil => exact Or.inr (by simpa [put, keys] using h)
  | cons e rest ih =>
      rw [put] at h
      split at h
      · exact Or.inl h
      · rcases List.mem_cons.mp h with hfirst | hrest
        · exact Or.inl (hfirst ▸ List.mem_cons_self)
        · exact (ih hrest).imp_left (List.mem_cons_of_mem _)

theorem nodup_keys_put (h : d.keys.Nodup) : (d.put key value).keys.Nodup := by
  induction d with
  | nil => simp [put, keys]
  | cons e rest ih =>
      obtain ⟨hfirst, hrest⟩ := List.nodup_cons.mp h
      rw [put]
      split
      · exact h
      · next hne =>
          refine List.nodup_cons.mpr ⟨fun hmem => ?_, ih hrest⟩
          rcases mem_keys_put hmem with hold | hnew
          · exact hfirst hold
          · exact hne hnew.symm

theorem nodup_keys_foldl_put (entries : List (String × α)) (h : d.keys.Nodup) :
    (entries.foldl (fun d e => d.put e.1 e.2) d).keys.Nodup := by
  induction entries generalizing d with
  | nil => exact h
  | cons e rest ih => exact ih (nodup_keys_put h)

theorem keys_put_of_mem (h : key ∈ d.keys) : (d.put key value).keys = d.keys := by
  induction d with
  | nil => exact absurd h (by simp [keys])
  | cons e rest ih =>
      obtain ⟨k, v⟩ := e
      rw [put]
      split
      · rfl
      · next hne =>
          have hrest : key ∈ keys rest := (List.mem_cons.mp h).resolve_left hne
          exact congrArg (k :: ·) (ih hrest)

theorem keys_put_of_not_mem (h : key ∉ d.keys) : (d.put key value).keys = d.keys ++ [key] := by
  induction d with
  | nil => rfl
  | cons e rest ih =>
      obtain ⟨k, v⟩ := e
      obtain ⟨hne, hrest⟩ := not_or.mp fun hmem => h (List.mem_cons.mpr hmem)
      have hne : key ≠ k := hne
      rw [put, if_neg hne]
      exact congrArg (k :: ·) (ih hrest)

theorem mem_foldl_put {entries : List (String × α)} {e : String × α}
    (h : e ∈ entries.foldl (fun d e => d.put e.1 e.2) d) :
    e ∈ d ∨ ∃ new ∈ entries, e.2 = new.2 := by
  induction entries generalizing d with
  | nil => exact Or.inl h
  | cons first rest ih =>
      rcases ih h with hput | ⟨new, hnew, heq⟩
      · exact (mem_put hput).imp_right fun heq => ⟨first, List.mem_cons_self, heq⟩
      · exact Or.inr ⟨new, List.mem_cons_of_mem _ hnew, heq⟩

/-! ## Merges -/

/-- Entries of other keys do not hide an entry. -/
theorem get?_merge_of_not_mem (h : key ∉ other.keys) :
    (d.merge other).get? key = d.get? key := by
  rw [merge]
  induction d generalizing other with
  | nil =>
      rw [List.nil_merge]
      exact get?_eq_none_of_not_mem h
  | cons e rest ih =>
      induction other with
      | nil => rw [List.merge_right]
      | cons first others ihothers =>
          have hfirst : key ≠ first.1 := fun heq => h (heq ▸ List.mem_cons_self)
          have hothers : key ∉ keys others := fun hmem => h (List.mem_cons_of_mem _ hmem)
          rw [List.cons_merge_cons]
          split
          · rw [get?_cons, get?_cons, ih h]
          · rw [get?_cons, if_neg hfirst]
            exact ihothers hothers

/-- The entries that a filter takes out of a merge are one side of it, if it keeps the
    whole of that side and nothing of the other. -/
theorem filter_merge {extra : Dict α} {keeps : String × α → Bool}
    (hd : ∀ e ∈ d, keeps e = false) (hextra : ∀ e ∈ extra, keeps e = true) :
    (d.merge extra).filter keeps = extra := by
  rw [merge]
  induction d generalizing extra with
  | nil =>
      rw [List.nil_merge]
      exact List.filter_eq_self.mpr hextra
  | cons e rest ih =>
      have he : keeps e = false := hd e List.mem_cons_self
      have hrest : ∀ e ∈ rest, keeps e = false := fun e h => hd e (List.mem_cons_of_mem _ h)
      induction extra with
      | nil =>
          rw [List.merge_right, List.filter_eq_nil_iff]
          intro e h
          simp [hd e h]
      | cons first others ihothers =>
          have hothers : ∀ e ∈ others, keeps e = true :=
            fun e h => hextra e (List.mem_cons_of_mem _ h)
          rw [List.cons_merge_cons]
          split
          · rw [List.filter_cons, he]
            exact ih hrest hextra
          · rw [List.filter_cons, hextra first List.mem_cons_self, if_pos rfl, ihothers hothers]

end Dict

end Conform
