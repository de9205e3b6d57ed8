/-
  Conform.Proofs.Validation.Ranking

  The order in which violations are reported. Fields are worked on in the order of
  their dependencies; the path of a violation tells its field, whatever text the
  key is, and so the report comes out in the order of declaration.
-/

import Conform.Schema.Validate
import Conform.Proofs.Policy
import Conform.Proofs.Schema.Regular

namespace Conform

-- ============================================================================
-- Fields at work
-- ============================================================================

namespace Shape

variable {shape : Shape Schema}

/-- The fields in the order in which they are worked on. -/
def worked (shape : Shape Schema) : List (String × Schema) :=
  shape.order.filterMap fun key => (shape.fields.lookup key).map (Prod.mk key)

theorem mem_worked (h : shape.Ordered) {f : String × Schema} :
    f ∈ shape.worked ↔ f ∈ shape.fields := by
  rw [worked, List.mem_filterMap]
  constructor
  · rintro ⟨key, -, hkey⟩
    obtain ⟨s, hs, rfl⟩ := Option.map_eq_some_iff.mp hkey
    exact Dict.mem_of_get? hs
  · intro hf
    have hlookup : shape.fields.lookup f.1 = some f.2 := Dict.get?_of_mem h.keys hf
    exact ⟨f.1, h.mem_order (List.mem_map_of_mem hf), by rw [hlookup]; rfl⟩

theorem nodup_worked (h : shape.Ordered) : shape.worked.Nodup := by
  refine h.nodup_order.filterMap ?_
  intro a b f ha hb
  obtain ⟨s, -, rfl⟩ := Option.map_eq_some_iff.mp ha
  obtain ⟨t, -, heq⟩ := Option.map_eq_some_iff.mp hb
  exact (congrArg Prod.fst heq).symm

/-- Each declared field is worked on once. -/
theorem worked_perm (h : shape.Ordered) : shape.worked.Perm shape.fields :=
  (List.perm_ext_iff_of_nodup (nodup_worked h) (Dict.nodup_of_keys h.keys)).mpr
    fun _ => mem_worked h

end Shape

-- ============================================================================
-- Places
-- ============================================================================

/-- The key of a field is the path of the field below that of its object. -/
theorem localPath_joinKey (base : Option String) (key : String) :
    localPath base (Path.joinKey base key) = key := by
  cases base with
  | none => rfl
  | some p =>
      unfold localPath Path.joinKey
      cases hempty : p.isEmpty with
      | true => simp [hempty]
      | false =>
          have hpath : (p ++ "." ++ key).toList = (p.toList ++ ['.']) ++ key.toList := by
            simp [String.toList_append]
          have hprefix : (p.toList ++ ['.']).isPrefixOf ((p.toList ++ ['.']) ++ key.toList) = true := by
            rw [List.isPrefixOf_iff_prefix]
            exact List.prefix_append _ _
          simp only [hempty, Bool.false_eq_true, if_false, hpath, hprefix, if_true,
            List.drop_left, String.ofList_toList]

/-- A violation at the path of a field has the place of the field. -/
theorem fieldRank_joinKey {keys : List String} {base : Option String} {key : String}
    {v : Violation} (hkey : key ∈ keys) (hpath : v.path = some (Path.joinKey base key)) :
    fieldRank keys base v = keys.idxOf key := by
  have hfound : keys.idxOf? key = some (keys.idxOf key) := by
    rw [List.idxOf?_eq_some_iff]
    have hlt := List.idxOf_lt_length_of_mem hkey
    refine ⟨hlt, by simp, ?_⟩
    intro j hj
    have hlater : j < keys.findIdx (· == key) := hj
    have hne := List.not_of_lt_findIdx hlater
    simpa using hne
  rw [fieldRank, hpath]
  dsimp only
  rw [localPath_joinKey, hfound]

/-- The places of fields ascend in the order of their declaration. -/
theorem pairwise_idxOf {α : Type} {fields : List (String × α)} (h : (Dict.keys fields).Nodup) :
    fields.Pairwise fun a b => (Dict.keys fields).idxOf a.1 ≤ (Dict.keys fields).idxOf b.1 := by
  rw [List.pairwise_iff_getElem]
  intro i j hi hj hlt
  have hplace : ∀ k (hk : k < fields.length), (Dict.keys fields).idxOf fields[k].1 = k := by
    intro k hk
    have hk : k < (Dict.keys fields).length := by simpa [Dict.keys] using hk
    have hget : (Dict.keys fields)[k] = fields[k].1 := by simp [Dict.keys]
    rw [← hget]
    exact h.idxOf_getElem k hk
  rw [hplace i hi, hplace j hj]
  omega

/-- Violations of fields that were worked on in any order are reported in the order
    of declaration. -/
theorem Policy.sortRanked_fields {p : Policy} {fields worked : List (String × Schema)}
    {base : Option String} (hkeys : (Dict.keys fields).Nodup)
    (hrank : p.rank = fieldRank (Dict.keys fields) base) (hperm : worked.Perm fields)
    (keep : String × Schema → Bool) {report : String × Schema → Violation}
    (hpath : ∀ f ∈ fields, (report f).path = some (Path.joinKey base f.1)) :
    p.sortRanked ((worked.filter keep).map report) = (fields.filter keep).map report := by
  refine sortRanked_map (fun f => (Dict.keys fields).idxOf f.1) ?_ (hperm.filter keep) ?_ ?_
  · intro f hf
    have hmem : f ∈ fields := hperm.subset (List.mem_filter.mp hf).1
    rw [hrank]
    exact fieldRank_joinKey (List.mem_map_of_mem hmem) (hpath f hmem)
  · exact (pairwise_idxOf hkeys).filter keep
  · intro a ha b hb hplace
    have hamem := (List.mem_filter.mp ha).1
    have hbmem := (List.mem_filter.mp hb).1
    have hkey : a.1 = b.1 :=
      (List.idxOf_inj (List.mem_map_of_mem (f := Prod.fst) hamem)).mp hplace
    have hsecond : some a.2 = some b.2 := by
      rw [← Dict.get?_of_mem hkeys hamem, ← Dict.get?_of_mem hkeys hbmem, hkey]
    exact Prod.ext hkey (Option.some.inj hsecond)

end Conform
