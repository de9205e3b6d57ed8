/-
  Conform.Proofs.Validation.Retracing

  The paths of reports, followed back through the schema. A violation of a part is
  reported under the access path of the part as text. Following this text through the
  schema, with no value at hand, leads back to the schema of the part, unless a field on
  the way has a numeral for a name: it is read as a position, and no position leads into
  an object.
-/

import Conform.Proofs.Validation.Places

namespace Conform

-- ============================================================================
-- Parts of schemas
-- ============================================================================

namespace Schema

/-- Whether an access path leads from a schema to one inside it, by declared fields of
    objects and by positions in arrays that have an element schema. -/
inductive Below : Schema → List PartKey → Schema → Prop where
  | here {s : Schema} : Below s [] s
  | field {s f t : Schema} {shape : Shape Schema} {name : String} {path : List PartKey} :
      s.kind = .object shape → shape.fields.lookup name = some f → Below f path t →
      Below s (.field name :: path) t
  | item {s element t : Schema} {position : Nat} {path : List PartKey} :
      s.kind = .array (.of element) → Below element path t → Below s (.item position :: path) t

theorem Below.everywhere {N : Schema → Prop} {s t : Schema} {path : List PartKey}
    (h : s.Below path t) (hs : s.Everywhere N) : t.Everywhere N := by
  induction h with
  | here => exact hs
  | field hkind hf _ ih => exact ih (hs.field hkind (Dict.mem_of_get? hf))
  | item hkind _ ih => exact ih (hs.element hkind)

end Schema

-- ============================================================================
-- Numerals
-- ============================================================================

namespace PartKey

/-- Whether a key is the name of a field that is read as a position. -/
inductive IsNumeral : PartKey → Prop where
  | intro {name : String} {n : Nat} :
      digitsValue? name.toList = some n → n ≤ greatestIndex → IsNumeral (.field name)

theorem IsNumeral.exists_reading {key : PartKey} (h : key.IsNumeral) :
    ∃ n, key.reading = .index n := by
  cases h with
  | @intro name n hn hle => exact ⟨n, by rw [reading, Path.bareSegment, hn]; exact if_pos hle⟩

theorem not_isNumeral_field {name : String} (h : digitsValue? name.toList = none) :
    ¬ (field name).IsNumeral := by
  rintro ⟨hn, -⟩
  exact absurd (h.symm.trans hn) (by simp)

/-- All other keys are read as what they are. -/
theorem reading_of_not_isNumeral {key : PartKey} (h : ¬ key.IsNumeral) :
    key.reading = key.segment := by
  cases key with
  | item position => rfl
  | field name =>
      rw [reading, segment, Path.bareSegment]
      split
      · next n hn =>
          have hle : ¬ n ≤ greatestIndex := fun hle => h ⟨hn, hle⟩
          rw [if_neg hle, String.ofList_toList]
      · rw [String.ofList_toList]

end PartKey

-- ============================================================================
-- Following paths
-- ============================================================================

namespace Workshop

variable {w : Workshop} {s t : Schema} {path : List PartKey}

/-- The steps of a path lead to the schema at the path, where no name is a numeral. -/
theorem foldlM_walk_below (h : s.Below path t) (hs : s.Everywhere Schema.Fixed)
    (hplain : ∀ key ∈ path, ¬ key.IsNumeral) (text walked : String) :
    ∃ after, (path.map PartKey.reading).foldlM (walk w text none) ⟨s, none, none, walked⟩ =
      .ok ⟨t, none, none, after⟩ := by
  induction h generalizing walked with
  | here => exact ⟨walked, rfl⟩
  | field hkind hf _ ih =>
      obtain ⟨hkey, hrest⟩ := List.forall_mem_cons.mp hplain
      rw [List.map_cons, List.foldlM_cons, PartKey.reading_of_not_isNumeral hkey, PartKey.segment,
        walk_field (hs.here.resolve w _ _) hkind hf]
      exact ih (hs.field hkind (Dict.mem_of_get? hf)) hrest _
  | item hkind _ ih =>
      obtain ⟨-, hrest⟩ := List.forall_mem_cons.mp hplain
      rw [List.map_cons, List.foldlM_cons, PartKey.reading,
        walk_element (hs.here.resolve w _ _) hkind]
      exact ih (hs.element hkind) hrest _

/-- The steps of a path end at the first name that is a numeral: it asks an object for an
    item. -/
theorem foldlM_walk_numeral (h : s.Below path t) (hs : s.Everywhere Schema.Fixed)
    (hnumeral : ∃ key ∈ path, key.IsNumeral) (text walked : String) :
    (path.map PartKey.reading).foldlM (walk w text none) ⟨s, none, none, walked⟩ =
      .error (.unreachable (.noElement text .object)) := by
  induction h generalizing walked with
  | here => exact absurd hnumeral (by simp)
  | @field s f t shape name path hkind hf _ ih =>
      by_cases hkey : (PartKey.field name).IsNumeral
      · obtain ⟨n, hn⟩ := hkey.exists_reading
        have helement : s.element? = none := by rw [Schema.element?, hkind]
        have htag : s.tag = .object := by rw [Schema.tag, hkind]; rfl
        rw [List.map_cons, List.foldlM_cons, hn, walk_no_element (hs.here.resolve w _ _) helement,
          htag]
        rfl
      · obtain ⟨key, hmem, hlater⟩ := hnumeral
        have hrest : key ∈ path := by
          rcases List.mem_cons.mp hmem with rfl | hrest
          · exact absurd hlater hkey
          · exact hrest
        rw [List.map_cons, List.foldlM_cons, PartKey.reading_of_not_isNumeral hkey,
          PartKey.segment, walk_field (hs.here.resolve w _ _) hkind hf]
        exact ih (hs.field hkind (Dict.mem_of_get? hf)) ⟨key, hrest, hlater⟩ _
  | @item s element t position path hkind _ ih =>
      obtain ⟨key, hmem, hlater⟩ := hnumeral
      have hrest : key ∈ path := by
        rcases List.mem_cons.mp hmem with rfl | hrest
        · cases hlater
        · exact hrest
      rw [List.map_cons, List.foldlM_cons, PartKey.reading,
        walk_element (hs.here.resolve w _ _) hkind]
      exact ih (hs.element hkind) ⟨key, hrest, hlater⟩ _

/-- Following the path under which violations of a part are reported leads back to the
    schema of the part exactly if no field on the way has a numeral for a name; otherwise it
    fails, for want of an element schema in an object. -/
theorem reach_pathText_iff (hs : s.Everywhere Schema.Fixed) (h : s.Below path t)
    (hnamed : ∀ key ∈ path, key.Named) :
    (w.reach s (PartKey.pathText path) none none = .ok ⟨t, none, none⟩ ↔
      ∀ key ∈ path, ¬ key.IsNumeral) ∧
    ((∃ key ∈ path, key.IsNumeral) → w.reach s (PartKey.pathText path) none none =
      .error (.unreachable (.noElement (PartKey.pathText path) .object))) := by
  have hfails (hnumeral : ∃ key ∈ path, key.IsNumeral) :
      w.reach s (PartKey.pathText path) none none =
        .error (.unreachable (.noElement (PartKey.pathText path) .object)) := by
    have hwalk := foldlM_walk_numeral (w := w) h hs hnumeral (PartKey.pathText path) ""
    rw [reach, PartKey.parse_pathText_named hnamed]
    exact bind_eq_error.mpr (Or.inl hwalk)
  refine ⟨⟨fun hok key hkey hnumeral => ?_, fun hplain => ?_⟩, hfails⟩
  · exact absurd (hok.symm.trans (hfails ⟨key, hkey, hnumeral⟩)) (by simp)
  · obtain ⟨after, hwalk⟩ := foldlM_walk_below (w := w) h hs hplain (PartKey.pathText path) ""
    have hresolve := (h.everywhere hs).here.resolve w none (scope none none)
    rw [reach, PartKey.parse_pathText_named hnamed]
    exact bind_eq_ok.mpr ⟨_, hwalk, bind_eq_ok.mpr ⟨t, hresolve, rfl⟩⟩

/-- A table whose rows have an ordinary column and one named after a year. -/
def table : Recipe :=
  .make .object [.shape [("rows", .make .array [.element (.make .object [.shape
    [("name", .make .string []), ("2024", .make .number [])] []])])] []]

/-- The path of the ordinary column leads back to its schema, and the path of the column named
    after a year, under which its violations are reported as well, leads nowhere. -/
theorem reach_pathText_table :
    ∃ s name year, initial.build none table = .ok s ∧
      s.Below [.field "rows", .item 2, .field "name"] name ∧
      s.Below [.field "rows", .item 2, .field "2024"] year ∧
      initial.reach s "rows[2].name" none none = .ok ⟨name, none, none⟩ ∧
      initial.reach s "rows[2].2024" none none =
        .error (.unreachable (.noElement "rows[2].2024" .object)) := by
  obtain ⟨s, list, row, name, year, hs, hkind, hlist, hrow, hname, hyear, hobject, harray, hinner,
      hstring, hnumber⟩ :
      ∃ s list row name year, initial.build none table = .ok s ∧
        s.kind = .object ⟨[("rows", list)], ["rows"], []⟩ ∧ list.kind = .array (.of row) ∧
        row.kind = .object ⟨[("name", name), ("2024", year)], ["name", "2024"], []⟩ ∧
        name.kind = .string ∧ year.kind = .number ∧ s.Fixed ∧ list.Fixed ∧ row.Fixed ∧
        name.Fixed ∧ year.Fixed :=
    ⟨_, _, _, _, _, rfl, rfl, rfl, rfl, rfl, rfl, ⟨fun _ h => (nomatch h), rfl⟩,
      ⟨fun _ h => (nomatch h), rfl⟩, ⟨fun _ h => (nomatch h), rfl⟩,
      ⟨fun _ h => (nomatch h), rfl⟩, ⟨fun _ h => (nomatch h), rfl⟩⟩
  have hfixed : s.Everywhere Schema.Fixed :=
    .of_fields hobject hobject.unconditional hkind (List.forall_mem_singleton.mpr
      (.of_element harray harray.unconditional hlist
        (.of_fields hinner hinner.unconditional hrow (List.forall_mem_cons.mpr
          ⟨.of_leaf hstring hstring.unconditional (by simp [hname]) (by simp [hname]),
            List.forall_mem_singleton.mpr
              (.of_leaf hnumber hnumber.unconditional (by simp [hyear]) (by simp [hyear]))⟩))))
  have hbelowName : s.Below [.field "rows", .item 2, .field "name"] name :=
    .field hkind rfl (.item hlist (.field hrow rfl .here))
  have hbelowYear : s.Below [.field "rows", .item 2, .field "2024"] year :=
    .field hkind rfl (.item hlist (.field hrow rfl .here))
  have hplainRows : (PartKey.field "rows").Named := (by decide : Path.Name "rows")
  have hposition : (PartKey.item 2).Named := (by decide : 2 ≤ greatestIndex)
  refine ⟨s, name, year, hs, hbelowName, hbelowYear,
    (reach_pathText_iff hfixed hbelowName ?_).1.mpr ?_,
    (reach_pathText_iff hfixed hbelowYear ?_).2 ?_⟩
  · refine List.forall_mem_cons.mpr ⟨hplainRows, List.forall_mem_cons.mpr ⟨hposition, ?_⟩⟩
    exact List.forall_mem_singleton.mpr (by decide : Path.Name "name")
  · simp only [List.forall_mem_cons, List.not_mem_nil, false_implies, implies_true, and_true]
    exact ⟨PartKey.not_isNumeral_field (by decide), nofun,
      PartKey.not_isNumeral_field (by decide)⟩
  · refine List.forall_mem_cons.mpr ⟨hplainRows, List.forall_mem_cons.mpr ⟨hposition, ?_⟩⟩
    exact List.forall_mem_singleton.mpr (by decide : Path.Name "2024")
  · exact ⟨.field "2024", by simp, .intro (n := 2024) (by decide) (by decide)⟩

end Workshop

end Conform
