/-
  Conform.Proofs.Value.Rounding

  What numeric equality tells apart in documents of integers. Two such documents are equal
  exactly if they are one document once every integer in them is rounded to 53 significant
  bits; so lists of literals and conditions take neighbours beyond 2^53 for one another,
  and where all integers are smaller they tell any two documents apart.
-/

import Conform.EntrySet
import Conform.Proofs.Ascending
import Conform.Proofs.Number.Rounding
import Conform.Proofs.Value.Equality
import Conform.Schema.Resolve

namespace Conform

-- ============================================================================
-- Lists side by side
-- ============================================================================

section Lists

variable {α β : Type} {R S : α → α → Prop} {f : α → β} {xs ys : List α}

theorem forall₂_congr_of_mem (h : ∀ x ∈ xs, ∀ y ∈ ys, R x y ↔ S x y) :
    List.Forall₂ R xs ys ↔ List.Forall₂ S xs ys := by
  rw [List.forall₂_iff_get, List.forall₂_iff_get]
  refine and_congr_right fun _ => forall₃_congr fun position hleft hright => ?_
  exact h _ (List.getElem_mem hleft) _ (List.getElem_mem hright)

theorem forall₂_map_eq_iff :
    List.Forall₂ (fun x y => f x = f y) xs ys ↔ xs.map f = ys.map f := by
  rw [← List.forall₂_eq_eq_eq, List.forall₂_map_left_iff, List.forall₂_map_right_iff]

/-- A map that tells the items of two lists apart tells the lists apart. -/
theorem eq_of_map_eq (h : ∀ x ∈ xs, ∀ y ∈ ys, f x = f y → x = y) (hmap : xs.map f = ys.map f) :
    xs = ys := by
  rw [← List.forall₂_eq_eq_eq]
  refine (forall₂_congr_of_mem fun x hx y hy => ?_).mp (forall₂_map_eq_iff.mpr hmap)
  exact ⟨h x hx y hy, congrArg f⟩

end Lists

namespace Value

-- ============================================================================
-- Documents of integers
-- ============================================================================

/-- Whether all numbers in a document are integers with a property. The keys of its objects
    ascend, as those of documents do. -/
inductive Integral (P : Int → Prop) : Value → Prop where
  | null : Integral P null
  | bool (b : Bool) : Integral P (bool b)
  | int {i : Int} : P i → Integral P (num (.int i))
  | str (s : String) : Integral P (str s)
  | arr {items : List Value} : (∀ v ∈ items, Integral P v) → Integral P (arr items)
  | obj {fields : List (String × Value)} :
      Dict.Ascending fields → (∀ f ∈ fields, Integral P f.2) → Integral P (obj fields)

mutual

/-- A document with its integers rounded to 53 significant bits. -/
def rounded : Value → Value
  | num (.int i) => num (.int (Number.rounded i))
  | arr items => arr (roundedItems items)
  | obj fields => obj (roundedFields fields)
  | v => v

def roundedItems : List Value → List Value
  | [] => []
  | v :: rest => v.rounded :: roundedItems rest

def roundedFields : List (String × Value) → List (String × Value)
  | [] => []
  | (key, v) :: rest => (key, v.rounded) :: roundedFields rest

end

theorem rounded_arr (items : List Value) : (arr items).rounded = arr (items.map rounded) := by
  rw [rounded]
  congr 1
  induction items with
  | nil => rfl
  | cons v rest ih => rw [roundedItems, ih, List.map_cons]

theorem rounded_obj (fields : List (String × Value)) :
    (obj fields).rounded = obj (fields.map fun f => (f.1, f.2.rounded)) := by
  rw [rounded]
  congr 1
  induction fields with
  | nil => rfl
  | cons f rest ih => rw [roundedFields, ih, List.map_cons]

variable {P : Int → Prop} {a b : Value}

namespace Integral

/-- Objects have equal fields if they are one object behind the rounding. -/
theorem fields_equal_iff {xs ys : List (String × Value)} (hxs : Dict.Ascending xs)
    (hys : Dict.Ascending ys)
    (h : ∀ f ∈ xs, ∀ g ∈ ys, f.2.equals g.2 = true ↔ f.2.rounded = g.2.rounded) :
    (xs.length = ys.length ∧ ∀ f ∈ xs, ∃ v, Dict.get? ys f.1 = some v ∧ f.2.equals v = true) ↔
      xs.map (fun f => (f.1, f.2.rounded)) = ys.map fun f => (f.1, f.2.rounded) := by
  constructor
  · rintro ⟨hlength, hfields⟩
    refine (hxs.map_values rounded).eq_of_subset (hys.map_values rounded) (by simpa using hlength)
      fun e he => ?_
    obtain ⟨f, hf, rfl⟩ := List.mem_map.mp he
    obtain ⟨v, hv, hequals⟩ := hfields f hf
    have hmem : (f.1, v) ∈ ys := Dict.mem_of_get? hv
    exact List.mem_map.mpr ⟨(f.1, v), hmem, by rw [(h f hf _ hmem).mp hequals]⟩
  · intro hequal
    refine ⟨by simpa using congrArg List.length hequal, fun f hf => ?_⟩
    have hmem : (f.1, f.2.rounded) ∈ ys.map fun g => (g.1, g.2.rounded) :=
      hequal ▸ List.mem_map_of_mem hf
    obtain ⟨g, hg, hsame⟩ := List.mem_map.mp hmem
    obtain ⟨hkey, hround⟩ := Prod.mk.inj hsame
    exact ⟨g.2, hkey ▸ Dict.get?_of_mem hys.nodup_keys hg, (h f hf g hg).mpr hround.symm⟩

/-- Numeric equality of documents of integers is equality behind the rounding. -/
theorem equals_iff (ha : a.Integral Number.Kept) (hb : b.Integral Number.Kept) :
    a.equals b = true ↔ a.rounded = b.rounded := by
  induction ha generalizing b with
  | null => cases hb <;> simp [equals, rounded]
  | bool _ => cases hb <;> simp [equals, rounded]
  | str _ => cases hb <;> simp [equals, rounded]
  | int hi =>
      cases hb with
      | int hj => simp [equals, rounded, Number.int_equals_iff hi hj]
      | _ => simp [equals, rounded]
  | arr _ ih =>
      cases hb with
      | arr hys =>
          rw [equals, itemsEqual_iff, rounded_arr, rounded_arr, arr.injEq, ← forall₂_map_eq_iff]
          exact forall₂_congr_of_mem fun x hx y hy => ih x hx (hys y hy)
      | _ => simp [equals, rounded]
  | obj hkeys _ ih =>
      cases hb with
      | obj hothers hys =>
          rw [equals, Bool.and_eq_true, beq_iff_eq, fieldsEqual_iff, rounded_obj, rounded_obj,
            obj.injEq]
          exact fields_equal_iff hkeys hothers fun f hf g hg => ih f hf (hys g hg)
      | _ => simp [equals, rounded]

/-- A document of short integers is told from all others. -/
theorem eq_of_rounded_eq (ha : a.Integral Number.Short) (hb : b.Integral P)
    (h : a.rounded = b.rounded) : a = b := by
  induction ha generalizing b with
  | null => cases hb <;> simp_all [rounded]
  | bool _ => cases hb <;> simp_all [rounded]
  | str _ => cases hb <;> simp_all [rounded]
  | int hi =>
      cases hb with
      | int hj =>
          rw [rounded, rounded, num.injEq, Number.int.injEq] at h
          rw [hi.eq_of_rounded_eq h]
      | _ => simp_all [rounded]
  | arr _ ih =>
      cases hb with
      | arr hys =>
          rw [rounded_arr, rounded_arr, arr.injEq] at h
          rw [eq_of_map_eq (fun x hx y hy => ih x hx (hys y hy)) h]
      | _ => simp_all [rounded]
  | obj hkeys _ ih =>
      cases hb with
      | obj hothers hys =>
          rw [rounded_obj, rounded_obj, obj.injEq] at h
          refine congrArg Value.obj (eq_of_map_eq (fun f hf g hg hsame => ?_) h)
          obtain ⟨hkey, hround⟩ := Prod.mk.inj hsame
          exact Prod.ext hkey (ih f hf (hys g hg) hround)
      | _ => simp_all [rounded]

end Integral

-- ============================================================================
-- Lists and conditions
-- ============================================================================

/-- A list admits what rounding makes one of its entries. -/
theorem admits_iff_rounded {set : EntrySet} {resolve : Reference → Option Value}
    (ha : a.Integral Number.Kept) (hvalues : ∀ x ∈ set.values, x.Integral Number.Kept)
    (hrefs : ∀ r ∈ set.refs, ∀ v, resolve r = some v → v.Integral Number.Kept) :
    set.admits a resolve = true ↔
      (∃ x ∈ set.values, x.rounded = a.rounded) ∨
        ∃ r ∈ set.refs, ∃ v, resolve r = some v ∧ v.rounded = a.rounded := by
  rw [EntrySet.admits, EntrySet.hasLiteral, Bool.or_eq_true, List.any_eq_true, List.any_eq_true]
  refine or_congr (exists_congr fun x => and_congr_right fun hx => (hvalues x hx).equals_iff ha)
    (exists_congr fun r => and_congr_right fun hr => ?_)
  rw [Option.any_eq_true]
  exact exists_congr fun v => and_congr_right fun hv => (hrefs r hr v hv).equals_iff ha

/-- A condition on a literal holds where rounding makes all values the literal. -/
theorem ask_equal_iff_rounded {values : List (Option Value)} (ha : a.Integral Number.Kept)
    (hvalues : ∀ v, some v ∈ values → v.Integral Number.Kept) :
    (Guard.equal a).ask values = true ↔
      ∀ value ∈ values, ∃ v, value = some v ∧ v.rounded = a.rounded := by
  rw [Guard.ask, List.all_eq_true]
  refine forall₂_congr fun value hmem => ?_
  rw [Option.any_eq_true]
  exact exists_congr fun v => and_congr_right fun hv => (hvalues v (hv ▸ hmem)).equals_iff ha

/-- Documents of integers are equal by value exactly if rounding makes them one, and where
    one of them has short integers only, exactly if they are one. A list admits a document
    exactly if rounding makes it one of its literals or one of the values that its
    references lead to, and a condition on a literal holds exactly if rounding makes all
    values the literal. -/
theorem equals_iff_rounded (ha : a.Integral Number.Kept) :
    (∀ b : Value, b.Integral Number.Kept →
      (a.equals b = true ↔ a.rounded = b.rounded) ∧
      (a.Integral Number.Short ∨ b.Integral Number.Short → (a.equals b = true ↔ a = b))) ∧
    (∀ (set : EntrySet) (resolve : Reference → Option Value),
      (∀ x ∈ set.values, x.Integral Number.Kept) →
      (∀ r ∈ set.refs, ∀ v, resolve r = some v → v.Integral Number.Kept) →
      (set.admits a resolve = true ↔
        (∃ x ∈ set.values, x.rounded = a.rounded) ∨
          ∃ r ∈ set.refs, ∃ v, resolve r = some v ∧ v.rounded = a.rounded)) ∧
    (∀ values : List (Option Value), (∀ v, some v ∈ values → v.Integral Number.Kept) →
      ((Guard.equal a).ask values = true ↔
        ∀ value ∈ values, ∃ v, value = some v ∧ v.rounded = a.rounded)) := by
  refine ⟨fun b hb => ⟨ha.equals_iff hb, fun hshort => ?_⟩,
    fun _ _ hvalues hrefs => admits_iff_rounded ha hvalues hrefs,
    fun _ hvalues => ask_equal_iff_rounded ha hvalues⟩
  rw [ha.equals_iff hb]
  refine ⟨fun hround => ?_, congrArg rounded⟩
  rcases hshort with hshort | hshort
  · exact hshort.eq_of_rounded_eq hb hround
  · exact (hshort.eq_of_rounded_eq ha hround.symm).symm

/-- The integers 2^53 and 2^53 + 1 are taken for one another, by a list that has one of them
    and by a condition on it; 2^53 - 1 is told from both. -/
theorem equals_iff_rounded_neighbours :
    (int 9007199254740993).equals (int 9007199254740992) = true ∧
    EntrySet.admits ⟨[int 9007199254740992], []⟩ (int 9007199254740993) (fun _ => none) = true ∧
    (Guard.equal (int 9007199254740993)).ask [some (int 9007199254740992)] = true ∧
    ¬ (int 9007199254740993).equals (int 9007199254740991) = true := by
  have hkept : ∀ i : Int, Number.Kept i → (int i).Integral Number.Kept := fun _ h => .int h
  have hround : (int 9007199254740992).rounded = (int 9007199254740993).rounded :=
    congrArg int (by decide : Number.rounded 9007199254740992 = Number.rounded 9007199254740993)
  have hneighbour := hkept 9007199254740992 (by decide)
  obtain ⟨hequals, hlists, hconditions⟩ :=
    equals_iff_rounded (hkept 9007199254740993 (by decide))
  refine ⟨(hequals _ hneighbour).1.mpr hround.symm, (hlists _ _ ?_ ?_).mpr ?_,
    (hconditions _ ?_).mpr ?_, fun hequal => ?_⟩
  · exact List.forall_mem_singleton.mpr hneighbour
  · exact fun _ h => absurd h List.not_mem_nil
  · exact Or.inl ⟨_, List.mem_singleton_self _, hround⟩
  · rintro v hv
    obtain rfl := Option.some.inj (List.mem_singleton.mp hv)
    exact hneighbour
  · exact List.forall_mem_singleton.mpr ⟨_, rfl, hround⟩
  · have hshort : (int 9007199254740991).Integral Number.Short := .int (by decide)
    obtain ⟨-, hexact⟩ := hequals (int 9007199254740991) (hkept _ (by decide))
    have hsame := (hexact (Or.inr hshort)).mp hequal
    simp [int] at hsame

end Value

end Conform
