/-
  Conform.Proofs.EntrySet.Membership

  Lists of entries are sets. Whatever is added to a list, removed from it or united with
  it, no two of its literals are equal and no two of its references have one key; and the
  values among its literals are those of the operation. An entry that is left out, or one
  that another stands for, makes no difference, because equality of documents is an
  equivalence.
-/

import Conform.Proofs.EntrySet.Additions

namespace Conform

/-- Numeric equality is an equivalence of documents. -/
theorem Value.equals_equivalence :
    Equivalence fun x y : { v : Value // v.Proper } => x.val.equals y.val = true where
  refl x := x.property.equals_self
  symm {x y} h := x.property.equals_symm y.property h
  trans {x _ _} hxy hyz := x.property.equals_trans hxy hyz

namespace EntrySet

variable {set other : EntrySet} {v w x : Value}

-- ============================================================================
-- Removals and unions
-- ============================================================================

/-- A literal that is removed takes away the values that equal it. -/
theorem hasLiteral_remove_value (hset : set.Proper) (hx : x.Proper) :
    (set.remove (.value w)).hasLiteral x = true ↔
      set.hasLiteral x = true ∧ x.equals w = false := by
  have hmem : (set.remove (.value w)).hasLiteral x = true ↔
      ∃ v ∈ set.values, v.equals w = false ∧ v.equals x = true := by
    simp [remove, hasLiteral]
  -- whether a literal stays depends on the values that it equals only
  have hsame {v : Value} (hv : v ∈ set.values) (hequals : v.equals x = true) :
      v.equals w = x.equals w := by
    have hproper : v.Proper := hset _ (value_mem_entries.mpr hv)
    have hback : x.equals v = true := hproper.equals_symm hx hequals
    exact Bool.eq_iff_iff.mpr ⟨hx.equals_trans hback, hproper.equals_trans hequals⟩
  rw [hmem, hasLiteral_iff]
  constructor
  · rintro ⟨v, hv, hstays, hequals⟩
    exact ⟨⟨v, hv, hequals⟩, hsame hv hequals ▸ hstays⟩
  · rintro ⟨⟨v, hv, hequals⟩, hother⟩
    exact ⟨v, hv, (hsame hv hequals).trans hother, hequals⟩

/-- A union brings the values among the literals of both sides. -/
theorem hasLiteral_union (hset : set.Proper) (hother : other.Proper) :
    (set.union other).hasLiteral x = true ↔
      set.hasLiteral x = true ∨ other.hasLiteral x = true := by
  have hliterals : other.hasLiteral x = true ↔
      ∃ w, .value w ∈ other.entries ∧ w.equals x = true := by
    simp only [hasLiteral_iff, value_mem_entries]
  rw [union, hasLiteral_foldl_add hset hother, hliterals]

-- ============================================================================
-- Operations
-- ============================================================================

/-- An operation on a set of entries. -/
inductive Change where
  | add (p : Param)
  | remove (p : Param)
  | union (other : EntrySet)

/-- Whether what an operation brings are documents. -/
def Change.Proper : Change → Prop
  | add p => p.Proper
  | remove _ => True
  | union other => other.Proper

/-- Carries out an operation. -/
def change (set : EntrySet) : Change → EntrySet
  | .add p => set.add p
  | .remove p => set.remove p
  | .union other => set.union other

theorem Proper.change (h : set.Proper) {c : Change} (hc : c.Proper) : (set.change c).Proper := by
  cases c with
  | add p => exact h.add hc
  | remove p => exact fun q hq => h q (mem_remove hq).1
  | union other => exact fun q hq => (mem_union hq).elim (h q) (hc q)

theorem Distinct.change (h : set.Distinct) (c : Change) : (set.change c).Distinct := by
  cases c with
  | add p => exact h.add p
  | remove p => exact h.remove p
  | union other => exact h.union other

theorem Proper.foldl_change {changes : List Change} (h : set.Proper)
    (hchanges : ∀ c ∈ changes, c.Proper) : (changes.foldl EntrySet.change set).Proper := by
  induction changes generalizing set with
  | nil => exact h
  | cons c rest ih =>
      obtain ⟨hc, hrest⟩ := List.forall_mem_cons.mp hchanges
      exact ih (h.change hc) hrest

theorem Distinct.foldl_change (h : set.Distinct) (changes : List Change) :
    (changes.foldl EntrySet.change set).Distinct := by
  induction changes generalizing set with
  | nil => exact h
  | cons c rest ih => exact ih (h.change c)

/-- Of the literals of a set of documents that differ from those before them, none equals
    another one. -/
theorem Distinct.pairwise (h : set.Distinct) (hset : set.Proper) :
    set.values.Pairwise fun x y => x.equals y = false ∧ y.equals x = false := by
  refine h.values.imp_of_mem fun {x y} hx hy hdiffers => ⟨hdiffers, ?_⟩
  have hproper {v : Value} (hv : v ∈ set.values) : v.Proper := hset _ (value_mem_entries.mpr hv)
  by_contra hequals
  have hback := (hproper hy).equals_symm (hproper hx) (by simpa using hequals)
  exact absurd (hdiffers.symm.trans hback) (by simp)

/-- Numeric equality is an equivalence of documents. Behind any operations on an empty
    list, no two literals of the list are equal and no two references have one key; an
    addition, a removal or a union does to the values among its literals what it does to
    a set of values up to equality. -/
theorem changes_make_sets {changes : List Change} (hchanges : ∀ c ∈ changes, c.Proper) :
    let set := changes.foldl EntrySet.change EntrySet.empty
    (Equivalence fun x y : { v : Value // v.Proper } => x.val.equals y.val = true) ∧
    (set.values.Pairwise fun x y => x.equals y = false ∧ y.equals x = false) ∧
    (set.refs.map Reference.key).Nodup ∧
    (∀ w x : Value, w.Proper → x.Proper →
      ((set.add (.value w)).hasLiteral x = true ↔
        x.equals w = true ∨ set.hasLiteral x = true) ∧
      ((set.remove (.value w)).hasLiteral x = true ↔
        set.hasLiteral x = true ∧ x.equals w = false)) ∧
    ∀ other : EntrySet, other.Proper → ∀ x : Value, x.Proper →
      ((set.union other).hasLiteral x = true ↔
        set.hasLiteral x = true ∨ other.hasLiteral x = true) := by
  intro set
  have hproper : set.Proper := Proper.empty.foldl_change hchanges
  have hdistinct : set.Distinct := Distinct.empty.foldl_change changes
  refine ⟨Value.equals_equivalence, hdistinct.pairwise hproper, hdistinct.refs, ?_, ?_⟩
  · intro w x hw hx
    refine ⟨?_, hasLiteral_remove_value hproper hx⟩
    rw [hasLiteral_add_value hproper]
    exact or_congr_left ⟨hw.equals_symm hx, hx.equals_symm hw⟩
  · exact fun other hother x _ => hasLiteral_union hproper hother

/-- Operations that enter one in both spellings, and a reference twice. -/
def oneEntered : List Change :=
  [.add (.value (.num (.int 1))), .add (.value (.num (.float (Binary64.ofInt 1)))),
    .add (.ref (Reference.ofKey "a")), .union ⟨[.str "x"], [Reference.ofKey "a"]⟩,
    .remove (.value (.str "y"))]

/-- A list with both spellings of one and with references of one key has each once, and
    the removal of either spelling takes the literal away. -/
theorem changes_make_sets_one :
    let set := oneEntered.foldl EntrySet.change EntrySet.empty
    set.values = [.num (.int 1), .str "x"] ∧ (set.refs.map Reference.key).Nodup ∧
      set.refs.length = 1 ∧ set.hasLiteral (.num (.float (Binary64.ofInt 1))) = true ∧
      (set.remove (.value (.num (.float (Binary64.ofInt 1))))).hasLiteral (.int 1) = false := by
  have hunion : EntrySet.Proper ⟨[.str "x"], [Reference.ofKey "a"]⟩ := by
    intro p hp
    cases p with
    | value v =>
        obtain rfl : v = .str "x" := by simpa using hp
        exact Value.Proper.str _
    | ref r => trivial
  have hproper : ∀ c ∈ oneEntered, c.Proper := by
    simp only [oneEntered, List.forall_mem_cons]
    exact ⟨Value.Proper.num _, Value.Proper.num _, trivial, hunion, trivial, by simp⟩
  obtain ⟨-, -, hkeys, hchanges, -⟩ := changes_make_sets hproper
  obtain ⟨-, hremoved⟩ := hchanges (.num (.float (Binary64.ofInt 1))) (.int 1) (.num _) (.num _)
  refine ⟨rfl, hkeys, rfl, by decide, ?_⟩
  by_contra hthere
  have hother := (hremoved.mp (by simpa using hthere)).2
  exact absurd hother (by decide)

end EntrySet

end Conform
