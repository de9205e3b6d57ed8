/-
  Conform.Proofs.Schema.TestList

  The tests of a node. Whether a test is exclusive is told in two places: by the test
  itself, and for its name by a flag that stays when the tests go. The two agree
  wherever a test is listed, and this makes the list tidy: adding a test drops all that
  it takes the place of, and nothing else changes names, predicates or flags.
-/

import Mathlib.Data.List.Basic
import Conform.Schema.Refine

namespace Conform

namespace Test

/-- Whether two tests have one name and one predicate. -/
def Repeats (x y : Test) : Prop := x.name = y.name ∧ x.predicate.sameAs y.predicate = true

/-- Whether a test that replaces others has a name to find them by. -/
def Anchored (x : Test) : Prop := x.exclusive = true → x.name ≠ none

theorem Anchored.of_name {x : Test} {n : String} (h : x.name = some n) : x.Anchored := by
  intro _ hnone
  exact absurd (h.symm.trans hnone) (by simp)

theorem isNamed_iff {x : Test} {n : String} : x.isNamed n = true ↔ x.name = some n := by
  simp [isNamed]

end Test

namespace Traits

variable {t u left right : Traits} {x y : Test}

/-- What holds of the tests of a node: no test is there twice, a name that is marked
    exclusive has one test at most, and the name of an exclusive test is marked. -/
structure Tidy (t : Traits) : Prop where
  distinct : t.tests.Pairwise fun x y => ¬ x.Repeats y
  single : ∀ n, Dict.get? t.exclusive n = some true →
    (t.tests.filter fun x => x.isNamed n).length ≤ 1
  flagged : ∀ x ∈ t.tests, x.exclusive = true →
    ∃ n, x.name = some n ∧ Dict.get? t.exclusive n = some true

theorem Tidy.empty (htests : t.tests = []) (hexclusive : t.exclusive = []) : t.Tidy where
  distinct := by simp [htests]
  single := by simp [hexclusive, Dict.get?_nil]
  flagged := by simp [htests]

theorem Tidy.anchored (h : t.Tidy) (hx : x ∈ t.tests) : x.Anchored := by
  intro hexclusive hnone
  obtain ⟨n, hn, -⟩ := h.flagged x hx hexclusive
  exact absurd (hnone.symm.trans hn) (by simp)

/-- A listed test that is exclusive is the only one of its name. -/
theorem Tidy.alone (h : t.Tidy) (hx : x ∈ t.tests) (hexclusive : x.exclusive = true) :
    t.tests.filter (fun y => y.name == x.name) = [x] := by
  obtain ⟨n, hn, hflag⟩ := h.flagged x hx hexclusive
  have hlength := h.single n hflag
  have hfilter : (t.tests.filter fun y => y.name == x.name) =
      t.tests.filter fun y => y.isNamed n := by
    rw [hn]
    rfl
  have hmem : x ∈ t.tests.filter fun y => y.isNamed n :=
    List.mem_filter.mpr ⟨hx, Test.isNamed_iff.mpr hn⟩
  rw [hfilter]
  obtain ⟨y, hy⟩ := List.length_eq_one_iff.mp
    (Nat.le_antisymm hlength (List.length_pos_of_mem hmem))
  rw [hy] at hmem ⊢
  rw [List.mem_singleton.mp hmem]

-- ============================================================================
-- Adding a test
-- ============================================================================

theorem mem_tests_addTest :
    y ∈ (t.addTest x).tests ↔
      (y ∈ t.tests ∧ displaces (x.exclusive || t.isExclusive x.name) x y = false) ∨ y = x := by
  simp [addTest]

/-- A test that stays beside a new one is no repetition of it, and it has another name
    if the new one or its name is exclusive. -/
theorem displaces_eq_false {exclusive : Bool} (h : displaces exclusive x y = false) :
    ¬ y.Repeats x ∧ (exclusive = true → y.name ≠ x.name) := by
  constructor
  · rintro ⟨hname, hsame⟩
    simp [displaces, hname, hsame] at h
  · rintro rfl hname
    simp [displaces, hname] at h

theorem exclusive_addTest_self {n : String} (hn : x.name = some n) :
    Dict.get? (t.addTest x).exclusive n = some x.exclusive := by
  rw [addTest]
  simp only [hn]
  exact Dict.get?_insert_self t.exclusive n x.exclusive

theorem exclusive_addTest_of_ne {n : String} (hn : x.name ≠ some n) :
    Dict.get? (t.addTest x).exclusive n = Dict.get? t.exclusive n := by
  rw [addTest]
  cases hname : x.name with
  | none => rfl
  | some other =>
      have hne : n ≠ other := fun heq => hn (heq ▸ hname)
      exact Dict.get?_insert_of_ne t.exclusive x.exclusive hne

theorem length_filter_filter_le (p q : Test → Bool) (tests : List Test) :
    ((tests.filter p).filter q).length ≤ (tests.filter q).length := by
  rw [List.filter_comm]
  exact List.length_filter_le p (tests.filter q)

/-- An exclusive test is the only one of its name when it has been added. -/
theorem filter_isNamed_addTest_self {n : String} (hname : x.name = some n)
    (hexclusive : x.exclusive = true) : (t.addTest x).tests.filter (fun y => y.isNamed n) = [x] := by
  have hold : (t.tests.filter fun old =>
      !displaces (x.exclusive || t.isExclusive x.name) x old).filter
        (fun y => y.isNamed n) = [] := by
    refine List.filter_eq_nil_iff.mpr fun y hy hyn => ?_
    have hstays := (List.mem_filter.mp hy).2
    have hne := (displaces_eq_false (by simpa using hstays)).2 (by simp [hexclusive])
    exact hne ((Test.isNamed_iff.mp hyn).trans hname.symm)
  rw [addTest]
  dsimp only
  rw [List.filter_append, hold, List.nil_append,
    List.filter_singleton, Test.isNamed_iff.mpr hname, cond_true]

/-- A test adds nothing to those of another name. -/
theorem length_filter_isNamed_addTest_le {n : String} (hname : x.name ≠ some n) :
    ((t.addTest x).tests.filter fun y => y.isNamed n).length ≤
      (t.tests.filter fun y => y.isNamed n).length := by
  have hnot : [x].filter (fun y => y.isNamed n) = [] := by
    simpa [Test.isNamed] using hname
  rw [addTest]
  dsimp only
  rw [List.filter_append, hnot, List.append_nil]
  exact length_filter_filter_le _ _ t.tests

/-- Adding a test keeps a list tidy. -/
theorem Tidy.addTest (h : t.Tidy) (hx : x.Anchored) : (t.addTest x).Tidy where
  distinct := by
    refine List.pairwise_append.mpr ⟨h.distinct.filter _, List.pairwise_singleton _ _, ?_⟩
    intro y hy z hz
    have hstays := (List.mem_filter.mp hy).2
    rw [List.mem_singleton.mp hz]
    exact (displaces_eq_false (by simpa using hstays)).1
  single n hflag := by
    by_cases hname : x.name = some n
    · rw [exclusive_addTest_self hname] at hflag
      rw [filter_isNamed_addTest_self hname (Option.some.inj hflag)]
      exact Nat.le_refl 1
    · rw [exclusive_addTest_of_ne hname] at hflag
      exact Nat.le_trans (length_filter_isNamed_addTest_le hname) (h.single n hflag)
  flagged y hy hexclusive := by
    rcases mem_tests_addTest.mp hy with ⟨hold, hstays⟩ | rfl
    · obtain ⟨n, hn, hflag⟩ := h.flagged y hold hexclusive
      refine ⟨n, hn, ?_⟩
      by_cases hname : x.name = some n
      · -- the name was marked, so the old test would not have stayed
        have hne := (displaces_eq_false hstays).2 (by simp [isExclusive, hname, hflag])
        exact absurd (hn.trans hname.symm) hne
      · rw [exclusive_addTest_of_ne hname]
        exact hflag
    · obtain ⟨n, hn⟩ := Option.ne_none_iff_exists'.mp (hx hexclusive)
      exact ⟨n, hn, by rw [exclusive_addTest_self hn, hexclusive]⟩

/-- Adding tests one by one keeps a list tidy. -/
theorem Tidy.foldl_addTest (h : t.Tidy) {added : List Test} (hadded : ∀ x ∈ added, x.Anchored) :
    (added.foldl Traits.addTest t).Tidy := by
  induction added generalizing t with
  | nil => exact h
  | cons x rest ih =>
      have hx : x.Anchored := hadded x List.mem_cons_self
      exact ih (h.addTest hx) fun y hy => hadded y (List.mem_cons_of_mem _ hy)

-- ============================================================================
-- Other changes
-- ============================================================================

/-- Other traits with the same tests and flags. -/
theorem Tidy.of_eq (h : t.Tidy) (htests : u.tests = t.tests) (hexclusive : u.exclusive = t.exclusive) :
    u.Tidy := by
  obtain ⟨hdistinct, hsingle, hflagged⟩ := h
  exact ⟨htests ▸ hdistinct, htests ▸ hexclusive ▸ hsingle, htests ▸ hexclusive ▸ hflagged⟩

theorem Tidy.join (hl : left.Tidy) (hr : right.Tidy) : (left.join right).Tidy := by
  rw [Traits.join]
  refine Tidy.foldl_addTest ?_ fun x hx => hr.anchored hx
  exact hl.of_eq rfl rfl

/-- Taking tests out leaves their flags, which the others do not mind. -/
theorem Tidy.dropRequired (h : t.Tidy) : t.dropRequired.Tidy where
  distinct := h.distinct.filter _
  single n hflag := Nat.le_trans (length_filter_filter_le _ _ t.tests) (h.single n hflag)
  flagged x hx := h.flagged x (List.mem_filter.mp hx).1

/-- A new message leaves the name, the predicate and the exclusiveness of a test. -/
theorem reword_eq (name : String) (message : Message) (x : Test) :
    ∃ m, reword name message x = x.withMessage m := by
  rw [reword]
  split
  · exact ⟨message, rfl⟩
  · exact ⟨x.message, rfl⟩

theorem reword_name (name : String) (message : Message) (x : Test) :
    (reword name message x).name = x.name := by
  obtain ⟨m, hm⟩ := reword_eq name message x
  rw [hm]
  rfl

theorem reword_predicate (name : String) (message : Message) (x : Test) :
    (reword name message x).predicate = x.predicate := by
  obtain ⟨m, hm⟩ := reword_eq name message x
  rw [hm]
  rfl

theorem reword_exclusive (name : String) (message : Message) (x : Test) :
    (reword name message x).exclusive = x.exclusive := by
  obtain ⟨m, hm⟩ := reword_eq name message x
  rw [hm]
  rfl

theorem Tidy.withMessage (h : t.Tidy) (name : String) (message : Message) :
    (t.withMessage name message).Tidy where
  distinct := by
    refine List.pairwise_map.mpr (h.distinct.imp fun hxy hrepeats => hxy ?_)
    simpa only [Test.Repeats, reword_name, reword_predicate] using hrepeats
  single n hflag := by
    have hnamed : ((fun x : Test => x.isNamed n) ∘ reword name message) = fun x => x.isNamed n := by
      funext x
      simp only [Function.comp_apply, Test.isNamed, reword_name]
    rw [Traits.withMessage]
    dsimp only
    rw [List.filter_map, hnamed, List.length_map]
    exact h.single n hflag
  flagged y hy hexclusive := by
    obtain ⟨x, hx, rfl⟩ := List.mem_map.mp hy
    rw [reword_name]
    exact h.flagged x hx (by rwa [reword_exclusive] at hexclusive)

end Traits

end Conform
