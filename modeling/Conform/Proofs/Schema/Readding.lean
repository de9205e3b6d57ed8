/-
  Conform.Proofs.Schema.Readding

  Checks that are added again. A concatenation adds the tests and the list entries of
  its right side one by one, and each addition may drop what stands there already. What
  a node holds is such that nothing is lost on the way: its tests go with one another,
  and so do the entries of a list. On a bare node the additions bring all of them back
  in their order. On the node itself each of them takes the place of its twin and goes
  to the end, so that the list turns round once.
-/

import Conform.Proofs.EntrySet.Additions
import Conform.Proofs.Schema.Concatenation

namespace Conform

theorem Predicate.sameAs_comm (p q : Predicate) : p.sameAs q = q.sameAs p := by
  cases p with
  | check c => cases q <;> simp [sameAs, Bool.beq_comm]
  | custom m _ =>
      cases q with
      | check d => cases m <;> rfl
      | custom n _ => cases m <;> cases n <;> simp [sameAs, Bool.beq_comm]

namespace Test

variable {x y : Test}

/-- Whether two tests can stand in one list: if they have one name, neither replaces the
    other, and their predicates differ. -/
def Beside (x y : Test) : Prop :=
  x.name = y.name →
    x.exclusive = false ∧ y.exclusive = false ∧ x.predicate.sameAs y.predicate = false

theorem Beside.symm (h : x.Beside y) : y.Beside x := by
  intro hname
  obtain ⟨hx, hy, hsame⟩ := h hname.symm
  exact ⟨hy, hx, by rw [Predicate.sameAs_comm, hsame]⟩

/-- Whether a test would take its own place. -/
def Marked (x : Test) : Prop := x.predicate.sameAs x.predicate = true

end Test

namespace Traits

open Test

variable {t u left right : Traits} {x y : Test} {added done : List Test}

/-- The tests of a tidy list go with one another. -/
theorem Tidy.beside (h : t.Tidy) : t.tests.Pairwise Beside := by
  refine List.pairwise_iff_forall_sublist.mpr fun {x y} hsub hname => ?_
  have hmem {z : Test} (hz : z ∈ [x, y]) : z ∈ t.tests := hsub.subset hz
  -- an exclusive test is the only one of its name, so neither of the two is exclusive
  have hnot {z : Test} (hz : z ∈ [x, y]) : z.exclusive = false := by
    by_contra hexclusive
    have halone := h.alone (hmem hz) (by simpa using hexclusive)
    have hboth : [x, y].filter (fun w => w.name == z.name) = [x, y] := by
      rcases List.mem_pair.mp hz with rfl | rfl <;> simp [hname]
    have hsub' := hsub.filter fun w => w.name == z.name
    rw [hboth, halone] at hsub'
    exact absurd hsub'.length_le (by simp)
  refine ⟨hnot (by simp), hnot (by simp), ?_⟩
  have hdistinct := List.pairwise_iff_forall_sublist.mp h.distinct hsub
  simpa [Repeats, hname] using hdistinct

-- ============================================================================
-- Flags
-- ============================================================================

/-- Whether the flag for the name of a listed test tells whether the test is
    exclusive. -/
def Recorded (t : Traits) : Prop :=
  ∀ x ∈ t.tests, ∀ n, x.name = some n → Dict.get? t.exclusive n = some x.exclusive

namespace Recorded

theorem empty (htests : t.tests = []) : t.Recorded := by simp [Recorded, htests]

theorem of_eq (h : t.Recorded) (htests : u.tests = t.tests) (hexclusive : u.exclusive = t.exclusive) :
    u.Recorded := by
  rw [Recorded, htests, hexclusive]
  exact h

theorem isExclusive_eq (h : t.Recorded) (hx : x ∈ t.tests) (hanchored : x.Anchored) :
    t.isExclusive x.name = x.exclusive := by
  cases hname : x.name with
  | none =>
      have hnot : x.exclusive ≠ true := fun hexclusive => hanchored hexclusive hname
      simp [isExclusive, hnot]
  | some n => cases hexclusive : x.exclusive <;> simp [isExclusive, h x hx n hname, hexclusive]

theorem addTest (h : t.Recorded) (x : Test) : (t.addTest x).Recorded := by
  intro y hy n hn
  by_cases hname : x.name = some n
  · rw [exclusive_addTest_self hname]
    rcases mem_tests_addTest.mp hy with ⟨hold, hstays⟩ | rfl
    · -- an old test of the name stays only if neither it nor the new one is exclusive
      have hsame := hn.trans hname.symm
      have hneither : ¬ (x.exclusive || t.isExclusive x.name) = true :=
        fun hexclusive => (displaces_eq_false hstays).2 hexclusive hsame
      have hflag := h y hold n hn
      cases hy' : y.exclusive <;> simp_all [isExclusive]
    · rfl
  · rw [exclusive_addTest_of_ne hname]
    rcases mem_tests_addTest.mp hy with ⟨hold, -⟩ | rfl
    · exact h y hold n hn
    · exact absurd hn hname

theorem foldl_addTest (h : t.Recorded) (added : List Test) :
    (added.foldl Traits.addTest t).Recorded := by
  induction added generalizing t with
  | nil => exact h
  | cons x rest ih => exact ih (h.addTest x)

theorem join (h : left.Recorded) (right : Traits) : (left.join right).Recorded := by
  rw [Traits.join]
  refine foldl_addTest ?_ right.tests
  exact h.of_eq rfl rfl

theorem dropRequired (h : t.Recorded) : t.dropRequired.Recorded :=
  fun x hx => h x (List.mem_filter.mp hx).1

theorem withMessage (h : t.Recorded) (name : String) (message : Message) :
    (t.withMessage name message).Recorded := by
  intro y hy n hn
  obtain ⟨x, hx, rfl⟩ := List.mem_map.mp hy
  rw [reword_name] at hn
  rw [reword_exclusive]
  exact h x hx n hn

end Recorded

-- ============================================================================
-- Tests that are added again
-- ============================================================================

/-- A test leaves those that it goes with where they are. -/
theorem Recorded.displaces_eq_false (h : t.Recorded) (hy : y ∈ t.tests) (hbeside : y.Beside x) :
    displaces (x.exclusive || t.isExclusive x.name) x y = false := by
  by_cases hname : y.name = x.name
  · obtain ⟨hyNot, hxNot, hsame⟩ := hbeside hname
    have hflag : t.isExclusive x.name = false := by
      rw [← hname, h.isExclusive_eq hy (by simp [Anchored, hyNot]), hyNot]
    simp [displaces, hxNot, hflag, hsame]
  · simp [displaces, hname]

theorem Recorded.filter_displaces (h : t.Recorded) {tests : List Test} (hsub : tests ⊆ t.tests)
    (hbeside : ∀ y ∈ tests, y.Beside x) :
    (tests.filter fun y => !displaces (x.exclusive || t.isExclusive x.name) x y) = tests := by
  refine List.filter_eq_self.mpr fun y hy => ?_
  rw [h.displaces_eq_false (hsub hy) (hbeside y hy)]
  rfl

/-- Tests that go with those before them go behind these. -/
theorem Recorded.tests_foldl_addTest_new (h : t.Recorded)
    (hbeside : (t.tests ++ added).Pairwise Beside) :
    (added.foldl Traits.addTest t).tests = t.tests ++ added := by
  induction added generalizing t with
  | nil => simp
  | cons x rest ih =>
      have htests : (t.addTest x).tests = t.tests ++ [x] := by
        rw [Traits.addTest]
        dsimp only
        rw [h.filter_displaces (fun _ => id)]
        intro y hy
        exact (List.pairwise_append.mp hbeside).2.2 y hy x List.mem_cons_self
      rw [List.append_cons, ← htests] at hbeside ⊢
      exact ih (h.addTest x) hbeside

/-- Tests that are added again move behind the others one by one, until all are in their
    old order. Their flags do not change. -/
theorem Recorded.foldl_addTest_old (h : t.Recorded) (htests : t.tests = added ++ done)
    (hbeside : t.tests.Pairwise Beside) (hmarked : ∀ x ∈ added, x.Marked) :
    (added.foldl Traits.addTest t).tests = done ++ added ∧
      ∀ n, Dict.get? (added.foldl Traits.addTest t).exclusive n = Dict.get? t.exclusive n := by
  induction added generalizing t done with
  | nil => exact ⟨by simpa using htests, fun _ => rfl⟩
  | cons x rest ih =>
      obtain ⟨hx, hrest⟩ := List.forall_mem_cons.mp hmarked
      have hmem : x ∈ t.tests := by simp [htests]
      have hmoved : (t.addTest x).tests = rest ++ (done ++ [x]) := by
        have hsub : rest ++ done ⊆ t.tests := by simp [htests]
        have hothers : ∀ y ∈ rest ++ done, y.Beside x := by
          intro y hy
          rw [htests, List.cons_append, List.pairwise_cons] at hbeside
          exact (hbeside.1 y hy).symm
        have hself : displaces (x.exclusive || t.isExclusive x.name) x x = true := by
          rw [Marked] at hx
          simp [displaces, hx]
        rw [Traits.addTest]
        dsimp only
        rw [htests, List.cons_append, List.filter_cons_of_neg (by simp [hself]),
          h.filter_displaces hsub hothers, List.append_assoc]
      have hturned : (t.addTest x).tests.Pairwise Beside := by
        have hperm : ((t.addTest x).tests).Perm t.tests := by
          rw [hmoved, htests, ← List.append_assoc]
          exact List.perm_append_singleton x (rest ++ done)
        exact (hperm.pairwise_iff fun hxy => hxy.symm).mpr hbeside
      have hflags (n : String) : Dict.get? (t.addTest x).exclusive n = Dict.get? t.exclusive n := by
        by_cases hname : x.name = some n
        · rw [exclusive_addTest_self hname, h x hmem n hname]
        · exact exclusive_addTest_of_ne hname
      obtain ⟨hdone, hsame⟩ := ih (h.addTest x) hmoved hturned hrest
      refine ⟨?_, fun n => (hsame n).trans (hflags n)⟩
      rw [List.foldl_cons, hdone, List.append_assoc, List.singleton_append]

/-- Adding tests changes nothing but the tests and the flags. -/
theorem foldl_addTest_eq (added : List Test) (t : Traits) :
    added.foldl addTest t =
      { t with
        tests := (added.foldl addTest t).tests
        exclusive := (added.foldl addTest t).exclusive } := by
  induction added generalizing t with
  | nil => rfl
  | cons x rest ih => exact ih (t.addTest x)

/-- Adding tests leaves the flags of other names. -/
theorem exclusive_foldl_addTest_of_ne {n : String} (hn : ∀ x ∈ added, x.name ≠ some n) :
    Dict.get? (added.foldl addTest t).exclusive n = Dict.get? t.exclusive n := by
  induction added generalizing t with
  | nil => rfl
  | cons x rest ih =>
      obtain ⟨hx, hrest⟩ := List.forall_mem_cons.mp hn
      exact (ih hrest).trans (exclusive_addTest_of_ne hx)

-- ============================================================================
-- Traits that can be added again
-- ============================================================================

/-- Whether the checks of a node can be added again: the flags tell which of its tests
    are exclusive, and no entry of a list is there twice. -/
structure Repeatable (t : Traits) : Prop where
  recorded : t.Recorded
  allow : t.allow.Distinct
  deny : t.deny.Distinct

namespace Repeatable

/-- Traits with the same tests, flags and lists. -/
theorem of_eq (h : t.Repeatable) (htests : u.tests = t.tests) (hexclusive : u.exclusive = t.exclusive)
    (hallow : u.allow = t.allow) (hdeny : u.deny = t.deny) : u.Repeatable :=
  ⟨h.recorded.of_eq htests hexclusive, hallow ▸ h.allow, hdeny ▸ h.deny⟩

theorem join (hl : left.Repeatable) (right : Traits) : (left.join right).Repeatable := by
  obtain ⟨hallow, hdeny⟩ := join_lists left right
  refine ⟨hl.recorded.join right, ?_, ?_⟩
  · rw [hallow]
    exact hl.allow.union right.allow
  · rw [hdeny]
    exact hl.deny.union right.deny

end Repeatable

end Traits

namespace Schema

variable {C : RecipeClass} {s t : Schema}

theorem repeatable_of_edited (h : s.traits.Repeatable) (he : Edited C s t) :
    t.traits.Repeatable := by
  induction he with
  | refl => exact h
  | plain u _ hu ih => exact ih.of_eq hu.tests hu.exclusive hu.allow hu.deny
  | @addTest _ x _ _ _ ih => exact ⟨ih.recorded.addTest x, ih.allow, ih.deny⟩
  | notRequired _ ih => exact ⟨ih.recorded.dropRequired, ih.allow, ih.deny⟩
  | withMessage name message _ ih => exact ⟨ih.recorded.withMessage name message, ih.allow, ih.deny⟩
  | setTypeError message _ ih => exact ih.of_eq rfl rfl rfl rfl
  | oneOf locale entries _ ih =>
      exact ⟨ih.recorded.of_eq rfl rfl, ih.allow.foldl_add entries, ih.deny.foldl_remove entries⟩
  | notOneOf locale entries _ ih =>
      exact ⟨ih.recorded.of_eq rfl rfl, ih.allow.foldl_remove entries, ih.deny.foldl_add entries⟩

/-- All ways of making schemas keep the checks of nodes such that they can be added
    again. -/
theorem repeatable_kept : Kept .all fun s => s.traits.Repeatable where
  toRefined := .of_traits (fun _ _ => ⟨.empty rfl, .empty, .empty⟩) repeatable_of_edited
    fun _ h => h.of_eq rfl rfl rfl rfl
  concat := by
    intro a b c ha _ h
    obtain ⟨kind, -, rfl⟩ := concat_eq h
    exact ha.join b.traits

theorem Obtained.repeatable (h : s.Obtained) : s.Everywhere fun node => node.traits.Repeatable :=
  h.everywhere repeatable_kept

-- ============================================================================
-- Bare schemas on the left
-- ============================================================================

theorem concatKind_mixed_left (kind : Kind Schema) : concatKind .mixed kind = .ok kind := by
  cases kind <;> rw [concatKind.eq_def]

/-- Traits that are laid over those of a bare schema stay what they are, but for the
    flags of names that no test has. -/
theorem join_fresh {u : Traits} (htidy : u.Tidy) (hrepeatable : u.Repeatable) (locale : Locale)
    (kind : Kind Schema) :
    ∃ exclusive, (Schema.fresh locale kind).traits.join u = { u with exclusive } ∧
      (∀ x ∈ u.tests, ∀ n, x.name = some n → Dict.get? exclusive n = Dict.get? u.exclusive n) ∧
      ∀ n, (∀ x ∈ u.tests, x.name ≠ some n) → Dict.get? exclusive n = none := by
  let bare : Traits := { u with tests := [], exclusive := [] }
  have hbare : (Schema.fresh locale kind).traits.join u = u.tests.foldl Traits.addTest bare := by
    cases hmetadata : u.metadata <;>
      simp [Traits.join, Schema.fresh, bare, NodeOptions.merge, NodeOptions.none,
        Traits.mergeMetadata, hmetadata, hrepeatable.allow.empty_union,
        hrepeatable.deny.empty_union]
  have hrecorded : bare.Recorded := .empty rfl
  have htests : (u.tests.foldl Traits.addTest bare).tests = u.tests :=
    hrecorded.tests_foldl_addTest_new (by simpa [bare] using htidy.beside)
  refine ⟨(u.tests.foldl Traits.addTest bare).exclusive, ?_, ?_, ?_⟩
  · rw [hbare, Traits.foldl_addTest_eq, htests]
  · intro x hx n hn
    rw [hrepeatable.recorded x hx n hn]
    exact hrecorded.foldl_addTest u.tests x (htests.symm ▸ hx) n hn
  · intro n hn
    exact Traits.exclusive_foldl_addTest_of_ne hn

/-- A bare mixed schema is a left identity of concatenation: the result is the right
    schema, but for the flags of names that no test of it has. -/
theorem fresh_mixed_concat (h : s.Obtained) (locale : Locale) :
    ∃ exclusive,
      (Schema.fresh locale .mixed).concat s =
        .ok { s with traits := { s.traits with exclusive } } ∧
      (∀ x ∈ s.traits.tests, ∀ n, x.name = some n →
        Dict.get? exclusive n = Dict.get? s.traits.exclusive n) ∧
      ∀ n, (∀ x ∈ s.traits.tests, x.name ≠ some n) → Dict.get? exclusive n = none := by
  obtain ⟨exclusive, hjoin, hlisted, hothers⟩ :=
    join_fresh h.wellMade.here.tidy h.repeatable.here locale .mixed
  refine ⟨exclusive, ?_, hlisted, hothers⟩
  have hcompatible : (Schema.fresh locale .mixed).tag.compatible s.tag = true := by
    simp [KindTag.compatible, Schema.fresh, tag, Kind.tag]
  rw [concat_of_concatKind hcompatible (concatKind_mixed_left s.kind), hjoin]
  rfl

/-- A text that was required for a while, with a bound and a list. -/
def onceRequired : Recipe :=
  .make .string [.required, .notRequired, .min (.value (.int 2)),
    .oneOf [.ref (Reference.ofKey "other"), .value (.str "ab")]]

/-- The bound and the list come back. The test for presence is gone, but its name has a
    flag, which does not come back. -/
theorem fresh_mixed_concat_onceRequired :
    ∃ s t, Workshop.initial.build (some []) onceRequired = .ok s ∧
      (Schema.fresh Locale.standard .mixed).concat s = .ok t ∧ t.kind = s.kind ∧
      t.traits.tests = s.traits.tests ∧ t.traits.tests.map (·.name) = [some "min"] ∧
      t.traits.allow = s.traits.allow ∧ t.traits.allow.isEmpty = false ∧
      Dict.get? t.traits.exclusive "min" = some true ∧
      Dict.get? s.traits.exclusive "required" = some false ∧
      Dict.get? t.traits.exclusive "required" = none := by
  obtain ⟨s, x, hs, htests, hname, hallow, hmin, hrequired⟩ :
      ∃ s x, Workshop.initial.build (some []) onceRequired = .ok s ∧ s.traits.tests = [x] ∧
        x.name = some "min" ∧ s.traits.allow.isEmpty = false ∧
        Dict.get? s.traits.exclusive "min" = some true ∧
        Dict.get? s.traits.exclusive "required" = some false :=
    ⟨_, _, rfl, rfl, rfl, rfl, rfl, rfl⟩
  obtain ⟨exclusive, hconcat, hlisted, hothers⟩ :=
    fresh_mixed_concat (.built Obtained.stored_initial hs) Locale.standard
  refine ⟨s, _, hs, hconcat, rfl, rfl, by simp [htests, hname], rfl, hallow, ?_, hrequired, ?_⟩
  · exact (hlisted x (by simp [htests]) "min" hname).trans hmin
  · exact hothers "required" (by simp [htests, hname])

end Schema

end Conform
