/-
  Conform.Proofs.Schema.Separation

  The allow list and the deny list of a node are apart: an entry that comes into one of
  them leaves the other. Concatenation alone does not take entries out of the other
  list, and so brings one entry into both where a side allows what the other one denies.
-/

import Conform.Proofs.EntrySet
import Conform.Proofs.Schema.Composing
import Conform.Proofs.Schema.Concatenation

namespace Conform

-- ============================================================================
-- Traits
-- ============================================================================

namespace Traits

variable {left right t : Traits}

/-- Whether nothing is both allowed and denied. -/
def Separate (t : Traits) : Prop := t.allow.Apart t.deny

/-- Whether neither side allows what the other one denies. -/
def Agree (left right : Traits) : Prop :=
  left.allow.Apart right.deny ∧ right.allow.Apart left.deny

/-- Whether all literals of the lists are documents. -/
def Proper (t : Traits) : Prop := t.allow.Proper ∧ t.deny.Proper

theorem Separate.allowing (h : t.Separate) (message : Message) (entries : List Param) :
    (t.allowing message entries).Separate :=
  EntrySet.Apart.moved h entries

theorem Separate.denying (h : t.Separate) (message : Message) (entries : List Param) :
    (t.denying message entries).Separate :=
  ((EntrySet.Apart.symm h).moved entries).symm

theorem Separate.join (hl : left.Separate) (hr : right.Separate) (h : left.Agree right) :
    (left.join right).Separate := by
  obtain ⟨hallow, hdeny⟩ := join_lists left right
  obtain ⟨hleft, hright⟩ := h
  have hallowed : (left.join right).allow.Apart left.deny := hallow ▸ .union hl hright
  have hforbidden : (left.join right).allow.Apart right.deny := hallow ▸ .union hleft hr
  rw [Separate, hdeny]
  exact (EntrySet.Apart.union hallowed.symm hforbidden.symm).symm

theorem Separate.agree_of_join (h : (left.join right).Separate) (hl : left.Proper)
    (hr : right.Proper) : left.Agree right := by
  obtain ⟨hallow, hdeny⟩ := join_lists left right
  rw [Separate, hallow, hdeny] at h
  obtain ⟨hleft, hright⟩ := h.of_union hl.1 hr.1
  exact ⟨(hleft.symm.of_union hl.2 hr.2).2.symm, (hright.symm.of_union hl.2 hr.2).1.symm⟩

end Traits

-- ============================================================================
-- Schemas
-- ============================================================================

namespace Schema

variable {a b c s t : Schema}

theorem separate_of_edited {C : RecipeClass} (h : s.traits.Separate) (he : Edited C s t) :
    t.traits.Separate := by
  induction he with
  | refl => exact h
  | plain u _ hu ih =>
      rw [Traits.Separate, hu.allow, hu.deny]
      exact ih
  | addTest _ _ _ ih => exact ih
  | notRequired _ ih => exact ih
  | withMessage _ _ _ ih => exact ih
  | setTypeError _ _ ih => exact ih
  | oneOf locale entries _ ih => exact ih.allowing _ entries
  | notOneOf locale entries _ ih => exact ih.denying _ entries

/-- All ways of making schemas but concatenation keep the lists apart. -/
theorem separate_refined : Refined .all fun s => s.traits.Separate :=
  .of_traits (fun _ _ => .empty _) separate_of_edited fun _ h => h

/-- Whether two schemas agree on what they list, at each place that both have. -/
def Agree (a b : Schema) : Prop :=
  ∀ path x y, a.at? path = some x → b.at? path = some y → x.traits.Agree y.traits

/-- The lists of a concatenation are apart if both sides agree. -/
theorem separate_of_agree {C : RecipeClass} (haMade : a.WellMade C) (hbMade : b.WellMade C)
    (ha : a.Everywhere fun node => node.traits.Separate)
    (hb : b.Everywhere fun node => node.traits.Separate) (hagree : a.Agree b)
    (h : a.concat b = .ok c) : c.Everywhere fun node => node.traits.Separate := by
  refine Everywhere.concat_of_places (J := fun x y => x.traits.Agree y.traits) ?_ haMade hbMade
    ha hb hagree h
  intro x y z hx hy hxy hconcat
  obtain ⟨kind, -, rfl⟩ := concat_eq hconcat
  exact Traits.Separate.join hx hy hxy

/-- The lists of all nodes are apart if all concatenations on the way were of schemas that
    agree. -/
theorem Composed.separate (h : s.Composed Agree) :
    s.Everywhere fun node => node.traits.Separate :=
  h.everywhere separate_refined fun ha hb haApart hbApart hagree heq =>
    separate_of_agree ha.wellMade hb.wellMade haApart hbApart hagree heq

/-- If the lists of a concatenation are apart, both sides agree. -/
theorem agree_of_separate {C : RecipeClass} (hbMade : b.WellMade C)
    (ha : a.Everywhere fun node => node.traits.Proper)
    (hb : b.Everywhere fun node => node.traits.Proper) (h : a.concat b = .ok c)
    (hc : c.Everywhere fun node => node.traits.Separate) : a.Agree b := by
  intro path x y hx hy
  obtain ⟨z, hz, hconcat⟩ := at?_concat hbMade h hx hy
  have hnode : z.traits.Separate := (hc.at? hz).here
  obtain ⟨kind, -, rfl⟩ := concat_eq hconcat
  exact Traits.Separate.agree_of_join hnode (ha.at? hx).here (hb.at? hy).here

/-- What a program comes to is composed of bare schemas, and the lists of all its nodes are
    apart if all concatenations in it are of schemas that agree. One more concatenation
    leaves the lists apart exactly if its two sides agree. -/
theorem lists_stay_apart (hs : s.Obtained) :
    (s.Composed fun _ _ => True) ∧
    (s.Composed Agree → s.Everywhere fun node => node.traits.Separate) ∧
    ∀ b c : Schema, b.Obtained →
      (s.Everywhere fun node => node.traits.Separate ∧ node.traits.Proper) →
      (b.Everywhere fun node => node.traits.Separate ∧ node.traits.Proper) →
      s.concat b = .ok c →
      ((c.Everywhere fun node => node.traits.Separate) ↔ s.Agree b) := by
  refine ⟨hs.composed, Composed.separate, fun b c hbObtained ha hb h => ?_⟩
  have hsMade := hs.wellMade
  have hbMade := hbObtained.wellMade
  constructor
  · exact agree_of_separate hbMade (ha.mono And.right) (hb.mono And.right) h
  · exact fun hagree =>
      separate_of_agree hsMade hbMade (ha.mono And.left) (hb.mono And.left) hagree h

-- ============================================================================
-- Schemas of no kind
-- ============================================================================

theorem child?_of_mixed (hkind : s.kind = .mixed) (turn : Turn) : s.child? turn = none := by
  cases turn with
  | field key => rw [child?, declared_of_ne (by simp [hkind]), Dict.get?_nil]
  | element => rw [child?, element?, hkind]

/-- A schema without parts agrees with another one if their own lists do. -/
theorem Agree.of_mixed (hkind : b.kind = .mixed) (h : a.traits.Agree b.traits) : a.Agree b := by
  intro path x y hx hy
  cases path with
  | nil =>
      cases hx
      cases hy
      exact h
  | cons turn rest =>
      rw [at?, child?_of_mixed hkind] at hy
      exact absurd hy (by simp)

/-- A schema that allows some texts and denies others. -/
def choosing (allowed denied : List String) : Schema :=
  ((Schema.fresh Locale.standard .mixed).oneOf Locale.standard
    (allowed.map fun text => .value (.str text))).notOneOf Locale.standard
    (denied.map fun text => .value (.str text))

variable (allowed denied : List String)

theorem composed_choosing (J : Schema → Schema → Prop) : (choosing allowed denied).Composed J :=
  .edited (.fresh _ ⟨by simp, by simp⟩) (.notOneOf _ _ (.oneOf _ _ (.refl _)))

theorem obtained_choosing : (choosing allowed denied).Obtained := by
  have hbuild : Workshop.initial.build none
      (.make .mixed [.oneOf (allowed.map fun text => .value (.str text)),
        .notOneOf (denied.map fun text => .value (.str text))]) =
      .ok (choosing allowed denied) := rfl
  exact .built Obtained.stored_initial hbuild

theorem proper_choosing : (choosing allowed denied).traits.Proper := by
  have htext {texts : List String} {p : Param}
      (hp : p ∈ texts.map fun text => Param.value (.str text)) : p.Proper := by
    obtain ⟨text, -, rfl⟩ := List.mem_map.mp hp
    exact .str text
  have hempty {p : Param} (hp : p ∈ EntrySet.empty.entries) : p.Proper := by cases hp
  refine ⟨fun p hp => ?_, fun p hp => ?_⟩
  · exact (EntrySet.mem_foldl_add (EntrySet.mem_foldl_remove hp).1).elim hempty htext
  · rcases EntrySet.mem_foldl_add hp with hkept | hadded
    · exact hempty (EntrySet.mem_foldl_remove hkept).1
    · exact htext hadded

theorem everywhere_choosing : (choosing allowed denied).Everywhere
    fun node => node.traits.Separate ∧ node.traits.Proper :=
  .of_leaf ⟨(composed_choosing allowed denied _).separate.here, proper_choosing allowed denied⟩
    rfl nofun nofun

theorem concat_choosing (others forbidden : List String) :
    ∃ c, (choosing allowed denied).concat (choosing others forbidden) = .ok c :=
  ⟨_, concat_of_concatKind rfl (by rw [concatKind.eq_def]; rfl)⟩

/-- A text that one side denies and the other one allows comes into both lists; other texts
    do not. -/
theorem lists_stay_apart_letters :
    ∃ c e, (choosing [] ["a"]).concat (choosing ["a"] []) = .ok c ∧
      c.Composed (fun _ _ => True) ∧ (¬ c.Everywhere fun node => node.traits.Separate) ∧
      (choosing [] ["a"]).concat (choosing ["b"] []) = .ok e ∧
      e.Everywhere fun node => node.traits.Separate := by
  have hobtained := obtained_choosing
  have hmade := everywhere_choosing
  have hdeny : (choosing [] ["a"]).traits.deny = ⟨[.str "a"], []⟩ := rfl
  have hallow (text : String) : (choosing [text] []).traits.allow = ⟨[.str text], []⟩ := rfl
  obtain ⟨c, hc⟩ := concat_choosing [] ["a"] ["a"] []
  obtain ⟨e, he⟩ := concat_choosing [] ["a"] ["b"] []
  obtain ⟨-, -, hiff⟩ := lists_stay_apart (hobtained [] ["a"])
  obtain ⟨hcomposed, -, -⟩ := lists_stay_apart ((hobtained _ _).concat (hobtained _ _) hc)
  obtain ⟨-, hapart, -⟩ := lists_stay_apart ((hobtained _ _).concat (hobtained _ _) he)
  refine ⟨c, e, hc, hcomposed, fun hseparate => ?_, he, ?_⟩
  · have hagree := (hiff _ c (hobtained _ _) (hmade _ _) (hmade _ _) hc).mp hseparate
    have hlists := (hagree [] _ _ rfl rfl).2
    rw [hallow, hdeny] at hlists
    exact hlists (.value (.str "a")) (by simp) (.value (.str "a")) (by simp)
      (.value (.str _) (.str _) rfl)
  · refine hapart (.concat (composed_choosing _ _ _) (composed_choosing _ _ _) ?_ he)
    refine .of_mixed rfl ⟨.empty _, ?_⟩
    rw [hallow, hdeny]
    intro p hp q hq hmeets
    simp only [EntrySet.entries, List.map_cons, List.map_nil, List.append_nil,
      List.mem_singleton] at hp hq
    subst hp hq
    cases hmeets with
    | value _ _ hequals => exact absurd hequals (by decide)

end Schema

end Conform
