/-
  Conform.Proofs.Schema.Doubling

  Schemas that are concatenated with themselves. Conditions, transforms and the
  dependencies of fields come twice then, which closes no cycle, but all checks stay as
  they are, at the root and in every field and element. A test takes its own place
  because its predicate is told to be the one that is there, as is so for all tests
  that a program makes when it builds a schema.
-/

import Conform.Proofs.Schema.Readding
import Conform.Proofs.Schema.Separation

namespace Conform

-- ============================================================================
-- Marks
-- ============================================================================

/-- Whether every test would take its own place. -/
def Traits.Marked (t : Traits) : Prop := ∀ x ∈ t.tests, x.Marked

namespace Schema

variable {s t : Schema}

/-- Edits keep all tests marked if they add tests that are. -/
theorem marked_editsKeep :
    EditsKeep (fun p => p.sameAs p = true) fun s => s.traits.Marked where
  plain u hs hu x hx := hs x (hu.tests ▸ hx)
  addTest hs hnew _ y hy := by
    rcases Traits.mem_addTest hy with hold | rfl
    · exact hs y hold
    · exact hnew
  notRequired hs x hx := hs x (List.mem_filter.mp hx).1
  withMessage name message hs y hy := by
    obtain ⟨x, hx, rfl⟩ := List.mem_map.mp hy
    rw [Test.Marked, Traits.reword_predicate]
    exact hs x hx
  setTypeError _ hs := hs
  oneOf _ _ hs := hs
  notOneOf _ _ hs := hs

/-- Recipes that are carried out at a mark keep all tests marked, if those that are stored
    are. -/
theorem marked_keeping {w : Workshop}
    (hschemas : ∀ name stored, Dict.get? w.schemas name = some stored →
      stored.Everywhere fun node => node.traits.Marked)
    (htests : ∀ name x, Dict.get? w.tests name = some x → x.Marked) :
    w.Keeping .all (fun mark => mark.isSome = true) fun s => s.traits.Marked where
  part _ hmark := by rwa [Workshop.part, Option.isSome_map]
  methods _ _ _ _ _ _ := RecipeClass.choice_all _
  base hpick h := Workshop.baseSchema_keeps (fun _ _ => by simp [Traits.Marked, Schema.fresh])
    hschemas hpick h
  edit := by
    intro invoke mark step s t hmark _ hedit hs h
    refine Workshop.takeStep_edits marked_editsKeep (fun p hp => ?_) hedit hs h
    obtain ⟨m, rfl⟩ := Option.isSome_iff_exists.mp hmark
    cases hp with
    | check | matching | noUnknown | draft => simp [Predicate.sameAs]
    | stored hx => exact htests _ _ hx
  shape hs _ h := traits_of_shape h ▸ hs.here
  of hs _ h := traits_of_of h ▸ hs.here
  withoutElement hs h := traits_of_withoutElement h ▸ hs
  when hs _ _ h := by
    obtain ⟨-, -, htraits⟩ := when_eq_ok h
    exact htraits ▸ hs
  concat := by
    intro a b c ha hb h x hx
    obtain ⟨kind, -, rfl⟩ := concat_eq h
    exact (Traits.mem_join hx).elim (ha x) (hb x)

/-- The schemas that a program builds: those of recipes that are carried out at a mark,
    with any schemas and tests built before stored under names, and their parts. -/
inductive Built : Schema → Prop where
  | recipe {w : Workshop} {m : Mark} {r : Recipe} {s : Schema} :
      (∀ name stored, Dict.get? w.schemas name = some stored → Built stored) →
      (∀ name x, Dict.get? w.tests name = some x → x.Marked) →
      w.build (some m) r = .ok s → Built s
  | part {s t : Schema} : Built s → Nested t s → Built t

theorem Built.obtained (h : s.Built) : s.Obtained := by
  induction h with
  | recipe _ _ hbuild ih => exact .built ih hbuild
  | part _ hnested ih => exact .part ih hnested

theorem Built.marked (h : s.Built) : s.Everywhere fun node => node.traits.Marked := by
  induction h with
  | recipe _ htests hbuild ih => exact (marked_keeping ih htests).build rfl trivial hbuild
  | part _ hnested ih => exact ih.nested hnested

end Schema

-- ============================================================================
-- Checks of one node
-- ============================================================================

namespace Traits

variable {t u : Traits}

/-- Whether two nodes have the same checks: the tests and the entries of the lists in one
    order, and the flags of all names. -/
structure ChecksAlike (t u : Traits) : Prop where
  tests : u.tests = t.tests
  exclusive : ∀ n, Dict.get? u.exclusive n = Dict.get? t.exclusive n
  typeError : u.typeError = t.typeError
  allow : u.allow = t.allow
  allowCheck : u.allowCheck = t.allowCheck
  deny : u.deny = t.deny
  denyCheck : u.denyCheck = t.denyCheck

/-- Traits that are laid over themselves have the same checks. -/
theorem join_self (htidy : t.Tidy) (hrepeatable : t.Repeatable) (hproper : t.Proper)
    (hmarked : t.Marked) : t.ChecksAlike (t.join t) := by
  obtain ⟨hallow, hdeny⟩ := join_lists t t
  obtain ⟨htype, hallowCheck, hdenyCheck⟩ := join_checks t t
  obtain ⟨htests, hexclusive⟩ :
      (t.join t).tests = [] ++ t.tests ∧
        ∀ n, Dict.get? (t.join t).exclusive n = Dict.get? t.exclusive n := by
    rw [join]
    refine Recorded.foldl_addTest_old ?_ (List.append_nil _).symm htidy.beside hmarked
    exact hrepeatable.recorded.of_eq rfl rfl
  constructor
  case tests => exact htests
  case exclusive => exact hexclusive
  case typeError => exact htype
  case allow => rw [hallow, hrepeatable.allow.union_self hproper.1]
  case allowCheck =>
    rw [hallowCheck]
    cases t.allowCheck <;> rfl
  case deny => rw [hdeny, hrepeatable.deny.union_self hproper.2]
  case denyCheck =>
    rw [hdenyCheck]
    cases t.denyCheck <;> rfl

end Traits

-- ============================================================================
-- All nodes
-- ============================================================================

namespace Schema

variable {C : RecipeClass} {s t : Schema} {path : List Turn}

/-- Edges that come twice are the same edges. -/
theorem dependsOn_append_self (fields : List (String × Schema))
    (excluded : List (String × String)) :
    Shape.DependsOn (fields ++ fields) (excluded ++ excluded) =
      Shape.DependsOn fields excluded := by
  funext key dep
  simp [Shape.DependsOn]

/-- A well-made schema does not clash with itself. -/
theorem not_clashes_self (hs : s.Regular C) (e : Failure) : ¬ s.Clashes s e := by
  intro hclash
  cases hclash with
  | kinds _ _ hne => exact hne rfl
  | cycle hl hr hcycle =>
      cases Kind.object.inj (hl.symm.trans hr)
      rw [dependsOn_append_self, ← Shape.dependsOn_graph] at hcycle
      have hordered := hs.shape _ hl
      exact DependencyGraph.not_cyclic_of_order_eq_ok Shape.closed_graph
        (Shape.order_eq_of_sorted hordered.sorted) hcycle

theorem exists_concat_self (hs : s.WellMade C) : ∃ t, s.concat s = .ok t := by
  cases hconcat : s.concat s with
  | ok t => exact ⟨t, rfl⟩
  | error e =>
      obtain ⟨path, x, y, hx, hy, hclash⟩ := exists_clash_of_concat_eq_error hs hs hconcat
      cases Option.some.inj (hx.symm.trans hy)
      exact absurd hclash (not_clashes_self (hs.at? hx).here e)

/-- A schema that is concatenated with itself gains no fields and no elements. -/
theorem at?_of_concat_self (hs : s.WellMade C) (h : s.concat s = .ok t) {z : Schema}
    (hz : t.at? path = some z) : ∃ x, s.at? path = some x := by
  induction path generalizing s t with
  | nil => exact ⟨s, rfl⟩
  | cons turn rest ih =>
      obtain ⟨v, hv, hz⟩ := Option.bind_eq_some_iff.mp hz
      obtain ⟨u, hu⟩ : ∃ u, s.child? turn = some u := by
        rcases child?_of_concat hs.here h hv with hleft | hright | ⟨u, _, hu, -, -⟩
        · exact ⟨v, hleft⟩
        · exact ⟨v, hright⟩
        · exact ⟨u, hu⟩
      obtain ⟨w, hw, hconcat⟩ := child?_concat hs.here h hu hu
      cases Option.some.inj (hw.symm.trans hv)
      obtain ⟨x, hx⟩ := ih (hs.nested (nested_of_child? hu)) hconcat hz
      exact ⟨x, (at?_cons hu).trans hx⟩

/-- A schema that a program builds can be concatenated with itself. The result has the
    same fields and elements at every depth, the fields in one order, and the same checks
    at each of them. -/
theorem concat_self_checks (h : s.Built) (hproper : s.Everywhere fun node => node.traits.Proper) :
    ∃ t, s.concat s = .ok t ∧
      (∀ path, (t.at? path).isSome = (s.at? path).isSome) ∧
      ∀ path x z, s.at? path = some x → t.at? path = some z →
        Dict.keys z.declared = Dict.keys x.declared ∧ x.traits.ChecksAlike z.traits := by
  have hmade := h.obtained.wellMade
  obtain ⟨t, hconcat⟩ := exists_concat_self hmade
  refine ⟨t, hconcat, fun path => ?_, ?_⟩
  · rw [Bool.eq_iff_iff, Option.isSome_iff_exists, Option.isSome_iff_exists]
    constructor
    · rintro ⟨z, hz⟩
      exact at?_of_concat_self hmade hconcat hz
    · rintro ⟨x, hx⟩
      obtain ⟨z, hz, -⟩ := at?_concat hmade hconcat hx hx
      exact ⟨z, hz⟩
  · intro path x z hx hz
    obtain ⟨w, hw, hxx⟩ := at?_concat hmade hconcat hx hx
    cases Option.some.inj (hw.symm.trans hz)
    have hnode := (hmade.at? hx).here
    refine ⟨?_, ?_⟩
    · have hkeys := (declaresBoth_of_concat hnode hxx).1.keys
      rw [hkeys, List.filter_eq_nil_iff.mpr (by simp), List.append_nil]
    · obtain ⟨kind, -, rfl⟩ := concat_eq hxx
      exact Traits.join_self hnode.tidy (h.obtained.repeatable.at? hx).here (hproper.at? hx).here
        (h.marked.at? hx).here

/-- An object with a title, which has two checks of one name, a test of the caller's own
    and a list. -/
def titled : Recipe :=
  .make .object [.shape [("title", .make .string [.required,
    .test (.draft { name := some "own", exclusive := false, message := none, params := []
                    judge := fun _ => .pass }),
    .oneOf [.ref (Reference.ofKey "other"), .value (.str "ab")]])] []]

/-- The checks of the title stay in their order. -/
theorem concat_self_checks_titled :
    ∃ s t x z, Workshop.initial.build (some []) titled = .ok s ∧ s.concat s = .ok t ∧
      s.at? [.field "title"] = some x ∧ t.at? [.field "title"] = some z ∧
      x.traits.tests.map (·.name) = [some "required", some "required", some "own"] ∧
      z.traits.tests = x.traits.tests ∧ x.traits.allow.isEmpty = false ∧
      z.traits.allow = x.traits.allow ∧ Dict.keys t.declared = ["title"] := by
  obtain ⟨s, x, hs, hkind, hconditions, hlists, hx, hxConditions, hallow, hdeny, hnames⟩ :
      ∃ s x, Workshop.initial.build (some []) titled = .ok s ∧
        s.kind = .object ⟨[("title", x)], ["title"], []⟩ ∧ s.conditions = [] ∧
        (s.traits.allow = .empty ∧ s.traits.deny = .empty) ∧ x.kind = .string ∧
        x.conditions = [] ∧ x.traits.allow = ⟨[.str "ab"], [Reference.ofKey "other"]⟩ ∧
        x.traits.deny = .empty ∧
        x.traits.tests.map (·.name) = [some "required", some "required", some "own"] :=
    ⟨_, _, rfl, rfl, rfl, ⟨rfl, rfl⟩, rfl, rfl, rfl, rfl, rfl⟩
  have hlisted : x.traits.allow.Proper := by
    simp [EntrySet.Proper, EntrySet.entries, hallow, Param.Proper, Value.Proper.str]
  have hproper : s.Everywhere fun node => node.traits.Proper := by
    refine .of_fields ⟨hlists.1 ▸ .empty, hlists.2 ▸ .empty⟩ hconditions hkind ?_
    intro f hf
    cases List.mem_singleton.mp hf
    exact .of_leaf ⟨hlisted, hdeny ▸ .empty⟩ hxConditions (by simp [hx]) (by simp [hx])
  have hbuilt : s.Built :=
    .recipe (fun _ _ h => absurd h (by simp [Workshop.initial, Dict.get?_nil]))
      (fun _ _ h => absurd h (by simp [Workshop.initial, Dict.get?_nil])) hs
  have htitle : s.at? [.field "title"] = some x := by
    simp [at?, child?, declared_object hkind, Dict.get?_cons]
  obtain ⟨t, hconcat, hplaces, hsame⟩ := concat_self_checks hbuilt hproper
  obtain ⟨z, hz⟩ := Option.isSome_iff_exists.mp ((hplaces _).trans (congrArg Option.isSome htitle))
  have hroot := (hsame [] s t rfl rfl).1
  have hchecks := (hsame _ x z htitle hz).2
  refine ⟨s, t, x, z, hs, hconcat, htitle, hz, hnames, hchecks.tests, ?_, hchecks.allow, ?_⟩
  · rw [hallow]
    rfl
  · rw [hroot, declared_object hkind]
    rfl

end Schema

end Conform
