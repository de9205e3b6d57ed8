/-
  Conform.Proofs.Schema.Obtained

  Data of a schema that follow from other data of it: the order of the fields of an
  object, the dependencies that the conditions of a node bring, and the flags for the
  names of tests. They stay what the fields, the conditions and the tests make them,
  however a schema is obtained: recipes, resolution and the parts of schemas may be
  taken in any order, and recipes may start from schemas that were obtained before.
-/

import Conform.Proofs.Schema.Building

namespace Conform

-- ============================================================================
-- Shapes
-- ============================================================================

/-- Whether the order of a shape is the one that its fields give: it holds each field
    once, behind all that the field depends on. -/
structure Shape.Settled (shape : Shape Schema) : Prop where
  sorted : Shape.sorted shape.fields shape.excluded = .ok shape
  nodup : shape.order.Nodup
  fields : ∀ f ∈ shape.fields, f.1 ∈ shape.order
  topological : ∀ f ∈ shape.fields, ∀ dep, f.2.DependsOn dep → (f.1, dep) ∉ shape.excluded →
    ∃ before rest, shape.order = before ++ f.1 :: rest ∧ dep ∈ before

theorem Shape.Ordered.settled {shape : Shape Schema} (h : shape.Ordered) : shape.Settled where
  sorted := h.sorted
  nodup := h.nodup_order
  fields f hf := h.mem_order (List.mem_map_of_mem hf)
  topological f hf dep hdep hexcluded := by
    have hkey : f.1 ∈ Dict.keys shape.fields := List.mem_map_of_mem hf
    obtain ⟨before, rest, horder, -, -⟩ := h.split_order hkey
    have hbefore : dep ∈ before := h.mem_before hf hdep hexcluded horder
    exact ⟨before, rest, horder, hbefore⟩

-- ============================================================================
-- Schemas
-- ============================================================================

/-- The schemas that a program comes to: those of recipes, with any schemas obtained
    before stored under names, those that such schemas are resolved to, and their
    parts. -/
inductive Schema.Obtained : Schema → Prop where
  | built {w : Workshop} {mark : Option Mark} {r : Recipe} {s : Schema} :
      (∀ name stored, Dict.get? w.schemas name = some stored → Obtained stored) →
      w.build mark r = .ok s → Obtained s
  | resolved {w : Workshop} {s t : Schema} {value : Option Value} {options : CallOptions} :
      (∀ name stored, Dict.get? w.schemas name = some stored → Obtained stored) →
      Obtained s → w.resolve s value options = .ok t → Obtained t
  | part {s t : Schema} : Obtained s → Schema.Nested t s → Obtained t

/-- In the class of all recipes a workshop is supplied by its schemas. -/
theorem Workshop.Supplied.of_schemas {N : Schema → Prop} {w : Workshop}
    (h : ∀ name s, Dict.get? w.schemas name = some s → s.Everywhere N) : w.Supplied .all N where
  schemas := h
  tests _ _ _ := trivial
  methods _ _ _ _ _ _ := RecipeClass.choice_all _

namespace Schema

variable {s : Schema}

/-- What all ways of making schemas keep holds of all that a program comes to. -/
theorem Obtained.everywhere {N : Schema → Prop} (hN : Kept .all N) (h : s.Obtained) :
    s.Everywhere N := by
  induction h with
  | built _ hbuild ih => exact Workshop.build_keeps hN (.of_schemas ih) trivial hbuild
  | resolved _ _ hresolve ihstored ihs =>
      exact Workshop.resolve_keeps hN (.of_schemas ihstored) ihs hresolve
  | part _ hnested ih => exact ih.nested hnested

theorem Obtained.wellMade (h : s.Obtained) : s.WellMade .all := h.everywhere Regular.kept

/-- At the beginning of a session nothing is stored. -/
theorem Obtained.stored_initial (name : String) (stored : Schema)
    (h : Dict.get? Workshop.initial.schemas name = some stored) : stored.Obtained :=
  absurd h (by simp [Workshop.initial, Dict.get?])

/-- Schemas that were obtained can be stored and concatenated. -/
theorem Obtained.concat {a b c : Schema} (ha : a.Obtained) (hb : b.Obtained)
    (h : a.concat b = .ok c) : c.Obtained := by
  have hstored : ∀ name stored, Dict.get? [("left", a), ("right", b)] name = some stored →
      stored.Obtained := by
    intro name stored hname
    rw [Dict.get?_cons, Dict.get?_cons] at hname
    split at hname
    · exact Option.some.inj hname ▸ ha
    · split at hname
      · exact Option.some.inj hname ▸ hb
      · exact absurd hname (by simp [Dict.get?_nil])
  have hbuild : Workshop.build { Workshop.initial with schemas := [("left", a), ("right", b)] }
      none (.make (.named "left") [.concat (.plain (.named "right"))]) = .ok c := by
    show (a.concat b >>= fun t => .ok t) = .ok c
    rw [h]
    rfl
  exact .built hstored hbuild

/-- Every object inside a schema has the order that its fields and exclusions give,
    and the sibling references of the conditions of a node are among the dependencies
    of the node. -/
theorem shapes_stay_sorted (h : s.Obtained) :
    s.Everywhere fun node =>
      (∀ shape, node.kind = .object shape → shape.Settled) ∧
      ∀ c ∈ node.conditions, ∀ r ∈ c.refs, r.isContext = false → r ∈ node.traits.deps := by
  refine h.wellMade.mono fun hnode => ⟨?_, hnode.deps⟩
  intro shape hkind
  exact (hnode.shape shape hkind).settled

/-- An object with one field, which comes to read another one where a flag of the
    context is set. -/
def growingWhereFlagged : Recipe :=
  .make .object [.shape [("a", .plain .mixed)] [],
    .when [Reference.ofKey "$flag"] (.guarded (.equal (.bool true))
      (some (.refine [.shape [("a", Shape.reading ["b.x"]), ("b", .plain .object)] []])) none)]

/-- The resolved schema has both fields in a new order: the field that stood alone
    before comes last. -/
theorem shapes_stay_sorted_resolved :
    ∃ s t a b, Workshop.initial.build none growingWhereFlagged = .ok s ∧
      Workshop.initial.resolve s none
        { CallOptions.none with context := some (.obj [("flag", .bool true)]) } = .ok t ∧
      t.kind = .object ⟨[("a", a), ("b", b)], ["b", "a"], []⟩ ∧
      (⟨[("a", a), ("b", b)], ["b", "a"], []⟩ : Shape Schema).Settled ∧
      ∀ c ∈ a.conditions, ∀ r ∈ c.refs, r.isContext = false → r ∈ a.traits.deps := by
  obtain ⟨s, t, a, b, hs, ht, hkind⟩ :
      ∃ s t a b, Workshop.initial.build none growingWhereFlagged = .ok s ∧
        Workshop.initial.resolve s none
          { CallOptions.none with context := some (.obj [("flag", .bool true)]) } = .ok t ∧
        t.kind = .object ⟨[("a", a), ("b", b)], ["b", "a"], []⟩ :=
    ⟨_, _, _, _, rfl, rfl, rfl⟩
  have hobtained : t.Obtained :=
    .resolved Obtained.stored_initial (.built Obtained.stored_initial hs) ht
  have hsettled := shapes_stay_sorted hobtained
  have ha := hsettled.field hkind List.mem_cons_self
  exact ⟨s, t, a, b, hs, ht, hkind, hsettled.here.1 _ hkind, ha.here.2⟩

-- ============================================================================
-- Tests
-- ============================================================================

/-- At every node of a schema no two tests have one name and one predicate, a name that
    is marked exclusive has one test at most, and a test that is exclusive is the only
    one of its name. -/
theorem test_lists_stay_tidy (h : s.Obtained) :
    s.Everywhere fun node =>
      (node.traits.tests.Pairwise fun x y => ¬ x.Repeats y) ∧
      (∀ n, Dict.get? node.traits.exclusive n = some true →
        (node.traits.tests.filter fun x => x.isNamed n).length ≤ 1) ∧
      ∀ x ∈ node.traits.tests, x.exclusive = true →
        node.traits.tests.filter (fun y => y.name == x.name) = [x] := by
  refine h.wellMade.mono fun hnode => ?_
  have htidy : Traits.Tidy _ := hnode.tidy
  exact ⟨htidy.distinct, htidy.single, fun x hx hexclusive => htidy.alone hx hexclusive⟩

/-- A number with a bound, which a test of the caller's own takes the place of; where a
    flag of the context is set, another bound is set on top of that. -/
def boundedWhereFlagged : Recipe :=
  .make .number [.min (.value (.int 1)),
    .test (.draft { name := some "min", exclusive := false, message := none, params := []
                    judge := fun _ => .pass }),
    .when [Reference.ofKey "$flag"] (.guarded (.equal (.bool true))
      (some (.refine [.min (.value (.int 5))])) none)]

/-- The test of the caller's own leaves the name unmarked; the bound that the branch
    sets marks it again and stands alone. -/
theorem test_lists_stay_tidy_resolved :
    ∃ s t x y, Workshop.initial.build (some []) boundedWhereFlagged = .ok s ∧
      Workshop.initial.resolve s none
        { CallOptions.none with context := some (.obj [("flag", .bool true)]) } = .ok t ∧
      s.traits.tests = [x] ∧ Dict.get? s.traits.exclusive "min" = some false ∧
      t.traits.tests = [y] ∧ y.exclusive = true ∧ y.predicate = .check .atLeast ∧
      t.traits.tests.filter (fun z => z.name == y.name) = [y] := by
  obtain ⟨s, t, x, y, hs, ht, hx, hflag, hy, hexclusive, hpredicate⟩ :
      ∃ s t x y, Workshop.initial.build (some []) boundedWhereFlagged = .ok s ∧
        Workshop.initial.resolve s none
          { CallOptions.none with context := some (.obj [("flag", .bool true)]) } = .ok t ∧
        s.traits.tests = [x] ∧ Dict.get? s.traits.exclusive "min" = some false ∧
        t.traits.tests = [y] ∧ y.exclusive = true ∧ y.predicate = .check .atLeast :=
    ⟨_, _, _, _, rfl, rfl, rfl, rfl, rfl, rfl, rfl⟩
  have hobtained : t.Obtained :=
    .resolved Obtained.stored_initial (.built Obtained.stored_initial hs) ht
  have htidy := (test_lists_stay_tidy hobtained).here
  exact ⟨s, t, x, y, hs, ht, hx, hflag, hy, hexclusive, hpredicate,
    htidy.2.2 y (by simp [hy]) hexclusive⟩

end Schema

end Conform
