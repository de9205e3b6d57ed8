/-
  Conform.Proofs.Schema.Building

  Recipes make regular schemas. A workshop is equipped with recipes of a class if
  all that it holds was made by them; in such a workshop each step keeps a schema
  regular, and so do the recipes and steps that are carried out while a value is
  examined. Every workshop that a session comes to is equipped.
-/

import Conform.Proofs.Schema.Keeping

namespace Conform

/-- Whether all nodes of a schema are regular. -/
abbrev Schema.WellMade (C : RecipeClass) (s : Schema) : Prop := s.Everywhere (Schema.Regular C)

-- ============================================================================
-- Well-made schemas
-- ============================================================================

namespace Schema

variable {C : RecipeClass} {s t : Schema}

/-- All ways of making schemas keep nodes regular. -/
theorem Regular.kept : Kept C (Regular C) where
  fresh hbare hpick := .fresh (fun shape heq => hbare.shape shape heq ▸ .empty) hpick
  edited := Regular.edited
  shape := by
    intro s t fields excluded hs _ h
    obtain ⟨old, new, hkind, hnew, rfl⟩ := shape_eq_ok h
    have hkeys := Dict.nodup_keys_foldl_put fields (hs.here.shape old hkind).keys
    refine hs.here.setKind ?_ (by simp)
    rintro shape heq
    cases heq
    exact .of_sorted hkeys hnew
  of := by
    intro s t element hs _ h
    cases of_eq_ok h
    exact hs.here.setKind (by simp) (by simp)
  withoutElement := by
    intro s t hs h
    cases withoutElement_eq_ok h
    exact hs.setKind (by simp) (by simp)
  when hs hrule _ h := hs.when hrule h
  concat := Regular.concat
  clearConditions := Regular.clearConditions
  pick hs hkind := hs.pick _ hkind
  rule hs hc := hs.rules _ hc

theorem WellMade.edited (h : s.WellMade C) (he : Edited C s t) : t.WellMade C :=
  Everywhere.edited h he (h.here.edited he)

end Schema

/-- Whether all that a workshop holds was made by recipes of a class. -/
structure Workshop.Equipped (C : RecipeClass) (w : Workshop) : Prop where
  schemas : ∀ name s, Dict.get? w.schemas name = some s → s.WellMade C
  tests : ∀ name x, Dict.get? w.tests name = some x → C.predicate x.predicate
  methods : ∀ kind name method view args, w.registry.method? kind name = some method →
    C.choice (method view args)

namespace Workshop

variable {C : RecipeClass} {w : Workshop}

theorem Equipped.supplied (hw : w.Equipped C) : w.Supplied C (Schema.Regular C) :=
  ⟨hw.schemas, hw.tests, hw.methods⟩

theorem build_wellMade (hw : w.Equipped C) {mark : Option Mark} {r : Recipe} (hr : C.recipe r)
    {s : Schema} (h : w.build mark r = .ok s) : s.WellMade C :=
  build_keeps Schema.Regular.kept hw.supplied hr h

/-- The effective schema for a value is well made. -/
theorem resolve_wellMade (hw : w.Equipped C) {s t : Schema} {value : Option Value}
    {options : CallOptions} (hs : s.WellMade C) (h : w.resolve s value options = .ok t) :
    t.WellMade C :=
  resolve_keeps Schema.Regular.kept hw.supplied hs h

-- ============================================================================
-- Sessions
-- ============================================================================

/-- The workshops that a session comes to when all that it carries out belongs to
    a class: schemas and tests are stored under names, methods are registered,
    messages are replaced, and evaluations begin. -/
inductive Reachable (C : RecipeClass) : Workshop → Prop where
  | initial : Reachable C .initial
  | storeSchema {w : Workshop} {mark : Option Mark} {r : Recipe} {s : Schema} (name : String) :
      Reachable C w → C.recipe r → w.build mark r = .ok s →
      Reachable C { w with schemas := w.schemas.insert name s }
  | storeTest {w : Workshop} {d : TestDraft} (name : String) (mark : Option Mark) :
      Reachable C w → C.step (.test (.draft d)) →
      Reachable C { w with tests := w.tests.insert name (w.makeTest mark d) }
  | setRegistry {w : Workshop} {registry : Registry Method} :
      Reachable C w →
      (∀ kind name method view args, registry.method? kind name = some method →
        C.choice (method view args)) →
      Reachable C { w with registry }
  | setLocale {w : Workshop} (locale : Locale) : Reachable C w → Reachable C { w with locale }
  | evaluate {w : Workshop} (evaluation : Option Mark) :
      Reachable C w → Reachable C { w with evaluation }

/-- An entry of a dictionary is the one set last, or was there before. -/
private theorem of_get?_insert {α : Type} {d : Dict α} {name key : String} {x y : α}
    (h : Dict.get? (d.insert name x) key = some y) : y = x ∨ Dict.get? d key = some y := by
  by_cases hkey : key = name
  · subst hkey
    rw [Dict.get?_insert_self] at h
    exact Or.inl (Option.some.inj h).symm
  · rw [Dict.get?_insert_of_ne d x hkey] at h
    exact Or.inr h

/-- Every workshop that a session comes to is equipped. -/
theorem Reachable.equipped (h : w.Reachable C) : w.Equipped C := by
  induction h with
  | initial =>
      refine ⟨?_, ?_, ?_⟩
      · intro name s h
        exact absurd h (by simp [Workshop.initial, Dict.get?])
      · intro name x h
        exact absurd h (by simp [Workshop.initial, Dict.get?])
      · intro kind name method view args h
        exact absurd h (by simp [Workshop.initial, Registry.method?, Registry.own?, Registry.empty])
  | storeSchema name _ hr hs ih =>
      refine ⟨?_, ih.tests, ih.methods⟩
      intro key t h
      rcases of_get?_insert h with rfl | hold
      · exact build_wellMade ih hr hs
      · exact ih.schemas key t hold
  | storeTest name mark _ hd ih =>
      refine ⟨ih.schemas, ?_, ih.methods⟩
      intro key x h
      rcases of_get?_insert h with rfl | hold
      · exact C.predicate_of_draft mark hd
      · exact ih.tests key x hold
  | setRegistry _ hmethods ih => exact ⟨ih.schemas, ih.tests, hmethods⟩
  | setLocale _ _ ih => exact ⟨ih.schemas, ih.tests, ih.methods⟩
  | evaluate _ _ ih => exact ⟨ih.schemas, ih.tests, ih.methods⟩

end Workshop

/-- Whether a session makes a schema from a recipe of a class. -/
def Schema.Made (C : RecipeClass) (s : Schema) : Prop :=
  ∃ w mark r, Workshop.Reachable C w ∧ C.recipe r ∧ w.build mark r = .ok s

theorem Schema.Made.wellMade {C : RecipeClass} {s : Schema} (h : s.Made C) : s.WellMade C := by
  obtain ⟨w, mark, r, hw, hr, hbuild⟩ := h
  exact Workshop.build_wellMade hw.equipped hr hbuild

end Conform
