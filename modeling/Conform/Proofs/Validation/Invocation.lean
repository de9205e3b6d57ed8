/-
  Conform.Proofs.Validation.Invocation

  Which tests a call invokes. At a node the tests of type and lists run, and the
  declared ones behind them if all of those pass; then the run goes down to the
  parts, in the order in which they are worked on. Where the first failure is to be
  reported, a part is reached only if all before it are accepted.
-/

import Conform.Proofs.Validation.Failures

namespace Conform

-- ============================================================================
-- Invoked tests
-- ============================================================================

namespace Node

/-- Whether a run goes down to the parts: the own checks pass, or their violations are
    collected. -/
def Descends (n : Node) : Prop :=
  (∀ x ∈ n.tests, x.outcome n.subject = .pass) ∨ n.collects = true

/-- Whether the run of a node invokes a test at a node. -/
inductive Invokes (w : Workshop) : Node → Node → Test → Prop where
  | prerequisite {n : Node} {x : Test} : x ∈ n.schema.traits.prerequisites → Invokes w n n x
  | declared {n : Node} {x : Test} :
      (∀ y ∈ n.schema.traits.prerequisites, y.outcome n.subject = .pass) →
      x ∈ n.schema.traits.tests → Invokes w n n x
  | part {n m : Node} {before after : List Part} {p : Part} {t : Schema} {x : Test} :
      n.Descends → n.work = before ++ p :: after →
      (n.mode.abortEarly = true → ∀ q ∈ before, q.Valid w) →
      w.resolve p.schema p.value p.options = .ok t → Invokes w (p.node t) m x →
      Invokes w n m x

variable {w : Workshop} {n m : Node} {x : Test}

/-- What is worked on are parts. -/
theorem mem_parts_of_mem_work {p : Part} (h : p ∈ n.work) : p ∈ n.parts := by
  rw [work] at h
  split at h
  · next shape fields hrecursive hkind hvalue =>
      rw [parts_object hrecursive hkind hvalue]
      obtain ⟨f, hf, rfl⟩ := List.mem_map.mp h
      obtain ⟨key, -, hkey⟩ := List.mem_filterMap.mp hf
      obtain ⟨s, hs, rfl⟩ := Option.map_eq_some_iff.mp hkey
      exact List.mem_map_of_mem (Dict.mem_of_get? hs)
  · exact h

/-- Tests are invoked at nodes that the validation comes to. -/
theorem Invokes.visits (h : n.Invokes w m x) : n.Visits w m := by
  induction h with
  | prerequisite _ => exact .here
  | declared _ _ => exact .here
  | part _ hwork _ ht _ ih =>
      have hp := mem_parts_of_mem_work (hwork ▸ List.mem_append_right _ List.mem_cons_self)
      exact .part hp ht ih

/-- At its node an invoked test is among those of type and lists, or it is declared and
    none of those fails. -/
theorem Invokes.mem_invoked (h : n.Invokes w m x) : x ∈ m.invoked := by
  induction h with
  | prerequisite hx => exact List.mem_append_left _ hx
  | @declared n x hpass hx =>
      have hnone : n.failing n.schema.traits.prerequisites = [] := by
        refine List.filterMap_eq_nil_iff.mpr fun y hy => ?_
        rw [Test.violation?, hpass y hy]
      refine List.mem_append_right _ ?_
      rw [if_pos hnone]
      exact hx
  | part _ _ _ _ _ ih => exact ih

theorem mem_tests_of_mem_invoked (h : x ∈ n.invoked) : x ∈ n.tests := by
  rw [invoked] at h
  rcases List.mem_append.mp h with hpre | htest
  · exact List.mem_append_left _ hpre
  · split at htest
    · exact List.mem_append_right _ htest
    · exact absurd htest (by simp)

end Node

namespace Workshop

variable {C : RecipeClass} {w : Workshop}

/-- Whether a call invokes a test at a node. -/
def Invokes (w : Workshop) (s : Schema) (value : Option Value) (options : CallOptions) (m : Node)
    (x : Test) : Prop :=
  ∃ n, w.enter (root s value options) = .ok n ∧ n.Invokes w m x

/-- Where a node is valid, all tests of the nodes that the validation comes to pass. -/
theorem outcome_of_valid (hw : w.Equipped C) {n m : Node} (hm : n.Visits w m)
    (hn : n.schema.WellMade C) (h : n.Valid w) : ∀ x ∈ m.tests, x.outcome m.subject = .pass := by
  induction hm with
  | here =>
      obtain ⟨hpre, htests⟩ := Node.own_result_eq_ok.mp
        ((Node.own_result_eq_ok_iff_sound hn.here).mpr h.sound)
      intro x hx
      rcases List.mem_append.mp hx with hfirst | hsecond
      · exact hpre x hfirst
      · exact htests x hsecond
  | part hp ht _ ih =>
      obtain ⟨t, ht', hvalid⟩ := h.part hp
      rw [ht] at ht'
      cases ht'
      exact ih (resolve_wellMade hw (Node.everywhere_part hn hp) ht) hvalid

end Workshop

end Conform
