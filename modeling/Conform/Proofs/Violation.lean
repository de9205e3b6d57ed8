/-
  Conform.Proofs.Violation

  Violations as trees. A violation is a leaf or collects others; a collection keeps
  the leaves and the messages of what it collects, in order, so that collections
  collected once more are one collection. The built-in checks report leaves.
-/

import Mathlib.Data.List.Basic
import Conform.Policy
import Conform.Test.Checks

namespace Conform

-- ============================================================================
-- Collections
-- ============================================================================

namespace Violation

/-- Whether a violation is one by itself and no collection. -/
structure IsLeaf (v : Violation) : Prop where
  inner : v.inner = []
  errors : v.errors = [v.message]

/-- What is made of one message is a leaf. -/
theorem isLeaf_leaf (message : String) (value : Option Value) (path kind : Option String) :
    (leaf message value path kind).IsLeaf :=
  ⟨rfl, rfl⟩

theorem IsLeaf.leaves_eq {v : Violation} (h : v.IsLeaf) : v.leaves = [v] := by
  simp [leaves, h.inner]

theorem leaves_ne_nil (v : Violation) : v.leaves ≠ [] := by
  rw [leaves]
  split
  · simp
  · next h => simpa using h

theorem leaves_collect {found : List Violation} (h : found ≠ []) (value : Option Value)
    (path : Option String) : (collect found value path).leaves = found.flatMap leaves := by
  obtain ⟨v, rest, rfl⟩ := List.exists_cons_of_ne_nil h
  have hinner : (collect (v :: rest) value path).inner ≠ [] := by
    show (v :: rest).flatMap leaves ≠ []
    rw [List.flatMap_cons]
    exact List.append_ne_nil_of_left_ne_nil v.leaves_ne_nil _
  rw [leaves, if_neg (by simpa using hinner)]
  rfl

/-- A collection tells no more of what is collected than leaves and messages. -/
theorem collect_congr {found other : List Violation} (value : Option Value)
    (path : Option String) (hleaves : found.flatMap leaves = other.flatMap leaves)
    (herrors : found.flatMap errors = other.flatMap errors) :
    collect found value path = collect other value path := by
  unfold collect
  rw [hleaves, herrors]

theorem flatMap_leaves {found : List Violation} (h : ∀ v ∈ found, v.IsLeaf) :
    found.flatMap leaves = found := by
  induction found with
  | nil => rfl
  | cons v rest ih =>
      rw [List.flatMap_cons, (h v List.mem_cons_self).leaves_eq, ih fun u hu => h u (List.mem_cons_of_mem _ hu)]
      rfl

theorem flatMap_errors {found : List Violation} (h : ∀ v ∈ found, v.IsLeaf) :
    found.flatMap errors = found.map message := by
  induction found with
  | nil => rfl
  | cons v rest ih =>
      rw [List.flatMap_cons, (h v List.mem_cons_self).errors,
        ih fun u hu => h u (List.mem_cons_of_mem _ hu)]
      rfl

/-- The collection of what was found, if anything was. -/
def collected (found : List Violation) (value : Option Value) (path : Option String) :
    List Violation :=
  if found = [] then [] else [collect found value path]

theorem collected_eq_nil {found : List Violation} {value : Option Value} {path : Option String} :
    collected found value path = [] ↔ found = [] := by
  rw [collected]
  split <;> simp_all

theorem flatMap_leaves_collected (found : List Violation) (value : Option Value)
    (path : Option String) : (collected found value path).flatMap leaves = found.flatMap leaves := by
  rw [collected]
  split
  · next h => rw [h]
  · next h => simp [leaves_collect h]

theorem flatMap_errors_collected (found : List Violation) (value : Option Value)
    (path : Option String) : (collected found value path).flatMap errors = found.flatMap errors := by
  rw [collected]
  split
  · next h => rw [h]
  · simp [collect]

/-- Of several collections those that have something in them. -/
theorem map_filter_collect {ι : Type} (found : ι → List Violation) (value : ι → Option Value)
    (path : ι → Option String) (places : List ι) :
    (places.filter fun i => !(found i).isEmpty).map (fun i => collect (found i) (value i) (path i)) =
      places.flatMap fun i => collected (found i) (value i) (path i) := by
  induction places with
  | nil => rfl
  | cons i rest ih =>
      rw [List.flatMap_cons, ← ih]
      cases hi : found i with
      | nil => simp [collected, hi]
      | cons v others => simp [collected, hi]

/-- Collections collected once more are one collection. -/
theorem collect_collected {ι : Type} (found : ι → List Violation) (value : ι → Option Value)
    (path : ι → Option String) (places : List ι) (own : List Violation) (v : Option Value)
    (p : Option String) :
    collect (places.flatMap (fun i => collected (found i) (value i) (path i)) ++
      collected own v p) v p = collect (places.flatMap found ++ own) v p := by
  apply collect_congr
  · simp only [List.flatMap_append, List.flatMap_assoc, flatMap_leaves_collected]
  · simp only [List.flatMap_append, List.flatMap_assoc, flatMap_errors_collected]

end Violation

-- ============================================================================
-- Trees
-- ============================================================================

namespace Violation

/-- Whether a violation agrees with its leaves: they have none in turn, the messages of
    the violation are theirs, and its own message sums those up. -/
structure IsTree (v : Violation) : Prop where
  leaves : ∀ u ∈ v.leaves, u.IsLeaf
  errors : v.errors = v.leaves.map message
  message : v.message = summary v.errors

variable {v : Violation}

theorem leaves_eq_inner (h : v.inner ≠ []) : v.leaves = v.inner := by
  simp [leaves, h]

theorem IsLeaf.isTree (h : v.IsLeaf) : v.IsTree where
  leaves := by
    rw [h.leaves_eq]
    exact fun u hu => List.mem_singleton.mp hu ▸ h
  errors := by rw [h.leaves_eq, h.errors, List.map_singleton]
  message := by rw [h.errors, summary]

theorem IsTree.isLeaf (h : v.IsTree) (hinner : v.inner = []) : v.IsLeaf :=
  h.leaves v (by simp [Violation.leaves, hinner])

/-- Trees that are collected make one tree. -/
theorem isTree_collect {found : List Violation} (hne : found ≠ []) (h : ∀ v ∈ found, v.IsTree)
    (value : Option Value) (path : Option String) : (collect found value path).IsTree where
  leaves := by
    rw [leaves_collect hne]
    intro u hu
    obtain ⟨v, hv, hleaf⟩ := List.mem_flatMap.mp hu
    exact (h v hv).leaves u hleaf
  errors := by
    rw [leaves_collect hne, List.map_flatMap]
    exact List.flatMap_congr fun v hv => (h v hv).errors
  message := rfl

/-- A tree may be reported for another value. -/
theorem IsTree.withValue (h : v.IsTree) (value : Option Value) : IsTree { v with value } := by
  by_cases hinner : v.inner = []
  · -- a leaf counts itself among its leaves, with the new value
    have hleaf := h.isLeaf hinner
    exact IsLeaf.isTree ⟨hleaf.inner, hleaf.errors⟩
  · have hleaves : Violation.leaves { v with value } = v.leaves := by
      rw [leaves_eq_inner hinner]
      exact leaves_eq_inner hinner
    exact ⟨hleaves ▸ h.leaves, hleaves ▸ h.errors, h.message⟩

/-- What a tree says is what its leaves say: it is one, or its messages are theirs, and
    its own message is the one of a single leaf or the count of several. -/
theorem IsTree.contents (h : v.IsTree) :
    (∀ u ∈ v.inner, u.inner = [] ∧ u.errors = [u.message]) ∧
      (v.inner = [] → v.errors = [v.message]) ∧
      (v.inner ≠ [] → v.errors = v.inner.map Violation.message) ∧
      (∀ u, v.inner = [u] → v.message = u.message) ∧
      (1 < v.inner.length → v.message = toString v.inner.length ++ " errors occurred") := by
  refine ⟨fun u hu => ?_, fun hinner => (h.isLeaf hinner).errors, fun hinner => ?_,
    fun u hinner => ?_, fun hlength => ?_⟩
  · have hleaf := h.leaves u (by rwa [leaves_eq_inner (List.ne_nil_of_mem hu)])
    exact ⟨hleaf.inner, hleaf.errors⟩
  · rw [h.errors, leaves_eq_inner hinner]
  · rw [h.message, h.errors, leaves_eq_inner (by simp [hinner]), hinner]
    rfl
  · obtain ⟨first, second, rest, hinner⟩ : ∃ a b rest, v.inner = a :: b :: rest := by
      match hinner : v.inner with
      | [] => simp [hinner] at hlength
      | [_] => simp [hinner] at hlength
      | a :: b :: rest => exact ⟨a, b, rest, rfl⟩
    rw [h.message, h.errors, leaves_eq_inner (by simp [hinner]), hinner]
    simp [summary]

end Violation

-- ============================================================================
-- Tests
-- ============================================================================

/-- A judgement with a yes or no for an answer reports no violation of its own. -/
theorem Outcome.ofBool_ne_error (b : Bool) (v : Violation) : Outcome.ofBool b ≠ .error v := by
  cases b <;> simp [Outcome.ofBool]

/-- What a test makes of its message and of overrides is a leaf. -/
theorem TestContext.isLeaf_violation (ctx : TestContext) (overrides : Overrides) :
    (ctx.violation overrides).IsLeaf :=
  ⟨rfl, rfl⟩

namespace Check

variable {c : Check} {ctx : TestContext}

theorem judge_eq_pass : c.judge ctx = .pass ↔ c.holds ctx = true := by
  by_cases h : c.holds ctx = true
  · exact iff_of_true (if_pos h) h
  · unfold judge
    rw [if_neg h]
    exact iff_of_false (by split <;> simp) h

/-- The built-in checks are never waited for. -/
theorem judge_isPending (c : Check) (ctx : TestContext) : (c.judge ctx).isPending = false := by
  unfold judge
  split
  · rfl
  · split <;> rfl

/-- What the built-in checks report are leaves. -/
theorem isLeaf_of_judge {v : Violation} (h : c.judge ctx = .error v) : v.IsLeaf := by
  unfold judge at h
  split at h
  · exact absurd h (by simp)
  · split at h
    · cases h
      exact ⟨rfl, rfl⟩
    · cases h
      exact ⟨rfl, rfl⟩
    · cases h
      exact ⟨rfl, rfl⟩
    · exact absurd h (by simp)

end Check

end Conform
