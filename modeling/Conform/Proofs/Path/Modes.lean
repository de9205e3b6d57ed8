/-
  Conform.Proofs.Path.Modes

  The two ways of following a path. Both find the same where the path leads through
  values that are there; they differ in what they make of a step that would start at an
  absent value, which safe access takes for an undefined result and unsafe access refuses.
  The last step may come to null or to nothing either way.
-/

import Conform.Path.Access

namespace Conform

namespace Path

variable {v next : Value} {s t : Segment} {steps rest : List Segment} {isSafe : Bool}

-- ============================================================================
-- Values along a path
-- ============================================================================

/-- The value that steps come to one after the other, whatever they pass on the way. -/
def read (v : Value) (steps : List Segment) : Option Value := steps.foldlM Segment.step v

@[simp] theorem read_nil (v : Value) : read v [] = some v := rfl

theorem read_cons (v : Value) (s : Segment) (rest : List Segment) :
    read v (s :: rest) = (s.step v).bind fun next => read next rest := by
  rw [read, List.foldlM_cons]
  rfl

theorem read_append (v : Value) (front back : List Segment) :
    read v (front ++ back) = (read v front).bind fun u => read u back := by
  rw [read, List.foldlM_append]
  rfl

/-- Null has no parts. -/
theorem step_of_isNull (h : v.isNull = true) (s : Segment) : s.step v = none := by
  cases v with
  | null => rfl
  | bool | num | str | arr | obj => exact absurd h (by simp [Value.isNull])

/-- Whether some step before the last one comes to nothing or to null. -/
def Interrupted (v : Value) (steps : List Segment) : Prop :=
  ∃ front s back, steps = front ++ s :: back ∧ back ≠ [] ∧ isAbsent (read v (front ++ [s])) = true

theorem not_interrupted_nil (v : Value) : ¬ Interrupted v [] := by
  rintro ⟨front, s, back, hsteps, -⟩
  exact absurd hsteps (by simp)

theorem not_interrupted_singleton (v : Value) (s : Segment) : ¬ Interrupted v [s] := by
  rintro ⟨front, t, back, hsteps, hback, -⟩
  cases front with
  | nil => exact hback (List.cons.inj hsteps).2.symm
  | cons first rest => exact absurd (List.cons.inj hsteps).2 (by simp)

/-- A first step that comes to nothing or to null interrupts the path. -/
theorem interrupted_of_step (h : isAbsent (s.step v) = true) : Interrupted v (s :: t :: rest) :=
  ⟨[], s, t :: rest, rfl, by simp, by simpa [read_cons] using h⟩

/-- A step comes to nothing or to null, or to a value that the next one can start at. -/
theorem step_cases (s : Segment) (v : Value) :
    isAbsent (s.step v) = true ∨ ∃ next, s.step v = some next ∧ next.isNull = false := by
  cases hstep : s.step v with
  | none => exact .inl rfl
  | some next =>
      cases hnull : next.isNull with
      | true => exact .inl hnull
      | false => exact .inr ⟨next, rfl, hnull⟩

/-- Behind a step that comes to a value, the path is interrupted where its rest is. -/
theorem interrupted_cons_iff (h : s.step v = some next) (hnext : next.isNull = false) :
    Interrupted v (s :: rest) ↔ Interrupted next rest := by
  constructor
  · rintro ⟨front, x, back, hsteps, hback, habsent⟩
    cases front with
    | nil =>
        obtain ⟨rfl, -⟩ := List.cons.inj hsteps
        simp [read_cons, h, isAbsent, hnext] at habsent
    | cons first front =>
        obtain ⟨rfl, hrest⟩ := List.cons.inj hsteps
        rw [List.cons_append, read_cons, h] at habsent
        exact ⟨front, x, back, hrest, hback, habsent⟩
  · rintro ⟨front, x, back, rfl, hback, habsent⟩
    refine ⟨s :: front, x, back, rfl, hback, ?_⟩
    rw [List.cons_append, read_cons, h]
    exact habsent

/-- Where the whole path comes to a value, nothing has interrupted it. -/
theorem not_interrupted_of_read {u : Value} (h : read v steps = some u) :
    ¬ Interrupted v steps := by
  rintro ⟨front, s, back, rfl, hback, habsent⟩
  rw [List.append_cons, read_append] at h
  obtain ⟨last, hlast, hrest⟩ := Option.bind_eq_some_iff.mp h
  have hnull : last.isNull = true := by rwa [hlast] at habsent
  obtain ⟨t, back, rfl⟩ := List.exists_cons_of_ne_nil hback
  rw [read_cons, step_of_isNull hnull] at hrest
  exact absurd hrest (by simp)

-- ============================================================================
-- Following
-- ============================================================================

/-- Both modes go on behind a step that comes to a value. -/
theorem follow_cons_of_step (h : s.step v = some next) (hnext : next.isNull = false) :
    follow isSafe v (s :: rest) = follow isSafe next rest := by
  cases rest with
  | nil => rw [follow, follow, h]
  | cons t rest =>
      rw [follow, h]
      exact if_neg (by simp [hnext])

/-- Before the last step the modes part where there is nothing to go on from. -/
theorem follow_cons_of_absent (h : isAbsent (s.step v) = true) :
    follow isSafe v (s :: t :: rest) = if isSafe then .found none else .blocked s := by
  rw [follow]
  split
  · next next hstep => rw [if_pos (by simpa [hstep, isAbsent] using h)]
  · rfl

/-- A path that is not interrupted comes to the same in both modes. -/
theorem follow_of_not_interrupted (h : ¬ Interrupted v steps) :
    follow isSafe v steps = .found (read v steps) := by
  induction steps generalizing v with
  | nil => rfl
  | cons s rest ih =>
      cases rest with
      | nil => rw [follow, read_cons]; cases s.step v <;> rfl
      | cons t rest =>
          rcases step_cases s v with habsent | ⟨next, hstep, hnext⟩
          · exact absurd (interrupted_of_step habsent) h
          · rw [follow_cons_of_step hstep hnext, read_cons, hstep]
            exact ih fun hrest => h ((interrupted_cons_iff hstep hnext).mpr hrest)

/-- A path that is interrupted comes to nothing in safe mode, and is refused at one of its
    steps in unsafe mode. -/
theorem follow_of_interrupted (h : Interrupted v steps) :
    follow true v steps = .found none ∧ ∃ s, follow false v steps = .blocked s := by
  induction steps generalizing v with
  | nil => exact absurd h (not_interrupted_nil v)
  | cons s rest ih =>
      cases rest with
      | nil => exact absurd h (not_interrupted_singleton v s)
      | cons t rest =>
          rcases step_cases s v with habsent | ⟨next, hstep, hnext⟩
          · exact ⟨follow_cons_of_absent habsent, s, follow_cons_of_absent habsent⟩
          · rw [follow_cons_of_step hstep hnext, follow_cons_of_step hstep hnext]
            exact ih ((interrupted_cons_iff hstep hnext).mp h)

-- ============================================================================
-- Modes
-- ============================================================================

/-- Safe access fails nowhere, and it finds all that unsafe access finds. Unsafe access fails
    exactly where a step before the last one comes to nothing or to null, and there safe
    access finds nothing. Wherever the last step comes to a value, be it null, both find this
    value; and where only the last step comes to nothing, both find nothing. -/
theorem modes_agree (path : String) (data : Value) :
    let steps := parse path
    (∀ s, follow true data steps ≠ .blocked s) ∧
    (∀ x, follow false data steps = .found x → follow true data steps = .found x) ∧
    ((∃ s, follow false data steps = .blocked s) ↔ Interrupted data steps) ∧
    (Interrupted data steps → follow true data steps = .found none) ∧
    (∀ v, read data steps = some v → ∀ isSafe, follow isSafe data steps = .found (some v)) ∧
    (read data steps = none → ¬ Interrupted data steps →
      ∀ isSafe, follow isSafe data steps = .found none) := by
  intro steps
  by_cases h : Interrupted data steps
  · obtain ⟨hsafe, s, hblocked⟩ := follow_of_interrupted h
    have hread (v : Value) (hv : read data steps = some v) : False :=
      not_interrupted_of_read hv h
    exact ⟨by simp [hsafe], by simp [hblocked], ⟨fun _ => h, fun _ => ⟨s, hblocked⟩⟩, fun _ => hsafe,
      fun v hv => (hread v hv).elim, fun _ hthrough => absurd h hthrough⟩
  · have hboth (isSafe : Bool) : follow isSafe data steps = .found (read data steps) :=
      follow_of_not_interrupted h
    exact ⟨by simp [hboth], by simp [hboth], ⟨by simp [hboth], fun hstop => absurd hstop h⟩,
      fun hstop => absurd hstop h, fun v hv isSafe => (hboth isSafe).trans (congrArg _ hv),
      fun hnone _ isSafe => (hboth isSafe).trans (congrArg _ hnone)⟩

/-- A document with a null, at its top and inside it. -/
def gaps : Value := .obj [("a", .obj [("b", .null)]), ("n", .null)]

/-- A null at the end of a path is found and a missing field is not, in both modes. A null on
    the way is refused in unsafe mode only. -/
theorem modes_agree_gaps :
    (follow false gaps (parse "a.b") = .found (some .null) ∧
      follow true gaps (parse "a.b") = .found (some .null)) ∧
    (∀ isSafe, follow isSafe gaps (parse "a.c") = .found none) ∧
    (∃ s, follow false gaps (parse "n.deep") = .blocked s) ∧
    follow true gaps (parse "n.deep") = .found none := by
  obtain ⟨-, hagree, -, -, hvalue, -⟩ := modes_agree "a.b" gaps
  obtain ⟨-, -, -, -, -, hmissing⟩ := modes_agree "a.c" gaps
  obtain ⟨-, -, hfails, hsafe, -⟩ := modes_agree "n.deep" gaps
  have hnull : follow false gaps (parse "a.b") = .found (some .null) := hvalue .null rfl false
  have hthrough : ¬ Interrupted gaps (parse "a.c") :=
    mt (interrupted_cons_iff rfl rfl).mp (not_interrupted_singleton _ _)
  have hstop : Interrupted gaps (parse "n.deep") :=
    ⟨[], .key "n" false, [.key "deep" false], rfl, by simp, rfl⟩
  exact ⟨⟨hnull, hagree _ hnull⟩, hmissing rfl hthrough, hfails.mpr hstop, hsafe hstop⟩

end Path

end Conform
