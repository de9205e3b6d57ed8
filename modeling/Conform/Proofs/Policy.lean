/-
  Conform.Proofs.Policy

  What comes out when independent jobs are run together. Under either policy the
  run succeeds exactly if every job does and nothing was found before; when all
  failures are collected, the report holds the violations of the jobs in the
  order of their places. Jobs that are ready at once give a run that is ready at
  once.
-/

import Mathlib.Data.List.Basic
import Conform.Policy

namespace Conform

-- ============================================================================
-- Jobs
-- ============================================================================

namespace Job

variable {α β : Type}

@[simp] theorem done_result (r : Result α) : (done r).result = r := rfl

@[simp] theorem pure_result (a : α) : (Job.pure a).result = .ok a := rfl

@[simp] theorem fail_result (e : Failure) : (fail e : Job α).result = .error e := rfl

theorem bind_result (job : Job α) (next : α → Job β) :
    (job.bind next).result = job.result >>= fun a => (next a).result := by
  rw [Job.bind]
  cases job.result <;> rfl

@[simp] theorem bind_done_ok (a : α) (next : α → Job β) :
    (done (.ok a)).bind next = next a := by
  simp [Job.bind, done]

@[simp] theorem bind_done_error (e : Failure) (next : α → Job β) :
    (done (.error e)).bind next = fail e := rfl

theorem discard_result_eq_ok {job : Job α} :
    job.discard.result = .ok () ↔ ∃ a, job.result = .ok a := by
  rw [discard]
  cases job.result <;> simp [Except.map]

theorem discard_result_eq_error {job : Job α} {e : Failure} :
    job.discard.result = .error e ↔ job.result = .error e := by
  rw [discard]
  cases job.result <;> simp [Except.map]

theorem discard_congr {job other : Job α} (h : job.result = other.result) :
    job.discard.result = other.discard.result := by
  rw [discard, discard, h]

/-! ## Readiness -/

/-- Whether a job gives its result at the first poll. -/
def Ready (job : Job α) : Prop := job.rounds = 0

theorem ready_done (r : Result α) : (done r).Ready := rfl

theorem ready_discard {job : Job α} (h : job.Ready) : job.discard.Ready := h

theorem ready_bind {job : Job α} {next : α → Job β} (h : job.Ready)
    (hnext : ∀ a, job.result = .ok a → (next a).Ready) : (job.bind next).Ready := by
  rw [Job.bind, Ready]
  cases hr : job.result with
  | error e => exact h
  | ok a =>
      have hjob : job.rounds = 0 := h
      have hlater : (next a).rounds = 0 := hnext a hr
      simp [hjob, hlater]

/-! ## The first failure -/

theorem failure?_eq_none {job : Job Unit} : job.failure? = none ↔ job.result = .ok () := by
  rw [failure?]
  cases job.result <;> simp

theorem failure?_eq_some {job : Job α} {n : Nat} {e : Failure} :
    job.failure? = some (n, e) ↔ job.rounds = n ∧ job.result = .error e := by
  rw [failure?]
  cases job.result <;> simp

theorem earlier_eq_none {best : Option (Nat × Failure)} {job : Job Unit} :
    earlier best job = none ↔ best = none ∧ job.failure? = none := by
  unfold earlier
  split <;> simp_all
  split <;> simp

theorem earlier_eq_or (best : Option (Nat × Failure)) (job : Job Unit) :
    earlier best job = best ∨ earlier best job = job.failure? := by
  unfold earlier
  split
  · exact Or.inr rfl
  · exact Or.inl rfl
  · next best later heq =>
      split
      · exact Or.inr heq.symm
      · exact Or.inl rfl

theorem foldl_earlier_eq_none (jobs : List (Job Unit)) (best : Option (Nat × Failure)) :
    jobs.foldl earlier best = none ↔ best = none ∧ ∀ job ∈ jobs, job.failure? = none := by
  induction jobs generalizing best with
  | nil => simp
  | cons job rest ih => simp [ih, earlier_eq_none, and_assoc]

theorem foldl_earlier_eq_some {jobs : List (Job Unit)} {best : Option (Nat × Failure)}
    {found : Nat × Failure} (h : jobs.foldl earlier best = some found) :
    best = some found ∨ ∃ job ∈ jobs, job.failure? = some found := by
  induction jobs generalizing best with
  | nil => exact Or.inl h
  | cons job rest ih =>
      rcases ih h with hbest | ⟨other, hmem, hother⟩
      · rcases earlier_eq_or best job with heq | heq
        · exact Or.inl (heq ▸ hbest)
        · exact Or.inr ⟨job, List.mem_cons_self, heq ▸ hbest⟩
      · exact Or.inr ⟨other, List.mem_cons_of_mem _ hmem, hother⟩

theorem firstFailure?_eq_none {jobs : List (Job Unit)} :
    firstFailure? jobs = none ↔ ∀ job ∈ jobs, job.result = .ok () := by
  simp [firstFailure?, foldl_earlier_eq_none, failure?_eq_none]

/-- The failure that wins is one of the failures of the jobs. -/
theorem exists_of_firstFailure? {jobs : List (Job Unit)} {n : Nat} {e : Failure}
    (h : firstFailure? jobs = some (n, e)) :
    ∃ job ∈ jobs, job.rounds = n ∧ job.result = .error e := by
  rcases foldl_earlier_eq_some h with hnone | ⟨job, hmem, hjob⟩
  · exact absurd hnone (by simp)
  · exact ⟨job, hmem, failure?_eq_some.mp hjob⟩

theorem lastRound_eq_zero {jobs : List (Job Unit)} (h : ∀ job ∈ jobs, job.Ready) :
    lastRound jobs = 0 := by
  rw [lastRound]
  have hfold : ∀ (rest : List (Job Unit)), (∀ job ∈ rest, job.Ready) →
      rest.foldl (fun n job => max n job.rounds) 0 = 0 := by
    intro rest
    induction rest with
    | nil => intro _; rfl
    | cons job rest ih =>
        intro hready
        have hjob : job.rounds = 0 := hready job List.mem_cons_self
        rw [List.foldl_cons, hjob]
        exact ih fun other hmem => hready other (List.mem_cons_of_mem _ hmem)
  exact hfold jobs h

/-- The violation that a job ends with, if it does. -/
def violation? (job : Job Unit) : Option Violation :=
  match job.result with
  | .error (.violation v) => some v
  | _ => none

theorem violation?_eq_some {job : Job Unit} {v : Violation} :
    job.violation? = some v ↔ job.result = .error (.violation v) := by
  rw [violation?]
  split <;> simp_all

theorem violation?_eq_none_of_ok {job : Job Unit} (h : job.result = .ok ()) :
    job.violation? = none := by
  simp [violation?, h]

end Job

-- ============================================================================
-- Policies
-- ============================================================================

namespace Policy

variable {p : Policy} {jobs : List (Job Unit)}

/-! ## Collecting -/

theorem violations_of_not_isMistake (h : ∀ job ∈ jobs, ¬ job.result.IsMistake) :
    violations jobs = .ok (jobs.filterMap Job.violation?) := by
  induction jobs with
  | nil => rfl
  | cons job rest ih =>
      have hrest := ih fun other hmem => h other (List.mem_cons_of_mem _ hmem)
      have hjob := h job List.mem_cons_self
      rw [violations, List.filterMap_cons, hrest, Job.violation?]
      split
      · next hok => rw [hok]
      · next v hv =>
          rw [hv]
          rfl
      · next e hne he => exact absurd ⟨e, he, hne⟩ hjob

theorem violations_of_isMistake {job : Job Unit} (hmem : job ∈ jobs)
    (h : job.result.IsMistake) : ∃ e, violations jobs = .error e ∧ ∀ v, e ≠ .violation v := by
  induction jobs with
  | nil => exact absurd hmem (by simp)
  | cons first rest ih =>
      rw [violations]
      split
      · next hok =>
          rcases List.mem_cons.mp hmem with rfl | hrest
          · exact absurd (hok ▸ h) (Result.not_isMistake_ok ())
          · exact ih hrest
      · next v hv =>
          rcases List.mem_cons.mp hmem with rfl | hrest
          · exact absurd (hv ▸ h) (Result.not_isMistake_violation v)
          · obtain ⟨e, he, hne⟩ := ih hrest
            exact ⟨e, by rw [he]; rfl, hne⟩
      · next e hne he => exact ⟨e, rfl, hne⟩

/-- The report of a run that collects all failures and meets no mistake. -/
theorem collected_of_not_isMistake (h : ∀ job ∈ jobs, ¬ job.result.IsMistake) :
    p.collected jobs =
      if p.sortRanked (jobs.filterMap Job.violation?) ++ p.before = [] then .ok ()
      else .error (.violation (Violation.collect
        (p.sortRanked (jobs.filterMap Job.violation?) ++ p.before) p.value p.path)) := by
  rw [collected, violations_of_not_isMistake h]
  simp only [bind, Except.bind, List.isEmpty_iff]
  rfl

theorem collected_isMistake {job : Job Unit} (hmem : job ∈ jobs) (h : job.result.IsMistake) :
    (p.collected jobs).IsMistake := by
  obtain ⟨e, he, hne⟩ := violations_of_isMistake hmem h
  exact ⟨e, by unfold collected; rw [he]; rfl, hne⟩

/-- Violations are collected unless there is a mistake. -/
theorem violations_eq_error {e : Failure} (h : violations jobs = .error e) :
    ∀ v, e ≠ .violation v := by
  by_cases hmistake : ∃ job ∈ jobs, job.result.IsMistake
  · obtain ⟨job, hjob, hfails⟩ := hmistake
    obtain ⟨f, hf, hne⟩ := violations_of_isMistake hjob hfails
    cases h.symm.trans hf
    exact hne
  · have hok := violations_of_not_isMistake fun job hjob hfails => hmistake ⟨job, hjob, hfails⟩
    exact absurd (hok.symm.trans h) (by simp)

/-- The violations that are found are those of jobs. -/
theorem mem_of_violations {found : List Violation} (h : violations jobs = .ok found) :
    ∀ v ∈ found, ∃ job ∈ jobs, job.result = .error (.violation v) := by
  intro v hv
  have hnone : ∀ job ∈ jobs, ¬ job.result.IsMistake := by
    intro job hjob hmistake
    obtain ⟨e, he, -⟩ := violations_of_isMistake hjob hmistake
    exact absurd (h.symm.trans he) (by simp)
  cases (violations_of_not_isMistake hnone).symm.trans h
  obtain ⟨job, hjob, hsome⟩ := List.mem_filterMap.mp hv
  exact ⟨job, hjob, Job.violation?_eq_some.mp hsome⟩

theorem exists_of_violations_error {e : Failure} (h : violations jobs = .error e) :
    ∃ job ∈ jobs, job.result = .error e := by
  induction jobs with
  | nil => exact absurd h (by simp [violations])
  | cons job rest ih =>
      have hlater (hrest : violations rest = .error e) : ∃ job' ∈ job :: rest,
          job'.result = .error e := by
        obtain ⟨other, hmem, hother⟩ := ih hrest
        exact ⟨other, List.mem_cons_of_mem _ hmem, hother⟩
      rw [violations] at h
      split at h
      · exact hlater h
      · cases hrest : violations rest with
        | ok found =>
            rw [hrest] at h
            exact absurd h (by simp [Except.map])
        | error f =>
            rw [hrest] at h
            cases h
            exact hlater hrest
      · next f hne hf =>
          cases h
          exact ⟨job, List.mem_cons_self, hf⟩

/-! ## Sorting -/

theorem length_sortRanked (found : List Violation) :
    (p.sortRanked found).length = found.length := by
  simp [sortRanked]

theorem sortRanked_eq_nil {found : List Violation} : p.sortRanked found = [] ↔ found = [] := by
  rw [← List.length_eq_zero_iff, length_sortRanked, List.length_eq_zero_iff]

theorem mem_sortRanked {found : List Violation} {v : Violation} :
    v ∈ p.sortRanked found ↔ v ∈ found := by
  simp [sortRanked]

/-- Violations of one place stay as they are. -/
theorem sortRanked_of_forall_eq {found : List Violation} {n : Nat}
    (h : ∀ v ∈ found, p.rank v = n) : p.sortRanked found = found := by
  rw [sortRanked, List.mergeSort_of_pairwise, List.map_map]
  · exact List.map_id _
  · rw [List.pairwise_map]
    apply List.pairwise_of_forall_mem_list
    intro v hv u hu
    simp [h v hv, h u hu]

/-- Violations that stem from distinct places come out in the order of the
    places, in whatever order they were found. -/
theorem sortRanked_map {ι : Type} {found inOrder : List ι} {report : ι → Violation}
    (place : ι → Nat) (hrank : ∀ k ∈ found, p.rank (report k) = place k)
    (hperm : found.Perm inOrder)
    (hplace : inOrder.Pairwise fun a b => place a ≤ place b)
    (hinj : ∀ a ∈ inOrder, ∀ b ∈ inOrder, place a = place b → a = b) :
    p.sortRanked (found.map report) = inOrder.map report := by
  have hpairs : (found.map report).map (fun v => (p.rank v, v)) =
      found.map fun k => (place k, report k) := by
    rw [List.map_map]
    exact List.map_congr_left fun k hk => by simp [hrank k hk]
  have hsorted : found.mergeSort (fun a b => decide (place a ≤ place b)) = inOrder := by
    refine @List.Perm.eq_of_pairwise ι (fun a b => place a ≤ place b) _ _ ?_ ?_ ?_
      ((List.mergeSort_perm _ _).trans hperm)
    · intro a b ha hb hab hba
      exact hinj a (hperm.subset (List.mem_mergeSort.mp ha)) b hb (Nat.le_antisymm hab hba)
    · exact (List.pairwise_mergeSort (by simp; omega) (by simp; omega) found).imp (by simp)
    · exact hplace
  rw [sortRanked]
  rw [hpairs, ← hsorted, ← List.map_mergeSort (r := fun a b => decide (place a ≤ place b)),
    List.map_map]
  · rfl
  · simp

/-! ## Runs -/

theorem run_of_abortEarly (h : p.abortEarly = true) : p.run jobs = p.runFirst jobs := by
  simp [run, h]

theorem run_of_collects (h : p.abortEarly = false) :
    (p.run jobs).result = p.collected jobs := by
  simp [run, h, runAll]

/-- What is found is collected, if it is anything. -/
theorem collected_of_found {found : List Violation} (h : violations jobs = .ok found)
    (hsort : p.sortRanked found = found) (hbefore : p.before = []) (hne : found ≠ []) :
    p.collected jobs = .error (.violation (Violation.collect found p.value p.path)) := by
  rw [collected, h]
  simp [bind, Except.bind, hsort, hbefore, hne]

theorem runFirst_result_eq_ok :
    (p.runFirst jobs).result = .ok () ↔ ∀ job ∈ jobs, job.result = .ok () := by
  rw [← Job.firstFailure?_eq_none]
  rw [runFirst]
  split <;> simp_all

theorem collected_eq_ok :
    p.collected jobs = .ok () ↔ (∀ job ∈ jobs, job.result = .ok ()) ∧ p.before = [] := by
  by_cases hmistake : ∃ job ∈ jobs, job.result.IsMistake
  · obtain ⟨job, hmem, hjob⟩ := hmistake
    constructor
    · intro h
      exact absurd (h ▸ collected_isMistake hmem hjob) (Result.not_isMistake_ok ())
    · rintro ⟨hok, -⟩
      exact absurd (hok job hmem ▸ hjob) (Result.not_isMistake_ok ())
  · have hnone : ∀ job ∈ jobs, ¬ job.result.IsMistake :=
      fun job hmem hjob => hmistake ⟨job, hmem, hjob⟩
    have hall : jobs.filterMap Job.violation? = [] ↔ ∀ job ∈ jobs, job.result = .ok () := by
      rw [List.filterMap_eq_nil_iff]
      constructor
      · intro h job hmem
        cases hr : job.result with
        | ok a => rfl
        | error e =>
            refine absurd ⟨e, hr, fun v hv => ?_⟩ (hnone job hmem)
            have hsome : job.violation? = some v := Job.violation?_eq_some.mpr (hv ▸ hr)
            exact absurd (h job hmem) (by simp [hsome])
      · exact fun h job hmem => Job.violation?_eq_none_of_ok (h job hmem)
    rw [collected_of_not_isMistake hnone, ← hall]
    split <;> simp_all [sortRanked_eq_nil]

/-- A run succeeds exactly if every job does, and, when failures are collected,
    if none was found before. -/
theorem run_result_eq_ok :
    (p.run jobs).result = .ok () ↔
      (∀ job ∈ jobs, job.result = .ok ()) ∧ (p.abortEarly = false → p.before = []) := by
  cases h : p.abortEarly with
  | true => simp [run_of_abortEarly h, runFirst_result_eq_ok]
  | false => simp [run_of_collects h, collected_eq_ok]

/-- The failure that a run stops at is that of a job; a violation gets the value
    of the run. -/
theorem exists_of_runFirst_violation {v : Violation}
    (h : (p.runFirst jobs).result = .error (.violation v)) :
    ∃ job ∈ jobs, ∃ u, job.result = .error (.violation u) ∧ v = { u with value := p.value } := by
  rw [runFirst] at h
  split at h
  · exact absurd h (by simp)
  · next n u hfirst =>
      obtain ⟨job, hmem, -, hjob⟩ := Job.exists_of_firstFailure? hfirst
      exact ⟨job, hmem, u, hjob, by simpa using h.symm⟩
  · next n e hne hfirst => exact absurd h (by simpa using fun he => hne v he)

/-- A run that ends with a violation reports that of a job with the value of the run, or
    it collects the violations of jobs and what was found before. -/
theorem exists_of_run_violation {v : Violation}
    (h : (p.run jobs).result = .error (.violation v)) :
    (∃ job ∈ jobs, ∃ u, job.result = .error (.violation u) ∧ v = { u with value := p.value }) ∨
      ∃ found, found ≠ [] ∧ v = Violation.collect found p.value p.path ∧
        ∀ u ∈ found, u ∈ p.before ∨ ∃ job ∈ jobs, job.result = .error (.violation u) := by
  cases habort : p.abortEarly with
  | true =>
      rw [run_of_abortEarly habort] at h
      exact Or.inl (exists_of_runFirst_violation h)
  | false =>
      rw [run_of_collects habort, collected] at h
      rcases bind_eq_error.mp h with hfails | ⟨found, hfound, hreport⟩
      · exact absurd rfl (violations_eq_error hfails v)
      · dsimp only at hreport
        split at hreport
        · exact absurd hreport (by simp [pure, Except.pure])
        · next hsome =>
            cases hreport
            refine Or.inr ⟨_, by simpa using hsome, rfl, fun u hu => ?_⟩
            rcases List.mem_append.mp hu with hjobs | hbefore
            · exact Or.inr (mem_of_violations hfound u (mem_sortRanked.mp hjobs))
            · exact Or.inl hbefore

/-- A failure of a run that is no violation is that of a job. -/
theorem exists_of_run_mistake {e : Failure} (h : (p.run jobs).result = .error e)
    (he : ∀ v, e ≠ .violation v) : ∃ job ∈ jobs, job.result = .error e := by
  cases habort : p.abortEarly with
  | true =>
      rw [run_of_abortEarly habort, runFirst] at h
      split at h
      · exact absurd h (by simp)
      · cases h
        exact absurd rfl (he _)
      · next n f hne hfirst =>
          cases h
          obtain ⟨job, hmem, -, hjob⟩ := Job.exists_of_firstFailure? hfirst
          exact ⟨job, hmem, hjob⟩
  | false =>
      rw [run_of_collects habort, collected] at h
      rcases bind_eq_error.mp h with hfound | ⟨found, -, hreport⟩
      · exact exists_of_violations_error hfound
      · dsimp only at hreport
        split at hreport
        · exact absurd hreport (by simp [pure, Except.pure])
        · cases hreport
          exact absurd rfl (he _)

theorem ready_run (h : ∀ job ∈ jobs, job.Ready) : (p.run jobs).Ready := by
  have hlast := Job.lastRound_eq_zero h
  have hfirst : ∀ n e, Job.firstFailure? jobs = some (n, e) → n = 0 := by
    intro n e hfound
    obtain ⟨job, hmem, hrounds, -⟩ := Job.exists_of_firstFailure? hfound
    exact hrounds ▸ h job hmem
  rw [run, runFirst, runAll, Job.Ready]
  split
  · split
    · exact hlast
    · next hfound => exact hfirst _ _ hfound
    · next hfound => exact hfirst _ _ hfound
  · exact hlast

end Policy

end Conform
