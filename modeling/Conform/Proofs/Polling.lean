/-
  Conform.Proofs.Polling

  Jobs as they are polled. A poll of a job gives its result, or leaves a job that
  is nearer to it. Work that starts behind other work is polled behind it, and jobs
  that run together are polled in passes: one poll of the run is one pass over the
  slots of its jobs, in which no job is polled that has ended.
-/

import Conform.Proofs.Policy
import Conform.Test.Basic

namespace Conform

-- ============================================================================
-- Polls
-- ============================================================================

/-- The answer to a poll: the result, or the work that is left. -/
inductive Poll (α : Type) where
  | ready (result : Result α)
  | pending (rest : Job α)

namespace Job

variable {α β : Type}

/-- Polls a job once. -/
def poll (job : Job α) : Poll α :=
  match job.rounds with
  | 0 => .ready job.result
  | rounds + 1 => .pending ⟨rounds, job.result⟩

/-- Whether a job gives a result when it is polled until it is ready. -/
inductive Ends : Job α → Result α → Prop where
  | ready {job : Job α} {r : Result α} : job.poll = .ready r → Ends job r
  | pending {job rest : Job α} {r : Result α} : job.poll = .pending rest → Ends rest r → Ends job r

theorem poll_eq_ready {job : Job α} {r : Result α} :
    job.poll = .ready r ↔ job.Ready ∧ r = job.result := by
  rw [poll, Ready]
  cases job.rounds with
  | zero => simp [eq_comm]
  | succ rounds => simp

theorem poll_eq_pending {job rest : Job α} :
    job.poll = .pending rest ↔ job.rounds = rest.rounds + 1 ∧ rest.result = job.result := by
  rw [poll]
  cases h : job.rounds with
  | zero => simp
  | succ rounds =>
      constructor
      · intro heq
        cases heq
        exact ⟨rfl, rfl⟩
      · rintro ⟨hrounds, hresult⟩
        obtain ⟨n, r⟩ := rest
        cases hrounds
        cases hresult
        rfl

/-- A job ends, and with its result. -/
theorem ends_iff {job : Job α} {r : Result α} : job.Ends r ↔ r = job.result := by
  constructor
  · intro h
    induction h with
    | ready hpoll => exact (poll_eq_ready.mp hpoll).2
    | pending hpoll _ ih => exact ih.trans (poll_eq_pending.mp hpoll).2
  · rintro rfl
    obtain ⟨rounds, result⟩ := job
    induction rounds with
    | zero => exact .ready rfl
    | succ rounds ih => exact .pending rfl ih

-- ============================================================================
-- Work behind other work
-- ============================================================================

theorem bind_congr {job : Job α} {next other : α → Job β}
    (h : ∀ a, job.result = .ok a → next a = other a) : job.bind next = job.bind other := by
  rw [Job.bind, Job.bind]
  cases hr : job.result with
  | ok a =>
      dsimp only
      rw [h a hr]
  | error e => rfl

end Job

-- ============================================================================
-- Slots
-- ============================================================================

/-- A job among jobs that run together: the work that is left of it, or its result. -/
inductive Slot where
  | running (job : Job Unit)
  | ended (result : Result Unit)

namespace Slot

/-- Polls the job of a slot, unless it has ended. -/
def poll : Slot → Slot
  | running job =>
    match job.poll with
    | .ready r => ended r
    | .pending rest => running rest
  | ended r => ended r

def isRunning : Slot → Bool
  | running _ => true
  | ended _ => false

/-- What is still to come of a slot. -/
def job : Slot → Job Unit
  | running job => job
  | ended r => .done r

/-- A poll takes one round away. -/
theorem job_poll (slot : Slot) : slot.poll.job = ⟨slot.job.rounds - 1, slot.job.result⟩ := by
  cases slot with
  | ended r => rfl
  | running job =>
      obtain ⟨rounds, result⟩ := job
      cases rounds <;> rfl

theorem isRunning_poll (slot : Slot) : slot.poll.isRunning = true ↔ 0 < slot.job.rounds := by
  cases slot with
  | ended r => simp [poll, isRunning, job, Job.done]
  | running job =>
      obtain ⟨rounds, result⟩ := job
      cases rounds <;> simp [poll, Job.poll, isRunning, Slot.job]

theorem any_isRunning_poll (slots : List Slot) :
    (slots.map poll).any isRunning = true ↔ ∃ slot ∈ slots, 0 < slot.job.rounds := by
  rw [List.any_map, List.any_eq_true]
  constructor
  · rintro ⟨slot, hmem, hrunning⟩
    exact ⟨slot, hmem, slot.isRunning_poll.mp hrunning⟩
  · rintro ⟨slot, hmem, hrounds⟩
    exact ⟨slot, hmem, slot.isRunning_poll.mpr hrounds⟩

end Slot

-- ============================================================================
-- Waiting for all jobs
-- ============================================================================

namespace Job

theorem foldl_lastRound (jobs : List (Job Unit)) (start : Nat) :
    jobs.foldl (fun n job => max n job.rounds) start = max start (lastRound jobs) := by
  induction jobs generalizing start with
  | nil => simp [lastRound]
  | cons job rest ih =>
      rw [lastRound, List.foldl_cons, List.foldl_cons, ih, ih]
      omega

theorem lastRound_cons (job : Job Unit) (rest : List (Job Unit)) :
    lastRound (job :: rest) = max job.rounds (lastRound rest) := by
  rw [lastRound, List.foldl_cons, foldl_lastRound]
  omega

theorem lastRound_pos {jobs : List (Job Unit)} :
    0 < lastRound jobs ↔ ∃ job ∈ jobs, 0 < job.rounds := by
  induction jobs with
  | nil => simp [lastRound]
  | cons job rest ih =>
      have hmax : 0 < max job.rounds (lastRound rest) ↔ 0 < job.rounds ∨ 0 < lastRound rest := by
        omega
      rw [lastRound_cons, hmax, ih]
      simp

end Job

theorem Slot.lastRound_poll (slots : List Slot) :
    Job.lastRound ((slots.map poll).map job) = Job.lastRound (slots.map job) - 1 := by
  induction slots with
  | nil => rfl
  | cons slot rest ih =>
      simp only [List.map_cons, Job.lastRound_cons, ih, job_poll]
      omega

namespace Policy

variable {p : Policy} {jobs others : List (Job Unit)}

theorem violations_congr (h : jobs.map Job.result = others.map Job.result) :
    violations jobs = violations others := by
  induction jobs generalizing others with
  | nil =>
      have hnil : others = [] := List.map_eq_nil_iff.mp h.symm
      rw [hnil]
  | cons job rest ih =>
      obtain ⟨other, others, rfl, hresult, hrest⟩ := List.map_eq_cons_iff.mp h.symm
      rw [violations, violations, ih hrest.symm, hresult]

/-- What is collected depends on what the jobs end with, in their order, and not on
    when they end. -/
theorem collected_congr (h : jobs.map Job.result = others.map Job.result) :
    p.collected jobs = p.collected others := by
  unfold collected
  rw [violations_congr h]

/-- A run that collects reports what its jobs end with, whenever they end. -/
theorem run_result_congr (hcollects : p.abortEarly = false)
    (h : jobs.map Job.result = others.map Job.result) :
    (p.run jobs).result = (p.run others).result := by
  rw [run_of_collects hcollects, run_of_collects hcollects, collected_congr h]

/-- One poll of a run that waits for all jobs is one pass over their slots; the report
    is made of the slots in their order once no job is running any more. -/
theorem poll_runAll (p : Policy) (slots : List Slot) :
    (p.runAll (slots.map Slot.job)).poll =
      if (slots.map Slot.poll).any Slot.isRunning then
        .pending (p.runAll ((slots.map Slot.poll).map Slot.job))
      else .ready (p.collected ((slots.map Slot.poll).map Slot.job)) := by
  have hcollected : p.collected ((slots.map Slot.poll).map Slot.job) =
      p.collected (slots.map Slot.job) := by
    refine collected_congr ?_
    rw [List.map_map, List.map_map, List.map_map]
    refine List.map_congr_left fun slot _ => ?_
    show slot.poll.job.result = slot.job.result
    rw [Slot.job_poll]
  have hrunning : (slots.map Slot.poll).any Slot.isRunning = true ↔
      0 < Job.lastRound (slots.map Slot.job) := by
    rw [Slot.any_isRunning_poll, Job.lastRound_pos]
    simp
  rw [hcollected]
  split
  · next h =>
      have hpos := hrunning.mp h
      refine Job.poll_eq_pending.mpr ⟨?_, hcollected⟩
      show Job.lastRound (slots.map Slot.job) =
        Job.lastRound ((slots.map Slot.poll).map Slot.job) + 1
      rw [Slot.lastRound_poll]
      omega
  · next h =>
      refine Job.poll_eq_ready.mpr ⟨?_, rfl⟩
      show Job.lastRound (slots.map Slot.job) = 0
      by_contra hne
      exact h (hrunning.mpr (by omega))

end Policy

-- ============================================================================
-- Waiting for the first failure
-- ============================================================================

/-- One pass of waiting for the first failure: the slots are polled in their order,
    and the pass ends at the first that fails. -/
def Slot.failurePass : List Slot → Except Failure (List Slot)
  | [] => .ok []
  | slot :: rest =>
    match slot.poll with
    | .ended (.error e) => .error e
    | left => (failurePass rest).map (left :: ·)

namespace Job

variable {job : Job Unit} {jobs : List (Job Unit)} {best : Option (Nat × Failure)} {e : Failure}

/-- A failure is kept as long as no job fails sooner. -/
theorem foldl_earlier_of_le {n : Nat}
    (h : ∀ job ∈ jobs, ∀ m f, job.failure? = some (m, f) → n ≤ m) :
    jobs.foldl earlier (some (n, e)) = some (n, e) := by
  induction jobs with
  | nil => rfl
  | cons job rest ih =>
      obtain ⟨hjob, hrest⟩ := List.forall_mem_cons.mp h
      have hkeep : earlier (some (n, e)) job = some (n, e) := by
        rcases hfail : job.failure? with _ | ⟨m, f⟩
        · simp [earlier, hfail]
        · have hle := hjob m f hfail
          simp [earlier, hfail, Nat.not_lt.mpr hle]
      rw [List.foldl_cons, hkeep, ih hrest]

/-- A job that fails sooner takes the place of the failure found so far. -/
theorem earlier_of_lt {n : Nat} (hfails : job.failure? = some (n, e))
    (hbest : ∀ m f, best = some (m, f) → n < m) : earlier best job = some (n, e) := by
  rcases best with _ | ⟨m, f⟩
  · simp [earlier, hfails]
  · have hlt := hbest m f rfl
    simp [earlier, hfails, hlt]

/-- The first failure is that of a job which no job before it reaches and which no job
    behind it overtakes. -/
theorem firstFailure?_of_splits {before after : List (Job Unit)} {n : Nat}
    (hbefore : ∀ other ∈ before, ∀ m f, other.failure? = some (m, f) → n < m)
    (hfails : job.failure? = some (n, e))
    (hafter : ∀ other ∈ after, ∀ m f, other.failure? = some (m, f) → n ≤ m) :
    firstFailure? (before ++ job :: after) = some (n, e) := by
  have hbest : ∀ m f, before.foldl earlier none = some (m, f) → n < m := by
    intro m f hfound
    rcases foldl_earlier_eq_some hfound with hnone | ⟨other, hmem, hother⟩
    · exact absurd hnone (by simp)
    · exact hbefore other hmem m f hother
  rw [firstFailure?, List.foldl_append, List.foldl_cons, earlier_of_lt hfails hbest,
    foldl_earlier_of_le hafter]

/-- The first failure, seen one round later. -/
def nearer (found : Option (Nat × Failure)) : Option (Nat × Failure) :=
  found.map fun f => (f.1 - 1, f.2)

/-- Failures that come later keep their order when a round passes. -/
theorem earlier_nearer (hbest : ∀ n f, best = some (n, f) → 0 < n)
    (hjob : ∀ n f, job.failure? = some (n, f) → 0 < n) :
    earlier (nearer best) ⟨job.rounds - 1, job.result⟩ = nearer (earlier best job) ∧
      ∀ n f, earlier best job = some (n, f) → 0 < n := by
  have hpassed : failure? ⟨job.rounds - 1, job.result⟩ = nearer job.failure? := by
    rw [failure?, failure?, nearer]
    cases job.result <;> rfl
  constructor
  · rcases hb : best with _ | ⟨m, g⟩ <;> rcases hj : job.failure? with _ | ⟨n, f⟩ <;>
      simp only [earlier, hpassed, hj, nearer, Option.map_none, Option.map_some]
    have hm := hbest m g hb
    have hn := hjob n f hj
    have hlt : n - 1 < m - 1 ↔ n < m := by omega
    simp only [hlt]
    split <;> rfl
  · intro n f h
    rcases earlier_eq_or best job with heq | heq
    · exact hbest n f (heq ▸ h)
    · exact hjob n f (heq ▸ h)

end Job

namespace Slot

/-- A pass finds the failure that the run ends with in this round, or leaves slots
    with the failures that come later, each one round nearer. -/
theorem failurePass_spec (slots : List Slot) {best : Option (Nat × Failure)}
    (hbest : ∀ n f, best = some (n, f) → 0 < n) :
    match failurePass slots with
    | .error e => (slots.map job).foldl Job.earlier best = some (0, e)
    | .ok left => left = slots.map poll ∧
        (left.map job).foldl Job.earlier (Job.nearer best) =
          Job.nearer ((slots.map job).foldl Job.earlier best) ∧
        ∀ n f, (slots.map job).foldl Job.earlier best = some (n, f) → 0 < n := by
  induction slots generalizing best with
  | nil => exact ⟨rfl, rfl, hbest⟩
  | cons slot rest ih =>
      by_cases hnow : ∃ e, slot.job.Ready ∧ slot.job.result = .error e
      · obtain ⟨e, hready, hfails⟩ := hnow
        have hended : slot.poll = .ended (.error e) := by
          cases slot with
          | ended r => exact congrArg ended hfails
          | running job =>
              have hpoll : job.poll = .ready (.error e) :=
                Job.poll_eq_ready.mpr ⟨hready, hfails.symm⟩
              rw [poll, hpoll]
        rw [failurePass, hended]
        simp only [List.map_cons, List.foldl_cons]
        rw [Job.earlier_of_lt (Job.failure?_eq_some.mpr ⟨hready, hfails⟩) hbest,
          Job.foldl_earlier_of_le fun _ _ _ _ _ => Nat.zero_le _]
      · have hlater : ∀ n f, slot.job.failure? = some (n, f) → 0 < n := by
          intro n f h
          obtain ⟨hrounds, hfails⟩ := Job.failure?_eq_some.mp h
          by_contra hzero
          refine hnow ⟨f, ?_, hfails⟩
          show slot.job.rounds = 0
          omega
        have hpass : failurePass (slot :: rest) = (failurePass rest).map (slot.poll :: ·) := by
          rw [failurePass]
          split
          · next e hended =>
              refine absurd ⟨e, ?_, ?_⟩ hnow
              · have hrunning := slot.isRunning_poll
                rw [hended] at hrunning
                have hnot : ¬ 0 < slot.job.rounds := by simpa [isRunning] using hrunning
                show slot.job.rounds = 0
                omega
              · have hjob := slot.job_poll
                rw [hended] at hjob
                exact (congrArg Job.result hjob).symm
          · rfl
        obtain ⟨hnearer, hpositive⟩ := Job.earlier_nearer hbest hlater
        have hrest := ih hpositive
        rw [hpass]
        simp only [List.map_cons, List.foldl_cons]
        cases hpassed : failurePass rest with
        | error e =>
            rw [hpassed] at hrest
            exact hrest
        | ok left =>
            rw [hpassed] at hrest
            obtain ⟨rfl, hfold, hmin⟩ := hrest
            refine ⟨rfl, ?_, hmin⟩
            show ((slot.poll :: rest.map poll).map job).foldl Job.earlier (Job.nearer best) = _
            rw [List.map_cons, List.foldl_cons, job_poll, hnearer]
            exact hfold

end Slot

namespace Policy

variable {p : Policy}

/-- What a run reports of the failure that it stops at. -/
def stopped (p : Policy) : Failure → Failure
  | .violation v => .violation { v with value := p.value }
  | e => e

theorem runFirst_eq (p : Policy) (jobs : List (Job Unit)) :
    p.runFirst jobs =
      match Job.firstFailure? jobs with
      | none => ⟨Job.lastRound jobs, .ok ()⟩
      | some (round, e) => ⟨round, .error (p.stopped e)⟩ := by
  rw [runFirst]
  rcases Job.firstFailure? jobs with _ | ⟨round, e⟩
  · rfl
  · cases e <;> rfl

/-- One poll of a run that waits for the first failure is one pass over the slots,
    which ends with the first job that fails in it. -/
theorem poll_runFirst (p : Policy) (slots : List Slot) :
    (p.runFirst (slots.map Slot.job)).poll =
      match Slot.failurePass slots with
      | .error e => .ready (.error (p.stopped e))
      | .ok left =>
        if left.any Slot.isRunning then .pending (p.runFirst (left.map Slot.job))
        else .ready (.ok ()) := by
  have hspec := @Slot.failurePass_spec slots none (by simp)
  cases hpass : Slot.failurePass slots with
  | error e =>
      rw [hpass] at hspec
      have hfirst : Job.firstFailure? (slots.map Slot.job) = some (0, e) := hspec
      rw [runFirst_eq, hfirst]
      rfl
  | ok left =>
      rw [hpass] at hspec
      obtain ⟨rfl, hnearer, hpositive⟩ := hspec
      have hleft : Job.firstFailure? ((slots.map Slot.poll).map Slot.job) =
          Job.nearer (Job.firstFailure? (slots.map Slot.job)) := hnearer
      have hrunning : (slots.map Slot.poll).any Slot.isRunning = true ↔
          0 < Job.lastRound (slots.map Slot.job) := by
        rw [Slot.any_isRunning_poll, Job.lastRound_pos]
        simp
      have hlast := Slot.lastRound_poll slots
      dsimp only
      rw [runFirst_eq, runFirst_eq, hleft]
      rcases hfound : Job.firstFailure? (slots.map Slot.job) with _ | ⟨n, e⟩
      · simp only [Job.nearer, Option.map_none]
        split
        · next h =>
            have hpos := hrunning.mp h
            refine Job.poll_eq_pending.mpr ⟨?_, rfl⟩
            show Job.lastRound (slots.map Slot.job) =
              Job.lastRound ((slots.map Slot.poll).map Slot.job) + 1
            omega
        · next h =>
            refine Job.poll_eq_ready.mpr ⟨?_, rfl⟩
            show Job.lastRound (slots.map Slot.job) = 0
            by_contra hne
            exact h (hrunning.mpr (by omega))
      · have hpos := hpositive n e hfound
        -- a job that fails later is still running
        have hany : (slots.map Slot.poll).any Slot.isRunning = true := by
          obtain ⟨job, hmem, hrounds, -⟩ := Job.exists_of_firstFailure? hfound
          exact hrunning.mpr (Job.lastRound_pos.mpr ⟨job, hmem, by omega⟩)
        rw [if_pos hany]
        refine Job.poll_eq_pending.mpr ⟨?_, rfl⟩
        show n = n - 1 + 1
        omega

/-- A job that fails at once behind jobs that succeed decides the run, whatever stands
    behind it. -/
theorem runFirst_of_fails_at_once {before after : List (Job Unit)} {job : Job Unit} {e : Failure}
    (hbefore : ∀ other ∈ before, other.result = .ok ()) (hready : job.Ready)
    (hfails : job.result = .error e) :
    p.runFirst (before ++ job :: after) = .fail (p.stopped e) := by
  have hfirst : Job.firstFailure? (before ++ job :: after) = some (0, e) := by
    refine Job.firstFailure?_of_splits (fun other hother m f hfailure => ?_)
      (Job.failure?_eq_some.mpr ⟨hready, hfails⟩) fun _ _ _ _ _ => Nat.zero_le _
    have hnone := Job.failure?_eq_none.mpr (hbefore other hother)
    exact absurd (hnone.symm.trans hfailure) (by simp)
  rw [runFirst_eq, hfirst]
  rfl

/-- A run that stops at the first failure does not depend on the jobs behind one that
    fails at once. -/
theorem runFirst_map_congr {ι : Type} {places : List ι} {f g : ι → Job Unit}
    (hready : ∀ i ∈ places, (g i).Ready)
    (h : ∀ before i after, places = before ++ i :: after →
      (∀ j ∈ before, (g j).result = .ok ()) → f i = g i) :
    p.runFirst (places.map f) = p.runFirst (places.map g) := by
  have hok : ∀ i, ¬ (g i).failure?.isSome = true → (g i).result = .ok () := by
    intro i hi
    exact Job.failure?_eq_none.mp (by simpa using hi)
  cases hfind : places.find? fun i => (g i).failure?.isSome with
  | none =>
      have hall : ∀ i ∈ places, (g i).result = .ok () :=
        fun i hi => hok i (List.find?_eq_none.mp hfind i hi)
      congr 1
      refine List.map_congr_left fun i hi => ?_
      obtain ⟨before, after, hsplit⟩ := List.append_of_mem hi
      refine h before i after hsplit fun j hj => hall j ?_
      rw [hsplit]
      exact List.mem_append_left _ hj
  | some i =>
      obtain ⟨hi, before, after, rfl, hpass⟩ := List.find?_eq_some_iff_append.mp hfind
      have hbefore : ∀ j ∈ before, (g j).result = .ok () :=
        fun j hj => hok j (by simpa using hpass j hj)
      have hsame : ∀ j ∈ before, f j = g j := by
        intro j hj
        obtain ⟨front, back, rfl⟩ := List.append_of_mem hj
        refine h front j (back ++ i :: after) (by simp) fun k hk => hbefore k ?_
        exact List.mem_append_left _ hk
      have hhere : f i = g i := h before i after rfl hbefore
      obtain ⟨⟨n, e⟩, hfailure⟩ := Option.isSome_iff_exists.mp hi
      obtain ⟨-, hfails⟩ := Job.failure?_eq_some.mp hfailure
      have hnow : (g i).Ready := hready i (by simp)
      have hdone : ∀ job ∈ before.map g, job.result = .ok () := by
        intro job hjob
        obtain ⟨j, hj, rfl⟩ := List.mem_map.mp hjob
        exact hbefore j hj
      rw [List.map_append, List.map_append, List.map_cons, List.map_cons, hhere,
        List.map_congr_left hsame, runFirst_of_fails_at_once hdone hnow hfails,
        runFirst_of_fails_at_once hdone hnow hfails]

end Policy

end Conform
