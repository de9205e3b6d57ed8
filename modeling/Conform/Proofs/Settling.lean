/-
  Conform.Proofs.Settling

  Which failure a run ends with, and which jobs it polls. A run that waits for the
  first failure ends with that of the least round, and in one round of the least
  position. Here the polls of a run are kept in a trace: a pass polls the slots that
  are still running, and a job that answered that it is ready has left its slot.
-/

import Conform.Proofs.Polling

namespace Conform

-- ============================================================================
-- The failure that settles first
-- ============================================================================

namespace Job

variable {jobs : List (Job Unit)} {job : Job Unit} {position : Nat} {e : Failure}

/-- Whether a job of a list is the one whose failure settles first: no job fails in an
    earlier round, and none at an earlier position in the same round. -/
structure FailsFirst (jobs : List (Job Unit)) (position : Nat) (job : Job Unit) (e : Failure) :
    Prop where
  here : jobs[position]? = some job
  fails : job.result = .error e
  first : ∀ (other : Job Unit) (n : Nat) (f : Failure), jobs[n]? = some other →
    other.result = .error f →
      job.rounds < other.rounds ∨ job.rounds = other.rounds ∧ position ≤ n

theorem FailsFirst.firstFailure? (h : FailsFirst jobs position job e) :
    Job.firstFailure? jobs = some (job.rounds, e) := by
  obtain ⟨hlt, hjob⟩ := List.getElem?_eq_some_iff.mp h.here
  have hsplit : jobs = jobs.take position ++ job :: jobs.drop (position + 1) := by
    rw [← hjob, List.getElem_cons_drop, List.take_append_drop]
  rw [hsplit]
  refine firstFailure?_of_splits (fun other hmem m f hother => ?_)
    (failure?_eq_some.mpr ⟨rfl, h.fails⟩) fun other hmem m f hother => ?_
  · obtain ⟨hrounds, hfails⟩ := failure?_eq_some.mp hother
    obtain ⟨n, hn, hget⟩ := List.mem_take_iff_getElem.mp hmem
    have hfirst := h.first other n f (List.getElem?_eq_some_iff.mpr ⟨by omega, hget⟩) hfails
    omega
  · obtain ⟨hrounds, hfails⟩ := failure?_eq_some.mp hother
    obtain ⟨n, hget⟩ := List.mem_iff_getElem?.mp (List.mem_of_mem_drop hmem)
    have hfirst := h.first other n f hget hfails
    omega

/-- A job in front settles first if it fails no later than all behind it. -/
theorem FailsFirst.front {rest : List (Job Unit)} (hfails : job.result = .error e)
    (h : ∀ other ∈ rest, ∀ f, other.result = .error f → job.rounds ≤ other.rounds) :
    FailsFirst (job :: rest) 0 job e where
  here := rfl
  fails := hfails
  first := by
    rintro other (_ | n) f hother hf
    · cases hother
      omega
    · have hle := h other (List.mem_of_getElem? hother) f hf
      omega

/-- The first failure stays the first behind a job that does not fail, or fails later. -/
theorem FailsFirst.behind {front : Job Unit} (h : FailsFirst jobs position job e)
    (hfront : ∀ f, front.result = .error f → job.rounds < front.rounds) :
    FailsFirst (front :: jobs) (position + 1) job e where
  here := h.here
  fails := h.fails
  first := by
    rintro other (_ | n) f hother hf
    · cases hother
      exact Or.inl (hfront f hf)
    · have hfirst := h.first other n f hother hf
      omega

/-- If any job fails, one of the failures settles first. -/
theorem exists_failsFirst (h : ∃ job ∈ jobs, ∃ e, job.result = .error e) :
    ∃ position job e, FailsFirst jobs position job e := by
  induction jobs with
  | nil => exact absurd h (by simp)
  | cons front rest ih =>
      by_cases hrest : ∃ job ∈ rest, ∃ e, job.result = .error e
      · obtain ⟨position, job, e, hfirst⟩ := ih hrest
        by_cases hfront : ∃ f, front.result = .error f ∧ front.rounds ≤ job.rounds
        · obtain ⟨f, hf, hle⟩ := hfront
          refine ⟨0, front, f, .front hf fun other hmem g hg => ?_⟩
          obtain ⟨n, hn⟩ := List.mem_iff_getElem?.mp hmem
          have hlater := hfirst.first other n g hn hg
          omega
        · refine ⟨position + 1, job, e, hfirst.behind fun f hf => ?_⟩
          by_contra hle
          exact hfront ⟨f, hf, by omega⟩
      · obtain ⟨job, hmem, e, he⟩ := h
        have hjob : job = front := by
          rcases List.mem_cons.mp hmem with rfl | hlater
          · rfl
          · exact absurd ⟨job, hlater, e, he⟩ hrest
        subst hjob
        exact ⟨0, job, e, .front he fun other hother f hf =>
          absurd ⟨other, hother, f, hf⟩ hrest⟩

end Job

/-- A run that waits for the first failure fails with what it reports of the failure that
    settles first. -/
theorem Policy.runFirst_eq_error_iff {p : Policy} {jobs : List (Job Unit)} {f : Failure} :
    (p.runFirst jobs).result = .error f ↔
      ∃ position job e, Job.FailsFirst jobs position job e ∧ f = p.stopped e := by
  have hreports {position job e} (h : Job.FailsFirst jobs position job e) :
      (p.runFirst jobs).result = .error (p.stopped e) := by
    rw [runFirst_eq, h.firstFailure?]
  constructor
  · intro hf
    have hsome : ∃ job ∈ jobs, ∃ e, job.result = .error e := by
      by_contra hnone
      have hok : (p.runFirst jobs).result = .ok () := by
        refine runFirst_result_eq_ok.mpr fun job hmem => ?_
        cases hr : job.result with
        | ok _ => rfl
        | error e => exact absurd ⟨job, hmem, e, hr⟩ hnone
      exact absurd (hok.symm.trans hf) (by simp)
    obtain ⟨position, job, e, hfirst⟩ := Job.exists_failsFirst hsome
    exact ⟨position, job, e, hfirst, Except.error.inj (hf.symm.trans (hreports hfirst))⟩
  · rintro ⟨position, job, e, hfirst, rfl⟩
    exact hreports hfirst

-- ============================================================================
-- Traces of polls
-- ============================================================================

/-- A poll of the job at a position, and whether the job answered that it is ready. -/
structure Probe where
  position : Nat
  ready : Bool

/-- What a pass over slots comes to: the polls that it makes, and the slots that it leaves
    or the failure that it stops at. -/
structure Pass where
  probes : List Probe
  outcome : Except Failure (List Slot)

/-- A pass with polls and a slot in front of it. -/
def Pass.behind (probes : List Probe) (slot : Slot) (later : Pass) : Pass :=
  ⟨probes ++ later.probes, later.outcome.map (slot :: ·)⟩

theorem Pass.behind_eq_ok {later : Pass} {probes : List Probe} {slot : Slot} {left : List Slot} :
    (later.behind probes slot).outcome = .ok left ↔
      ∃ rest, later.outcome = .ok rest ∧ left = slot :: rest := by
  rw [behind]
  cases later.outcome <;> simp [Except.map, eq_comm]

namespace Slot

/-- A pass over the slots from a position on. Slots that have ended are passed over; a
    failure ends the pass if the run waits for the first one. -/
def pass (abortEarly : Bool) (position : Nat) : List Slot → Pass
  | [] => ⟨[], .ok []⟩
  | .ended r :: rest => (pass abortEarly (position + 1) rest).behind [] (.ended r)
  | .running job :: rest =>
    match job.poll, abortEarly with
    | .pending left, _ =>
      (pass abortEarly (position + 1) rest).behind [⟨position, false⟩] (.running left)
    | .ready (.error e), true => ⟨[⟨position, true⟩], .error e⟩
    | .ready r, _ => (pass abortEarly (position + 1) rest).behind [⟨position, true⟩] (.ended r)

end Slot

namespace Policy

/-- A pass of a run over its slots. -/
def pass (p : Policy) (slots : List Slot) : Pass := Slot.pass p.abortEarly 0 slots

/-- The result of a run once no job of it is running any more. -/
def settled (p : Policy) (slots : List Slot) : Result Unit :=
  if p.abortEarly then .ok () else p.collected (slots.map Slot.job)

/-- Whether the slots of a run are polled with a trace of polls until the run ends with a
    result. -/
inductive Polls (p : Policy) : List Slot → List Probe → Result Unit → Prop where
  | stopped {slots : List Slot} {e : Failure} :
      (p.pass slots).outcome = .error e →
      Polls p slots (p.pass slots).probes (.error (p.stopped e))
  | settled {slots left : List Slot} :
      (p.pass slots).outcome = .ok left → left.any Slot.isRunning = false →
      Polls p slots (p.pass slots).probes (p.settled left)
  | again {slots left : List Slot} {later : List Probe} {r : Result Unit} :
      (p.pass slots).outcome = .ok left → left.any Slot.isRunning = true →
      Polls p left later r → Polls p slots ((p.pass slots).probes ++ later) r

end Policy

-- ============================================================================
-- Passes
-- ============================================================================

/-- Whether a poll is one of a running job among slots that begin at a position, answered
    as the job stands. -/
inductive Probe.Fits (probe : Probe) (start : Nat) (slots : List Slot) : Prop where
  | intro {n : Nat} {job : Job Unit} : probe.position = start + n →
      slots[n]? = some (.running job) → (probe.ready = true ↔ job.Ready) → Fits probe start slots

theorem Probe.Fits.behind {probe : Probe} {start : Nat} {slot : Slot} {rest : List Slot}
    (h : probe.Fits (start + 1) rest) : probe.Fits start (slot :: rest) := by
  obtain @⟨n, job, hposition, hslot, hready⟩ := h
  exact .intro (n := n + 1) (by omega) hslot hready

/-- Whether a slot holds no failure. -/
def Slot.Unfailed (slot : Slot) : Prop := ∀ e, slot ≠ .ended (.error e)

namespace Slot

variable {abortEarly : Bool} {start : Nat} {slots left : List Slot}

/-- A pass polls only jobs that are running. -/
theorem fits_of_mem_pass {probe : Probe} (h : probe ∈ (pass abortEarly start slots).probes) :
    probe.Fits start slots := by
  fun_induction pass abortEarly start slots with
  | case1 => exact absurd h (by simp)
  | case2 start r rest ih => exact (ih h).behind
  | case3 start job rest left hpoll ih =>
      rcases List.mem_cons.mp h with rfl | hlater
      · have hrounds := (Job.poll_eq_pending.mp hpoll).1
        refine .intro (n := 0) rfl rfl ?_
        simp [Job.Ready, hrounds]
      · exact (ih hlater).behind
  | case4 start job rest e _ hpoll =>
      cases List.mem_singleton.mp h
      exact .intro (n := 0) rfl rfl (by simp [(Job.poll_eq_ready.mp hpoll).1])
  | case5 start job rest r hpoll _ ih =>
      rcases List.mem_cons.mp h with rfl | hlater
      · exact .intro (n := 0) rfl rfl (by simp [(Job.poll_eq_ready.mp hpoll).1])
      · exact (ih hlater).behind

/-- A pass polls the jobs in their order. -/
theorem pairwise_pass :
    (pass abortEarly start slots).probes.Pairwise fun a b => a.position < b.position := by
  have hbehind {start ready} {rest : List Slot} (b : Probe)
      (hb : b ∈ (pass abortEarly (start + 1) rest).probes) :
      (⟨start, ready⟩ : Probe).position < b.position := by
    obtain ⟨hposition, -, -⟩ := fits_of_mem_pass hb
    show start < b.position
    omega
  fun_induction pass abortEarly start slots with
  | case1 => exact .nil
  | case2 start r rest ih => exact ih
  | case3 start job rest left hpoll ih => exact .cons hbehind ih
  | case4 start job rest e _ hpoll => exact .cons (by simp) .nil
  | case5 start job rest r hpoll _ ih => exact .cons hbehind ih

/-- A pass that does not stop polls every slot once. -/
theorem left_of_pass (h : (pass abortEarly start slots).outcome = .ok left) :
    left = slots.map poll := by
  fun_induction pass abortEarly start slots generalizing left with
  | case1 =>
      cases h
      rfl
  | case2 start r rest ih =>
      obtain ⟨after, hafter, rfl⟩ := Pass.behind_eq_ok.mp h
      rw [ih hafter]
      rfl
  | case3 start job rest later hpoll ih =>
      obtain ⟨after, hafter, rfl⟩ := Pass.behind_eq_ok.mp h
      rw [ih hafter, List.map_cons, poll, hpoll]
  | case4 start job rest e _ hpoll => exact absurd h (by simp)
  | case5 start job rest r hpoll _ ih =>
      obtain ⟨after, hafter, rfl⟩ := Pass.behind_eq_ok.mp h
      rw [ih hafter, List.map_cons, poll, hpoll]

/-- A pass of a run that collects all failures does not stop. -/
theorem pass_of_collects (start : Nat) (slots : List Slot) :
    (pass false start slots).outcome = .ok (slots.map poll) := by
  have hpasses : ∃ left, (pass false start slots).outcome = .ok left := by
    fun_induction pass false start slots with
    | case1 => exact ⟨[], rfl⟩
    | case2 start r rest ih => exact ih.imp' _ fun _ h => Pass.behind_eq_ok.mpr ⟨_, h, rfl⟩
    | case3 start job rest left hpoll ih =>
        exact ih.imp' _ fun _ h => Pass.behind_eq_ok.mpr ⟨_, h, rfl⟩
    | case4 => contradiction
    | case5 start job rest r hpoll _ ih =>
        exact ih.imp' _ fun _ h => Pass.behind_eq_ok.mpr ⟨_, h, rfl⟩
  obtain ⟨left, hleft⟩ := hpasses
  rw [hleft, left_of_pass hleft]

/-- A pass of a run that waits for the first failure stops where it finds one. -/
theorem pass_of_abortEarly (h : ∀ slot ∈ slots, slot.Unfailed) (start : Nat) :
    (pass true start slots).outcome = failurePass slots := by
  fun_induction pass true start slots with
  | case1 => rfl
  | case2 start r rest ih =>
      obtain ⟨hslot, hrest⟩ := List.forall_mem_cons.mp h
      cases r with
      | ok _ =>
          rw [failurePass, ← ih hrest]
          rfl
      | error e => exact absurd rfl (hslot e)
  | case3 start job rest left hpoll ih =>
      rw [failurePass, poll, hpoll, ← ih (List.forall_mem_cons.mp h).2]
      rfl
  | case4 start job rest e _ hpoll => rw [failurePass, poll, hpoll]
  | case5 start job rest r hpoll hok ih =>
      rw [failurePass, poll, hpoll, ← ih (List.forall_mem_cons.mp h).2]
      cases r with
      | ok _ => rfl
      | error e => exact absurd rfl (hok e rfl)

/-- No slot that a pass leaves holds a failure, if the run waits for the first one. -/
theorem unfailed_of_failurePass (h : failurePass slots = .ok left) :
    ∀ slot ∈ left, slot.Unfailed := by
  induction slots generalizing left with
  | nil =>
      cases h
      exact fun _ hmem => absurd hmem (by simp)
  | cons slot rest ih =>
      rw [failurePass] at h
      split at h
      · exact absurd h (by simp)
      · next hunfailed =>
          cases hrest : failurePass rest with
          | error e => simp [hrest, Except.map] at h
          | ok after =>
              simp only [hrest, Except.map, Except.ok.injEq] at h
              rw [← h]
              exact List.forall_mem_cons.mpr ⟨fun e he => hunfailed e he, ih hrest⟩

end Slot

-- ============================================================================
-- Runs
-- ============================================================================

namespace Policy

variable {p : Policy} {slots : List Slot} {trace : List Probe} {r : Result Unit}

/-- Whether the slots of a run are such as its passes leave: none holds a failure, if the run
    waits for the first one. -/
def Awaits (p : Policy) (slots : List Slot) : Prop :=
  p.abortEarly = true → ∀ slot ∈ slots, slot.Unfailed

theorem awaits_running (p : Policy) (jobs : List (Job Unit)) : p.Awaits (jobs.map .running) := by
  intro _ slot hmem
  obtain ⟨job, -, rfl⟩ := List.mem_map.mp hmem
  exact fun e => nofun

theorem Awaits.left {left : List Slot} (h : p.Awaits slots)
    (hpass : (p.pass slots).outcome = .ok left) : p.Awaits left := by
  intro habort
  rw [pass, habort, Slot.pass_of_abortEarly (h habort)] at hpass
  exact Slot.unfailed_of_failurePass hpass

/-- One poll of a run is one pass over its slots. -/
theorem poll_run (h : p.Awaits slots) :
    (p.run (slots.map Slot.job)).poll =
      match (p.pass slots).outcome with
      | .error e => .ready (.error (p.stopped e))
      | .ok left =>
        if left.any Slot.isRunning then .pending (p.run (left.map Slot.job))
        else .ready (p.settled left) := by
  rw [pass]
  cases habort : p.abortEarly with
  | true =>
      rw [run_of_abortEarly habort, poll_runFirst, Slot.pass_of_abortEarly (h habort)]
      cases Slot.failurePass slots with
      | error e => rfl
      | ok left => simp only [run_of_abortEarly habort, settled, habort, if_true]
  | false =>
      have hrun (jobs : List (Job Unit)) : p.run jobs = p.runAll jobs := by
        rw [run, habort]
        rfl
      rw [hrun, poll_runAll, Slot.pass_of_collects]
      simp only [hrun, settled, habort, Bool.false_eq_true, if_false]

/-- The polls of a run end with its result. -/
theorem Polls.result_eq (h : p.Polls slots trace r) (hslots : p.Awaits slots) :
    r = (p.run (slots.map Slot.job)).result := by
  refine Job.ends_iff.mp ?_
  induction h with
  | stopped hpass => exact .ready (by rw [poll_run hslots, hpass])
  | settled hpass hrunning => exact .ready (by rw [poll_run hslots, hpass]; simp [hrunning])
  | again hpass hrunning _ ih =>
      exact .pending (by rw [poll_run hslots, hpass]; exact if_pos hrunning)
        (ih (hslots.left hpass))

/-- A run is polled until it ends. -/
theorem exists_polls (hslots : p.Awaits slots) :
    ∃ trace, p.Polls slots trace (p.run (slots.map Slot.job)).result := by
  have hends : (p.run (slots.map Slot.job)).Ends (p.run (slots.map Slot.job)).result :=
    Job.ends_iff.mpr rfl
  generalize (p.run (slots.map Slot.job)).result = r at hends ⊢
  generalize hrun : p.run (slots.map Slot.job) = work at hends
  induction hends generalizing slots with
  | ready hpoll =>
      rw [← hrun, poll_run hslots] at hpoll
      cases hpass : (p.pass slots).outcome with
      | error e =>
          rw [hpass] at hpoll
          cases hpoll
          exact ⟨_, .stopped hpass⟩
      | ok left =>
          simp only [hpass] at hpoll
          split at hpoll
          · exact absurd hpoll (by simp)
          · next hrunning =>
              cases hpoll
              exact ⟨_, .settled hpass (by simpa using hrunning)⟩
  | pending hpoll _ ih =>
      rw [← hrun, poll_run hslots] at hpoll
      cases hpass : (p.pass slots).outcome with
      | error e => simp [hpass] at hpoll
      | ok left =>
          simp only [hpass] at hpoll
          split at hpoll
          · next hrunning =>
              cases hpoll
              obtain ⟨later, hlater⟩ := ih (hslots.left hpass) rfl
              exact ⟨_, .again hpass hrunning hlater⟩
          · exact absurd hpoll (by simp)

/-- A pass of a run polls jobs that are running, and they answer as they stand. -/
theorem running_of_mem_pass {probe : Probe} (h : probe ∈ (p.pass slots).probes) :
    ∃ job, slots[probe.position]? = some (.running job) ∧ (probe.ready = true ↔ job.Ready) := by
  obtain @⟨n, job, hposition, hslot, hready⟩ := Slot.fits_of_mem_pass h
  rw [Nat.zero_add] at hposition
  exact ⟨job, hposition ▸ hslot, hready⟩

/-- Only jobs that are running at the start of a run are polled in it. -/
theorem Polls.running (h : p.Polls slots trace r) :
    ∀ probe ∈ trace, ∃ job, slots[probe.position]? = some (.running job) := by
  have hnow {slots : List Slot} {probe : Probe} (hmem : probe ∈ (p.pass slots).probes) :
      ∃ job, slots[probe.position]? = some (.running job) :=
    (running_of_mem_pass hmem).imp fun _ h => h.1
  induction h with
  | stopped _ => exact fun _ hmem => hnow hmem
  | settled _ _ => exact fun _ hmem => hnow hmem
  | @again slots left later r hpass _ _ ih =>
      intro probe hmem
      rcases List.mem_append.mp hmem with hprobe | hlater
      · exact hnow hprobe
      · obtain ⟨job, hjob⟩ := ih probe hlater
        rw [Slot.left_of_pass hpass, List.getElem?_map] at hjob
        obtain ⟨slot, hslot, hpoll⟩ := Option.map_eq_some_iff.mp hjob
        cases slot with
        | running job => exact ⟨job, hslot⟩
        | ended r => exact absurd hpoll (by simp [Slot.poll])

/-- No job is polled again after it answered that it is ready. -/
theorem Polls.never_again (h : p.Polls slots trace r) :
    trace.Pairwise fun a b => a.ready = true → a.position ≠ b.position := by
  have hnow (slots : List Slot) :
      (p.pass slots).probes.Pairwise fun a b => a.ready = true → a.position ≠ b.position := by
    refine Slot.pairwise_pass.imp ?_
    intro a b hlt _
    exact Nat.ne_of_lt hlt
  induction h with
  | stopped _ => exact hnow _
  | settled _ _ => exact hnow _
  | @again slots left later r hpass _ hpolls ih =>
      refine List.pairwise_append.mpr ⟨hnow slots, ih, fun a ha b hb hready heq => ?_⟩
      -- the pass has taken the job of `a` out of its slot, and `b` needs one that is running
      obtain ⟨job, hslot, hanswer⟩ := running_of_mem_pass ha
      obtain ⟨other, hother⟩ := hpolls.running b hb
      have hended : (Slot.running job).poll = .ended job.result := by
        rw [Slot.poll, Job.poll_eq_ready.mpr ⟨hanswer.mp hready, rfl⟩]
      rw [← heq, Slot.left_of_pass hpass, List.getElem?_map, hslot, Option.map_some,
        hended] at hother
      exact absurd hother (by simp)

/-- Jobs that run together are polled until the run ends, with its result. A run that waits
    for the first failure succeeds exactly if all its jobs do, and else reports the failure of
    the job that fails in the least round and, in this round, at the least position. Under
    either policy no job is polled again after it answered that it is ready. -/
theorem run_settles (p : Policy) (jobs : List (Job Unit)) :
    (∃ trace, p.Polls (jobs.map .running) trace (p.run jobs).result) ∧
      ∀ trace r, p.Polls (jobs.map .running) trace r → r = (p.run jobs).result ∧
        (p.abortEarly = true →
          (r = .ok () ↔ ∀ job ∈ jobs, job.result = .ok ()) ∧
          ∀ f, r = .error f ↔
            ∃ position job e, Job.FailsFirst jobs position job e ∧ f = p.stopped e) ∧
        trace.Pairwise fun a b => a.ready = true → a.position ≠ b.position := by
  have hjobs : (jobs.map Slot.running).map Slot.job = jobs := by
    rw [List.map_map]
    exact List.map_id jobs
  constructor
  · have hpolls := exists_polls (p.awaits_running jobs)
    rwa [hjobs] at hpolls
  · intro trace r h
    have hresult := h.result_eq (p.awaits_running jobs)
    rw [hjobs] at hresult
    refine ⟨hresult, fun habort => ?_, h.never_again⟩
    rw [run_of_abortEarly habort] at hresult
    rw [hresult]
    exact ⟨runFirst_result_eq_ok, fun f => runFirst_eq_error_iff⟩

/-- Three fields: one fails late, one is accepted, and one fails early. -/
def slowFields : List (Job Unit) :=
  [⟨60, .error (.violation (.leaf "a is invalid" none (some "a") (some "slowA")))⟩,
    ⟨20, .ok ()⟩,
    ⟨5, .error (.violation (.leaf "c is invalid" none (some "c") (some "slowC")))⟩]

/-- The run ends with the failure of the last field, which settles first, with the value of
    the run in place of its own. -/
theorem run_settles_slowFields :
    ∃ trace, (plain true (some .null) none).Polls (slowFields.map .running) trace
        (.error (.violation (.leaf "c is invalid" (some .null) (some "c") (some "slowC")))) ∧
      trace.Pairwise fun a b => a.ready = true → a.position ≠ b.position := by
  obtain ⟨⟨trace, htrace⟩, hends⟩ := run_settles (plain true (some .null) none) slowFields
  obtain ⟨-, hfails, hnever⟩ := hends trace _ htrace
  have hfirst : Job.FailsFirst slowFields 2 slowFields[2]
      (.violation (.leaf "c is invalid" none (some "c") (some "slowC"))) := by
    refine ⟨rfl, rfl, ?_⟩
    rintro other (_ | _ | _ | n) f hother hf
    · cases hother
      exact Or.inl (by decide)
    · cases hother
      exact absurd hf (by simp)
    · exact Or.inr ⟨congrArg Job.rounds (Option.some.inj hother), Nat.le_refl 2⟩
    · exact absurd hother (by simp [slowFields])
  have hresult := ((hfails rfl).2 _).mpr ⟨2, _, _, hfirst, rfl⟩
  rw [hresult] at htrace
  exact ⟨trace, htrace, hnever⟩

end Policy

end Conform
