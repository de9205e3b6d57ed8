/-
  Conform.Policy

  Independent jobs combined under one of two policies: the first failure wins,
  or all violations are collected into one.
-/

import Conform.Job

namespace Conform

/-- How the failures of a list of jobs are reported. -/
structure Policy where
  abortEarly : Bool
  /-- The value that a report carries. -/
  value : Option Value
  /-- The path that a collection carries. -/
  path : Option String
  /-- Violations found before, reported behind those of the jobs. -/
  before : List Violation
  /-- The place of a violation among those collected; equal places keep the
      order of their jobs. -/
  rank : Violation → Nat

namespace Policy

/-- Nothing found before, and no reordering. -/
def plain (abortEarly : Bool) (value : Option Value) (path : Option String) : Policy :=
  ⟨abortEarly, value, path, [], fun _ => 0⟩

/-- The violations among results, unless a failure of another kind is there:
    the first of those wins. -/
def violations : List (Job Unit) → Result (List Violation)
  | [] => .ok []
  | job :: rest =>
    match job.result with
    | .ok _ => violations rest
    | .error (.violation v) => (violations rest).map (v :: ·)
    | .error e => .error e

/-- Violations in the order of their places; equal places keep their order. -/
def sortRanked (p : Policy) (found : List Violation) : List Violation :=
  ((found.map fun v => (p.rank v, v)).mergeSort fun a b => a.1 ≤ b.1).map Prod.snd

/-- The report when the first failure wins. -/
def runFirst (p : Policy) (jobs : List (Job Unit)) : Job Unit :=
  match Job.firstFailure? jobs with
  | none => ⟨Job.lastRound jobs, .ok ()⟩
  | some (round, .violation v) => ⟨round, .error (.violation { v with value := p.value })⟩
  | some (round, e) => ⟨round, .error e⟩

/-- The result when all failures are collected. -/
def collected (p : Policy) (jobs : List (Job Unit)) : Result Unit := do
  let found ← violations jobs
  let all := p.sortRanked found ++ p.before
  if all.isEmpty then return ()
  else .error (.violation (Violation.collect all p.value p.path))

/-- The report when all failures are collected: every job is waited for. -/
def runAll (p : Policy) (jobs : List (Job Unit)) : Job Unit :=
  ⟨Job.lastRound jobs, p.collected jobs⟩

/-- Runs independent jobs together. -/
def run (p : Policy) (jobs : List (Job Unit)) : Job Unit :=
  if p.abortEarly then p.runFirst jobs else p.runAll jobs

end Policy

end Conform
