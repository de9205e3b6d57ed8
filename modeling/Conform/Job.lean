/-
  Conform.Job

  Units of validation work that may take time. Work is polled in rounds; what
  can be observed of it is how many rounds it is not ready for, and its result
  after that.
-/

import Conform.Failure

namespace Conform

/-- Work that is not ready for `rounds` polls and then gives its result. -/
structure Job (α : Type) where
  rounds : Nat
  result : Result α

namespace Job

variable {α β : Type}

/-- Work that is done at once. -/
def done (result : Result α) : Job α := ⟨0, result⟩

def pure (a : α) : Job α := done (.ok a)

def fail (e : Failure) : Job α := done (.error e)

/-- Work that starts when other work has succeeded. -/
def bind (job : Job α) (next : α → Job β) : Job β :=
  match job.result with
  | .ok a =>
    let later := next a
    ⟨job.rounds + later.rounds, later.result⟩
  | .error e => ⟨job.rounds, .error e⟩

instance : Monad Job where
  pure := Job.pure
  bind := Job.bind

/-- The same work with its answer dropped. -/
def discard (job : Job α) : Job Unit := ⟨job.rounds, job.result.map fun _ => ()⟩

/-- The failure of a job and the round it comes in. -/
def failure? (job : Job α) : Option (Nat × Failure) :=
  match job.result with
  | .ok _ => none
  | .error e => some (job.rounds, e)

/-- The earlier of the failure found so far and that of a job; in one round the
    order of jobs decides. -/
def earlier (best : Option (Nat × Failure)) (job : Job Unit) : Option (Nat × Failure) :=
  match best, job.failure? with
  | none, later => later
  | some best, none => some best
  | some best, some later => if later.1 < best.1 then some later else some best

/-- The failure that comes first. -/
def firstFailure? (jobs : List (Job Unit)) : Option (Nat × Failure) := jobs.foldl earlier none

/-- The round in which the last job is ready. -/
def lastRound (jobs : List (Job Unit)) : Nat := jobs.foldl (fun n job => max n job.rounds) 0

end Job

end Conform
