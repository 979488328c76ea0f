import RuleBlocks.Named
import RuleBlocks.Search.Job

/-!
# Jobs in time

All jobs with the clock and what is due to happen to them. The clock counts milliseconds and is
moved by whoever waits; what is due happens in the order of the due times, and of two things due at
one time the one that was armed first happens first.

A deadline is a task of its own. To set it is not to start it: its time begins when the task has its
first turn, and tasks have a turn when somebody waits or gives way to them. As long as a deadline
is pending the clock may move without it.

Main definitions:

* `Timer`, `Deadline`, `JobBoard` — the jobs, the clock, the armed timers and pending deadlines;
* `JobBoard.finish`, `JobBoard.cancel` — end a job by its id;
* `JobBoard.turn` — let all tasks have a turn, so that pending deadlines start;
* `JobBoard.jump`, `JobBoard.advance` — let the clock jump, before tasks have a turn or after;
* `JobBoard.wait` — wait for a job to end, for a limited time.
-/

namespace RuleBlocks

/-- What happens to a job when a timer is due. -/
inductive TimerEffect
  /-- Cancel the job, unless its token has been cancelled. -/
  | deadline
  /-- End the job; a worker that heeds the token does nothing once that is cancelled. -/
  | finish (outcome : JobStatus) (heedsToken : Bool)
deriving Repr

structure Timer where
  due : Nat
  job : String
  effect : TimerEffect
deriving Repr

/-- A deadline that was set, and whose task has not had a turn. -/
structure Deadline where
  /-- Milliseconds from the first turn of the task on. -/
  after : Nat
  job : String
deriving Repr

structure JobBoard where
  /-- Milliseconds since the start. -/
  now : Nat
  jobs : Named SearchJob
  /-- In the order in which they were armed. -/
  timers : List Timer
  /-- Deadlines that have not started, in the order in which they were set. -/
  pending : List Deadline
deriving Repr

namespace JobBoard

def empty : JobBoard :=
  { now := 0, jobs := .empty, timers := [], pending := [] }

def find? (b : JobBoard) (id : String) : Option SearchJob :=
  b.jobs.find? id

def add (b : JobBoard) (j : SearchJob) : JobBoard :=
  { b with jobs := b.jobs.insert j.id j }

def isFinished (b : JobBoard) (id : String) : Bool :=
  (b.find? id).any (·.isFinished)

-- ---------------------------------------------------------------------------
-- Changing a job
-- ---------------------------------------------------------------------------

/-- Apply a change to the job of an id; there is no answer if there is no such job. -/
def change {α : Type} (b : JobBoard) (id : String) (f : SearchJob → α × SearchJob) :
    Option α × JobBoard :=
  match b.find? id with
  | none => (none, b)
  | some j => let (answer, j) := f j; (some answer, { b with jobs := b.jobs.insert id j })

/-- End a job; tells whether it was running. -/
def finish (b : JobBoard) (id : String) (outcome : JobStatus) : Option Bool × JobBoard :=
  b.change id (·.finish outcome)

/-- Cancel a job; tells whether it was running. -/
def cancel (b : JobBoard) (id : String) : Option Bool × JobBoard :=
  b.change id (·.cancel)

def cancelToken (b : JobBoard) (id : String) : JobBoard :=
  (b.change id fun j => ((), j.cancelToken)).2

-- ---------------------------------------------------------------------------
-- Timers
-- ---------------------------------------------------------------------------

/-- Let something happen to a job after the given number of milliseconds. -/
def arm (b : JobBoard) (after : Nat) (job : String) (effect : TimerEffect) : JobBoard :=
  { b with timers := b.timers ++ [{ due := b.now + after, job, effect }] }

/-- What a timer does, now that it is due. -/
def fire (b : JobBoard) (t : Timer) : JobBoard :=
  let tokenCancelled := (b.find? t.job).any (·.tokenCancelled)
  match t.effect with
  | .deadline => if tokenCancelled then b else (b.cancel t.job).2
  | .finish outcome heedsToken =>
    if heedsToken && tokenCancelled then b else (b.finish t.job outcome).2

/-- Timers in the order in which they are due. -/
def inOrder (timers : List Timer) : List Timer :=
  timers.mergeSort fun s t => s.due ≤ t.due

/-- Let everything happen that is due by the given time. Nothing that happens arms a timer. -/
def settle (b : JobBoard) (time : Nat) : JobBoard :=
  let due := inOrder (b.timers.filter fun t => t.due ≤ time)
  due.foldl fire { b with timers := b.timers.filter fun t => !(t.due ≤ time) }

-- ---------------------------------------------------------------------------
-- Tasks
-- ---------------------------------------------------------------------------

/-- Let a job be cancelled after the given number of milliseconds, by a task of its own. -/
def setDeadline (b : JobBoard) (after : Nat) (job : String) : JobBoard :=
  { b with pending := b.pending ++ [{ after, job }] }

/-- The first turn of the task of a deadline arms its timer. If the token is cancelled by then, the
task ends at once. -/
def startDeadline (b : JobBoard) (d : Deadline) : JobBoard :=
  if (b.find? d.job).any (·.tokenCancelled) then b else b.arm d.after d.job .deadline

/-- Let all tasks have a turn. -/
def turn (b : JobBoard) : JobBoard :=
  b.pending.foldl startDeadline { b with pending := [] }

/-- Let a worker end a job after the given number of milliseconds; after none, at once. -/
def finishLater (b : JobBoard) (after : Nat) (job : String) (outcome : JobStatus)
    (heedsToken : Bool) : JobBoard :=
  (b.turn.arm after job (.finish outcome heedsToken)).settle b.now

-- ---------------------------------------------------------------------------
-- The clock
-- ---------------------------------------------------------------------------

/-- Move the clock to a time, unless it is past it, and let all happen that is due by then. -/
def advanceTo (b : JobBoard) (time : Nat) : JobBoard :=
  { b with now := max b.now time }.settle time

/-- Let the clock jump, and then all tasks have a turn. -/
def jump (b : JobBoard) (ms : Nat) : JobBoard :=
  (b.advanceTo (b.now + ms)).turn

/-- Let all tasks have a turn before the clock jumps, too. -/
def advance (b : JobBoard) (ms : Nat) : JobBoard :=
  b.turn.jump ms

/-- Wait until a job has ended, at most the given number of milliseconds. The clock stops at the
moment when the job ends; waiting for no time at all does not move it. -/
def wait (b : JobBoard) (id : String) (ms : Nat) : JobBoard :=
  if ms = 0 || b.isFinished id then b
  else
    let b := b.turn
    let deadline := b.now + ms
    let moments := ((inOrder b.timers).map (·.due)).filter (· ≤ deadline) ++ [deadline]
    moments.foldl (fun b time => if b.isFinished id then b else b.advanceTo time) b

end JobBoard

end RuleBlocks
