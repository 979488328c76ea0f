import RuleBlocks.Search.Board

/-!
# What time does to jobs

Jobs end, are cancelled, their deadlines start and their timers fire. Whatever happens on a board,
the clock does not go back, no job comes or goes, and a job keeps its id and its owner.

* `JobBoard.LeadsTo` — the relation between a board and what becomes of it;
* `JobBoard.find?_change`, `JobBoard.fire_cases` — what a change and a timer do to the jobs;
* `JobBoard.leadsTo_change` — changing a job that keeps its identity is such a step;
* `JobBoard.leadsTo_settle`, `JobBoard.leadsTo_advance`, `JobBoard.leadsTo_wait` — so is everything
  that the passing of time brings about;
* `BoardEvent` — what happens to jobs without the service; all of it leads from a board to a later
  one.
-/

namespace RuleBlocks

namespace SearchJob

/-- What never changes about a job: its id and its owner. -/
def identity (j : SearchJob) : String × String :=
  (j.id, j.owner)

/-- Ending a job changes its status alone. -/
theorem identity_finish (j : SearchJob) (outcome : JobStatus) :
    (j.finish outcome).2.identity = j.identity := by
  unfold finish
  split <;> rfl

theorem identity_cancelToken (j : SearchJob) : j.cancelToken.identity = j.identity := rfl

/-- Cancelling a job changes its status and its token. -/
theorem identity_cancel (j : SearchJob) : j.cancel.2.identity = j.identity :=
  identity_finish j .cancelled

end SearchJob

namespace JobBoard

/-- One board becomes another as time passes. -/
structure LeadsTo (b later : JobBoard) : Prop where
  clock : b.now ≤ later.now
  identity : ∀ id, (later.find? id).map SearchJob.identity = (b.find? id).map SearchJob.identity

variable {b c d : JobBoard}

/-- No time at all may pass. -/
theorem LeadsTo.refl (b : JobBoard) : b.LeadsTo b :=
  ⟨Nat.le_refl _, fun _ => rfl⟩

/-- What comes later than later is later. -/
theorem LeadsTo.trans (h : b.LeadsTo c) (h' : c.LeadsTo d) : b.LeadsTo d :=
  ⟨Nat.le_trans h.clock h'.clock, fun id => (h'.identity id).trans (h.identity id)⟩

/-- Timers and deadlines may come and go, and the clock may move on. -/
theorem leadsTo_of_jobs_eq (hJobs : c.jobs = b.jobs) (hClock : b.now ≤ c.now) : b.LeadsTo c :=
  ⟨hClock, fun id => by rw [find?, hJobs, find?]⟩

/-- One step after another leads on. -/
theorem leadsTo_foldl {α : Type} {f : JobBoard → α → JobBoard}
    (h : ∀ (b : JobBoard) x, b.LeadsTo (f b x)) (xs : List α) (b : JobBoard) :
    b.LeadsTo (xs.foldl f b) := by
  induction xs generalizing b with
  | nil => exact .refl b
  | cons x rest ih => exact (h b x).trans (ih (f b x))

/-- The job that an id leads to later is the one it leads to now. -/
theorem LeadsTo.exists_find? (h : b.LeadsTo c) {id : String} {j : SearchJob}
    (hFind : b.find? id = some j) : ∃ k, c.find? id = some k ∧ k.identity = j.identity := by
  have hIdentity := h.identity id
  rw [hFind, Option.map_some, Option.map_eq_some_iff] at hIdentity
  exact hIdentity

-- ---------------------------------------------------------------------------
-- Changing a job
-- ---------------------------------------------------------------------------

/-- A change to the job of an id leaves the other jobs alone, and makes none. -/
theorem find?_change {α : Type} (b : JobBoard) (id other : String) (f : SearchJob → α × SearchJob) :
    (b.change id f).2.find? other =
      (b.find? other).map fun j => if id = other then (f j).2 else j := by
  unfold change
  -- the job of the id is replaced by what becomes of it, any other job stays
  by_cases hSame : id = other
  · subst hSame
    cases hFind : b.find? id with
    | none => exact hFind
    | some j =>
      change (b.jobs.insert id (f j).2).find? id = _
      rw [Named.find?_insert, if_pos rfl, Option.map_some, if_pos rfl]
  · simp only [if_neg hSame, Option.map_id']
    cases b.find? id with
    | none => rfl
    | some j =>
      change (b.jobs.insert id (f j).2).find? other = _
      rw [Named.find?_insert, if_neg (Ne.symm hSame), find?]

/-- Changing a job takes no time, and arms, disarms and starts nothing. -/
theorem exists_change {α : Type} (b : JobBoard) (id : String) (f : SearchJob → α × SearchJob) :
    ∃ jobs, (b.change id f).2 = { b with jobs } := by
  unfold change
  cases b.find? id with
  | none => exact ⟨b.jobs, rfl⟩
  | some j => exact ⟨b.jobs.insert id (f j).2, rfl⟩

/-- **A change that keeps the identity of jobs leads on.** -/
theorem leadsTo_change {α : Type} (b : JobBoard) (id : String) {f : SearchJob → α × SearchJob}
    (h : ∀ j, (f j).2.identity = j.identity) : b.LeadsTo (b.change id f).2 := by
  obtain ⟨jobs, hBoard⟩ := b.exists_change id f
  refine ⟨Nat.le_of_eq (congrArg now hBoard).symm, fun other => ?_⟩
  have hSame : ∀ j : SearchJob, (if id = other then (f j).2 else j).identity = j.identity := by
    intro j
    split
    · exact h j
    · rfl
  rw [find?_change, Option.map_map]
  exact congrArg (fun g => (b.find? other).map g) (funext hSame)

/-- To end a job leads on. -/
theorem leadsTo_finish (b : JobBoard) (id : String) (outcome : JobStatus) :
    b.LeadsTo (b.finish id outcome).2 :=
  b.leadsTo_change id fun j => j.identity_finish outcome

/-- To cancel a job leads on. -/
theorem leadsTo_cancel (b : JobBoard) (id : String) : b.LeadsTo (b.cancel id).2 :=
  b.leadsTo_change id SearchJob.identity_cancel

/-- To cancel a token leads on. -/
theorem leadsTo_cancelToken (b : JobBoard) (id : String) : b.LeadsTo (b.cancelToken id) :=
  b.leadsTo_change id SearchJob.identity_cancelToken

-- ---------------------------------------------------------------------------
-- Timers, tasks and the clock
-- ---------------------------------------------------------------------------

/-- To arm a timer leads on: the jobs stay as they are. -/
theorem leadsTo_arm (b : JobBoard) (after : Nat) (job : String) (effect : TimerEffect) :
    b.LeadsTo (b.arm after job effect) :=
  leadsTo_of_jobs_eq rfl (Nat.le_refl _)

/-- A timer that goes off does nothing, or cancels the job, or ends it. -/
theorem fire_cases (b : JobBoard) (t : Timer) :
    b.fire t = b ∨ b.fire t = (b.cancel t.job).2 ∨
      ∃ outcome, b.fire t = (b.finish t.job outcome).2 := by
  unfold fire
  cases t.effect with
  | deadline =>
    dsimp only
    split
    · exact .inl rfl
    · exact .inr (.inl rfl)
  | finish outcome heedsToken =>
    dsimp only
    split
    · exact .inl rfl
    · exact .inr (.inr ⟨outcome, rfl⟩)

/-- A timer that goes off leads on. -/
theorem leadsTo_fire (b : JobBoard) (t : Timer) : b.LeadsTo (b.fire t) := by
  obtain hSame | hCancel | ⟨outcome, hFinish⟩ := b.fire_cases t
  · rw [hSame]
    exact .refl b
  · rw [hCancel]
    exact b.leadsTo_cancel t.job
  · rw [hFinish]
    exact b.leadsTo_finish t.job outcome

/-- Everything that is due goes off, one timer after another. -/
theorem leadsTo_settle (b : JobBoard) (time : Nat) : b.LeadsTo (b.settle time) := by
  -- First the timers are disarmed, which no job notices.
  have hDisarm : b.LeadsTo { b with timers := b.timers.filter fun t => !(t.due ≤ time) } :=
    leadsTo_of_jobs_eq rfl (Nat.le_refl _)
  exact hDisarm.trans (leadsTo_foldl leadsTo_fire _ _)

/-- To set a deadline leads on. -/
theorem leadsTo_setDeadline (b : JobBoard) (after : Nat) (job : String) :
    b.LeadsTo (b.setDeadline after job) :=
  leadsTo_of_jobs_eq rfl (Nat.le_refl _)

/-- A deadline that starts leads on. -/
theorem leadsTo_startDeadline (b : JobBoard) (d : Deadline) : b.LeadsTo (b.startDeadline d) := by
  unfold startDeadline
  split
  · exact .refl b
  · exact b.leadsTo_arm d.after d.job .deadline

/-- When all tasks have had a turn, the jobs are as they were. -/
theorem leadsTo_turn (b : JobBoard) : b.LeadsTo b.turn := by
  have hTaken : b.LeadsTo { b with pending := [] } := leadsTo_of_jobs_eq rfl (Nat.le_refl _)
  exact hTaken.trans (leadsTo_foldl leadsTo_startDeadline _ _)

/-- A worker that is to report later leads on, also if it reports at once. -/
theorem leadsTo_finishLater (b : JobBoard) (after : Nat) (job : String) (outcome : JobStatus)
    (heedsToken : Bool) : b.LeadsTo (b.finishLater after job outcome heedsToken) :=
  (b.leadsTo_turn.trans (b.turn.leadsTo_arm after job _)).trans (leadsTo_settle _ _)

/-- The clock is moved, and then everything goes off that is due. -/
theorem leadsTo_advanceTo (b : JobBoard) (time : Nat) : b.LeadsTo (b.advanceTo time) := by
  have hClock : b.LeadsTo { b with now := max b.now time } :=
    leadsTo_of_jobs_eq rfl (Nat.le_max_left _ _)
  exact hClock.trans (leadsTo_settle _ time)

/-- The clock jumps. -/
theorem leadsTo_jump (b : JobBoard) (ms : Nat) : b.LeadsTo (b.jump ms) :=
  (b.leadsTo_advanceTo _).trans (leadsTo_turn _)

/-- Tasks have a turn, and the clock jumps. -/
theorem leadsTo_advance (b : JobBoard) (ms : Nat) : b.LeadsTo (b.advance ms) :=
  b.leadsTo_turn.trans (b.turn.leadsTo_jump ms)

/-- Somebody waits, and the clock is moved from one due time to the next. -/
theorem leadsTo_wait (b : JobBoard) (id : String) (ms : Nat) : b.LeadsTo (b.wait id ms) := by
  unfold wait
  split
  · exact .refl b
  · refine b.leadsTo_turn.trans (leadsTo_foldl (fun b time => ?_) _ b.turn)
    split
    · exact .refl b
    · exact b.leadsTo_advanceTo time

end JobBoard

-- ---------------------------------------------------------------------------
-- Events
-- ---------------------------------------------------------------------------

/-- What happens to jobs, by whoever holds one, and by the clock. -/
inductive BoardEvent
  | finish (id : String) (outcome : JobStatus)
  | cancel (id : String)
  | cancelToken (id : String)
  | finishLater (after : Nat) (id : String) (outcome : JobStatus) (heedsToken : Bool)
  | wait (id : String) (ms : Nat)
  /-- All tasks have a turn. -/
  | turn
  /-- The clock jumps before any task has a turn. -/
  | jump (ms : Nat)
  | advance (ms : Nat)

/-- What becomes of a board by an event. -/
def BoardEvent.happen : BoardEvent → JobBoard → JobBoard
  | finish id outcome, b => (b.finish id outcome).2
  | cancel id, b => (b.cancel id).2
  | cancelToken id, b => b.cancelToken id
  | finishLater after id outcome heedsToken, b => b.finishLater after id outcome heedsToken
  | wait id ms, b => b.wait id ms
  | turn, b => b.turn
  | jump ms, b => b.jump ms
  | advance ms, b => b.advance ms

/-- **Whatever happens, it leads on.** -/
theorem BoardEvent.leadsTo_happen (e : BoardEvent) (b : JobBoard) : b.LeadsTo (e.happen b) := by
  cases e with
  | finish id outcome => exact b.leadsTo_finish id outcome
  | cancel id => exact b.leadsTo_cancel id
  | cancelToken id => exact b.leadsTo_cancelToken id
  | finishLater after id outcome heedsToken =>
    exact b.leadsTo_finishLater after id outcome heedsToken
  | wait id ms => exact b.leadsTo_wait id ms
  | turn => exact b.leadsTo_turn
  | jump ms => exact b.leadsTo_jump ms
  | advance ms => exact b.leadsTo_advance ms

end RuleBlocks
