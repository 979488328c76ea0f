import RuleBlocks.Proofs.Search.Deadline

/-!
# Waiting for a result

Somebody waits for a job to end, for a limited time. A result would be missed if the job ended
between two steps of the waiting, and nothing told the waiter any more. What prevents this is that
the status has a version, which grows whenever a call ends the job, and that the waiter remembers
the version that it has looked at: it listens for changes since then, not since it began to listen.
The job may leave the cache meanwhile; whoever waits for it holds it.

* `WaitStage`, `JobWait` — how far somebody has come, and the history that goes on meanwhile;
* `WaitStage.next`, `JobWait.run` — one step of the waiting, and steps among events of any kind;
* `JobHistory.Traces` — the record of the calls tells how the job came by its status;
* `JobWait.Attends` — the invariant: who listens or sleeps has seen the job running, and nothing
  later; who leaves has a reason;
* `JobWait.IsOver.exists_returned` — when the job has ended or the time is over, six steps are
  enough;
* `waiting_misses_no_result` — what is returned, and what a request for a job shows.
-/

namespace RuleBlocks

-- ---------------------------------------------------------------------------
-- The record of a job
-- ---------------------------------------------------------------------------

namespace JobHistory

variable {h : JobHistory} {e : JobEvent} {events before after : List JobEvent} {id : String}
variable {j : SearchJob} {c : JobCall}

/-- How often the status of a job was changed: by every call that has ended it. -/
def version (h : JobHistory) (id : String) : Nat :=
  (h.callsOn id).countP (·.answer)

/-- Whether the job has ended; one that nobody holds has not. -/
def isFinished (h : JobHistory) (id : String) : Bool :=
  h.service.board.isFinished id

/-- The job itself tells. -/
theorem isFinished_of_job (hJob : h.job? id = some j) : h.isFinished id = j.isFinished := by
  change (h.job? id).any (·.isFinished) = _
  rw [hJob, Option.any_some]

/-- The record tells all that was done to a job, which was running at first. -/
structure Traces (h : JobHistory) (id : String) : Prop where
  reports : h.Reporting
  takes : ∃ j₀ j : SearchJob, j₀.status = .running ∧ h.job? id = some j ∧
    j₀.Takes (h.callsOn id) j
  past : ∀ c ∈ h.callsOn id, c.time ≤ h.now

/-- With its creation the record of a job begins. -/
theorem Awaits.traces (hAwaits : h.Awaits id) (hReports : h.Reporting) (search : Json)
    (owner : String) (cancelAfter : Option Nat) :
    (h.step (.create id search owner cancelAfter)).Traces id := by
  obtain ⟨hJob, hNone⟩ := hAwaits.create search owner cancelAfter
  refine ⟨hReports.step _, ⟨.new id search owner h.service.node cancelAfter, _, rfl, hJob, ?_⟩, ?_⟩
  · rw [hNone]
    exact .nil _
  · rw [hNone]
    exact fun c hMem => absurd hMem List.not_mem_nil

/-- What is recorded, is recorded when it happens. -/
theorem mem_callsOn_step (hMem : c ∈ (h.step e).callsOn id) :
    c ∈ h.callsOn id ∨ c.time = h.now := by
  rw [callsOn_step] at hMem
  obtain hOld | hNew := List.mem_append.mp hMem
  · exact .inl hOld
  · obtain ⟨r, -, hCall⟩ := Option.bind_eq_some_iff.mp (Option.mem_toList.mp hNew)
    obtain ⟨j, -, rfl⟩ := Option.map_eq_some_iff.mp hCall
    exact .inr rfl

/-- What is recorded, stays recorded. -/
theorem mem_callsOn_run (events : List JobEvent) (hMem : c ∈ h.callsOn id) :
    c ∈ (h.run events).callsOn id := by
  induction events generalizing h with
  | nil => exact hMem
  | cons e rest ih =>
    refine ih (h := h.step e) ?_
    rw [callsOn_step]
    exact List.mem_append_left _ hMem

namespace Traces

/-- An event adds the calls it makes to the record, and the job takes them. -/
theorem step (hTraces : h.Traces id) (hNew : e.created? ≠ some id) : (h.step e).Traces id where
  reports := hTraces.reports.step e
  takes := by
    obtain ⟨j₀, j, hRunning, hJob, hTakes⟩ := hTraces.takes
    obtain ⟨calls, k, hTurns⟩ := hTraces.reports.exists_turns_step hNew hJob
    exact ⟨j₀, k, hRunning, hTurns.job, hTurns.record ▸ hTakes.append hTurns.takes⟩
  past := by
    intro c hMem
    have hClock := JobEvent.now_le_happen h.service e
    obtain hOld | hNow := mem_callsOn_step hMem
    · exact Nat.le_trans (hTraces.past c hOld) hClock
    · exact hNow ▸ hClock

/-- So does any number of events. -/
theorem run (hTraces : h.Traces id) (hNew : ∀ e ∈ events, e.created? ≠ some id) :
    (h.run events).Traces id := by
  induction events generalizing h with
  | nil => exact hTraces
  | cons e rest ih =>
    obtain ⟨hFirst, hRest⟩ := List.forall_mem_cons.mp hNew
    exact ih (hTraces.step hFirst) hRest

theorem exists_job (hTraces : h.Traces id) : ∃ j, h.job? id = some j :=
  let ⟨_, j, _, hJob, _⟩ := hTraces.takes
  ⟨j, hJob⟩

/-- A call that has ended the job names the status it has now. -/
theorem outcome_of_answer (hTraces : h.Traces id) (hJob : h.job? id = some j)
    (hMem : c ∈ h.callsOn id) (hAnswer : c.answer = true) : c.action.outcome? = some j.status := by
  obtain ⟨j₀, k, hRunning, hFind, hTakes⟩ := hTraces.takes
  obtain rfl : k = j := Option.some.inj (hFind.symm.trans hJob)
  exact hTakes.outcome_of_answer hRunning hMem hAnswer

/-- A job that a call has ended is ended for good. -/
theorem isFinished_of_answer (hTraces : h.Traces id) (hMem : c ∈ h.callsOn id)
    (hAnswer : c.answer = true) : h.isFinished id = true := by
  obtain ⟨j, hJob⟩ := hTraces.exists_job
  rw [isFinished_of_job hJob]
  exact JobAction.isFinished_of_outcome (hTraces.outcome_of_answer hJob hMem hAnswer)

/-- **The version tells whether the job has ended.** -/
theorem version_eq_zero_iff (hTraces : h.Traces id) :
    h.version id = 0 ↔ h.isFinished id = false := by
  obtain ⟨j₀, j, hRunning, hJob, hTakes⟩ := hTraces.takes
  rw [version, isFinished_of_job hJob, hTakes.countP_answer hRunning]
  cases j.isFinished <;> simp

/-- A job ends only by a call that has ended it. -/
theorem exists_answer (hTraces : h.Traces id) (hFinished : h.isFinished id = true) :
    ∃ c ∈ h.callsOn id, c.answer = true := by
  refine List.countP_pos_iff.mp (Nat.pos_of_ne_zero fun hZero => ?_)
  rw [hTraces.version_eq_zero_iff.mp hZero] at hFinished
  cases hFinished

/-- A job that has ended keeps its status. -/
theorem exists_job_run (hTraces : h.Traces id) (hNew : ∀ e ∈ events, e.created? ≠ some id)
    (hJob : h.job? id = some j) :
    ∃ k, (h.run events).job? id = some k ∧ (j.isFinished = true → k.status = j.status) := by
  obtain ⟨calls, k, hTurns⟩ := hTraces.reports.exists_turns hNew hJob
  exact ⟨k, hTurns.job, hTurns.takes.status_of_finished⟩

/-- A single event leaves the status of an ended job alone. -/
theorem exists_job_step (hTraces : h.Traces id) (hNew : e.created? ≠ some id)
    (hJob : h.job? id = some j) :
    ∃ k, (h.step e).job? id = some k ∧ (j.isFinished = true → k.status = j.status) :=
  hTraces.exists_job_run (List.forall_mem_singleton.mpr hNew) hJob

/-- A single event does not start an ended job again. -/
theorem isFinished_step (hTraces : h.Traces id) (hNew : e.created? ≠ some id)
    (hFinished : h.isFinished id = true) : (h.step e).isFinished id = true := by
  obtain ⟨j, hJob⟩ := hTraces.exists_job
  rw [isFinished_of_job hJob] at hFinished
  obtain ⟨k, hJob', hKept⟩ := hTraces.exists_job_step hNew hJob
  rw [isFinished_of_job hJob', SearchJob.isFinished, hKept hFinished]
  exact hFinished

end Traces

/-- The record of a job that was created traces it, whatever happens. -/
theorem traces_start (hBefore : ∀ e ∈ before, e.created? ≠ some id)
    (hAfter : ∀ e ∈ after, e.created? ≠ some id) (node : String) (settings : SearchJobSettings)
    (hasTimers : Bool) (search : Json) (owner : String) (cancelAfter : Option Nat) :
    ((start node settings hasTimers).run
      (before ++ .create id search owner cancelAfter :: after)).Traces id := by
  have hAwaits := awaits_run_start hBefore node settings hasTimers
  have hReports := (reporting_start node settings hasTimers).run before
  rw [run_append]
  exact (hAwaits.traces hReports search owner cancelAfter).run hAfter

end JobHistory

-- ---------------------------------------------------------------------------
-- Waiting
-- ---------------------------------------------------------------------------

/-- A place in the loop of somebody who waits for a job to end. -/
inductive WatchPlace
  /-- About to look at the status, and to remember its version. -/
  | looking
  /-- About to ask whether the status was changed since then. -/
  | listening
  /-- Nothing was changed: about to ask whether the time is over. -/
  | timing
  /-- Asleep until the status is changed or the time is over. -/
  | asleep

/-- How far somebody has come who waits for a job to end. -/
inductive WaitStage
  | called
  /-- The version at this moment counts as seen. -/
  | subscribed (seen : Nat)
  /-- The timer is set. -/
  | watching (place : WatchPlace) (seen due : Nat)
  /-- The waiting is over: about to read the status. -/
  | leaving (due : Nat)
  | returned (due : Nat) (status : JobStatus)

namespace WaitStage

variable {h : JobHistory} {e : JobEvent} {id : String} {timeout : Nat} {stage : WaitStage}

/-- When the time will be over, once the timer is set. -/
def due? : WaitStage → Option Nat
  | called => none
  | subscribed _ => none
  | watching _ _ due => some due
  | leaving due => some due
  | returned due _ => some due

/-- One step in the loop. -/
def watch (h : JobHistory) (id : String) (seen due : Nat) : WatchPlace → WaitStage
  | .looking => if h.isFinished id then leaving due else watching .listening (h.version id) due
  | .listening => watching (if h.version id = seen then .timing else .looking) seen due
  | .timing => if due ≤ h.now then leaving due else watching .asleep seen due
  | .asleep =>
    watching (if h.version id = seen ∧ h.now < due then .asleep else .listening) seen due

/-- One step: what cannot be interrupted by others. -/
def next (h : JobHistory) (id : String) (timeout : Nat) : WaitStage → WaitStage
  | called => subscribed (h.version id)
  | subscribed seen => watching .looking seen (h.now + timeout)
  | watching place seen due => watch h id seen due place
  | leaving due => (h.job? id).elim (leaving due) fun j => returned due j.status
  | returned due status => returned due status

/-- Who returns has just read the status, and returns what was read. -/
theorem eq_leaving_of_next {due : Nat} {status : JobStatus} (hBefore : stage ≠ returned due status)
    (hNext : stage.next h id timeout = returned due status) :
    stage = leaving due ∧ ∃ j, h.job? id = some j ∧ j.status = status := by
  cases stage with
  | called => cases hNext
  | subscribed seen => cases hNext
  | watching place seen due =>
    cases place with
    | looking => rw [next, watch] at hNext; split at hNext <;> cases hNext
    | listening => cases hNext
    | timing => rw [next, watch] at hNext; split at hNext <;> cases hNext
    | asleep => cases hNext
  | leaving due =>
    rw [next] at hNext
    cases hJob : h.job? id with
    | none => rw [hJob] at hNext; cases hNext
    | some j =>
      rw [hJob] at hNext
      obtain ⟨rfl, rfl⟩ := returned.inj hNext
      exact ⟨rfl, j, rfl, rfl⟩
  | returned due' status' => exact absurd hNext hBefore

/-- A timer that is set is not set again. -/
theorem due?_next_of_some {due : Nat} (hDue : stage.due? = some due) :
    (stage.next h id timeout).due? = some due := by
  cases stage with
  | called => cases hDue
  | subscribed seen => cases hDue
  | watching place seen due =>
    cases place with
    | looking => rw [next, watch]; split <;> exact hDue
    | listening => exact hDue
    | timing => rw [next, watch]; split <;> exact hDue
    | asleep => exact hDue
  | leaving due => rw [next]; cases h.job? id <;> exact hDue
  | returned due status => exact hDue

/-- The timer is set for as long as it was asked for, from the moment it is set. -/
theorem eq_of_due?_next {due : Nat} (hBefore : stage.due? ≠ some due)
    (hNext : (stage.next h id timeout).due? = some due) : due = h.now + timeout := by
  cases hDue : stage.due? with
  | none =>
    cases stage with
    | called => cases hNext
    | subscribed seen => exact (Option.some.inj hNext).symm
    | _ => cases hDue
  | some due' =>
    rw [due?_next_of_some hDue] at hNext
    exact absurd (hDue.trans hNext) hBefore

-- ---------------------------------------------------------------------------
-- What has been seen
-- ---------------------------------------------------------------------------

/-- What a stage says about the job. -/
def Fits (h : JobHistory) (id : String) : WaitStage → Prop
  | called => True
  | subscribed _ => True
  | watching .looking _ _ => True
  -- It has looked at a running job.
  | watching _ seen _ => seen = 0
  | leaving due => h.isFinished id = true ∨ due ≤ h.now
  -- The status is final, or the job was running until the time was over.
  | returned due status =>
    (status ≠ .running → ∃ j, h.job? id = some j ∧ j.status = status) ∧
      (status = .running → due ≤ h.now ∧ ∀ c ∈ h.callsOn id, c.answer = true → due ≤ c.time)

/-- **A step of the waiting keeps the invariant.** -/
theorem Fits.next (hTraces : h.Traces id) (hFits : stage.Fits h id) (timeout : Nat) :
    (stage.next h id timeout).Fits h id := by
  cases stage with
  | called => trivial
  | subscribed seen => trivial
  | watching place seen due =>
    cases place with
    | looking =>
      rw [WaitStage.next, watch]
      split
      · next hFinished => exact .inl hFinished
      · next hRunning => exact hTraces.version_eq_zero_iff.mpr (Bool.not_eq_true _ ▸ hRunning)
    | listening =>
      rw [WaitStage.next, watch]
      split
      · exact hFits
      · trivial
    | timing =>
      rw [WaitStage.next, watch]
      split
      · next hPast => exact .inr hPast
      · exact hFits
    | asleep =>
      rw [WaitStage.next, watch]
      split <;> exact hFits
  | leaving due =>
    obtain ⟨j, hJob⟩ := hTraces.exists_job
    rw [WaitStage.next, hJob]
    -- a status read as running had not ended, so it is the time that was over
    refine ⟨fun _ => ⟨j, hJob, rfl⟩, fun hRunning => ?_⟩
    have hNot : h.isFinished id = false := by
      rw [JobHistory.isFinished_of_job hJob]
      exact SearchJob.isFinished_eq_false_iff.mpr hRunning
    refine ⟨hFits.resolve_left (by rw [hNot]; exact Bool.false_ne_true), fun c hMem hAnswer => ?_⟩
    rw [hTraces.isFinished_of_answer hMem hAnswer] at hNot
    cases hNot
  | returned due status => exact hFits

/-- **An event keeps the invariant**, whatever happens to the job. -/
theorem Fits.step (hTraces : h.Traces id) (hFits : stage.Fits h id)
    (hNew : e.created? ≠ some id) : stage.Fits (h.step e) id := by
  have hClock : h.now ≤ (h.step e).now := JobEvent.now_le_happen h.service e
  cases stage with
  | called => trivial
  | subscribed seen => trivial
  | watching place seen due => cases place <;> exact hFits
  | leaving due =>
    obtain hFinished | hPast := hFits
    · exact .inl (hTraces.isFinished_step hNew hFinished)
    · exact .inr (Nat.le_trans hPast hClock)
  | returned due status =>
    obtain ⟨hFinal, hLate⟩ := hFits
    refine ⟨fun hEnded => ?_, fun hRunning => ?_⟩
    · obtain ⟨j, hJob, rfl⟩ := hFinal hEnded
      obtain ⟨k, hJob', hKept⟩ := hTraces.exists_job_step hNew hJob
      -- the returned status is final, so no event changes it
      refine ⟨k, hJob', hKept ?_⟩
      rw [← Bool.not_eq_false, SearchJob.isFinished_eq_false_iff]
      exact hEnded
    -- calls recorded from now on come too late to be missed
    · obtain ⟨hPast, hCalls⟩ := hLate hRunning
      refine ⟨Nat.le_trans hPast hClock, fun c hMem hAnswer => ?_⟩
      obtain hOld | hNow := JobHistory.mem_callsOn_step hMem
      · exact hCalls c hOld hAnswer
      · exact hNow ▸ hPast

-- ---------------------------------------------------------------------------
-- How long it takes
-- ---------------------------------------------------------------------------

/-- There is a reason not to wait any longer. -/
def IsOver (h : JobHistory) (id : String) (stage : WaitStage) : Prop :=
  h.isFinished id = true ∨ ∃ due, stage.due? = some due ∧ due ≤ h.now

/-- How many steps are left, when the waiting is over. -/
def rank (h : JobHistory) (id : String) : WaitStage → Nat
  | called => 6
  | subscribed _ => 5
  | watching .looking _ _ => if h.isFinished id then 2 else 4
  | watching .listening _ _ => 3
  | watching .timing _ due => if due ≤ h.now then 2 else 5
  | watching .asleep _ _ => 4
  | leaving _ => 1
  | returned _ _ => 0

theorem rank_le (h : JobHistory) (id : String) (stage : WaitStage) : stage.rank h id ≤ 6 := by
  cases stage with
  | watching place seen due =>
    cases place with
    | looking => rw [rank]; split <;> decide
    | timing => rw [rank]; split <;> decide
    | _ => simp [rank]
  | _ => simp [rank]

/-- Nothing is left to do only for one who has returned. -/
theorem eq_returned_of_rank (hRank : stage.rank h id = 0) :
    ∃ due status, stage = returned due status := by
  cases stage with
  | watching place seen due =>
    cases place with
    | looking => rw [rank] at hRank; split at hRank <;> cases hRank
    | timing => rw [rank] at hRank; split at hRank <;> cases hRank
    | _ => cases hRank
  | returned due status => exact ⟨due, status, rfl⟩
  | _ => cases hRank

/-- Nothing the waiter does makes the waiting go on. -/
theorem IsOver.next (hOver : stage.IsOver h id) (timeout : Nat) :
    (stage.next h id timeout).IsOver h id := by
  obtain hFinished | ⟨due, hDue, hPast⟩ := hOver
  · exact .inl hFinished
  · exact .inr ⟨due, due?_next_of_some hDue, hPast⟩

theorem IsOver.step (hTraces : h.Traces id) (hOver : stage.IsOver h id)
    (hNew : e.created? ≠ some id) : stage.IsOver (h.step e) id := by
  obtain hFinished | ⟨due, hDue, hPast⟩ := hOver
  · exact .inl (hTraces.isFinished_step hNew hFinished)
  · exact .inr ⟨due, hDue, Nat.le_trans hPast (JobEvent.now_le_happen h.service e)⟩

/-- **Nobody sleeps through it**: when the waiting is over, whoever has seen the job running is
woken up by a version that was not seen yet, or by the timer. -/
theorem IsOver.wakes {place : WatchPlace} {seen due : Nat} (hTraces : h.Traces id)
    (hOver : (watching place seen due).IsOver h id) (hSeen : seen = 0)
    (hSame : h.version id = seen) : due ≤ h.now := by
  obtain hFinished | ⟨due', hDue, hPast⟩ := hOver
  · rw [hTraces.version_eq_zero_iff.mp (hSame.trans hSeen)] at hFinished
    cases hFinished
  · exact Option.some.inj hDue ▸ hPast

/-- Every step leads on, when the waiting is over. -/
theorem IsOver.rank_next (hTraces : h.Traces id) (hFits : stage.Fits h id)
    (hOver : stage.IsOver h id) (timeout : Nat) :
    (stage.next h id timeout).rank h id ≤ stage.rank h id - 1 := by
  cases stage with
  | called => exact Nat.le_refl 5
  | subscribed seen =>
    obtain hFinished | ⟨due, hDue, -⟩ := hOver
    · rw [WaitStage.next, rank, rank, if_pos hFinished]
      decide
    · cases hDue
  | watching place seen due =>
    cases place with
    | looking =>
      rw [WaitStage.next, watch, rank]
      split
      · exact Nat.le_refl 1
      · exact Nat.le_refl 3
    | listening =>
      have hSeen : seen = 0 := hFits
      rw [WaitStage.next, watch]
      by_cases hSame : h.version id = seen
      -- nothing was missed: the timer will not let it sleep
      · rw [if_pos hSame, rank, rank, if_pos (hOver.wakes hTraces hSeen hSame)]
      -- the version has grown since it was looked at: the job has ended
      · have hFinished : h.isFinished id = true := by
          rw [hSeen, hTraces.version_eq_zero_iff] at hSame
          exact Bool.not_eq_false _ ▸ hSame
        rw [if_neg hSame, rank, if_pos hFinished]
        exact Nat.le_refl 2
    | timing =>
      rw [WaitStage.next, watch, rank]
      split
      · exact Nat.le_refl 1
      · exact Nat.le_refl 4
    | asleep =>
      have hAwake : ¬ (h.version id = seen ∧ h.now < due) := fun ⟨hSame, hEarly⟩ =>
        Nat.not_le_of_lt hEarly (hOver.wakes hTraces hFits hSame)
      rw [WaitStage.next, watch, if_neg hAwake]
      exact Nat.le_refl 3
  | leaving due =>
    obtain ⟨j, hJob⟩ := hTraces.exists_job
    rw [WaitStage.next, hJob]
    exact Nat.le_refl 0
  | returned due status => exact Nat.le_refl 0

/-- What others do takes nobody back. -/
theorem rank_step (hTraces : h.Traces id) (hNew : e.created? ≠ some id) :
    stage.rank (h.step e) id ≤ stage.rank h id := by
  cases stage with
  | watching place seen due =>
    cases place with
    | looking =>
      rw [rank, rank]
      by_cases hFinished : h.isFinished id = true
      · rw [if_pos hFinished, if_pos (hTraces.isFinished_step hNew hFinished)]
      · rw [if_neg hFinished]; split <;> decide
    | timing =>
      rw [rank, rank]
      by_cases hPast : due ≤ h.now
      · have hPast' : due ≤ (h.step e).now :=
          Nat.le_trans hPast (JobEvent.now_le_happen h.service e)
        rw [if_pos hPast, if_pos hPast']
      · rw [if_neg hPast]; split <;> decide
    | listening => exact Nat.le_refl _
    | asleep => exact Nat.le_refl _
  | _ => exact Nat.le_refl _

end WaitStage

/-- One step of somebody who waits, or something else. -/
inductive WaitEvent
  | turn
  | other (e : JobEvent)

namespace WaitEvent

def isTurn : WaitEvent → Bool
  | turn => true
  | other _ => false

def other? : WaitEvent → Option JobEvent
  | turn => none
  | other e => some e

def created? (e : WaitEvent) : Option String :=
  e.other?.bind (·.created?)

end WaitEvent

/-- Somebody waits for the job of an id, for some milliseconds, while everything else goes on. -/
structure JobWait (id : String) (timeout : Nat) where
  history : JobHistory
  stage : WaitStage

namespace JobWait

variable {id : String} {timeout : Nat} {w : JobWait id timeout} {e : WaitEvent}
variable {events more : List WaitEvent}

def start (id : String) (timeout : Nat) (h : JobHistory) : JobWait id timeout :=
  { history := h, stage := .called }

/-- A user asks for the view of a job: a look-up that finds it, and then the waiting. -/
def load (h : JobHistory) (id : String) (user : SearchUser) : JobWait id h.service.loadWait :=
  start id h.service.loadWait (h.step (.find id user))

def now (w : JobWait id timeout) : Nat :=
  w.history.now

def job? (w : JobWait id timeout) : Option SearchJob :=
  w.history.job? id

def calls (w : JobWait id timeout) : List JobCall :=
  w.history.callsOn id

/-- The job has ended, or the time is over. -/
def IsOver (w : JobWait id timeout) : Prop :=
  w.stage.IsOver w.history id

def step (w : JobWait id timeout) : WaitEvent → JobWait id timeout
  | .turn => { w with stage := w.stage.next w.history id timeout }
  | .other e => { w with history := w.history.step e }

def run (w : JobWait id timeout) (events : List WaitEvent) : JobWait id timeout :=
  events.foldl step w

theorem run_append (w : JobWait id timeout) (before after : List WaitEvent) :
    w.run (before ++ after) = (w.run before).run after :=
  List.foldl_append

/-- Nothing happens because somebody waits. -/
theorem history_run (w : JobWait id timeout) (events : List WaitEvent) :
    (w.run events).history = w.history.run (events.filterMap (·.other?)) := by
  induction events generalizing w with
  | nil => rfl
  | cons e rest ih =>
    cases e with
    | turn => exact ih (w.step .turn)
    | other e => exact ih (w.step (.other e))

/-- Events that are not steps of the waiting leave the waiter where they find it. -/
theorem run_other (w : JobWait id timeout) (events : List JobEvent) :
    w.run (events.map .other) = { w with history := w.history.run events } := by
  induction events generalizing w with
  | nil => rfl
  | cons e rest ih => exact ih (w.step (.other e))

/-- What is true of the stage in the end, and was not at first, became so by a step. -/
theorem exists_turn {p : WaitStage → Prop} (hBefore : ¬ p w.stage) (hEnd : p (w.run events).stage) :
    ∃ first later, events = first ++ .turn :: later ∧ ¬ p (w.run first).stage ∧
      p ((w.run first).stage.next (w.run first).history id timeout) := by
  induction events generalizing w with
  | nil => exact absurd hEnd hBefore
  | cons e rest ih =>
    by_cases hStep : p (w.step e).stage
    · cases e with
      | turn => exact ⟨[], rest, rfl, hBefore, hStep⟩
      | other e => exact absurd hStep hBefore
    · obtain ⟨first, later, rfl, hFirst, hNext⟩ := ih hStep hEnd
      exact ⟨e :: first, later, rfl, hFirst, hNext⟩

-- ---------------------------------------------------------------------------
-- The invariant
-- ---------------------------------------------------------------------------

/-- What somebody knows who waits for a job. -/
structure Attends (w : JobWait id timeout) : Prop where
  traces : w.history.Traces id
  fits : w.stage.Fits w.history id

theorem attends_start {h : JobHistory} (hTraces : h.Traces id) (timeout : Nat) :
    (start id timeout h).Attends :=
  ⟨hTraces, trivial⟩

/-- One event keeps the invariant, whoever causes it. -/
theorem Attends.step (hAttends : w.Attends) (hNew : e.created? ≠ some id) :
    (w.step e).Attends := by
  cases e with
  | turn => exact ⟨hAttends.traces, hAttends.fits.next hAttends.traces timeout⟩
  | other e => exact ⟨hAttends.traces.step hNew, hAttends.fits.step hAttends.traces hNew⟩

/-- So does any number of events. -/
theorem Attends.run (hAttends : w.Attends) (hNew : ∀ e ∈ events, e.created? ≠ some id) :
    (w.run events).Attends := by
  induction events generalizing w with
  | nil => exact hAttends
  | cons e rest ih =>
    obtain ⟨hFirst, hRest⟩ := List.forall_mem_cons.mp hNew
    exact ih (hAttends.step hFirst) hRest

/-- Every step brings the end nearer, when the waiting is over. -/
theorem IsOver.rank_run (hOver : w.IsOver) (hAttends : w.Attends)
    (hNew : ∀ e ∈ more, e.created? ≠ some id) :
    (w.run more).stage.rank (w.run more).history id ≤
      w.stage.rank w.history id - more.countP (·.isTurn) := by
  -- a step of the waiting lowers the rank, an event of another kind does not raise it
  induction more generalizing w with
  | nil => exact Nat.le_refl _
  | cons e rest ih =>
    obtain ⟨hFirst, hRest⟩ := List.forall_mem_cons.mp hNew
    have hAttends' := hAttends.step hFirst
    cases e with
    | turn =>
      have hStep := WaitStage.IsOver.rank_next hAttends.traces hAttends.fits hOver timeout
      have hRun := ih (w := w.step .turn) (WaitStage.IsOver.next hOver timeout) hAttends' hRest
      rw [List.countP_cons_of_pos rfl, Nat.add_comm, Nat.sub_add_eq]
      exact Nat.le_trans hRun (Nat.sub_le_sub_right hStep _)
    | other e =>
      have hStep : w.stage.rank (w.history.step e) id ≤ w.stage.rank w.history id :=
        WaitStage.rank_step hAttends.traces hFirst
      have hRun := ih (w := w.step (.other e)) (WaitStage.IsOver.step hAttends.traces hOver hFirst)
        hAttends' hRest
      rw [List.countP_cons_of_neg Bool.false_ne_true]
      exact Nat.le_trans hRun (Nat.sub_le_sub_right hStep _)

/-- **When the job has ended or the time is over, six steps are enough.** -/
theorem IsOver.exists_returned (hOver : w.IsOver) (hAttends : w.Attends)
    (hNew : ∀ e ∈ more, e.created? ≠ some id) (hTurns : 6 ≤ more.countP (·.isTurn)) :
    ∃ due status, (w.run more).stage = .returned due status := by
  have hRank := hOver.rank_run hAttends hNew
  have hBound := w.stage.rank_le w.history id
  have hNone : (w.run more).stage.rank (w.run more).history id = 0 := by omega
  exact WaitStage.eq_returned_of_rank hNone

-- ---------------------------------------------------------------------------
-- What is returned
-- ---------------------------------------------------------------------------

/-- What a call means that returns a status, and whose time is over when `due` comes. -/
structure Yields (w : JobWait id timeout) (events : List WaitEvent) (due : Nat)
    (status : JobStatus) : Prop where
  /-- Whoever ends the job before the time is over decides about the status. -/
  inTime : ∀ c ∈ (w.run events).calls, c.answer = true → c.time < due →
    c.action.outcome? = some status
  /-- The timer is set in one step, and in a later one the status is read. Unless the job was ended
  before, the time is over then. -/
  moments : ∃ setting waiting later, events = setting ++ .turn :: waiting ++ .turn :: later ∧
    due = (w.run setting).now + timeout ∧
    let g := w.run (setting ++ .turn :: waiting)
    g.stage = .leaving due ∧ (∃ j, g.job? = some j ∧ j.status = status) ∧
      ((∀ c ∈ (w.run events).calls, c.answer = true → due ≤ c.time) → due ≤ g.now)

/-- Somebody who begins to wait gets the result, whatever happens meanwhile. -/
structure MissesNothing (w : JobWait id timeout) : Prop where
  /-- When the job has ended or the time is over, the call returns after six steps at the most. -/
  returns : ∀ events more : List WaitEvent, (∀ e ∈ events ++ more, e.created? ≠ some id) →
    (w.run events).IsOver → 6 ≤ more.countP (·.isTurn) →
    ∃ due status, (w.run (events ++ more)).stage = .returned due status
  yields : ∀ events : List WaitEvent, (∀ e ∈ events, e.created? ≠ some id) →
    ∀ due status, (w.run events).stage = .returned due status → w.Yields events due status

/-- A final status that is returned is the status of the job. -/
theorem Attends.exists_job {due : Nat} {status : JobStatus} (hAttends : w.Attends)
    (hStage : w.stage = .returned due status) (hFinished : status.isFinished = true) :
    ∃ j, w.job? = some j ∧ j.status = status := by
  have hFits := hAttends.fits
  rw [hStage] at hFits
  refine hFits.1 fun hRunning => ?_
  rw [hRunning] at hFinished
  cases hFinished

/-- A call that ends the job before the time is over names what is returned. -/
theorem Attends.inTime {due : Nat} {status : JobStatus} (hAttends : w.Attends)
    (hStage : w.stage = .returned due status) {c : JobCall} (hMem : c ∈ w.calls)
    (hAnswer : c.answer = true) (hEarly : c.time < due) : c.action.outcome? = some status := by
  have hFits := hAttends.fits
  rw [hStage] at hFits
  obtain ⟨hFinal, hLate⟩ := hFits
  obtain ⟨j, hJob, rfl⟩ := hFinal fun hRunning =>
    Nat.not_le_of_lt hEarly ((hLate hRunning).2 c hMem hAnswer)
  exact hAttends.traces.outcome_of_answer hJob hMem hAnswer

/-- **What is returned has been read**, no earlier than when the job ended or the time was over. -/
theorem Attends.yields {due : Nat} {status : JobStatus} (hAttends : w.Attends)
    (hStart : w.stage = .called) (hNew : ∀ e ∈ events, e.created? ≠ some id)
    (hStage : (w.run events).stage = .returned due status) : w.Yields events due status where
  inTime := fun c hMem hAnswer hEarly => (hAttends.run hNew).inTime hStage hMem hAnswer hEarly
  moments := by
    -- The last step that matters reads the status, and before that one sets the timer.
    obtain ⟨reading, later, rfl, hBefore, hNext⟩ :=
      exists_turn (w := w) (p := (· = .returned due status)) (by rw [hStart]; simp) hStage
    obtain ⟨hLeaving, hRead⟩ := WaitStage.eq_leaving_of_next hBefore hNext
    obtain ⟨setting, waiting, rfl, hUnset, hSet⟩ :=
      exists_turn (w := w) (p := (·.due? = some due)) (by rw [hStart]; simp [WaitStage.due?])
        (by rw [hLeaving]; rfl)
    refine ⟨setting, waiting, later, rfl, WaitStage.eq_of_due?_next hUnset hSet, hLeaving, hRead,
      fun hLate => ?_⟩
    have hReading := hAttends.run (List.forall_mem_append.mp hNew).1
    have hFits := hReading.fits
    rw [hLeaving] at hFits
    obtain hFinished | hPast := hFits
    · obtain ⟨c, hMem, hAnswer⟩ := hReading.traces.exists_answer hFinished
      have hKept : c ∈ (w.run (setting ++ .turn :: waiting ++ .turn :: later)).calls := by
        rw [calls, run_append, history_run]
        exact JobHistory.mem_callsOn_run _ hMem
      exact Nat.le_trans (hLate c hKept hAnswer) (hReading.traces.past c hMem)
    · exact hPast

/-- The waiting returns when it should, and what it should. -/
theorem Attends.missesNothing (hAttends : w.Attends) (hStart : w.stage = .called) :
    w.MissesNothing where
  returns := by
    intro events more hNew hOver hTurns
    obtain ⟨hEvents, hMore⟩ := List.forall_mem_append.mp hNew
    rw [run_append]
    exact hOver.exists_returned (hAttends.run hEvents) hMore hTurns
  yields := fun events hNew due status hStage => hAttends.yields hStart hNew hStage

-- ---------------------------------------------------------------------------
-- Requests for a job
-- ---------------------------------------------------------------------------

/-- Whoever takes the view of the job when the call has returned, learns what has become of the job
before the time was over. -/
theorem Attends.exists_view {due : Nat} {status : JobStatus} (hAttends : w.Attends)
    (hStage : w.stage = .returned due status) {later : List JobEvent}
    (hLater : ∀ e ∈ later, e.created? ≠ some id) :
    ∃ k, (w.history.run later).job? id = some k ∧ ∀ further : List JobEvent,
      (∀ e ∈ further, e.created? ≠ some id) →
      ∀ c ∈ ((w.history.run later).run further).callsOn id, c.answer = true → c.time < due →
        c.action.outcome? = some k.status := by
  obtain ⟨j, hJob⟩ := hAttends.traces.exists_job
  obtain ⟨k, hJob', hKept⟩ := hAttends.traces.exists_job_run hLater hJob
  refine ⟨k, hJob', fun further hFurther c hMem hAnswer hEarly => ?_⟩
  -- The call has returned, and what happens later leaves alone what it has returned.
  have hNew : ∀ e ∈ (later ++ further).map .other, WaitEvent.created? e ≠ some id := by
    intro e hOther
    obtain ⟨e, hMem, rfl⟩ := List.mem_map.mp hOther
    exact List.forall_mem_append.mpr ⟨hLater, hFurther⟩ e hMem
  have hAttends' := hAttends.run hNew
  rw [run_other, JobHistory.run_append] at hAttends'
  have hOutcome : c.action.outcome? = some status :=
    hAttends'.inTime hStage hMem hAnswer hEarly
  have hFinished := JobAction.isFinished_of_outcome hOutcome
  obtain ⟨j', hFind, rfl⟩ := hAttends.exists_job hStage hFinished
  obtain rfl : j = j' := Option.some.inj (hJob.symm.trans hFind)
  rw [hKept hFinished, hOutcome]

end JobWait

/-- A view tells a status: its name, the result of a job that is done, the error of one that has
failed. -/
structure JobView.Tells (v : JobView) (status : JobStatus) : Prop where
  name : v.status = status.name
  result : ∀ value, v.result = some value ↔ status = .done value
  errors : ∀ text, text ∈ v.errors ↔ status = .failed text
  length_errors : v.errors.length ≤ 1

/-- What a request shows of a job is its status. -/
theorem SearchJob.view_tells (j : SearchJob) : j.view.Tells j.status := by
  refine ⟨rfl, ?_, ?_, ?_⟩ <;> cases hStatus : j.status <;> simp [view, hStatus, eq_comm]

/-- Who waits alone, while nothing but time passes, waits until the job has ended or the time is
over. -/
theorem JobBoard.isFinished_wait_or (b : JobBoard) (id : String) (ms : Nat) :
    (b.wait id ms).isFinished id = true ∨ b.now + ms ≤ (b.wait id ms).now := by
  rw [wait]
  split
  · next hNone =>
    rw [Bool.or_eq_true, decide_eq_true_eq] at hNone
    obtain hZero | hFinished := hNone
    · exact .inr (Nat.le_of_eq (by rw [hZero, Nat.add_zero]))
    · exact .inl hFinished
  -- The last moment at which the waiter looks is the one when the time is over.
  · rw [List.foldl_concat]
    split
    · next hFinished => exact .inl hFinished
    · rw [now_advanceTo, now_turn]
      exact .inr (Nat.le_max_right _ _)

/-- Whoever has waited for the whole of the time has waited long enough. -/
theorem WaitStage.isOver_of_wait {g h : JobHistory} {id : String} {ms : Nat} {stage : WaitStage}
    (hBoard : g.service.board = h.service.board.wait id ms)
    (hDue : stage.due? = some (h.now + ms)) : stage.IsOver g id := by
  rw [IsOver, JobHistory.isFinished, JobHistory.now, hBoard]
  obtain hFinished | hPast := h.service.board.isFinished_wait_or id ms
  · exact .inl hFinished
  · exact .inr ⟨_, hDue, hPast⟩

/-- A request that finds a job looks at it again after the waiting. -/
theorem SearchService.load_of_found {s : SearchService} {id : String} {user : SearchUser}
    {j : SearchJob} (h : (s.find id user).1 = .ok (some j)) :
    s.load id user = (.ok (((s.board.wait id s.loadWait).find? id).map (·.view)),
      { s.touched id with board := s.board.wait id s.loadWait }) := by
  obtain ⟨answer, hFind⟩ := s.exists_find id user
  rw [hFind] at h
  obtain rfl : answer = .ok (some j) := h
  rw [load, hFind]
  rfl

namespace JobWait

variable {id : String} {h : JobHistory} {user : SearchUser} {j : SearchJob}

/-- **A service that is asked one thing at a time** is a case of this: while it waits for a job, the
clock moves on and timers go off, until the call returns. -/
theorem exists_alone (hTraces : h.Traces id) (hFound : (h.service.find id user).1 = .ok (some j)) :
    ∃ alone : List WaitEvent, (∀ e ∈ alone.filterMap (·.other?), e.IsPassing) ∧
      (∃ due status, ((load h id user).run alone).stage = .returned due status) ∧
      ((load h id user).run alone).history.service = (h.service.load id user).2 ∧
      (h.service.load id user).1 = .ok (((load h id user).run alone).job?.map (·.view)) := by
  let found := h.step (.find id user)
  have hService : found.service = h.service.touched id := h.service.find_snd id user
  obtain ⟨passing, hPassing, hRun⟩ := found.passesTo_wait id h.service.loadWait
  -- The timer is set at once; then time passes, and then the call returns.
  let armed := (load h id user).run [.turn, .turn]
  let waited : JobWait id h.service.loadWait := { armed with history := found.run passing }
  let turns : List WaitEvent := List.replicate 6 .turn
  let alone : List WaitEvent := [.turn, .turn] ++ (passing.map .other ++ turns)
  have hAttends : waited.Attends := by
    have hNew : (JobEvent.find id user).created? ≠ some id := (Option.some_ne_none id).symm
    exact ⟨(hTraces.step hNew).run fun e hMem => (hPassing e hMem).created_ne id, trivial⟩
  have hOver : waited.IsOver :=
    WaitStage.isOver_of_wait (congrArg SearchService.board hRun) rfl
  have hReturned : ∃ due status, (waited.run turns).stage = .returned due status := by
    refine hOver.exists_returned hAttends (fun e hMem => ?_) (Nat.le_refl 6)
    rw [List.eq_of_mem_replicate hMem]
    exact (Option.some_ne_none id).symm
  have hAlone : (load h id user).run alone = waited.run turns := by
    rw [run_append, run_append, run_other]
    rfl
  have hOthers : alone.filterMap (·.other?) = passing := by
    rw [List.filterMap_append, List.filterMap_append, List.filterMap_map]
    exact (List.append_nil _).trans List.filterMap_some
  have hLast : ((load h id user).run alone).history.service = (h.service.load id user).2 := by
    rw [history_run, hOthers]
    refine hRun.trans ?_
    rw [SearchService.load_of_found hFound, hService]
    rfl
  refine ⟨alone, hOthers ▸ hPassing, hAlone ▸ hReturned, hLast, ?_⟩
  rw [job?, JobHistory.job?, hLast, SearchService.load_of_found hFound]

end JobWait

/--
**No result is missed.** Somebody waits for a job, for some milliseconds: subscribes to the status,
sets a timer, looks at the status, and while the job is running sleeps until the status is changed
or the time is over. Between any two steps anything may happen: workers report, users cancel the
job, time passes, and so many jobs are created that this one leaves the cache. When the job has
ended or the time is over, the call returns after a few steps. If anybody has ended the job before
the time was over, what is returned is the status that the job got by that, and otherwise the one
that it has when the time is over. Hence a user who asks for a job in the cache, and may see it, is
shown what has become of it in time. A service that is asked for nothing else meanwhile is a case of
this.
-/
theorem waiting_misses_no_result {before after : List JobEvent} {id : String}
    (hBefore : ∀ e ∈ before, e.created? ≠ some id) (hAfter : ∀ e ∈ after, e.created? ≠ some id)
    (node : String) (settings : SearchJobSettings) (hasTimers : Bool) (search : Json)
    (owner : String) (cancelAfter : Option Nat) :
    let h := (JobHistory.start node settings hasTimers).run
      (before ++ .create id search owner cancelAfter :: after)
    (∀ timeout, (JobWait.start id timeout h).MissesNothing) ∧
      ∀ user j, (h.service.find id user).1 = .ok (some j) →
        (JobWait.load h id user).MissesNothing ∧
        (∀ events : List WaitEvent, (∀ e ∈ events, e.created? ≠ some id) →
          let w := (JobWait.load h id user).run events
          ∀ due status, w.stage = .returned due status →
          ∀ later : List JobEvent, (∀ e ∈ later, e.created? ≠ some id) →
          ∃ k, (w.history.run later).job? id = some k ∧ k.view.Tells k.status ∧
            ∀ further : List JobEvent, (∀ e ∈ further, e.created? ≠ some id) →
            ∀ c ∈ ((w.history.run later).run further).callsOn id, c.answer = true → c.time < due →
              c.action.outcome? = some k.status) ∧
        ∃ alone : List WaitEvent, (∀ e ∈ alone.filterMap (·.other?), e.IsPassing) ∧
          (∃ due status, ((JobWait.load h id user).run alone).stage = .returned due status) ∧
          ((JobWait.load h id user).run alone).history.service = (h.service.load id user).2 ∧
          (h.service.load id user).1 =
            .ok (((JobWait.load h id user).run alone).job?.map (·.view)) := by
  intro h
  have hTraces : h.Traces id :=
    JobHistory.traces_start hBefore hAfter node settings hasTimers search owner cancelAfter
  refine ⟨fun timeout => (JobWait.attends_start hTraces timeout).missesNothing rfl,
    fun user j hFound => ?_⟩
  have hAsked : (h.step (.find id user)).Traces id := hTraces.step (Option.some_ne_none id).symm
  have hStart : (JobWait.load h id user).Attends := JobWait.attends_start hAsked _
  refine ⟨hStart.missesNothing rfl, ?_, JobWait.exists_alone hTraces hFound⟩
  intro events hNew w due status hStage later hLater
  obtain ⟨k, hJob, hTold⟩ := (hStart.run hNew).exists_view hStage hLater
  exact ⟨k, hJob, k.view_tells, hTold⟩

/-- While Alice waits for her job, another one drives it out of the cache, which has room for one.
Then a worker completes it, in time. -/
theorem waiting_misses_no_result_evicted :
    let before : List JobEvent := [.tick 7]
    let after : List JobEvent := [.isInCache "job", .tick 1]
    let h := (JobHistory.start "node" ⟨1, 300, 5⟩ true).run
      (before ++ .create "job" .null "alice" none :: after)
    let alice := SearchUser.ordinary "alice"
    let events : List WaitEvent :=
      [.turn, .turn, .turn, .turn, .turn, .other (.create "other" .null "bob" none),
        .other (.tick 3), .other (.call "job" (.report (.result .null))), .turn, .turn, .turn,
        .turn]
    let w := (JobWait.load h "job" alice).run events
    (∀ e ∈ before, e.created? ≠ some "job") ∧ (∀ e ∈ after, e.created? ≠ some "job") ∧
      (∀ e ∈ events, e.created? ≠ some "job") ∧
      (h.service.find "job" alice).1 = .ok (some (.new "job" .null "alice" "node" none)) ∧
      (w.history.service.isInCache "job").1 = false ∧
      w.stage = .returned 13 (.done .null) ∧
      ∃ k, w.job? = some k ∧ k.view.result = some .null := by
  intro before after h alice events w
  have hBefore : ∀ e ∈ before, e.created? ≠ some "job" := by decide
  have hAfter : ∀ e ∈ after, e.created? ≠ some "job" := by decide
  have hNew : ∀ e ∈ events, e.created? ≠ some "job" := by decide
  have hNone : ∀ e ∈ ([] : List JobEvent), e.created? ≠ some "job" := by decide
  have hFound : (h.service.find "job" alice).1 =
      .ok (some (.new "job" .null "alice" "node" none)) := rfl
  have hStage : w.stage = .returned 13 (.done .null) := rfl
  obtain ⟨-, hLoad⟩ :=
    waiting_misses_no_result hBefore hAfter "node" ⟨1, 300, 5⟩ true .null "alice" none
  obtain ⟨-, hView, -⟩ := hLoad alice _ hFound
  obtain ⟨k, hJob, hTells, hOutcome⟩ := hView events hNew _ _ hStage [] hNone
  have hCalls : w.calls = [⟨⟨.holder, "job", .report (.result .null)⟩, 11, true⟩] := rfl
  have hDone := hOutcome [] hNone _ (hCalls ▸ List.mem_singleton_self _) rfl (by decide)
  refine ⟨hBefore, hAfter, hNew, hFound, rfl, hStage, k, hJob, ?_⟩
  exact (hTells.result .null).mpr (Option.some.inj hDone).symm

end RuleBlocks
