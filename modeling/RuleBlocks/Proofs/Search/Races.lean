import RuleBlocks.Proofs.Search.Calls
import RuleBlocks.Proofs.Search.Lookup

/-!
# Races for a job

Workers, users and timers get at a job in any order. An event is the smallest thing that cannot be
interrupted: the clock moves without anything going off, one deadline starts while others are still
pending, and one timer that is due goes off while others, which were due before, have not yet.
Beside the service the history keeps a record on which nothing depends, of everything that was done
to a job, and of when its deadline started.

* `JobEvent`, `JobHistory` — one event, and the service with its record;
* `JobEvent.request?` — what an event asks of a job; only those entitled to it do;
* `JobEvent.find?_happen` — nothing else happens to any job;
* `JobEvent.exists_board_happen` — what an event does to the clock, the timers and the deadlines;
* `JobHistory.startOf?` — when the deadline of a job started, if it did;
* `JobHistory.Turns` — what became of a job from one moment to a later one, and by which calls;
* `Reporting.exists_turns` — events of any number turn a job by the calls that are recorded;
* `JobHistory.Awaits` — the moment before a job is created: nothing is known of it.
-/

namespace RuleBlocks

/-- Removing an element that is filtered out anyway. -/
theorem filter_eraseIdx {α : Type} {p : α → Bool} {x : α} {xs : List α} {i : Nat}
    (h : xs[i]? = some x) (hOut : p x = false) : (xs.eraseIdx i).filter p = xs.filter p := by
  obtain ⟨hBound, hPlace⟩ := List.getElem?_eq_some_iff.mp h
  have hSplit : xs = xs.take i ++ x :: xs.drop (i + 1) := by
    rw [← hPlace, List.getElem_cons_drop, List.take_append_drop]
  have hOut' : ¬ p x = true := by rw [hOut]; exact Bool.false_ne_true
  conv_rhs => rw [hSplit]
  rw [List.eraseIdx_eq_take_drop_succ, List.filter_append, List.filter_append,
    List.filter_cons_of_neg hOut']

-- ---------------------------------------------------------------------------
-- Boards
-- ---------------------------------------------------------------------------

namespace JobBoard

variable {b : JobBoard}

/-- The armed timer at a place, if it is due. -/
def due? (b : JobBoard) (i : Nat) : Option Timer :=
  b.timers[i]?.filter (·.due ≤ b.now)

/-- A timer that is due is armed, and its time has come. -/
theorem due?_eq_some_iff {i : Nat} {t : Timer} :
    b.due? i = some t ↔ b.timers[i]? = some t ∧ t.due ≤ b.now := by
  rw [due?, Option.filter_eq_some_iff, decide_eq_true_eq]

/-- A timer goes off. A deadline that is woken up at the moment when the token is cancelled may miss
that, and cancel the job anyway. -/
def expire (b : JobBoard) (t : Timer) (anyway : Bool) : JobBoard :=
  match t.effect, anyway with
  | .deadline, true => (b.cancel t.job).2
  | _, _ => b.fire t

/-- Let the timer at a place go off, if it is due. -/
def fireAt (b : JobBoard) (i : Nat) (anyway : Bool) : JobBoard :=
  match b.due? i with
  | none => b
  | some t => { b with timers := b.timers.eraseIdx i }.expire t anyway

/-- Let the task of the pending deadline at a place have its first turn. -/
def startAt (b : JobBoard) (i : Nat) : JobBoard :=
  match b.pending[i]? with
  | none => b
  | some d => { b with pending := b.pending.eraseIdx i }.startDeadline d

/-- What becomes of the job of an id if a request, should there be one, is granted. -/
def grant (request? : Option JobRequest) (id : String) (j : SearchJob) : SearchJob :=
  match request? with
  | none => j
  | some r => if r.id = id then (r.action.perform j).2 else j

/-- The record of a request that is granted now; there is none if there is no such job. -/
def call? (b : JobBoard) (r : JobRequest) : Option JobCall :=
  (b.find? r.id).map (r.call b.now)

end JobBoard

/-- What a timer that goes off asks for. -/
def Timer.request? (t : Timer) (b : JobBoard) (anyway : Bool) : Option JobRequest :=
  let tokenCancelled := (b.find? t.job).any (·.tokenCancelled)
  match t.effect with
  | .deadline => if tokenCancelled && !anyway then none else some ⟨.deadline, t.job, .cancel⟩
  | .finish outcome heedsToken =>
    if heedsToken && tokenCancelled then none
    else (JobReport.ofStatus? outcome).map fun r => ⟨.worker, t.job, .report r⟩

/-- Deadlines ask to cancel their job, and workers report what came of theirs. -/
theorem Timer.request?_eq_some {t : Timer} {b : JobBoard} {anyway : Bool} {r : JobRequest}
    (h : t.request? b anyway = some r) :
    (t.effect = .deadline ∧ r = ⟨.deadline, t.job, .cancel⟩) ∨
    ∃ report heedsToken, t.effect = .finish (JobReport.status report) heedsToken ∧
      r = ⟨.worker, t.job, .report report⟩ := by
  unfold request? at h
  cases hEffect : t.effect with
  | deadline =>
    rw [hEffect] at h
    dsimp only at h
    split at h
    · cases h
    · exact .inl ⟨rfl, (Option.some.inj h).symm⟩
  | finish outcome heedsToken =>
    rw [hEffect] at h
    dsimp only at h
    split at h
    · cases h
    · obtain ⟨report, hReport, rfl⟩ := Option.map_eq_some_iff.mp h
      refine .inr ⟨report, heedsToken, ?_, rfl⟩
      -- the timer tells the status, and a report is known by its status
      rw [JobReport.status_of_ofStatus? hReport]

/-- A timer that ends a job reports something. -/
def Timer.Reports (t : Timer) : Prop :=
  ∀ outcome heedsToken, t.effect = .finish outcome heedsToken → ∃ r : JobReport, outcome = r.status

-- ---------------------------------------------------------------------------
-- Events
-- ---------------------------------------------------------------------------

inductive JobEvent
  | create (id : String) (search : Json) (owner : String) (cancelAfter : Option Nat)
  /-- Whoever holds a job does something to it. -/
  | call (id : String) (action : JobAction)
  /-- A worker will report after some milliseconds. -/
  | work (after : Nat) (id : String) (report : JobReport) (heedsToken : Bool)
  | find (id : String) (user : SearchUser)
  | cancel (id : String) (user : SearchUser)
  | isInCache (id : String)
  /-- The clock moves on. Timers that are due now may still be late. -/
  | tick (ms : Nat)
  /-- The task of the pending deadline at a place has its first turn, and its time begins. -/
  | startDeadline (i : Nat)
  /-- The timer at a place goes off, if it is due. -/
  | fire (i : Nat) (anyway : Bool)

namespace JobEvent

/-- What becomes of a service by an event. -/
def happen (s : SearchService) : JobEvent → SearchService
  | create id search owner cancelAfter => s.create id search owner cancelAfter
  | call id action => { s with board := (s.board.change id action.perform).2 }
  | work after id report heedsToken =>
    { s with board := s.board.arm after id (.finish report.status heedsToken) }
  | find id user => (s.find id user).2
  | cancel id user => (s.cancel id user).2
  | isInCache id => (s.isInCache id).2
  | tick ms => { s with board.now := s.board.now + ms }
  | startDeadline i => { s with board := s.board.startAt i }
  | fire i anyway => { s with board := s.board.fireAt i anyway }

/-- What an event asks of a job. -/
def request? (s : SearchService) : JobEvent → Option JobRequest
  | call id action => some ⟨.holder, id, action⟩
  | cancel id user =>
    match (s.find id user).1 with
    | .ok (some _) => some ⟨.user user, id, .cancel⟩
    | _ => none
  | fire i anyway => (s.board.due? i).bind (·.request? s.board anyway)
  | _ => none

/-- The id of the job that an event creates. -/
def created? : JobEvent → Option String
  | create id _ _ _ => some id
  | _ => none

/-- The deadline that an event starts. -/
def started? (s : SearchService) : JobEvent → Option Deadline
  | startDeadline i => s.board.pending[i]?
  | _ => none

end JobEvent

/-- The record of a deadline that has started. -/
structure DeadlineStart where
  job : String
  time : Nat

-- ---------------------------------------------------------------------------
-- Histories
-- ---------------------------------------------------------------------------

structure JobHistory where
  service : SearchService
  /-- The earliest comes first. -/
  calls : List JobCall
  /-- The deadlines that have started, the earliest first. -/
  starts : List DeadlineStart

namespace JobHistory

/-- A service that nothing was asked of yet. -/
def start (node : String) (settings : SearchJobSettings) (hasTimers : Bool) : JobHistory :=
  { service := { SearchService.new node settings with hasTimers }, calls := [], starts := [] }

def now (h : JobHistory) : Nat :=
  h.service.board.now

def timers (h : JobHistory) : List Timer :=
  h.service.board.timers

/-- The deadlines of a job that have not started. -/
def pendingOf (h : JobHistory) (id : String) : List Deadline :=
  h.service.board.pending.filter (·.job = id)

/-- When the deadline of a job started. -/
def startOf? (h : JobHistory) (id : String) : Option Nat :=
  (h.starts.find? (·.job = id)).map (·.time)

/-- The job of an id, whether it can still be looked up or not. -/
def job? (h : JobHistory) (id : String) : Option SearchJob :=
  h.service.board.find? id

/-- What was done to the job of an id. -/
def callsOn (h : JobHistory) (id : String) : List JobCall :=
  h.calls.filter (·.id = id)

def step (h : JobHistory) (e : JobEvent) : JobHistory :=
  { service := e.happen h.service
    calls := h.calls ++ ((e.request? h.service).bind h.service.board.call?).toList
    starts := h.starts ++ ((e.started? h.service).map fun d => ⟨d.job, h.now⟩).toList }

def run (h : JobHistory) (events : List JobEvent) : JobHistory :=
  events.foldl step h

theorem run_append (h : JobHistory) (before after : List JobEvent) :
    h.run (before ++ after) = (h.run before).run after :=
  List.foldl_append

end JobHistory

-- ---------------------------------------------------------------------------
-- One event
-- ---------------------------------------------------------------------------

/-- The job that is created can be found, and others are found as before. -/
theorem SearchService.find?_create (s : SearchService) (id other : String) (search : Json)
    (owner : String) (cancelAfter : Option Nat) :
    (s.create id search owner cancelAfter).board.find? other =
      if other = id then some (.new id search owner s.node cancelAfter)
      else s.board.find? other := by
  have hAdd : (s.board.add (.new id search owner s.node cancelAfter)).find? other =
      if other = id then some (.new id search owner s.node cancelAfter)
      else s.board.find? other :=
    Named.find?_insert ..
  rw [← hAdd, create]
  split <;> rfl

namespace JobBoard

variable {b : JobBoard} {t : Timer}

/-- What happens when a timer goes off is what the timer asks for. -/
theorem find?_expire (hReports : t.Reports) (anyway : Bool) (id : String) :
    (b.expire t anyway).find? id = (b.find? id).map (grant (t.request? b anyway) id) := by
  have hNone : (b.find? id).map (grant none id) = b.find? id := Option.map_id'
  unfold expire Timer.request?
  cases hEffect : t.effect with
  | deadline =>
    cases anyway with
    | true =>
      simp only [Bool.not_true, Bool.and_false, Bool.false_eq_true, if_false]
      exact b.find?_change t.job id SearchJob.cancel
    | false =>
      simp only [fire, hEffect, Bool.not_false, Bool.and_true]
      split
      · exact hNone.symm
      · exact b.find?_change t.job id SearchJob.cancel
  | finish outcome heedsToken =>
    simp only [fire, hEffect]
    split
    · exact hNone.symm
    -- a worker reports, it never cancels: so its outcome is that of a report
    · obtain ⟨r, rfl⟩ := hReports outcome heedsToken hEffect
      rw [JobReport.ofStatus?_status]
      exact b.find?_change t.job id (·.finish r.status)

/-- A timer that goes off does nothing, or cancels the job, or ends it. -/
theorem expire_cases (b : JobBoard) (t : Timer) (anyway : Bool) :
    b.expire t anyway = b ∨ b.expire t anyway = (b.cancel t.job).2 ∨
      ∃ outcome, b.expire t anyway = (b.finish t.job outcome).2 := by
  unfold expire
  split
  · exact .inr (.inl rfl)
  · exact b.fire_cases t

/-- A timer that goes off takes no time, leaves the others armed, and starts no deadline. -/
theorem exists_expire (b : JobBoard) (t : Timer) (anyway : Bool) :
    ∃ jobs, b.expire t anyway = { b with jobs } := by
  obtain hSame | hCancel | ⟨outcome, hFinish⟩ := b.expire_cases t anyway
  · exact ⟨b.jobs, hSame⟩
  · rw [hCancel]
    exact b.exists_change t.job SearchJob.cancel
  · rw [hFinish]
    exact b.exists_change t.job (·.finish outcome)

/-- The timer at a place is disarmed when it goes off, and that is all that happens apart from the
jobs. -/
theorem exists_fireAt (b : JobBoard) (i : Nat) (anyway : Bool) :
    ∃ jobs, b.fireAt i anyway = { b with
      jobs, timers := if (b.due? i).isSome then b.timers.eraseIdx i else b.timers } := by
  unfold fireAt
  cases b.due? i with
  | none => exact ⟨b.jobs, rfl⟩
  | some t => exact exists_expire { b with timers := b.timers.eraseIdx i } t anyway

/-- What a start does: the deadline is pending no more, and its timer is armed, unless the token has
been cancelled. -/
theorem startAt_of_pending {i : Nat} {d : Deadline} (h : b.pending[i]? = some d) :
    b.startAt i = { b with
      pending := b.pending.eraseIdx i
      timers := b.timers ++ if (b.find? d.job).any (·.tokenCancelled) then []
        else [⟨b.now + d.after, d.job, .deadline⟩] } := by
  have hFind : find? { b with pending := b.pending.eraseIdx i } d.job = b.find? d.job := rfl
  rw [startAt, h]
  dsimp only
  rw [startDeadline, hFind]
  split
  · rw [List.append_nil]
  · rfl

theorem startAt_of_none {i : Nat} (h : b.pending[i]? = none) : b.startAt i = b := by
  rw [startAt, h]

/-- A deadline that starts changes no job. -/
theorem find?_startAt (b : JobBoard) (i : Nat) (id : String) :
    (b.startAt i).find? id = b.find? id := by
  cases hPending : b.pending[i]? with
  | none => rw [startAt_of_none hPending]
  | some d =>
    rw [startAt_of_pending hPending]
    rfl

/-- A deadline starts at once. -/
theorem now_startAt (b : JobBoard) (i : Nat) : (b.startAt i).now = b.now := by
  cases hPending : b.pending[i]? with
  | none => rw [startAt_of_none hPending]
  | some d => rw [startAt_of_pending hPending]

/-- A deadline that starts is pending no more. -/
theorem pending_startAt (b : JobBoard) (i : Nat) :
    (b.startAt i).pending = b.pending.eraseIdx i := by
  cases hPending : b.pending[i]? with
  | none =>
    rw [startAt_of_none hPending]
    exact (List.eraseIdx_of_length_le (List.getElem?_eq_none_iff.mp hPending)).symm
  | some d => rw [startAt_of_pending hPending]

end JobBoard

namespace JobEvent

variable {s : SearchService} {e : JobEvent} {r : JobRequest} {id : String}

/-- **Nothing happens to a job but what is asked of it.** -/
theorem find?_happen (hReports : ∀ t ∈ s.board.timers, t.Reports) (hNew : e.created? ≠ some id) :
    (e.happen s).board.find? id =
      (s.board.find? id).map (JobBoard.grant (e.request? s) id) := by
  have hNone : (s.board.find? id).map (JobBoard.grant none id) = s.board.find? id := Option.map_id'
  cases e with
  | create other search owner cancelAfter =>
    rw [happen, s.find?_create, if_neg fun hSame => hNew (congrArg some hSame.symm)]
    exact hNone.symm
  | call other action => exact s.board.find?_change other id action.perform
  | work after other report heedsToken => exact hNone.symm
  | find other user =>
    rw [happen, s.find_snd]
    exact hNone.symm
  | cancel other user =>
    rw [happen, s.cancel_snd, request?]
    generalize (s.find other user).1 = answer
    cases answer with
    | error refusal => exact hNone.symm
    | ok found =>
      cases found with
      | none => exact hNone.symm
      | some j => exact s.board.find?_change other id SearchJob.cancel
  | isInCache other => exact hNone.symm
  | tick ms => exact hNone.symm
  | startDeadline i => exact (s.board.find?_startAt i id).trans hNone.symm
  | fire i anyway =>
    rw [happen, JobBoard.fireAt, request?]
    cases hDue : s.board.due? i with
    | none => exact hNone.symm
    | some t =>
      -- only a timer that is due goes off, so it is one of those that are armed
      have hMem := List.mem_of_getElem? (JobBoard.due?_eq_some_iff.mp hDue).1
      exact JobBoard.find?_expire (hReports t hMem) anyway id

/-- Only who may see a job cancels it through the service. -/
theorem of_request_user {user : SearchUser} (h : e.request? s = some r)
    (hUser : r.caller = .user user) :
    r.action = .cancel ∧ ∃ j, s.board.find? r.id = some j ∧ user.mayAccess j.owner = true := by
  cases e with
  | cancel other asking =>
    rw [request?] at h
    split at h
    case h_1 j hFind =>
      obtain rfl := Option.some.inj h
      obtain rfl := JobCaller.user.inj hUser
      obtain ⟨hHeld, hMay⟩ := SearchService.find_eq_ok_some_iff.mp hFind
      exact ⟨rfl, j, SearchService.find?_of_held hHeld, hMay⟩
    case h_2 => cases h
  | fire i anyway =>
    obtain ⟨t, -, hTimer⟩ := Option.bind_eq_some_iff.mp h
    obtain ⟨-, rfl⟩ | ⟨report, heedsToken, -, rfl⟩ := Timer.request?_eq_some hTimer <;>
      cases hUser
  | call other action =>
    obtain rfl := Option.some.inj h
    cases hUser
  | _ => cases h

/-- Deadlines cancel jobs, and only when they are due. -/
theorem of_request_deadline (h : e.request? s = some r) (hDeadline : r.caller = .deadline) :
    r.action = .cancel ∧
      ∃ t ∈ s.board.timers, t.due ≤ s.board.now ∧ t.job = r.id ∧ t.effect = .deadline := by
  cases e with
  | fire i anyway =>
    obtain ⟨t, hDue, hTimer⟩ := Option.bind_eq_some_iff.mp h
    obtain ⟨hPlace, hTime⟩ := JobBoard.due?_eq_some_iff.mp hDue
    -- of the timers, only one of a deadline calls in its name
    obtain ⟨hEffect, rfl⟩ | ⟨report, heedsToken, -, rfl⟩ := Timer.request?_eq_some hTimer
    · exact ⟨rfl, t, List.mem_of_getElem? hPlace, hTime, rfl, hEffect⟩
    · cases hDeadline
  | cancel other user =>
    rw [request?] at h
    split at h
    · obtain rfl := Option.some.inj h
      cases hDeadline
    · cases h
  | call other action =>
    obtain rfl := Option.some.inj h
    cases hDeadline
  | _ => cases h

/-- **What an event does to a board apart from the jobs.** Most do nothing to it; what becomes of the
timers, the deadlines and the clock in a history is read off here. -/
theorem exists_board_happen (s : SearchService) (e : JobEvent) :
    ∃ jobs, (e.happen s).board = match e with
      | create id _ _ cancelAfter => { s.board with
          jobs
          pending := s.board.pending ++
            if s.hasTimers && cancelAfter.getD 0 != 0 then [⟨1000 * cancelAfter.getD 0, id⟩]
            else [] }
      | work after id report heedsToken => { s.board with
          timers := s.board.timers ++
            [⟨s.board.now + after, id, .finish report.status heedsToken⟩] }
      | tick ms => { s.board with now := s.board.now + ms }
      | startDeadline i => s.board.startAt i
      | fire i _ => { s.board with
          jobs
          timers := if (s.board.due? i).isSome then s.board.timers.eraseIdx i
            else s.board.timers }
      | _ => { s.board with jobs } := by
  cases e with
  | create id search owner cancelAfter =>
    refine ⟨s.board.jobs.insert id (.new id search owner s.node cancelAfter), ?_⟩
    rw [happen, SearchService.create]
    dsimp only
    -- a deadline is set, or none, for lack of timers or of seconds
    split
    · rfl
    · rw [List.append_nil]
      rfl
  | call id action => exact s.board.exists_change id action.perform
  | find id user =>
    refine ⟨s.board.jobs, ?_⟩
    rw [happen, s.find_snd]
    rfl
  | cancel id user =>
    rw [happen, s.cancel_snd]
    dsimp only
    split
    · exact s.board.exists_change id SearchJob.cancel
    · exact ⟨s.board.jobs, rfl⟩
  | fire i anyway => exact s.board.exists_fireAt i anyway
  | _ => exact ⟨s.board.jobs, rfl⟩

/-- New timers are deadlines that start, and reports of workers. -/
theorem mem_timers_happen {t : Timer} (h : t ∈ (e.happen s).board.timers) :
    t ∈ s.board.timers ∨
      (∃ d, e.started? s = some d ∧ t = ⟨s.board.now + d.after, d.job, .deadline⟩) ∨
      ∃ after id report heedsToken, e = work after id report heedsToken ∧
        t = ⟨s.board.now + after, id, .finish report.status heedsToken⟩ := by
  obtain ⟨jobs, hBoard⟩ := exists_board_happen s e
  rw [hBoard] at h
  cases e with
  | work after id report heedsToken =>
    obtain hOld | hNew := List.mem_append.mp h
    · exact .inl hOld
    · exact .inr (.inr ⟨after, id, report, heedsToken, rfl, List.mem_singleton.mp hNew⟩)
  | startDeadline i =>
    dsimp only at h
    cases hPending : s.board.pending[i]? with
    | none =>
      rw [JobBoard.startAt_of_none hPending] at h
      exact .inl h
    | some d =>
      rw [JobBoard.startAt_of_pending hPending] at h
      obtain hOld | hNew := List.mem_append.mp h
      · exact .inl hOld
      · split at hNew
        · cases hNew
        · exact .inr (.inl ⟨d, hPending, List.mem_singleton.mp hNew⟩)
  | fire i anyway =>
    dsimp only at h
    split at h
    · exact .inl (List.mem_of_mem_eraseIdx h)
    · exact .inl h
  | _ => exact .inl h

/-- Deadlines are set when jobs are created, and start one by one. -/
theorem pending_happen (s : SearchService) (e : JobEvent) :
    (e.happen s).board.pending = match e with
      | create id _ _ cancelAfter => s.board.pending ++
          if s.hasTimers && cancelAfter.getD 0 != 0 then [⟨1000 * cancelAfter.getD 0, id⟩] else []
      | startDeadline i => s.board.pending.eraseIdx i
      | _ => s.board.pending := by
  obtain ⟨jobs, hBoard⟩ := exists_board_happen s e
  rw [hBoard]
  cases e with
  | startDeadline i => exact s.board.pending_startAt i
  | _ => rfl

/-- The clock does not go back. -/
theorem now_le_happen (s : SearchService) (e : JobEvent) :
    s.board.now ≤ (e.happen s).board.now := by
  obtain ⟨jobs, hBoard⟩ := exists_board_happen s e
  rw [hBoard]
  cases e with
  | tick ms => exact Nat.le_add_right _ _
  | startDeadline i => exact Nat.le_of_eq (s.board.now_startAt i).symm
  | _ => exact Nat.le_refl _

end JobEvent

-- ---------------------------------------------------------------------------
-- One job
-- ---------------------------------------------------------------------------

namespace JobHistory

variable {h : JobHistory} {e : JobEvent} {events : List JobEvent} {id : String} {j k : SearchJob}
variable {calls : List JobCall}

/-- All timers that end jobs report something. -/
def Reporting (h : JobHistory) : Prop :=
  ∀ t ∈ h.timers, t.Reports

/-- Every event keeps that: workers are the only ones who end jobs later. -/
theorem Reporting.step (hReports : h.Reporting) (e : JobEvent) : (h.step e).Reporting := by
  intro t hMem
  obtain hOld | ⟨_, -, rfl⟩ | ⟨_, _, report, _, -, rfl⟩ := JobEvent.mem_timers_happen hMem
  · exact hReports t hOld
  · rintro outcome heedsToken ⟨⟩
  · rintro outcome heedsToken ⟨⟩
    exact ⟨report, rfl⟩

/-- At first no timer is armed. -/
theorem reporting_start (node : String) (settings : SearchJobSettings) (hasTimers : Bool) :
    (start node settings hasTimers).Reporting :=
  fun _ hMem => absurd hMem List.not_mem_nil

/-- Hence it holds after any events. -/
theorem Reporting.run (hReports : h.Reporting) (events : List JobEvent) :
    (h.run events).Reporting := by
  induction events generalizing h with
  | nil => exact hReports
  | cons e rest ih => exact ih (hReports.step e)

/-- An event adds to the record of a job what it asks of this job, if there is one. -/
theorem callsOn_step (h : JobHistory) (e : JobEvent) (id : String) :
    (h.step e).callsOn id = h.callsOn id ++
      (((e.request? h.service).filter (·.id = id)).bind h.service.board.call?).toList := by
  rw [callsOn, JobHistory.step, List.filter_append, ← callsOn]
  refine congrArg _ ?_
  cases e.request? h.service with
  | none => rfl
  | some r =>
    have hCall : ∀ c ∈ (h.service.board.call? r).toList, c.id = r.id := by
      intro c hMem
      obtain ⟨j, -, rfl⟩ := Option.map_eq_some_iff.mp (Option.mem_toList.mp hMem)
      rfl
    rw [Option.bind_some]
    by_cases hId : r.id = id
    · rw [Option.filter_some_pos (by simpa using hId), Option.bind_some, List.filter_eq_self]
      exact fun c hMem => by simpa [hCall c hMem] using hId
    · rw [Option.filter_some_neg (by simpa using hId)]
      exact List.filter_eq_nil_iff.mpr fun c hMem => by simpa [hCall c hMem] using hId

/-- An event that asks nothing of a job leaves it alone. -/
theorem Reporting.step_of_not_request (hReports : h.Reporting) (hNew : e.created? ≠ some id)
    (hNone : ∀ r, e.request? h.service = some r → r.id ≠ id) :
    (h.step e).job? id = h.job? id ∧ (h.step e).callsOn id = h.callsOn id := by
  rw [callsOn_step, job?, JobHistory.step, JobEvent.find?_happen hReports hNew]
  cases hRequest : e.request? h.service with
  | none => exact ⟨Option.map_id', List.append_nil _⟩
  | some r =>
    have hOther : r.id ≠ id := hNone r hRequest
    have hFilter : (some r).filter (·.id = id) = none :=
      Option.filter_some_neg (by simpa using hOther)
    have hGrant : JobBoard.grant (some r) id = fun j => j := funext fun j => if_neg hOther
    rw [hFilter, hGrant]
    exact ⟨Option.map_id', List.append_nil _⟩

/-- What is asked of a job is done to it, and recorded. -/
theorem Reporting.step_of_request (hReports : h.Reporting) (hNew : e.created? ≠ some id)
    (hJob : h.job? id = some j) {r : JobRequest} (hRequest : e.request? h.service = some r)
    (hId : r.id = id) :
    (h.step e).job? id = some (r.action.perform j).2 ∧
      (h.step e).callsOn id = h.callsOn id ++ [r.call h.now j] := by
  subst hId
  have hFind : h.service.board.find? r.id = some j := hJob
  have hFilter : (some r).filter (·.id = r.id) = some r := Option.filter_some_pos (by simp)
  rw [callsOn_step, job?, JobHistory.step, JobEvent.find?_happen hReports hNew, hRequest, hFilter,
    Option.bind_some, JobBoard.call?, hFind]
  exact ⟨congrArg some (if_pos rfl), rfl⟩

/-- From one moment to a later one some calls turn a job into another. -/
structure Turns (h later : JobHistory) (id : String) (j : SearchJob) (calls : List JobCall)
    (k : SearchJob) : Prop where
  job : later.job? id = some k
  record : later.callsOn id = h.callsOn id ++ calls
  takes : j.Takes calls k
  /-- Users who call through the service may see the job. -/
  entitled : ∀ c ∈ calls, ∀ user, c.caller = .user user → user.mayAccess j.owner = true

/-- Calls after others turn a job on. -/
theorem Turns.trans {middle later : JobHistory} {l : SearchJob} {more : List JobCall}
    (hTurns : h.Turns middle id j calls k) (hTurns' : middle.Turns later id k more l) :
    h.Turns later id j (calls ++ more) l where
  job := hTurns'.job
  record := by rw [hTurns'.record, hTurns.record, List.append_assoc]
  takes := hTurns.takes.append hTurns'.takes
  entitled := by
    intro c hMem user hUser
    obtain hBefore | hAfter := List.mem_append.mp hMem
    · exact hTurns.entitled c hBefore user hUser
    · have hOwner : k.owner = j.owner := congrArg Prod.snd hTurns.takes.identity
      exact hOwner ▸ hTurns'.entitled c hAfter user hUser

/-- One event turns a job by one call, or by none. -/
theorem Reporting.exists_turns_step (hReports : h.Reporting) (hNew : e.created? ≠ some id)
    (hJob : h.job? id = some j) : ∃ calls k, h.Turns (h.step e) id j calls k := by
  -- an event calls on the job once, or not at all
  by_cases hAsked : ∃ r, e.request? h.service = some r ∧ r.id = id
  · obtain ⟨r, hRequest, hId⟩ := hAsked
    obtain ⟨hJob', hRecord⟩ := hReports.step_of_request hNew hJob hRequest hId
    refine ⟨[r.call h.now j], (r.action.perform j).2, hJob', hRecord, .cons rfl (.nil _), ?_⟩
    intro c hMem user hUser
    obtain rfl := List.mem_singleton.mp hMem
    obtain ⟨-, found, hFind, hMay⟩ := JobEvent.of_request_user hRequest hUser
    obtain rfl : j = found := Option.some.inj (hJob.symm.trans (hId ▸ hFind))
    exact hMay
  · have hNone : ∀ r, e.request? h.service = some r → r.id ≠ id :=
      fun r hRequest hId => hAsked ⟨r, hRequest, hId⟩
    obtain ⟨hSame, hRecord⟩ := hReports.step_of_not_request hNew hNone
    exact ⟨[], j, hSame.trans hJob, hRecord.trans (List.append_nil _).symm, .nil j,
      fun c hMem => absurd hMem List.not_mem_nil⟩

/-- **Events turn a job by the calls that are recorded.** -/
theorem Reporting.exists_turns (hReports : h.Reporting)
    (hNew : ∀ e ∈ events, e.created? ≠ some id) (hJob : h.job? id = some j) :
    ∃ calls k, h.Turns (h.run events) id j calls k := by
  induction events generalizing h j with
  | nil =>
    exact ⟨[], j, hJob, (List.append_nil _).symm, .nil j,
      fun c hMem => absurd hMem List.not_mem_nil⟩
  | cons e rest ih =>
    obtain ⟨hFirst, hRest⟩ := List.forall_mem_cons.mp hNew
    obtain ⟨calls, k, hTurns⟩ := hReports.exists_turns_step hFirst hJob
    obtain ⟨more, l, hTurns'⟩ := ih (hReports.step e) hRest hTurns.job
    exact ⟨calls ++ more, l, hTurns.trans hTurns'⟩

-- ---------------------------------------------------------------------------
-- When deadlines start
-- ---------------------------------------------------------------------------

/-- The first start of a deadline of a job is the one that counts. -/
theorem startOf?_step (h : JobHistory) (e : JobEvent) (id : String) :
    (h.step e).startOf? id =
      (h.startOf? id).or (((e.started? h.service).filter (·.job = id)).map fun _ => h.now) := by
  rw [startOf?, JobHistory.step, List.find?_append, Option.map_or, ← startOf?]
  refine congrArg _ ?_
  cases e.started? h.service with
  | none => rfl
  | some d => by_cases hId : d.job = id <;> simp [hId, Option.filter]

/-- A job that is created with some seconds has a pending deadline. -/
theorem pendingOf_create (h : JobHistory) (id : String) (search : Json) (owner : String)
    (cancelAfter : Option Nat) :
    (h.step (.create id search owner cancelAfter)).pendingOf id = h.pendingOf id ++
      if h.service.hasTimers && cancelAfter.getD 0 != 0 then [⟨1000 * cancelAfter.getD 0, id⟩]
      else [] := by
  rw [pendingOf, JobHistory.step, JobEvent.pending_happen]
  dsimp only
  rw [List.filter_append, ← pendingOf]
  split <;> simp

/-- A deadline that starts is taken out of those that are pending. -/
theorem pendingOf_startDeadline_perm {i : Nat} {d : Deadline}
    (hPlace : h.service.board.pending[i]? = some d) (hId : d.job = id) :
    (d :: (h.step (.startDeadline i)).pendingOf id).Perm (h.pendingOf id) := by
  obtain ⟨hBound, rfl⟩ := List.getElem?_eq_some_iff.mp hPlace
  have hAll := (List.getElem_cons_eraseIdx_perm hBound).filter (·.job = id)
  rw [List.filter_cons_of_pos (by simpa using hId)] at hAll
  rw [pendingOf, JobHistory.step, JobEvent.pending_happen]
  exact hAll

/-- An event that starts no deadline of a job, and does not create it, leaves pending what was. -/
theorem pendingOf_step_of_not_started (hNew : e.created? ≠ some id)
    (hOther : ∀ d, e.started? h.service = some d → d.job ≠ id) :
    (h.step e).pendingOf id = h.pendingOf id := by
  rw [pendingOf, JobHistory.step, JobEvent.pending_happen]
  cases e with
  | create other search owner cancelAfter =>
    have hNe : other ≠ id := fun hSame => hNew (congrArg some hSame)
    dsimp only
    rw [List.filter_append]
    refine (congrArg _ ?_).trans (List.append_nil _)
    split <;> simp [hNe]
  | startDeadline i =>
    dsimp only
    cases hPending : h.service.board.pending[i]? with
    | none =>
      rw [List.eraseIdx_of_length_le (List.getElem?_eq_none_iff.mp hPending)]
      rfl
    -- the deadline that starts is one of another job
    | some d => exact filter_eraseIdx hPending (by simpa using hOther d hPending)
  | _ => rfl

-- ---------------------------------------------------------------------------
-- Before a job is created
-- ---------------------------------------------------------------------------

/-- Nothing is known yet of a job. -/
structure Awaits (h : JobHistory) (id : String) : Prop where
  job : h.job? id = none
  calls : h.callsOn id = []
  deadlines : ∀ t ∈ h.timers, t.effect = .deadline → t.job ≠ id
  pending : h.pendingOf id = []
  start : h.startOf? id = none

/-- There is no deadline of the job that could start. -/
theorem Awaits.started_ne (hAwaits : h.Awaits id) {d : Deadline}
    (hStarted : e.started? h.service = some d) : d.job ≠ id := by
  cases e with
  | startDeadline i =>
    have hNone := List.filter_eq_nil_iff.mp hAwaits.pending d (List.mem_of_getElem? hStarted)
    simpa using hNone
  | _ => cases hStarted

/-- At first nothing is known of any job. -/
theorem awaits_start (node : String) (settings : SearchJobSettings) (hasTimers : Bool)
    (id : String) : (start node settings hasTimers).Awaits id :=
  ⟨rfl, rfl, fun _ hMem => absurd hMem List.not_mem_nil, rfl, rfl⟩

/-- An event that does not create the job makes nothing known of it. -/
theorem Awaits.step (hAwaits : h.Awaits id) (hReports : h.Reporting)
    (hNew : e.created? ≠ some id) : (h.step e).Awaits id where
  job := by
    rw [job?, JobHistory.step, JobEvent.find?_happen hReports hNew]
    exact congrArg (Option.map _) hAwaits.job
  calls := by
    rw [callsOn_step, hAwaits.calls, List.nil_append, Option.toList_eq_nil_iff]
    cases e.request? h.service with
    | none => rfl
    | some r =>
      by_cases hId : r.id = id
      · rw [Option.filter_some_pos (by simpa using hId), Option.bind_some, JobBoard.call?, hId]
        exact congrArg (Option.map _) hAwaits.job
      · rw [Option.filter_some_neg (by simpa using hId)]
        rfl
  deadlines := by
    intro t hMem hEffect
    obtain hOld | ⟨d, hStarted, rfl⟩ | ⟨_, _, _, _, -, rfl⟩ := JobEvent.mem_timers_happen hMem
    · exact hAwaits.deadlines t hOld hEffect
    -- a deadline starts only if it is pending, and none of this job is
    · exact hAwaits.started_ne hStarted
    · cases hEffect
  pending := by
    rw [pendingOf_step_of_not_started hNew fun d => hAwaits.started_ne]
    exact hAwaits.pending
  start := by
    rw [startOf?_step, hAwaits.start, Option.none_or, Option.map_eq_none_iff,
      Option.filter_eq_none_iff]
    exact fun d hStarted => by simpa using hAwaits.started_ne hStarted

/-- Nor do any number of such events. -/
theorem Awaits.run (hAwaits : h.Awaits id) (hReports : h.Reporting)
    (hNew : ∀ e ∈ events, e.created? ≠ some id) : (h.run events).Awaits id := by
  induction events generalizing h with
  | nil => exact hAwaits
  | cons e rest ih =>
    obtain ⟨hFirst, hRest⟩ := List.forall_mem_cons.mp hNew
    exact ih (hAwaits.step hReports hFirst) (hReports.step e) hRest

/-- Before its creation nothing is known of a job, whatever has happened. -/
theorem awaits_run_start (hNew : ∀ e ∈ events, e.created? ≠ some id) (node : String)
    (settings : SearchJobSettings) (hasTimers : Bool) :
    ((start node settings hasTimers).run events).Awaits id :=
  (awaits_start node settings hasTimers id).run (reporting_start node settings hasTimers) hNew

/-- A job that is created is running, and nothing has been done to it. -/
theorem Awaits.create (hAwaits : h.Awaits id) (search : Json) (owner : String)
    (cancelAfter : Option Nat) :
    (h.step (.create id search owner cancelAfter)).job? id =
        some (.new id search owner h.service.node cancelAfter) ∧
      (h.step (.create id search owner cancelAfter)).callsOn id = [] := by
  refine ⟨?_, ?_⟩
  · exact (h.service.find?_create id id search owner cancelAfter).trans (if_pos rfl)
  · rw [callsOn_step, hAwaits.calls]
    rfl

end JobHistory

end RuleBlocks
