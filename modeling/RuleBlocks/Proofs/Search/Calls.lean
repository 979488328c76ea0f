import RuleBlocks.Proofs.Search.Continuity

/-!
# What is done to a job

Workers report what came of a search, users cancel it, its deadline passes, and whoever holds its
token may cancel that alone. Whatever is done, only the first action that ends the job has an
effect on the status; the token is set by every action that sets it, at whatever time.

* `JobAction.perform` — do something to a job;
* `JobCall` — what was done to a job, by whom and when, and what it answered;
* `SearchJob.Takes` — a job becomes another one by some calls;
* `Takes.status`, `Takes.answer_iff`, `Takes.tokenCancelled` — status, answers and token after any
  calls;
* `Takes.countP_answer` — a job is ended once, if at all.
-/

namespace RuleBlocks

-- ---------------------------------------------------------------------------
-- Actions
-- ---------------------------------------------------------------------------

/-- What came of a search. -/
inductive JobReport
  | result (value : Json)
  | error (text : String)

def JobReport.status : JobReport → JobStatus
  | result value => .done value
  | error text => .failed text

def JobReport.ofStatus? : JobStatus → Option JobReport
  | .done value => some (.result value)
  | .failed text => some (.error text)
  | _ => none

namespace JobReport

/-- A report is told by the status it leaves. -/
@[simp] theorem ofStatus?_status (r : JobReport) : ofStatus? r.status = some r := by
  cases r <;> rfl

theorem status_of_ofStatus? {outcome : JobStatus} {r : JobReport}
    (h : ofStatus? outcome = some r) : r.status = outcome := by
  cases outcome with
  | done value => exact Option.some.inj h ▸ rfl
  | failed text => exact Option.some.inj h ▸ rfl
  | _ => cases h

theorem status_ne_cancelled (r : JobReport) : r.status ≠ .cancelled := by
  cases r <;> simp [status]

end JobReport

/-- What can be done to a job. -/
inductive JobAction
  | report (report : JobReport)
  | cancel
  /-- The token alone is cancelled, not the job. -/
  | cancelToken

namespace JobAction

/-- The status with which a running job ends, if the action ends it. -/
def outcome? : JobAction → Option JobStatus
  | report r => some r.status
  | cancel => some .cancelled
  | cancelToken => none

def setsToken : JobAction → Bool
  | report _ => false
  | cancel => true
  | cancelToken => true

/-- Do something to a job; tells whether that has ended it. -/
def perform : JobAction → SearchJob → Bool × SearchJob
  | report r, j => j.finish r.status
  | cancel, j => j.cancel
  | cancelToken, j => (false, j.cancelToken)

variable {j : SearchJob}

/-- A call that ends a job cancels it or reports on it. -/
theorem outcome?_eq_some {a : JobAction} {outcome : JobStatus} (h : a.outcome? = some outcome) :
    (a = .cancel ∧ outcome = .cancelled) ∨ ∃ r, a = .report r ∧ outcome = r.status := by
  cases a with
  | report r => exact .inr ⟨r, rfl, (Option.some.inj h).symm⟩
  | cancel => exact .inl ⟨rfl, (Option.some.inj h).symm⟩
  | cancelToken => cases h

/-- What a call names is an end. -/
theorem isFinished_of_outcome {a : JobAction} {outcome : JobStatus}
    (h : a.outcome? = some outcome) : outcome.isFinished = true := by
  obtain ⟨-, rfl⟩ | ⟨r, -, rfl⟩ := outcome?_eq_some h
  · rfl
  · cases r <;> rfl

theorem setsToken_iff {a : JobAction} : a.setsToken = true ↔ a = .cancel ∨ a = .cancelToken := by
  cases a <;> simp [setsToken]

/-- On an ended job a call is refused, and at most sets the token. -/
theorem perform_of_finished (h : j.isFinished = true) (a : JobAction) :
    a.perform j = (false, if a.setsToken then j.cancelToken else j) := by
  cases a with
  | report r => simp only [perform, SearchJob.finish, h, setsToken, if_true, Bool.false_eq_true,
      if_false]
  | cancel => simp only [perform, SearchJob.cancel, SearchJob.finish, h, setsToken, if_true]
  | cancelToken => rfl

theorem status_perform_of_finished (h : j.isFinished = true) (a : JobAction) :
    (a.perform j).2.status = j.status := by
  rw [perform_of_finished h]
  cases a.setsToken <;> rfl

/-- On a running job a call leaves the status it names, if any. -/
theorem status_perform_of_running (h : j.status = .running) (a : JobAction) :
    (a.perform j).2.status = a.outcome?.getD .running := by
  have hFinished : j.isFinished = false := by rw [SearchJob.isFinished, h]; rfl
  cases a with
  | report r => simp [perform, SearchJob.finish, hFinished, outcome?]
  | cancel => simp [perform, SearchJob.cancel, SearchJob.cancelToken, SearchJob.finish, hFinished,
      outcome?]
  | cancelToken => exact h

theorem isFinished_perform_of_finished (h : j.isFinished = true) (a : JobAction) :
    (a.perform j).2.isFinished = true := by
  rw [SearchJob.isFinished, status_perform_of_finished h]
  exact h

theorem isFinished_perform_of_outcome {a : JobAction} {outcome : JobStatus}
    (h : j.status = .running) (hOutcome : a.outcome? = some outcome) :
    (a.perform j).2.isFinished = true := by
  rw [SearchJob.isFinished, status_perform_of_running h, hOutcome]
  exact isFinished_of_outcome hOutcome

/-- An action answers that it has ended the job, if it ends jobs and the job was running. -/
theorem answer_perform (a : JobAction) (j : SearchJob) :
    (a.perform j).1 = (!j.isFinished && a.outcome?.isSome) := by
  cases hFinished : j.isFinished with
  | true => rw [perform_of_finished hFinished]; rfl
  | false =>
    cases a with
    | report r => simp [perform, SearchJob.finish, hFinished, outcome?]
    | cancel => simp [perform, SearchJob.cancel, SearchJob.finish, hFinished, outcome?]
    | cancelToken => rfl

/-- The token stays set, whoever has set it. -/
theorem tokenCancelled_perform (a : JobAction) (j : SearchJob) :
    (a.perform j).2.tokenCancelled = (j.tokenCancelled || a.setsToken) := by
  cases a with
  | report r =>
    rw [perform, SearchJob.finish, setsToken, Bool.or_false]
    split <;> rfl
  | cancel => exact (Bool.or_true _).symm
  | cancelToken => exact (Bool.or_true _).symm

/-- No call changes what a job was created with. -/
theorem identity_perform (a : JobAction) (j : SearchJob) :
    (a.perform j).2.identity = j.identity := by
  cases a with
  | report r => exact j.identity_finish r.status
  | cancel => exact j.identity_cancel
  | cancelToken => exact j.identity_cancelToken

end JobAction

-- ---------------------------------------------------------------------------
-- Calls
-- ---------------------------------------------------------------------------

/-- Who does something to a job. -/
inductive JobCaller
  /-- Whoever holds the job itself. -/
  | holder
  /-- A user, who asks the service. -/
  | user (user : SearchUser)
  /-- The worker that was to report later. -/
  | worker
  | deadline

/-- Something that is to be done to a job. -/
structure JobRequest where
  caller : JobCaller
  id : String
  action : JobAction

/-- Something that was done to a job. -/
structure JobCall extends JobRequest where
  time : Nat
  /-- Whether it has ended the job. -/
  answer : Bool

/-- The record of a request that is granted for a job. -/
def JobRequest.call (r : JobRequest) (time : Nat) (j : SearchJob) : JobCall :=
  { r with time, answer := (r.action.perform j).1 }

/-- The outcome of the first of some calls that can end a job. -/
def firstOutcome? (calls : List JobCall) : Option JobStatus :=
  calls.findSome? (·.action.outcome?)

/-- The first end named is in the earlier calls, if they name one. -/
theorem firstOutcome?_append (before after : List JobCall) :
    firstOutcome? (before ++ after) = (firstOutcome? before).or (firstOutcome? after) :=
  List.findSome?_append

/-- No end is named only if all calls are about the token alone. -/
theorem firstOutcome?_eq_none_iff {calls : List JobCall} :
    firstOutcome? calls = none ↔ ∀ c ∈ calls, c.action = .cancelToken := by
  rw [firstOutcome?, List.findSome?_eq_none_iff]
  refine forall₂_congr fun c _ => ?_
  cases c.action <;> simp [JobAction.outcome?]

/-- The first end named is an end. -/
theorem isFinished_of_firstOutcome {calls : List JobCall} {outcome : JobStatus}
    (h : firstOutcome? calls = some outcome) : outcome.isFinished = true := by
  obtain ⟨c, -, hOutcome⟩ := List.exists_of_findSome?_eq_some h
  exact JobAction.isFinished_of_outcome hOutcome

namespace SearchJob

/-- A job becomes another one by some calls, each of which answers what it did. -/
inductive Takes : SearchJob → List JobCall → SearchJob → Prop
  | nil (j : SearchJob) : Takes j [] j
  | cons {j k : SearchJob} {c : JobCall} {calls : List JobCall}
    (hAnswer : c.answer = (c.action.perform j).1) (hRest : Takes (c.action.perform j).2 calls k) :
    Takes j (c :: calls) k

variable {j k l : SearchJob} {calls before after : List JobCall} {c : JobCall}

/-- A job that has not ended is running. -/
theorem isFinished_eq_false_iff : j.isFinished = false ↔ j.status = .running := by
  rw [isFinished]
  cases j.status <;> simp [JobStatus.isFinished]

namespace Takes

theorem append (h : Takes j before k) (h' : Takes k after l) : Takes j (before ++ after) l := by
  induction h with
  | nil => exact h'
  | cons hAnswer _ ih => exact .cons hAnswer (ih h')

theorem split (h : Takes j (before ++ after) l) : ∃ k, Takes j before k ∧ Takes k after l := by
  induction before generalizing j with
  | nil => exact ⟨j, .nil j, h⟩
  | cons c rest ih =>
    cases h with
    | cons hAnswer hRest =>
      obtain ⟨k, hRest', hAfter⟩ := ih hRest
      exact ⟨k, .cons hAnswer hRest', hAfter⟩

theorem identity (h : Takes j calls k) : k.identity = j.identity := by
  induction h with
  | nil => rfl
  | cons _ _ ih => exact ih.trans (JobAction.identity_perform _ _)

/-- **A job that has ended never changes its status.** -/
theorem status_of_finished (h : Takes j calls k) (hFinished : j.isFinished = true) :
    k.status = j.status := by
  induction h with
  | nil => rfl
  | @cons j _ c _ _ _ ih =>
    have hStatus := JobAction.status_perform_of_finished hFinished c.action
    exact (ih (JobAction.isFinished_perform_of_finished hFinished c.action)).trans hStatus

/-- **A running job gets the outcome of the first call that can end it.** -/
theorem status (h : Takes j calls k) (hRunning : j.status = .running) :
    k.status = (firstOutcome? calls).getD .running := by
  induction h with
  | nil => exact hRunning
  | @cons j _ c calls _ hRest ih =>
    have hStatus := JobAction.status_perform_of_running hRunning c.action
    rw [firstOutcome?, List.findSome?_cons]
    cases hOutcome : c.action.outcome? with
    | none =>
      rw [hOutcome] at hStatus
      exact ih hStatus
    | some outcome =>
      rw [hOutcome, Option.getD_some] at hStatus
      have hFinished := JobAction.isFinished_perform_of_outcome hRunning hOutcome
      exact (hRest.status_of_finished hFinished).trans hStatus

/-- A job is running, was cancelled, or ended by a report, and each for a reason. -/
theorem status_cases (h : Takes j calls k) (hRunning : j.status = .running) :
    (k.status = .running ∧ ∀ c ∈ calls, c.action = .cancelToken) ∨
      (k.status = .cancelled ∧ ∃ c ∈ calls, c.action = .cancel) ∨
      ∃ r : JobReport, k.status = r.status ∧ ∃ c ∈ calls, c.action = .report r := by
  have hStatus := h.status hRunning
  cases hOutcome : firstOutcome? calls with
  | none =>
    rw [hOutcome, Option.getD_none] at hStatus
    exact .inl ⟨hStatus, firstOutcome?_eq_none_iff.mp hOutcome⟩
  | some outcome =>
    rw [hOutcome, Option.getD_some] at hStatus
    obtain ⟨c, hMem, hAction⟩ := List.exists_of_findSome?_eq_some hOutcome
    obtain ⟨hCancel, rfl⟩ | ⟨r, hReport, rfl⟩ := JobAction.outcome?_eq_some hAction
    · exact .inr (.inl ⟨hStatus, c, hMem, hCancel⟩)
    · exact .inr (.inr ⟨r, hStatus, c, hMem, hReport⟩)

/-- A running job is still running if no call has named an end. -/
theorem isRunning_iff (h : Takes j calls k) (hRunning : j.status = .running) :
    k.status = .running ↔ firstOutcome? calls = none := by
  rw [h.status hRunning]
  cases hOutcome : firstOutcome? calls with
  | none => simp
  | some outcome =>
    have hFinished := isFinished_of_firstOutcome hOutcome
    simp only [Option.getD_some, reduceCtorEq, iff_false]
    rintro rfl
    cases hFinished

/-- **Only the first call that can end the job answers that it did.** -/
theorem answer_iff (h : Takes j (before ++ c :: after) k) (hRunning : j.status = .running) :
    c.answer = true ↔ firstOutcome? before = none ∧ c.action.outcome?.isSome = true := by
  obtain ⟨l, hBefore, hCall⟩ := h.split
  cases hCall with
  | cons hAnswer _ =>
    rw [hAnswer, JobAction.answer_perform, Bool.and_eq_true, Bool.not_eq_true',
      isFinished_eq_false_iff, hBefore.isRunning_iff hRunning]

/-- The call that has ended a job has given it its status. -/
theorem outcome_of_answer (h : j.Takes calls k) (hRunning : j.status = .running) (hMem : c ∈ calls)
    (hAnswer : c.answer = true) : c.action.outcome? = some k.status := by
  obtain ⟨earlier, later, rfl⟩ := List.append_of_mem hMem
  obtain ⟨hFirst, hEnds⟩ := (h.answer_iff hRunning).mp hAnswer
  obtain ⟨outcome, hOutcome⟩ := Option.isSome_iff_exists.mp hEnds
  have hDecides : firstOutcome? (earlier ++ c :: later) = some outcome := by
    rw [firstOutcome?_append, hFirst, Option.none_or, firstOutcome?, List.findSome?_cons, hOutcome]
  rw [h.status hRunning, hDecides, hOutcome, Option.getD_some]

/-- After its end a job answers no call. -/
theorem countP_answer_of_finished (h : j.Takes calls k) (hFinished : j.isFinished = true) :
    calls.countP (·.answer) = 0 := by
  induction h with
  | nil => rfl
  | @cons j _ c _ hAnswer _ ih =>
    have hRefused : c.answer = false := by
      rw [hAnswer, JobAction.answer_perform, hFinished]
      rfl
    rw [List.countP_cons_of_neg (by rw [hRefused]; exact Bool.false_ne_true)]
    exact ih (JobAction.isFinished_perform_of_finished hFinished c.action)

/-- **A job is ended once**, if at all. -/
theorem countP_answer (h : j.Takes calls k) (hRunning : j.status = .running) :
    calls.countP (·.answer) = if k.isFinished then 1 else 0 := by
  induction h with
  | nil j => rw [isFinished_eq_false_iff.mpr hRunning]; rfl
  | @cons j k c calls hAnswer hRest ih =>
    rw [JobAction.answer_perform, isFinished_eq_false_iff.mpr hRunning] at hAnswer
    cases hOutcome : c.action.outcome? with
    | none =>
      have hStatus := JobAction.status_perform_of_running hRunning c.action
      rw [hOutcome] at hAnswer hStatus
      rw [List.countP_cons_of_neg (by rw [hAnswer]; exact Bool.false_ne_true), ih hStatus]
    | some outcome =>
      rw [hOutcome] at hAnswer
      -- this call is the one that is answered: it ends the job, and the rest are refused
      have hFinished := JobAction.isFinished_perform_of_outcome hRunning hOutcome
      have hLast : k.isFinished = true := by
        rw [isFinished, hRest.status_of_finished hFinished]
        exact hFinished
      rw [List.countP_cons_of_pos hAnswer, hRest.countP_answer_of_finished hFinished, hLast]
      rfl

/-- **The token is cancelled by whatever sets it, at any time.** -/
theorem tokenCancelled (h : Takes j calls k) :
    k.tokenCancelled = (j.tokenCancelled || calls.any (·.action.setsToken)) := by
  induction h with
  | nil => exact (Bool.or_false _).symm
  | cons _ _ ih => rw [ih, JobAction.tokenCancelled_perform, List.any_cons, Bool.or_assoc]

end Takes

end SearchJob

end RuleBlocks
