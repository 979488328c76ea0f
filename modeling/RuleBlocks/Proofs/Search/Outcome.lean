import RuleBlocks.Proofs.Search.Passage

/-!
# The outcome of a job

However workers, users and timers race for a job, the first of them who can end it decides about its
status, and only that one is told so. Users who may not see a job have no part in this. The token is
another matter: it is cancelled by every call that cancels the job, also if the job has ended
before, so that a job with a result may come to be reported as cancelled.

* `JobHistory.Bars` — what users who may not see a job can do about it;
* `first_ending_call_decides` — the status of a job, and the answers of the calls;
* `cancellation_reports_differ_iff` — when status and token tell different things.
-/

namespace RuleBlocks

namespace JobHistory

variable {h : JobHistory} {e : JobEvent} {events before after : List JobEvent} {id : String}

-- ---------------------------------------------------------------------------
-- From the start
-- ---------------------------------------------------------------------------

/-- **A job that was created is turned by the calls that are recorded, whatever happens.** -/
theorem exists_turns_start (hBefore : ∀ e ∈ before, e.created? ≠ some id)
    (hAfter : ∀ e ∈ after, e.created? ≠ some id) (node : String) (settings : SearchJobSettings)
    (hasTimers : Bool) (search : Json) (owner : String) (cancelAfter : Option Nat) :
    let created := (start node settings hasTimers).run
      (before ++ [.create id search owner cancelAfter])
    let h := (start node settings hasTimers).run
      (before ++ .create id search owner cancelAfter :: after)
    ∃ j k : SearchJob, j.status = .running ∧ j.tokenCancelled = false ∧ j.owner = owner ∧
      created.Turns h id j (h.callsOn id) k := by
  intro created h
  have hReports := (reporting_start node settings hasTimers).run before
  obtain ⟨hJob, hNone⟩ :=
    (awaits_run_start hBefore node settings hasTimers).create search owner cancelAfter
  have hCreated : created = ((start node settings hasTimers).run before).step
      (.create id search owner cancelAfter) := run_append _ _ _
  have hRun : h = created.run after := by
    rw [hCreated]
    exact run_append _ _ _
  rw [← hCreated] at hJob hNone
  obtain ⟨calls, k, hTurns⟩ :=
    Reporting.exists_turns (hCreated ▸ hReports.step _) hAfter hJob
  rw [← hRun] at hTurns
  have hCalls : h.callsOn id = calls := by rw [hTurns.record, hNone, List.nil_append]
  exact ⟨_, k, rfl, rfl, rfl, hCalls ▸ hTurns⟩

/-- Every job is found by its own id. -/
def Keyed (h : JobHistory) : Prop :=
  ∀ id j, h.job? id = some j → j.id = id

/-- No event makes a job known under another name. -/
theorem Keyed.step (hKeyed : h.Keyed) (hReports : h.Reporting) (e : JobEvent) :
    (h.step e).Keyed := by
  intro id k hJob
  -- a job comes from its creation, or was there before
  by_cases hNew : e.created? = some id
  · cases e with
    | create other search owner cancelAfter =>
      obtain rfl := Option.some.inj hNew
      have hCreated := h.service.find?_create other other search owner cancelAfter
      rw [if_pos rfl] at hCreated
      obtain rfl := Option.some.inj (hCreated.symm.trans hJob)
      rfl
    | _ => cases hNew
  · obtain hNone | ⟨j, hFind⟩ := Option.eq_none_or_eq_some (h.job? id)
    · rw [job?, JobHistory.step, JobEvent.find?_happen hReports hNew] at hJob
      change h.service.board.find? id = none at hNone
      rw [hNone] at hJob
      cases hJob
    · obtain ⟨calls, l, hTurns⟩ := hReports.exists_turns_step hNew hFind
      obtain rfl := Option.some.inj (hTurns.job.symm.trans hJob)
      exact (congrArg Prod.fst hTurns.takes.identity).trans (hKeyed id j hFind)

/-- Jobs stay under their names. -/
theorem Keyed.run (hKeyed : h.Keyed) (hReports : h.Reporting) (events : List JobEvent) :
    (h.run events).Keyed := by
  induction events generalizing h with
  | nil => exact hKeyed
  | cons e rest ih => exact ih (hKeyed.step hReports e) (hReports.step e)

theorem keyed_start (node : String) (settings : SearchJobSettings) (hasTimers : Bool) :
    (start node settings hasTimers).Keyed := by
  rintro id j ⟨⟩

-- ---------------------------------------------------------------------------
-- Users who may not see a job
-- ---------------------------------------------------------------------------

/-- A user gets to see nothing of a job, and cannot change it. -/
structure Bars (h : JobHistory) (id : String) (user : SearchUser) : Prop where
  find : ∀ other j, (h.service.find other user).1 = .ok (some j) → j.id ≠ id
  load : ∀ other v, (h.service.load other user).1 = .ok (some v) → v.id ≠ id
  /-- A look-up changes no job at all. -/
  board_find : ∀ other, (h.service.find other user).2.board = h.service.board
  /-- While the user waits for other jobs, nothing but time passes. -/
  passesTo_load : ∀ other, h.PassesTo (h.service.load other user).2.board
  board_load : (h.service.load id user).2.board = h.service.board
  find?_cancel : ∀ other, (h.service.cancel other user).2.board.find? id = h.job? id

/-- Who may not see a job is barred from every call on it. -/
theorem bars_of_not_mayAccess (hKeyed : h.Keyed) {j : SearchJob} (hJob : h.job? id = some j)
    {user : SearchUser} (hMay : user.mayAccess j.owner = false) : h.Bars id user := by
  -- What the user finds is another job, for this one would have been refused.
  have hFind : ∀ other k, (h.service.find other user).1 = .ok (some k) →
      other ≠ id ∧ k.id ≠ id := by
    intro other k hFound
    obtain ⟨hHeld, hMay'⟩ := SearchService.find_eq_ok_some_iff.mp hFound
    have hOther : other ≠ id := by
      rintro rfl
      obtain rfl := Option.some.inj (hJob.symm.trans (SearchService.find?_of_held hHeld))
      rw [hMay] at hMay'
      cases hMay'
    exact ⟨hOther, (hKeyed other k (SearchService.find?_of_held hHeld)).symm ▸ hOther⟩
  refine ⟨fun other k hFound => (hFind other k hFound).2, fun other v hLoad => ?_,
    fun other => by rw [SearchService.find_snd, SearchService.touched],
    fun other => h.passesTo_load other user, ?_, fun other => ?_⟩
  · obtain ⟨k, hFound, hId⟩ := SearchService.exists_found_of_load hLoad
    exact fun hSame => (hFind other k hFound).2 (hId ▸ hSame)
  · rw [SearchService.load_snd]
    dsimp only
    split
    · next k hFound => exact absurd rfl (hFind id k hFound).1
    · rfl
  · rw [SearchService.cancel_snd]
    dsimp only
    split
    · next k hFound =>
      refine (h.service.board.find?_change other id SearchJob.cancel).trans ?_
      simp only [if_neg (hFind other k hFound).1, Option.map_id']
      rfl
    · rfl

end JobHistory

-- ---------------------------------------------------------------------------
-- The status
-- ---------------------------------------------------------------------------

section Outcome

variable {before after : List JobEvent} {id : String}

/--
**The first call that can end a job decides about it.** At every moment after the job was created
it is running until such a call was made, and from then on has the outcome of this call. The call is
the only one that is told that it has ended the job. Users who call through the service may see the
job; the others cannot change it and get to see nothing of it.
-/
theorem first_ending_call_decides (hBefore : ∀ e ∈ before, e.created? ≠ some id)
    (hAfter : ∀ e ∈ after, e.created? ≠ some id) (node : String) (settings : SearchJobSettings)
    (hasTimers : Bool) (search : Json) (owner : String) (cancelAfter : Option Nat) :
    let h := (JobHistory.start node settings hasTimers).run
      (before ++ .create id search owner cancelAfter :: after)
    ∃ j, h.job? id = some j ∧ j.owner = owner ∧
      j.status = (firstOutcome? (h.callsOn id)).getD .running ∧
      (∀ earlier c later, h.callsOn id = earlier ++ c :: later →
        (c.answer = true ↔ firstOutcome? earlier = none ∧ c.action.outcome?.isSome = true)) ∧
      (∀ more : List JobEvent, (∀ e ∈ more, e.created? ≠ some id) →
        ∃ k, (h.run more).job? id = some k ∧ (j.status ≠ .running → k.status = j.status)) ∧
      (∀ c ∈ h.callsOn id, ∀ user, c.caller = .user user →
        user.isAdmin = true ∨ user.username = owner) ∧
      ∀ user : SearchUser, ¬ (user.isAdmin = true ∨ user.username = owner) → h.Bars id user := by
  intro h
  obtain ⟨j, k, hRunning, -, rfl, hTurns⟩ := JobHistory.exists_turns_start hBefore hAfter node
    settings hasTimers search owner cancelAfter
  have hStart := JobHistory.reporting_start node settings hasTimers
  have hReports : h.Reporting := hStart.run _
  have hKeyed : h.Keyed := (JobHistory.keyed_start node settings hasTimers).run hStart _
  have hOwner : k.owner = j.owner := congrArg Prod.snd hTurns.takes.identity
  refine ⟨k, hTurns.job, hOwner, hTurns.takes.status hRunning, ?_, ?_, ?_, ?_⟩
  · intro earlier c later hSplit
    have hTakes := hTurns.takes
    rw [hSplit] at hTakes
    exact hTakes.answer_iff hRunning
  · intro more hMore
    obtain ⟨calls, l, hTurns'⟩ := hReports.exists_turns hMore hTurns.job
    refine ⟨l, hTurns'.job, fun hEnded => hTurns'.takes.status_of_finished ?_⟩
    rw [← Bool.not_eq_false, SearchJob.isFinished_eq_false_iff]
    exact hEnded
  · intro c hMem user hUser
    exact SearchUser.mayAccess_iff.mp (hTurns.entitled c hMem user hUser)
  · intro user hNot
    refine JobHistory.bars_of_not_mayAccess hKeyed hTurns.job ?_
    rw [hOwner, ← Bool.not_eq_true, SearchUser.mayAccess_iff]
    exact hNot

/-- The owner and somebody else race with a worker for a job. -/
theorem first_ending_call_decides_race :
    let before : List JobEvent := [.tick 5, .create "other" .null "bob" none]
    let after : List JobEvent :=
      [.startDeadline 0, .cancel "job" (.ordinary "bob"), .call "job" (.report (.result .null)),
        .cancel "job" (.ordinary "alice"), .tick 2000, .fire 0 false]
    let h := (JobHistory.start "node" .standard true).run
      (before ++ .create "job" .null "alice" (some 1) :: after)
    (∀ e ∈ before, e.created? ≠ some "job") ∧ (∀ e ∈ after, e.created? ≠ some "job") ∧
      (∃ j, h.job? "job" = some j ∧ j.status = .done .null) ∧ h.Bars "job" (.ordinary "bob") := by
  intro before after h
  have hBefore : ∀ e ∈ before, e.created? ≠ some "job" := by decide
  have hAfter : ∀ e ∈ after, e.created? ≠ some "job" := by decide
  obtain ⟨j, hJob, -, hStatus, -, -, -, hBars⟩ :=
    first_ending_call_decides hBefore hAfter "node" .standard true .null "alice" (some 1)
  exact ⟨hBefore, hAfter, ⟨j, hJob, hStatus⟩, hBars (.ordinary "bob") (by decide)⟩

-- ---------------------------------------------------------------------------
-- The token
-- ---------------------------------------------------------------------------

/--
**Status and token.** The token of a job is cancelled if and only if a call has cancelled it, alone
or with the job. A job whose status says that it was cancelled has a cancelled token. If nobody
cancels the token alone, the converse holds except for jobs that have ended with a result or an
error, and that somebody, or the deadline, has cancelled all the same.
-/
theorem cancellation_reports_differ_iff (hBefore : ∀ e ∈ before, e.created? ≠ some id)
    (hAfter : ∀ e ∈ after, e.created? ≠ some id) (node : String) (settings : SearchJobSettings)
    (hasTimers : Bool) (search : Json) (owner : String) (cancelAfter : Option Nat) :
    let h := (JobHistory.start node settings hasTimers).run
      (before ++ .create id search owner cancelAfter :: after)
    ∃ j, h.job? id = some j ∧
      (j.tokenCancelled = true ↔
        ∃ c ∈ h.callsOn id, c.action = .cancel ∨ c.action = .cancelToken) ∧
      (j.status = .cancelled → j.tokenCancelled = true) ∧
      ((∀ c ∈ h.callsOn id, c.action ≠ .cancelToken) →
        (j.tokenCancelled = true ∧ j.status ≠ .cancelled ↔
          (∃ report : JobReport, j.status = report.status) ∧
            ∃ c ∈ h.callsOn id, c.action = .cancel)) := by
  intro h
  obtain ⟨j, k, hRunning, hUnset, -, hTurns⟩ := JobHistory.exists_turns_start hBefore hAfter node
    settings hasTimers search owner cancelAfter
  have hToken : k.tokenCancelled = true ↔
      ∃ c ∈ h.callsOn id, c.action = .cancel ∨ c.action = .cancelToken := by
    rw [hTurns.takes.tokenCancelled, hUnset, Bool.false_or, List.any_eq_true]
    simp only [JobAction.setsToken_iff]
    rfl
  have hCases := hTurns.takes.status_cases hRunning
  refine ⟨k, hTurns.job, hToken, fun hCancelled => ?_, fun hAlone => ⟨?_, ?_⟩⟩
  -- no end was named, or it was cancelled, or reported on
  · obtain ⟨hStatus, -⟩ | ⟨-, c, hMem, hCancel⟩ | ⟨r, hStatus, -⟩ := hCases
    · rw [hCancelled] at hStatus
      cases hStatus
    · exact hToken.mpr ⟨c, hMem, .inl hCancel⟩
    · exact absurd (hStatus.symm.trans hCancelled) r.status_ne_cancelled
  · rintro ⟨hSet, hNot⟩
    obtain ⟨c, hMem, hCall⟩ := hToken.mp hSet
    refine ⟨?_, c, hMem, hCall.resolve_right (hAlone c hMem)⟩
    obtain ⟨-, hOnly⟩ | ⟨hStatus, -⟩ | ⟨r, hStatus, -⟩ := hCases
    · exact absurd (hOnly c hMem) (hAlone c hMem)
    · exact absurd hStatus hNot
    · exact ⟨r, hStatus⟩
  · rintro ⟨⟨r, hReport⟩, c, hMem, hCancel⟩
    refine ⟨hToken.mpr ⟨c, hMem, .inl hCancel⟩, ?_⟩
    rw [hReport]
    exact r.status_ne_cancelled

/-- A job is completed, and then its deadline passes. -/
theorem cancellation_reports_differ_iff_late :
    let after : List JobEvent :=
      [.startDeadline 0, .call "job" (.report (.result .null)), .tick 1000, .fire 0 false]
    let h := (JobHistory.start "node" .standard true).run
      ([] ++ .create "job" .null "alice" (some 1) :: after)
    (∀ e ∈ ([] : List JobEvent), e.created? ≠ some "job") ∧
      (∀ e ∈ after, e.created? ≠ some "job") ∧
      ∃ j, h.job? "job" = some j ∧ j.tokenCancelled = true ∧ j.status ≠ .cancelled := by
  intro after h
  have hBefore : ∀ e ∈ ([] : List JobEvent), e.created? ≠ some "job" := by decide
  have hAfter : ∀ e ∈ after, e.created? ≠ some "job" := by decide
  obtain ⟨j, hJob, -, -, hDiffer⟩ :=
    cancellation_reports_differ_iff hBefore hAfter "node" .standard true .null "alice" (some 1)
  let calls : List JobCall :=
    [⟨⟨.holder, "job", .report (.result .null)⟩, 0, true⟩,
      ⟨⟨.deadline, "job", .cancel⟩, 1000, false⟩]
  have hCalls : h.callsOn "job" = calls := rfl
  have hAlone : ∀ c ∈ calls, c.action ≠ .cancelToken := by simp [calls]
  have hLate : ∃ c ∈ calls, c.action = .cancel :=
    ⟨_, List.mem_cons_of_mem _ List.mem_cons_self, rfl⟩
  have hFinal : (h.job? "job").map (·.status) = some (JobReport.result .null).status := rfl
  rw [hJob] at hFinal
  rw [hCalls] at hDiffer
  exact ⟨hBefore, hAfter, j, hJob, (hDiffer hAlone).mpr ⟨⟨_, Option.some.inj hFinal⟩, hLate⟩⟩

/-- A job that has a result, and is cancelled late, has both a result and a cancelled token. -/
theorem done_job_is_cancelled :
    let h := (JobHistory.start "node" .standard true).run
      [.create "job" .null "alice" none, .call "job" (.report (.result .null)), .call "job" .cancel]
    ∃ j, h.job? "job" = some j ∧ j.status = .done .null ∧ j.tokenCancelled = true ∧
      ¬ (j.tokenCancelled = true ↔ j.status = .cancelled) := by
  refine ⟨_, rfl, rfl, rfl, fun hAgree => ?_⟩
  cases hAgree.mp rfl

end Outcome

end RuleBlocks
