import RuleBlocks.Proofs.Search.Passage

/-!
# Deadlines

A job that is to be cancelled after some seconds gets a deadline when it is created. The deadline is
a task of its own, and its time begins when this task has its first turn: a clock that moves before
that moves without it, and a job whose deadline never starts is never cancelled by it. Once it has
started there is a timer, which goes off when the seconds are over or later, never before. Until it
goes off nothing need have been done to the job; when it does, it cancels the job, unless somebody
has ended it or cancelled its token. A token that is cancelled alone is the one thing by which a job
can outlast a deadline that has started. The cache has no part in this: a job is on the board as
long as anybody holds it, whether it can be looked up or not.

* `JobHistory.Watched` — the invariant: the deadline is pending until it starts, and then armed
  until something is done to the job;
* `Watched.step`, `Watched.run` — every event keeps it, and so does a history of any length;
* `Watched.job?_run_of_not_due` — while nothing of a job is due, time leaves it alone;
* `JobHistory.KeepsDeadline` — what has become of a job, and what will become of it in time;
* `deadline_ends_job` — so it is with every job that is created.
-/

namespace RuleBlocks

namespace JobEvent

variable {s : SearchService} {e : JobEvent} {t : Timer}

/-- A timer is there until it goes off. -/
theorem mem_timers_happen_or_due (h : t ∈ s.board.timers) :
    t ∈ (e.happen s).board.timers ∨ ∃ i anyway, e = .fire i anyway ∧ s.board.due? i = some t := by
  obtain ⟨jobs, hBoard⟩ := exists_board_happen s e
  rw [hBoard]
  cases e with
  | work after id report heedsToken => exact .inl (List.mem_append_left _ h)
  | startDeadline i =>
    dsimp only
    cases hPending : s.board.pending[i]? with
    | none =>
      rw [JobBoard.startAt_of_none hPending]
      exact .inl h
    | some d =>
      rw [JobBoard.startAt_of_pending hPending]
      exact .inl (List.mem_append_left _ h)
  | fire i anyway =>
    dsimp only
    cases hDue : s.board.due? i with
    | none => exact .inl h
    | some t' =>
      -- the same timer may be armed twice: it is gone only if it stood where one went off
      by_cases hPlace : s.board.timers[i]? = some t
      · have hSame : t' = t :=
          Option.some.inj ((JobBoard.due?_eq_some_iff.mp hDue).1.symm.trans hPlace)
        exact .inr ⟨i, anyway, rfl, hSame ▸ hDue⟩
      · obtain ⟨k, hBound, hAt⟩ := List.getElem_of_mem h
        have hAt' : s.board.timers[k]? = some t := List.getElem?_eq_some_iff.mpr ⟨hBound, hAt⟩
        have hNe : k ≠ i := fun hSame => hPlace (hSame ▸ hAt')
        exact .inl (List.mem_eraseIdx_iff_getElem?.mpr ⟨k, hNe, hAt'⟩)
  | _ => exact .inl h

/-- A service has timers from the start, or never. -/
theorem hasTimers_happen (s : SearchService) (e : JobEvent) :
    (e.happen s).hasTimers = s.hasTimers := by
  cases e with
  | find id user =>
    rw [happen, s.find_snd]
    rfl
  | cancel id user =>
    rw [happen, s.cancel_snd]
    rfl
  | _ => rfl

/-- While time passes, the only timers that are armed are those of deadlines. -/
theorem IsPassing.mem_timers (hPassing : e.IsPassing) (h : t ∈ (e.happen s).board.timers) :
    t ∈ s.board.timers ∨ t.effect = .deadline := by
  obtain hOld | ⟨_, -, rfl⟩ | ⟨_, _, _, _, rfl, -⟩ := mem_timers_happen h
  · exact .inl hOld
  · exact .inr rfl
  · exact hPassing.elim

/-- While time passes, only timers ask for something. -/
theorem IsPassing.exists_timer {r : JobRequest} (hPassing : e.IsPassing)
    (hRequest : e.request? s = some r) :
    ∃ t ∈ s.board.timers, t.due ≤ s.board.now ∧ t.job = r.id ∧ r.action ≠ .cancelToken := by
  cases e with
  | fire i anyway =>
    obtain ⟨t, hDue, hTimer⟩ := Option.bind_eq_some_iff.mp hRequest
    obtain ⟨hPlace, hTime⟩ := JobBoard.due?_eq_some_iff.mp hDue
    refine ⟨t, List.mem_of_getElem? hPlace, hTime, ?_⟩
    obtain ⟨-, rfl⟩ | ⟨report, heedsToken, -, rfl⟩ := Timer.request?_eq_some hTimer
    · exact ⟨rfl, by simp⟩
    · exact ⟨rfl, by simp⟩
  | tick ms => cases hRequest
  | startDeadline i => cases hRequest
  | _ => exact hPassing.elim

end JobEvent

namespace JobHistory

variable {h : JobHistory} {e : JobEvent} {events : List JobEvent} {id : String} {j₀ : SearchJob}
variable {created seconds p : Nat}

/-- The clock does not go back, whatever happens. -/
theorem now_le_run (h : JobHistory) (events : List JobEvent) : h.now ≤ (h.run events).now := by
  induction events generalizing h with
  | nil => exact Nat.le_refl _
  | cons e rest ih => exact Nat.le_trans (JobEvent.now_le_happen h.service e) (ih (h.step e))

/-- A service has timers from the start, or never, whatever happens. -/
theorem hasTimers_run (h : JobHistory) (events : List JobEvent) :
    (h.run events).service.hasTimers = h.service.hasTimers := by
  induction events generalizing h with
  | nil => rfl
  | cons e rest ih => exact (ih (h.step e)).trans (JobEvent.hasTimers_happen h.service e)

/-- While time passes, however long, the only timers that are armed are those of deadlines. -/
theorem mem_timers_run {t : Timer} (hPassing : ∀ e ∈ events, e.IsPassing)
    (hMem : t ∈ (h.run events).timers) : t ∈ h.timers ∨ t.effect = .deadline := by
  induction events generalizing h with
  | nil => exact .inl hMem
  | cons e rest ih =>
    obtain ⟨hFirst, hRest⟩ := List.forall_mem_cons.mp hPassing
    obtain hLater | hDeadline := ih hRest hMem
    · exact hFirst.mem_timers hLater
    · exact .inr hDeadline

-- ---------------------------------------------------------------------------
-- Starts
-- ---------------------------------------------------------------------------

theorem startOf?_step_of_some (hStart : h.startOf? id = some p) :
    (h.step e).startOf? id = some p := by
  rw [startOf?_step, hStart, Option.some_or]

/-- An event that starts no deadline of a job is not a start of it. -/
theorem startOf?_step_of_not_started (hOther : ∀ d, e.started? h.service = some d → d.job ≠ id) :
    (h.step e).startOf? id = h.startOf? id := by
  have hNone : (e.started? h.service).filter (·.job = id) = none :=
    Option.filter_eq_none_iff.mpr fun d hStarted => by simpa using hOther d hStarted
  rw [startOf?_step, hNone, Option.map_none, Option.or_none]

/-- What has started stays started. -/
theorem startOf?_run_of_some (hStart : h.startOf? id = some p) :
    (h.run events).startOf? id = some p := by
  induction events generalizing h with
  | nil => exact hStart
  | cons e rest ih => exact ih (startOf?_step_of_some hStart)

/-- What starts later, starts then. -/
theorem startOf?_run_cases (hStart : (h.run events).startOf? id = some p) :
    h.startOf? id = some p ∨ h.now ≤ p := by
  induction events generalizing h with
  | nil => exact .inl hStart
  | cons e rest ih =>
    obtain hFirst | hLater := ih hStart
    · rw [startOf?_step, Option.or_eq_some_iff] at hFirst
      obtain hBefore | ⟨-, hNow⟩ := hFirst
      · exact .inl hBefore
      · obtain ⟨_, -, rfl⟩ := Option.map_eq_some_iff.mp hNow
        exact .inr (Nat.le_refl _)
    · exact .inr (Nat.le_trans (JobEvent.now_le_happen h.service e) hLater)

-- ---------------------------------------------------------------------------
-- The invariant
-- ---------------------------------------------------------------------------

/-- What holds of a job from its creation on, which has a deadline if it was given any seconds. -/
structure Watched (h : JobHistory) (id : String) (j₀ : SearchJob) (created seconds : Nat) :
    Prop where
  reports : h.Reporting
  past : created ≤ h.now
  takes : ∃ j, h.job? id = some j ∧ j₀.Takes (h.callsOn id) j
  /-- The deadline is pending until it starts. -/
  pending : h.pendingOf id =
    if 0 < seconds ∧ h.startOf? id = none then [⟨1000 * seconds, id⟩] else []
  started : ∀ p, h.startOf? id = some p → 0 < seconds ∧ created ≤ p ∧ p ≤ h.now
  deadlines : ∀ t ∈ h.timers, t.effect = .deadline → t.job = id →
    ∃ p, h.startOf? id = some p ∧ t.due = p + 1000 * seconds
  /-- A deadline that has started is armed until something is done to the job. -/
  armed : ∀ p, h.startOf? id = some p →
    (∃ t ∈ h.timers, t.effect = .deadline ∧ t.job = id) ∨ h.callsOn id ≠ []
  calls : ∀ c ∈ h.callsOn id, c.caller = .deadline →
    ∃ p, h.startOf? id = some p ∧ p + 1000 * seconds ≤ c.time ∧ c.action = .cancel

/-- A job is watched when it has been created: its deadline is pending. -/
theorem Awaits.watched (hAwaits : h.Awaits id) (hReports : h.Reporting)
    (hTimers : h.service.hasTimers = true) (search : Json) (owner : String)
    (cancelAfter : Option Nat) :
    (h.step (.create id search owner cancelAfter)).Watched id
      (.new id search owner h.service.node cancelAfter) h.now (cancelAfter.getD 0) := by
  obtain ⟨hJob, hNone⟩ := hAwaits.create search owner cancelAfter
  have hStart : (h.step (.create id search owner cancelAfter)).startOf? id = none :=
    (startOf?_step_of_not_started fun d hStarted => by cases hStarted).trans hAwaits.start
  have hTimersOf : ∀ t ∈ (h.step (.create id search owner cancelAfter)).timers,
      t.effect = .deadline → t.job ≠ id := by
    intro t hMem hEffect
    obtain hOld | ⟨_, hStarted, -⟩ | ⟨_, _, _, _, hWork, -⟩ := JobEvent.mem_timers_happen hMem
    · exact hAwaits.deadlines t hOld hEffect
    · cases hStarted
    · cases hWork
  have hClock := JobEvent.now_le_happen h.service (.create id search owner cancelAfter)
  refine ⟨hReports.step _, hClock, ⟨_, hJob, hNone ▸ .nil _⟩, ?_, ?_, ?_, ?_, ?_⟩
  · rw [pendingOf_create, hAwaits.pending, hTimers, hStart]
    simp [Nat.pos_iff_ne_zero]
  · exact fun p hSome => nomatch hStart.symm.trans hSome
  · exact fun t hMem hEffect hId => absurd hId (hTimersOf t hMem hEffect)
  · exact fun p hSome => nomatch hStart.symm.trans hSome
  · rw [hNone]
    exact fun c hMem => absurd hMem List.not_mem_nil

namespace Watched

/-- Only a call can have cancelled the token. -/
theorem callsOn_ne_nil_of_tokenCancelled (hWatched : h.Watched id j₀ created seconds)
    (hUnset : j₀.tokenCancelled = false) {j : SearchJob} (hJob : h.job? id = some j)
    (hToken : j.tokenCancelled = true) : h.callsOn id ≠ [] := by
  intro hNone
  obtain ⟨k, hFind, hTakes⟩ := hWatched.takes
  obtain rfl : k = j := Option.some.inj (hFind.symm.trans hJob)
  rw [hNone] at hTakes
  cases hTakes
  rw [hToken] at hUnset
  cases hUnset

/-- A deadline that goes off finds that something was done to the job, or does something. -/
theorem callsOn_ne_nil_of_due (hWatched : h.Watched id j₀ created seconds)
    (hUnset : j₀.tokenCancelled = false) {i : Nat} {anyway : Bool} {t : Timer}
    (hDue : h.service.board.due? i = some t) (hEffect : t.effect = .deadline) (hId : t.job = id) :
    (h.step (.fire i anyway)).callsOn id ≠ [] := by
  obtain ⟨j, hJob, -⟩ := hWatched.takes
  -- if the token was cancelled before, a call has done that; if not, this timer makes one
  cases hToken : j.tokenCancelled with
  | true =>
    rw [callsOn_step]
    exact List.append_ne_nil_of_left_ne_nil
      (hWatched.callsOn_ne_nil_of_tokenCancelled hUnset hJob hToken) _
  | false =>
    have hRequest : (JobEvent.fire i anyway).request? h.service =
        some ⟨.deadline, id, .cancel⟩ := by
      have hFind : h.service.board.find? t.job = some j := hId ▸ hJob
      rw [JobEvent.request?, hDue, Option.bind_some, Timer.request?, hEffect, hFind]
      simp only [Option.any_some, hToken, Bool.false_and, Bool.false_eq_true, if_false, hId]
    have hNew : (JobEvent.fire i anyway).created? ≠ some id := (Option.some_ne_none id).symm
    obtain ⟨-, hRecord⟩ := hWatched.reports.step_of_request hNew hJob hRequest rfl
    rw [hRecord]
    exact List.append_ne_nil_of_right_ne_nil _ (List.cons_ne_nil _ _)

/-- The moment of its creation stays in the past. -/
theorem past_step (hWatched : h.Watched id j₀ created seconds) (e : JobEvent) :
    created ≤ (h.step e).now :=
  Nat.le_trans hWatched.past (JobEvent.now_le_happen h.service e)

/-- Whatever is done to a job is one more call that it takes. -/
theorem takes_step (hWatched : h.Watched id j₀ created seconds) (hNew : e.created? ≠ some id) :
    ∃ j, (h.step e).job? id = some j ∧ j₀.Takes ((h.step e).callsOn id) j := by
  obtain ⟨j, hJob, hTakes⟩ := hWatched.takes
  obtain ⟨calls, k, hTurns⟩ := hWatched.reports.exists_turns_step hNew hJob
  exact ⟨k, hTurns.job, hTurns.record ▸ hTakes.append hTurns.takes⟩

/-- The deadline asks for nothing before its time. -/
theorem calls_step (hWatched : h.Watched id j₀ created seconds) (hNew : e.created? ≠ some id) :
    ∀ c ∈ (h.step e).callsOn id, c.caller = .deadline →
      ∃ p, h.startOf? id = some p ∧ p + 1000 * seconds ≤ c.time ∧ c.action = .cancel := by
  obtain ⟨j, hJob, -⟩ := hWatched.takes
  by_cases hAsked : ∃ r, e.request? h.service = some r ∧ r.id = id
  · obtain ⟨r, hRequest, hId⟩ := hAsked
    obtain ⟨-, hRecord⟩ := hWatched.reports.step_of_request hNew hJob hRequest hId
    rw [hRecord, List.forall_mem_append, List.forall_mem_singleton]
    refine ⟨hWatched.calls, fun hDeadline => ?_⟩
    obtain ⟨hAction, t, hMem, hTime, hJob, hEffect⟩ :=
      JobEvent.of_request_deadline hRequest hDeadline
    -- the call comes from a timer of the job, and that was armed when the deadline started
    obtain ⟨p, hStart, hDue⟩ := hWatched.deadlines t hMem hEffect (hJob.trans hId)
    exact ⟨p, hStart, hDue ▸ hTime, hAction⟩
  · have hNone : ∀ r, e.request? h.service = some r → r.id ≠ id :=
      fun r hRequest hId => hAsked ⟨r, hRequest, hId⟩
    rw [(hWatched.reports.step_of_not_request hNew hNone).2]
    exact hWatched.calls

/-- **The deadline starts**: it is pending no more, and its timer is armed, if nobody was faster. -/
theorem step_of_started (hWatched : h.Watched id j₀ created seconds)
    (hUnset : j₀.tokenCancelled = false) {i : Nat} {d : Deadline}
    (hPlace : h.service.board.pending[i]? = some d) (hId : d.job = id) :
    (h.step (.startDeadline i)).Watched id j₀ created seconds := by
  have hNew : (JobEvent.startDeadline i).created? ≠ some id := (Option.some_ne_none id).symm
  -- It was pending, so it had not started, and no timer of it was armed.
  have hMem : d ∈ h.pendingOf id :=
    List.mem_filter.mpr ⟨List.mem_of_getElem? hPlace, decide_eq_true hId⟩
  have hPending := hWatched.pending
  split at hPending
  case isFalse =>
    rw [hPending] at hMem
    cases hMem
  case isTrue hUnstarted =>
    obtain ⟨hSeconds, hNone⟩ := hUnstarted
    obtain rfl : d = ⟨1000 * seconds, id⟩ := List.mem_singleton.mp (hPending ▸ hMem)
    have hStart : (h.step (.startDeadline i)).startOf? id = some h.now := by
      rw [startOf?_step, hNone, JobEvent.started?, hPlace]
      simp [Option.filter]
    have hLeft : (h.step (.startDeadline i)).pendingOf id = [] := by
      have hPerm := pendingOf_startDeadline_perm hPlace hId
      rw [hPending] at hPerm
      exact (hPerm.cons_inv).eq_nil
    have hUnarmed : ∀ t ∈ h.timers, t.effect = .deadline → t.job ≠ id := by
      intro t hMem hEffect hJob
      obtain ⟨p, hSome, -⟩ := hWatched.deadlines t hMem hEffect hJob
      exact nomatch hNone.symm.trans hSome
    refine ⟨hWatched.reports.step _, hWatched.past_step _, hWatched.takes_step hNew, ?_, ?_, ?_, ?_,
      ?_⟩
    · rw [hLeft, hStart, if_neg (by simp)]
    · intro p hSome
      obtain rfl := Option.some.inj (hStart.symm.trans hSome)
      exact ⟨hSeconds, hWatched.past, JobEvent.now_le_happen h.service _⟩
    · intro t hMem hEffect hJob
      obtain hOld | ⟨d, hStarted, rfl⟩ | ⟨_, _, _, _, hWork, -⟩ := JobEvent.mem_timers_happen hMem
      · exact absurd hJob (hUnarmed t hOld hEffect)
      · obtain rfl := Option.some.inj (hPlace.symm.trans hStarted)
        exact ⟨h.now, hStart, rfl⟩
      · cases hWork
    · intro p hSome
      obtain ⟨j, hJob, -⟩ := hWatched.takes
      have hFind : h.service.board.find? id = some j := hJob
      cases hToken : j.tokenCancelled with
      | true =>
        rw [callsOn_step]
        exact .inr (List.append_ne_nil_of_left_ne_nil
          (hWatched.callsOn_ne_nil_of_tokenCancelled hUnset hJob hToken) _)
      | false =>
        refine .inl ⟨⟨h.now + 1000 * seconds, id, .deadline⟩, ?_, rfl, rfl⟩
        change _ ∈ (h.service.board.startAt i).timers
        rw [JobBoard.startAt_of_pending hPlace, hFind, Option.any_some, hToken]
        exact List.mem_append_right _ (List.mem_singleton_self _)
    · intro c hMem hDeadline
      obtain ⟨p, hSome, -⟩ := hWatched.calls_step hNew c hMem hDeadline
      exact nomatch hNone.symm.trans hSome

/-- An event that does not start the deadline leaves it pending, or armed until it does
something. -/
theorem step_of_not_started (hWatched : h.Watched id j₀ created seconds)
    (hUnset : j₀.tokenCancelled = false) (hNew : e.created? ≠ some id)
    (hOther : ∀ d, e.started? h.service = some d → d.job ≠ id) :
    (h.step e).Watched id j₀ created seconds := by
  have hStart := startOf?_step_of_not_started hOther
  refine ⟨hWatched.reports.step e, hWatched.past_step e, hWatched.takes_step hNew, ?_, ?_, ?_, ?_,
    ?_⟩
  · rw [pendingOf_step_of_not_started hNew hOther, hStart]
    exact hWatched.pending
  · intro p hSome
    obtain ⟨hSeconds, hCreated, hPast⟩ := hWatched.started p (hStart ▸ hSome)
    exact ⟨hSeconds, hCreated, Nat.le_trans hPast (JobEvent.now_le_happen h.service e)⟩
  · intro t hMem hEffect hId
    rw [hStart]
    obtain hOld | ⟨d, hStarted, rfl⟩ | ⟨_, _, _, _, -, rfl⟩ := JobEvent.mem_timers_happen hMem
    · exact hWatched.deadlines t hOld hEffect hId
    · exact absurd hId (hOther d hStarted)
    · cases hEffect
  · intro p hSome
    obtain ⟨t, hMem, hEffect, hId⟩ | hCalls := hWatched.armed p (hStart ▸ hSome)
    -- The timer is left, unless it is the one that goes off.
    · obtain hLeft | ⟨i, anyway, rfl, hDue⟩ := JobEvent.mem_timers_happen_or_due (e := e) hMem
      · exact .inl ⟨t, hLeft, hEffect, hId⟩
      · exact .inr (hWatched.callsOn_ne_nil_of_due hUnset hDue hEffect hId)
    · rw [callsOn_step]
      exact .inr (List.append_ne_nil_of_left_ne_nil hCalls _)
  · rw [hStart]
    exact hWatched.calls_step hNew

/-- **Every event keeps a job watched.** -/
theorem step (hWatched : h.Watched id j₀ created seconds) (hUnset : j₀.tokenCancelled = false)
    (hNew : e.created? ≠ some id) : (h.step e).Watched id j₀ created seconds := by
  by_cases hStarts : ∃ d, e.started? h.service = some d ∧ d.job = id
  · obtain ⟨d, hStarted, hId⟩ := hStarts
    cases e with
    | startDeadline i => exact hWatched.step_of_started hUnset hStarted hId
    | _ => cases hStarted
  · exact hWatched.step_of_not_started hUnset hNew fun d hStarted hId => hStarts ⟨d, hStarted, hId⟩

/-- Hence it is watched whatever happens. -/
theorem run (hWatched : h.Watched id j₀ created seconds) (hUnset : j₀.tokenCancelled = false)
    (hNew : ∀ e ∈ events, e.created? ≠ some id) :
    (h.run events).Watched id j₀ created seconds := by
  induction events generalizing h with
  | nil => exact hWatched
  | cons e rest ih =>
    obtain ⟨hFirst, hRest⟩ := List.forall_mem_cons.mp hNew
    exact ih (hWatched.step hUnset hFirst) hRest

end Watched

/-- The first thing that was done to a job was to cancel its token alone. -/
def TokenFirst (h : JobHistory) (id : String) : Prop :=
  ∃ c later, h.callsOn id = c :: later ∧ c.action = .cancelToken

/-- While time passes, nobody cancels a token alone. -/
theorem TokenFirst.of_run (hPassing : ∀ e ∈ events, e.IsPassing)
    (hFirst : (h.run events).TokenFirst id) : h.TokenFirst id := by
  induction events generalizing h with
  | nil => exact hFirst
  | cons e rest ih =>
    obtain ⟨hHere, hRest⟩ := List.forall_mem_cons.mp hPassing
    obtain ⟨c, later, hCalls, hAction⟩ := ih hRest hFirst
    rw [callsOn_step, List.append_eq_cons_iff] at hCalls
    obtain ⟨-, hNew⟩ | ⟨earlier, hOld, -⟩ := hCalls
    -- a first call made while time passes comes from a timer, and no timer sets the token alone
    · have hMem : ((e.request? h.service).filter (·.id = id)).bind h.service.board.call? = some c :=
        Option.mem_toList.mp (hNew ▸ List.mem_cons_self)
      obtain ⟨r, hFilter, hCall⟩ := Option.bind_eq_some_iff.mp hMem
      obtain ⟨j, -, rfl⟩ := Option.map_eq_some_iff.mp hCall
      obtain ⟨t, -, -, -, hNot⟩ := hHere.exists_timer (Option.filter_eq_some_iff.mp hFilter).1
      exact absurd hAction hNot
    · exact ⟨c, earlier, hOld, hAction⟩

namespace Watched

variable {j : SearchJob}

-- ---------------------------------------------------------------------------
-- When the seconds are over
-- ---------------------------------------------------------------------------

/-- When the seconds are over and the timer has gone off, the job has ended, unless the token came
first. -/
theorem ended (hWatched : h.Watched id j₀ created seconds) (hRunning : j₀.status = .running)
    (hStart : h.startOf? id = some p) (hPast : p + 1000 * seconds ≤ h.now)
    (hFired : ∀ t ∈ h.timers, t.effect = .deadline → t.job = id → h.now < t.due)
    (hJob : h.job? id = some j) :
    h.TokenFirst id ∨ (j.status ≠ .running ∧
      ((∀ c ∈ h.callsOn id, c.answer = true → c.caller = .deadline) → j.status = .cancelled)) := by
  -- The timer would be due by now, so it is not armed any more.
  have hCalls : h.callsOn id ≠ [] := by
    obtain ⟨t, hMem, hEffect, hId⟩ | hCalls := hWatched.armed p hStart
    · obtain ⟨p', hStart', hDue⟩ := hWatched.deadlines t hMem hEffect hId
      obtain rfl : p = p' := Option.some.inj (hStart.symm.trans hStart')
      exact absurd hPast (Nat.not_le_of_lt (hDue ▸ hFired t hMem hEffect hId))
    · exact hCalls
  obtain ⟨c, later, hSplit⟩ := List.exists_cons_of_ne_nil hCalls
  cases hOutcome : c.action.outcome? with
  | none =>
    have hAlone : firstOutcome? [c] = none := by
      rw [firstOutcome?, List.findSome?_singleton, hOutcome]
    exact .inl ⟨c, later, hSplit, firstOutcome?_eq_none_iff.mp hAlone c List.mem_cons_self⟩
  | some outcome =>
    obtain ⟨k, hFind, hTakes⟩ := hWatched.takes
    obtain rfl : k = j := Option.some.inj (hFind.symm.trans hJob)
    rw [hSplit] at hTakes
    have hHead : j₀.Takes ([] ++ c :: later) k := hTakes
    have hStatus : k.status = outcome := by
      rw [hTakes.status hRunning, firstOutcome?, List.findSome?_cons, hOutcome, Option.getD_some]
    refine .inr ⟨fun hSame => ?_, fun hOnly => ?_⟩
    · have hFinished := JobAction.isFinished_of_outcome hOutcome
      rw [← hStatus, hSame] at hFinished
      cases hFinished
    · have hMem : c ∈ h.callsOn id := hSplit ▸ List.mem_cons_self
      have hAnswer : c.answer = true :=
        (hHead.answer_iff hRunning).mpr ⟨rfl, by rw [hOutcome]; rfl⟩
      obtain ⟨-, -, -, hAction⟩ := hWatched.calls c hMem (hOnly c hMem hAnswer)
      rw [hAction] at hOutcome
      rw [hStatus]
      exact (Option.some.inj hOutcome).symm

/-- What the deadline does, and that it does it in time. -/
theorem of_deadline_call (hWatched : h.Watched id j₀ created seconds)
    (hRunning : j₀.status = .running) (hJob : h.job? id = some j) {earlier later : List JobCall}
    {c : JobCall} (hSplit : h.callsOn id = earlier ++ c :: later) (hCaller : c.caller = .deadline) :
    ∃ p, h.startOf? id = some p ∧ p + 1000 * seconds ≤ c.time ∧
      j.status = (firstOutcome? earlier).getD .cancelled := by
  have hMem : c ∈ h.callsOn id := hSplit ▸ List.mem_append_right _ List.mem_cons_self
  obtain ⟨p, hStart, hDue, hAction⟩ := hWatched.calls c hMem hCaller
  obtain ⟨k, hFind, hTakes⟩ := hWatched.takes
  obtain rfl : k = j := Option.some.inj (hFind.symm.trans hJob)
  refine ⟨p, hStart, hDue, ?_⟩
  have hOutcome : firstOutcome? (c :: later) = some .cancelled := by
    rw [firstOutcome?, List.findSome?_cons, hAction]
    rfl
  rw [hTakes.status hRunning, hSplit, firstOutcome?_append, hOutcome]
  cases firstOutcome? earlier <;> rfl

-- ---------------------------------------------------------------------------
-- As long as they are not
-- ---------------------------------------------------------------------------

/-- A deadline that is pending has not started, and one that is not has, if there is one. -/
theorem pendingOf_eq_nil_iff (hWatched : h.Watched id j₀ created seconds) :
    h.pendingOf id = [] ↔ seconds = 0 ∨ h.startOf? id ≠ none := by
  rw [hWatched.pending]
  by_cases hSeconds : seconds = 0
  · simp [hSeconds]
  · simp [hSeconds, Nat.pos_of_ne_zero]

/-- **While nothing of a job is due, time leaves it alone.** -/
theorem job?_run_of_not_due (hWatched : h.Watched id j₀ created seconds)
    (hUnset : j₀.tokenCancelled = false) (hPassing : ∀ e ∈ events, e.IsPassing)
    (hEarly : ∀ p, (h.run events).startOf? id = some p →
      (h.run events).now < p + 1000 * seconds)
    (hLate : ∀ t ∈ h.timers, t.job = id → t.effect = .deadline ∨ (h.run events).now < t.due) :
    (h.run events).job? id = h.job? id := by
  induction events generalizing h with
  | nil => rfl
  | cons e rest ih =>
    obtain ⟨hFirst, hRest⟩ := List.forall_mem_cons.mp hPassing
    have hNew := hFirst.created_ne id
    have hNone : ∀ r, e.request? h.service = some r → r.id ≠ id := by
      intro r hRequest hId
      obtain ⟨t, hMem, hDue, hJob, -⟩ := hFirst.exists_timer hRequest
      have hPast : t.due ≤ (h.run (e :: rest)).now :=
        Nat.le_trans hDue (now_le_run h (e :: rest))
      refine Nat.not_lt_of_le hPast ?_
      -- whatever goes off on the job would have to be due already
      obtain hEffect | hNotYet := hLate t hMem (hJob.trans hId)
      · obtain ⟨p, hStart, hAt⟩ := hWatched.deadlines t hMem hEffect (hJob.trans hId)
        rw [hAt]
        exact hEarly p (startOf?_run_of_some hStart)
      · exact hNotYet
    obtain ⟨hSame, -⟩ := hWatched.reports.step_of_not_request hNew hNone
    refine (ih (hWatched.step hUnset hNew) hRest hEarly fun t hMem hId => ?_).trans hSame
    obtain hOld | hEffect := hFirst.mem_timers hMem
    · exact hLate t hOld hId
    · exact .inl hEffect

/-- While a deadline is pending, or if it was not, time does not start it. -/
theorem startOf?_run_of_pendingOf (hWatched : h.Watched id j₀ created seconds)
    (hLater : (h.run events).Watched id j₀ created seconds)
    (hSame : (h.run events).pendingOf id = h.pendingOf id) :
    (h.run events).startOf? id = h.startOf? id := by
  cases hStart : h.startOf? id with
  | some p => exact startOf?_run_of_some hStart
  | none =>
    -- no deadline at all, or one that is still pending and cannot have started
    by_cases hSeconds : seconds = 0
    · refine Option.eq_none_iff_forall_ne_some.mpr fun p hSome => ?_
      exact Nat.ne_of_gt (hLater.started p hSome).1 hSeconds
    · have hPending : ¬ h.pendingOf id = [] := by
        rw [hWatched.pendingOf_eq_nil_iff, hStart]
        simp [hSeconds]
      rw [← hSame, hLater.pendingOf_eq_nil_iff] at hPending
      simpa [hSeconds] using hPending

-- ---------------------------------------------------------------------------
-- The clock
-- ---------------------------------------------------------------------------

/-- **The clock jumps before any task has a turn.** A deadline that has started is heeded, and one
that is pending is not. -/
theorem jump (hWatched : h.Watched id j₀ created seconds) (hRunning : j₀.status = .running)
    (hUnset : j₀.tokenCancelled = false) (hJob : h.job? id = some j) (ms : Nat) :
    ∃ k, (h.service.board.jump ms).find? id = some k ∧
      (∀ p, h.startOf? id = some p → p + 1000 * seconds ≤ h.now + ms →
        h.TokenFirst id ∨ k.status ≠ .running) ∧
      ((∀ p, h.startOf? id = some p → h.now + ms < p + 1000 * seconds) →
        (∀ t ∈ h.timers, t.job = id → t.effect = .deadline ∨ h.now + ms < t.due) → k = j) := by
  obtain ⟨events, hPassing, hRun⟩ := h.passesTo_advanceTo (h.now + ms)
  have hBoard : (h.run events).service.board = h.service.board.advanceTo (h.now + ms) := by
    rw [hRun]
  have hClock : (h.run events).now = h.now + ms := by
    rw [now, hBoard, JobBoard.now_advanceTo]
    exact Nat.max_eq_right (Nat.le_add_right _ _)
  have hLater := hWatched.run hUnset fun e hMem => (hPassing e hMem).created_ne id
  have hStarts : (h.run events).startOf? id = h.startOf? id := by
    refine hWatched.startOf?_run_of_pendingOf hLater ?_
    rw [pendingOf, hBoard, JobBoard.pending_advanceTo, pendingOf]
  obtain ⟨k, hFind, -⟩ := hLater.takes
  have hTurn : (h.service.board.jump ms).find? id = some k := by
    rw [JobBoard.jump, JobBoard.find?_turn]
    exact hBoard ▸ hFind
  refine ⟨k, hTurn, fun p hStart hPast => ?_, fun hEarly hOnly => ?_⟩
  -- the jump goes past all that was due, so no deadline is left to go off
  · have hFired : ∀ t ∈ (h.run events).timers, t.effect = .deadline → t.job = id →
        (h.run events).now < t.due := by
      intro t hMem _ _
      rw [timers, hBoard] at hMem
      rw [hClock]
      exact JobBoard.lt_due_of_advanceTo hMem
    obtain hFirst | ⟨hEnded, -⟩ :=
      hLater.ended hRunning (hStarts.trans hStart) (hClock ▸ hPast) hFired hFind
    · exact .inl (hFirst.of_run hPassing)
    · exact .inr hEnded
  · have hSame := hWatched.job?_run_of_not_due hUnset hPassing
      (by rw [hStarts, hClock]; exact hEarly) (by rw [hClock]; exact hOnly)
    exact Option.some.inj (hFind.symm.trans (hSame.trans hJob))

/-- **All tasks have a turn before the clock jumps.** Then a deadline that was pending starts
now. -/
theorem advance (hWatched : h.Watched id j₀ created seconds) (hRunning : j₀.status = .running)
    (hUnset : j₀.tokenCancelled = false) (hJob : h.job? id = some j) (ms : Nat) :
    ∃ k, (h.service.board.advance ms).find? id = some k ∧
      (0 < seconds → (h.startOf? id).getD h.now + 1000 * seconds ≤ h.now + ms →
        h.TokenFirst id ∨ k.status ≠ .running) ∧
      (seconds = 0 ∨ h.now + ms < (h.startOf? id).getD h.now + 1000 * seconds →
        (∀ t ∈ h.timers, t.job = id → t.effect = .deadline ∨ h.now + ms < t.due) → k = j) := by
  obtain ⟨events, hPassing, hRun⟩ := h.passesTo_turn
  have hBoard : (h.run events).service.board = h.service.board.turn := by rw [hRun]
  have hClock : (h.run events).now = h.now := by
    rw [now, hBoard, JobBoard.now_turn]
    rfl
  have hLater := hWatched.run hUnset fun e hMem => (hPassing e hMem).created_ne id
  have hTurned : (h.run events).job? id = some j := by
    rw [job?, hBoard, JobBoard.find?_turn]
    exact hJob
  -- After the turn the deadline has started: now, if it had not started before.
  have hStarts : ∀ p, (h.run events).startOf? id = some p → p = (h.startOf? id).getD h.now := by
    intro p hStart
    obtain hBefore | hNow := startOf?_run_cases hStart
    · rw [hBefore, Option.getD_some]
    · cases hBefore : h.startOf? id with
      | some p' => exact Option.some.inj (hStart.symm.trans (startOf?_run_of_some hBefore))
      | none => exact Nat.le_antisymm (hClock ▸ (hLater.started p hStart).2.2) hNow
  have hHasStarted : seconds = 0 ∨ (h.run events).startOf? id ≠ none := by
    rw [← hLater.pendingOf_eq_nil_iff, pendingOf, hBoard, JobBoard.pending_turn]
    rfl
  obtain ⟨k, hFind, hEnded, hKept⟩ := hLater.jump hRunning hUnset hTurned ms
  have hJumped : (h.service.board.advance ms).find? id = some k := by
    rw [JobBoard.advance, ← hBoard]
    exact hFind
  refine ⟨k, hJumped, fun hSeconds hPast => ?_, fun hEarly hOnly => ?_⟩
  · obtain ⟨p, hStart⟩ :=
      Option.ne_none_iff_exists'.mp (hHasStarted.resolve_left (Nat.ne_of_gt hSeconds))
    rw [← hStarts p hStart, ← hClock] at hPast
    obtain hFirst | hEnded := hEnded p hStart hPast
    · exact .inl (hFirst.of_run hPassing)
    · exact .inr hEnded
  · refine hKept (fun p hStart => ?_) fun t hMem hId => ?_
    · rw [hStarts p hStart, hClock]
      exact hEarly.resolve_left (Nat.ne_of_gt (hLater.started p hStart).1)
    · obtain hOld | hEffect := mem_timers_run hPassing hMem
      · exact hClock ▸ hOnly t hOld hId
      · exact .inl hEffect

end Watched

/-- Every job that was created is watched, whatever happens. -/
theorem exists_watched_start {before after : List JobEvent}
    (hBefore : ∀ e ∈ before, e.created? ≠ some id) (hAfter : ∀ e ∈ after, e.created? ≠ some id)
    (node : String) (settings : SearchJobSettings) (search : Json) (owner : String)
    (cancelAfter : Option Nat) :
    let h := (start node settings true).run (before ++ .create id search owner cancelAfter :: after)
    let created := ((start node settings true).run before).now
    ∃ j₀ : SearchJob, j₀.status = .running ∧ j₀.tokenCancelled = false ∧
      h.Watched id j₀ created (cancelAfter.getD 0) := by
  intro h created
  have hAwaits := awaits_run_start hBefore node settings true
  have hReports := (reporting_start node settings true).run before
  have hTimers := hasTimers_run (start node settings true) before
  have hCreated := hAwaits.watched hReports hTimers search owner cancelAfter
  refine ⟨.new id search owner ((start node settings true).run before).service.node cancelAfter,
    rfl, rfl, ?_⟩
  have hRun : h = ((start node settings true).run before).run _ := run_append _ _ _
  rw [hRun]
  exact hCreated.run rfl hAfter

-- ---------------------------------------------------------------------------
-- The deadline
-- ---------------------------------------------------------------------------

/-- What the deadline of a job, which was created at some time with some seconds, has done so far
and will do. The job is `j` now. -/
structure KeepsDeadline (h : JobHistory) (id : String) (created seconds : Nat) (j : SearchJob) :
    Prop where
  /-- It starts when its task has the first turn, and is pending until then. -/
  pending : h.pendingOf id ≠ [] ↔ 0 < seconds ∧ h.startOf? id = none
  started : ∀ p, h.startOf? id = some p → 0 < seconds ∧ created ≤ p ∧ p ≤ h.now
  /-- When its seconds are over and it has gone off, the job has ended; and if nobody else has ended
  the job, it is cancelled. The exception is a job whose token was cancelled alone, first of all. -/
  ended : ∀ p, h.startOf? id = some p → p + 1000 * seconds ≤ h.now →
    (∀ t ∈ h.timers, t.effect = .deadline → t.job = id → h.now < t.due) →
    h.TokenFirst id ∨ (j.status ≠ .running ∧
      ((∀ c ∈ h.callsOn id, c.answer = true → c.caller = .deadline) → j.status = .cancelled))
  /-- It does nothing before, and leaves the status of a job that has ended as it is. -/
  inTime : ∀ earlier c later, h.callsOn id = earlier ++ c :: later → c.caller = .deadline →
    ∃ p, h.startOf? id = some p ∧ p + 1000 * seconds ≤ c.time ∧
      j.status = (firstOutcome? earlier).getD .cancelled
  /-- While nothing but time passes, the job stays as it is until its seconds are over, and for ever
  if there are none or it does not start, unless a worker is to report by then. -/
  quiet : ∀ more : List JobEvent, (∀ e ∈ more, e.IsPassing) →
    (seconds = 0 ∨
      ∀ p, (h.run more).startOf? id = some p → (h.run more).now < p + 1000 * seconds) →
    (∀ t ∈ h.timers, t.job = id → t.effect = .deadline ∨ (h.run more).now < t.due) →
    (h.run more).job? id = some j
  /-- A jump of the clock that no task has foreseen is heeded by deadlines that have started. -/
  jump : ∀ ms, ∃ k, (h.service.board.jump ms).find? id = some k ∧
    (∀ p, h.startOf? id = some p → p + 1000 * seconds ≤ h.now + ms →
      h.TokenFirst id ∨ k.status ≠ .running) ∧
    (seconds = 0 ∨ (∀ p, h.startOf? id = some p → h.now + ms < p + 1000 * seconds) →
      (∀ t ∈ h.timers, t.job = id → t.effect = .deadline ∨ h.now + ms < t.due) → k = j)
  /-- When all tasks have a turn before the jump, those that were pending start now. -/
  advance : ∀ ms, ∃ k, (h.service.board.advance ms).find? id = some k ∧
    (0 < seconds → (h.startOf? id).getD h.now + 1000 * seconds ≤ h.now + ms →
      h.TokenFirst id ∨ k.status ≠ .running) ∧
    (seconds = 0 ∨ h.now + ms < (h.startOf? id).getD h.now + 1000 * seconds →
      (∀ t ∈ h.timers, t.job = id → t.effect = .deadline ∨ h.now + ms < t.due) → k = j)

/-- The deadline of a job that is watched is kept. -/
theorem Watched.keepsDeadline {j : SearchJob} (hWatched : h.Watched id j₀ created seconds)
    (hRunning : j₀.status = .running) (hUnset : j₀.tokenCancelled = false)
    (hJob : h.job? id = some j) : h.KeepsDeadline id created seconds j where
  pending := by
    rw [ne_eq, hWatched.pendingOf_eq_nil_iff, not_or, not_not, Nat.pos_iff_ne_zero]
  started := hWatched.started
  ended := fun _ hStart hPast hFired => hWatched.ended hRunning hStart hPast hFired hJob
  inTime := fun _ _ _ hSplit hCaller => hWatched.of_deadline_call hRunning hJob hSplit hCaller
  quiet := by
    intro more hPassing hEarly hOnly
    have hLater := hWatched.run hUnset fun e hMem => (hPassing e hMem).created_ne id
    refine (hWatched.job?_run_of_not_due hUnset hPassing (fun p hStart => ?_) hOnly).trans hJob
    exact hEarly.resolve_left (Nat.ne_of_gt (hLater.started p hStart).1) p hStart
  jump := by
    intro ms
    obtain ⟨k, hFind, hEnded, hKept⟩ := hWatched.jump hRunning hUnset hJob ms
    refine ⟨k, hFind, hEnded, fun hEarly => hKept fun p hStart => ?_⟩
    exact hEarly.resolve_left (Nat.ne_of_gt (hWatched.started p hStart).1) p hStart
  advance := hWatched.advance hRunning hUnset hJob

end JobHistory

/--
**Deadlines.** A job may be created with a number of seconds after which it is to be cancelled. They
are counted from the moment when the task of the deadline has its first turn. At every moment when
they are over and the deadline has gone off, the job has ended; and if nobody else has ended it, it
is cancelled. The one exception is a job whose token was cancelled alone before anything else was
done to it. The deadline never does anything too early, and if the job has ended before, it leaves
the status as it is. While the seconds are not over, or the deadline has not started, or there is
none, the job stays as it is however the clock moves, unless a worker was to report by then.
-/
theorem deadline_ends_job {before after : List JobEvent} {id : String}
    (hBefore : ∀ e ∈ before, e.created? ≠ some id) (hAfter : ∀ e ∈ after, e.created? ≠ some id)
    (node : String) (settings : SearchJobSettings) (search : Json) (owner : String)
    (cancelAfter : Option Nat) :
    let created := (JobHistory.start node settings true).run before
    let h := (JobHistory.start node settings true).run
      (before ++ .create id search owner cancelAfter :: after)
    ∃ j, h.job? id = some j ∧ h.KeepsDeadline id created.now (cancelAfter.getD 0) j := by
  intro created h
  obtain ⟨j₀, hRunning, hUnset, hWatched⟩ :=
    JobHistory.exists_watched_start hBefore hAfter node settings search owner cancelAfter
  obtain ⟨j, hJob, -⟩ := hWatched.takes
  exact ⟨j, hJob, hWatched.keepsDeadline hRunning hUnset hJob⟩

/-- A job leaves the cache, which has room for one, before its deadline passes. -/
theorem deadline_ends_job_evicted :
    let before : List JobEvent := [.tick 7]
    let after : List JobEvent :=
      [.tick 2, .startDeadline 0, .create "other" .null "bob" none, .tick 1000, .fire 0 false]
    let h := (JobHistory.start "node" ⟨1, 300, 5⟩ true).run
      (before ++ .create "job" .null "alice" (some 1) :: after)
    (∀ e ∈ before, e.created? ≠ some "job") ∧ (∀ e ∈ after, e.created? ≠ some "job") ∧
      (h.service.isInCache "job").1 = false ∧ h.startOf? "job" = some 9 ∧
      ∃ j, h.job? "job" = some j ∧ j.status = .cancelled := by
  intro before after h
  have hBefore : ∀ e ∈ before, e.created? ≠ some "job" := by decide
  have hAfter : ∀ e ∈ after, e.created? ≠ some "job" := by decide
  obtain ⟨j, hJob, hKeeps⟩ :=
    deadline_ends_job hBefore hAfter "node" ⟨1, 300, 5⟩ .null "alice" (some 1)
  have hStart : h.startOf? "job" = some 9 := rfl
  have hTimers : h.timers = [] := rfl
  have hCalls : h.callsOn "job" = [⟨⟨.deadline, "job", .cancel⟩, 1009, true⟩] := rfl
  obtain ⟨c, later, hSplit, hAction⟩ | ⟨-, hCancelled⟩ :=
    hKeeps.ended 9 hStart (Nat.le_refl 1009) fun t hMem =>
      absurd (hTimers ▸ hMem) List.not_mem_nil
  · obtain ⟨rfl, rfl⟩ := List.cons.inj (hCalls.symm.trans hSplit)
    cases hAction
  · refine ⟨hBefore, hAfter, rfl, hStart, j, hJob, hCancelled fun c hMem _ => ?_⟩
    rw [hCalls, List.mem_singleton] at hMem
    rw [hMem]

/-- Two jobs are still running when their seconds are over since they were created, and
nothing is due any more: the token of the one was cancelled alone, and the clock had jumped before
the deadline of the other started. -/
theorem jobs_outlast_deadlines :
    let start := JobHistory.start "node" .standard true
    let h := start.run
      [.create "job" .null "alice" (some 1), .startDeadline 0, .call "job" .cancelToken,
        .tick 1000, .fire 0 false]
    let h' := start.run
      [.create "job" .null "alice" (some 1), .tick 1000, .startDeadline 0, .fire 0 false]
    (h.now = 1000 ∧ h.timers = [] ∧ (h.job? "job").map (·.status) = some .running) ∧
      h'.now = 1000 ∧ h'.timers = [⟨2000, "job", .deadline⟩] ∧
        (h'.job? "job").map (·.status) = some .running :=
  ⟨⟨rfl, rfl, rfl⟩, rfl, rfl, rfl⟩

end RuleBlocks
