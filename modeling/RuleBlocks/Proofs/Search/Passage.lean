import RuleBlocks.Proofs.Search.History
import RuleBlocks.Proofs.Search.Races

/-!
# The passing of time

When the clock jumps, everything that is due goes off in the order of the due times, and a request
that waits for a result makes the clock jump from one due time to the next. When all tasks have a
turn, all deadlines start. All this is made of single events: the clock moves, and one deadline or
timer after another starts or goes off. Hence what holds after all events holds, too, after the
operations of a service that is asked one thing at a time.

* `JobHistory.PassesTo` — a board that comes about when nothing but time passes;
* `passesTo_turn`, `passesTo_jump`, `passesTo_wait` — tasks have a turn, the clock jumps, and
  somebody waits;
* `JobBoard.lt_due_of_advanceTo` — nothing that is due is left when the clock has been moved;
* `SearchHistory.exists_run` — all that a service is asked for is made of single events.
-/

namespace RuleBlocks

namespace JobBoard

/-- What is done to a job does not depend on the timers. -/
theorem change_setTimers {α : Type} (b : JobBoard) (timers : List Timer) (id : String)
    (f : SearchJob → α × SearchJob) :
    ({ b with timers }.change id f).2 = { (b.change id f).2 with timers } := by
  have hFind : find? { b with timers } id = b.find? id := rfl
  unfold change
  rw [hFind]
  cases b.find? id <;> rfl

/-- What goes off does not depend on the timers that are left. -/
theorem fire_setTimers (b : JobBoard) (timers : List Timer) (t : Timer) :
    { b with timers }.fire t = { b.fire t with timers } := by
  have hToken : (find? { b with timers } t.job).any (·.tokenCancelled) =
      (b.find? t.job).any (·.tokenCancelled) := rfl
  unfold fire
  rw [hToken]
  cases t.effect with
  | deadline =>
    dsimp only
    split
    · rfl
    · exact b.change_setTimers timers t.job _
  | finish outcome heedsToken =>
    dsimp only
    split
    · rfl
    · exact b.change_setTimers timers t.job _

/-- A deadline that misses nothing goes off as any timer does. -/
theorem expire_false (b : JobBoard) (t : Timer) : b.expire t false = b.fire t := by
  unfold expire
  cases t.effect <;> rfl

/-- Firing takes no time, leaves the other timers armed, and starts no deadline. -/
theorem exists_fire (b : JobBoard) (t : Timer) : ∃ jobs, b.fire t = { b with jobs } := by
  rw [← expire_false]
  exact b.exists_expire t false

/-- Nor do timers that go off together do more. -/
theorem exists_foldl_fire (b : JobBoard) (due : List Timer) :
    ∃ jobs, due.foldl fire b = { b with jobs } := by
  induction due generalizing b with
  | nil => exact ⟨b.jobs, rfl⟩
  | cons t rest ih =>
    obtain ⟨jobs, hFirst⟩ := b.exists_fire t
    obtain ⟨jobs', hRest⟩ := ih (b.fire t)
    refine ⟨jobs', ?_⟩
    rw [List.foldl_cons, hRest, hFirst]

/-- When the clock is moved, nothing starts, and what is due by then goes off. -/
theorem exists_advanceTo (b : JobBoard) (time : Nat) :
    ∃ jobs, b.advanceTo time = { b with
      now := max b.now time, jobs, timers := b.timers.filter fun t => !(t.due ≤ time) } :=
  exists_foldl_fire _ _

/-- The clock is moved on, never back. -/
theorem now_advanceTo (b : JobBoard) (time : Nat) : (b.advanceTo time).now = max b.now time := by
  obtain ⟨jobs, hBoard⟩ := b.exists_advanceTo time
  rw [hBoard]

/-- To move the clock starts no deadline. -/
theorem pending_advanceTo (b : JobBoard) (time : Nat) :
    (b.advanceTo time).pending = b.pending := by
  obtain ⟨jobs, hBoard⟩ := b.exists_advanceTo time
  rw [hBoard]

/-- When the clock has been moved, nothing is left that is due. -/
theorem lt_due_of_advanceTo {b : JobBoard} {time : Nat} {t : Timer}
    (h : t ∈ (b.advanceTo time).timers) : time < t.due := by
  obtain ⟨jobs, hBoard⟩ := b.exists_advanceTo time
  rw [hBoard] at h
  have hLate : (!decide (t.due ≤ time)) = true := (List.mem_filter.mp h).2
  exact Nat.lt_of_not_le (by simpa using hLate)

/-- How a deadline starts does not depend on those that are left. -/
theorem startDeadline_setPending (b : JobBoard) (pending : List Deadline) (d : Deadline) :
    { b with pending }.startDeadline d = { b.startDeadline d with pending } := by
  have hToken : (find? { b with pending } d.job).any (·.tokenCancelled) =
      (b.find? d.job).any (·.tokenCancelled) := rfl
  unfold startDeadline
  rw [hToken]
  split <;> rfl

/-- A start leaves the other deadlines pending, changes no job, and takes no time. -/
theorem exists_startDeadline (b : JobBoard) (d : Deadline) :
    ∃ timers, b.startDeadline d = { b with timers } := by
  unfold startDeadline
  split
  · exact ⟨b.timers, rfl⟩
  · exact ⟨b.timers ++ [⟨b.now + d.after, d.job, .deadline⟩], rfl⟩

/-- All starts together do as little. -/
theorem exists_foldl_startDeadline (b : JobBoard) (deadlines : List Deadline) :
    ∃ timers, deadlines.foldl startDeadline b = { b with timers } := by
  induction deadlines generalizing b with
  | nil => exact ⟨b.timers, rfl⟩
  | cons d rest ih =>
    obtain ⟨timers, hFirst⟩ := b.exists_startDeadline d
    obtain ⟨timers', hRest⟩ := ih (b.startDeadline d)
    refine ⟨timers', ?_⟩
    rw [List.foldl_cons, hRest, hFirst]

/-- A turn of all tasks starts everything that is pending, changes no job, and takes no time. -/
theorem exists_turn (b : JobBoard) : ∃ timers, b.turn = { b with timers, pending := [] } :=
  exists_foldl_startDeadline _ _

/-- When all tasks have had a turn, no deadline is pending. -/
theorem pending_turn (b : JobBoard) : b.turn.pending = [] := by
  obtain ⟨timers, hTurn⟩ := b.exists_turn
  rw [hTurn]

/-- A turn of all tasks changes no job. -/
theorem find?_turn (b : JobBoard) (id : String) : b.turn.find? id = b.find? id := by
  obtain ⟨timers, hTurn⟩ := b.exists_turn
  rw [hTurn]
  rfl

/-- A turn of all tasks takes no time. -/
theorem now_turn (b : JobBoard) : b.turn.now = b.now := by
  obtain ⟨timers, hTurn⟩ := b.exists_turn
  rw [hTurn]

end JobBoard

-- ---------------------------------------------------------------------------
-- Single events
-- ---------------------------------------------------------------------------

/-- The clock moves, a deadline starts, or a timer goes off. -/
def JobEvent.IsPassing : JobEvent → Prop
  | tick _ => True
  | startDeadline _ => True
  | fire _ _ => True
  | _ => False

/-- While time passes, no job is created. -/
theorem JobEvent.IsPassing.created? {e : JobEvent} (h : e.IsPassing) : e.created? = none := by
  cases e with
  | tick ms => rfl
  | startDeadline i => rfl
  | fire i anyway => rfl
  | _ => exact h.elim

/-- In particular not the job of a given id. -/
theorem JobEvent.IsPassing.created_ne {e : JobEvent} (h : e.IsPassing) (id : String) :
    e.created? ≠ some id := by
  rw [h.created?]
  exact (Option.some_ne_none id).symm

namespace JobHistory

variable {h : JobHistory} {b c : JobBoard}

/-- Nothing but time passes, and the board becomes another one. -/
def PassesTo (h : JobHistory) (b : JobBoard) : Prop :=
  ∃ events : List JobEvent, (∀ e ∈ events, e.IsPassing) ∧
    (h.run events).service = { h.service with board := b }

/-- No time at all may pass. -/
theorem PassesTo.refl (h : JobHistory) : h.PassesTo h.service.board :=
  ⟨[], fun _ hMem => absurd hMem List.not_mem_nil, rfl⟩

/-- Time may pass after time has passed. -/
theorem PassesTo.trans (hPasses : h.PassesTo b)
    (hPasses' : ∀ g : JobHistory, g.service = { h.service with board := b } → g.PassesTo c) :
    h.PassesTo c := by
  obtain ⟨events, hPassing, hRun⟩ := hPasses
  obtain ⟨more, hPassing', hRun'⟩ := hPasses' _ hRun
  refine ⟨events ++ more, fun e hMem => ?_, ?_⟩
  · obtain hMem | hMem := List.mem_append.mp hMem
    · exact hPassing e hMem
    · exact hPassing' e hMem
  · rw [run_append, hRun', hRun]

theorem PassesTo.of_step {e : JobEvent} (hPassing : e.IsPassing)
    (hStep : (h.step e).service = { h.service with board := b }) : h.PassesTo b :=
  ⟨[e], List.forall_mem_singleton.mpr hPassing, hStep⟩

/-- The clock moves, and nothing goes off. -/
theorem passesTo_tick (h : JobHistory) (ms : Nat) :
    h.PassesTo { h.service.board with now := h.now + ms } :=
  .of_step (e := .tick ms) trivial rfl

/-- The timers that are due go off in any order. -/
theorem passesTo_foldl_fire {time : Nat} (hPast : time ≤ h.now) {due : List Timer}
    (hDue : due.Perm (h.timers.filter fun t => t.due ≤ time)) :
    h.PassesTo (due.foldl JobBoard.fire
      { h.service.board with timers := h.timers.filter fun t => !(t.due ≤ time) }) := by
  -- By induction on the timers in the order in which they go off. Their places among the armed ones
  -- are lost by the sorting, so the two lists are compared up to order.
  induction due generalizing h with
  | nil =>
    have hNone : h.timers.filter (fun t => !(t.due ≤ time)) = h.timers := by
      have hEmpty := hDue.symm.eq_nil
      rw [List.filter_eq_nil_iff] at hEmpty
      exact List.filter_eq_self.mpr fun t hMem => by simpa using hEmpty t hMem
    rw [hNone]
    exact .refl h
  | cons t rest ih =>
    obtain ⟨hMem, hTime⟩ := List.mem_filter.mp (hDue.subset List.mem_cons_self)
    have hLe : t.due ≤ time := of_decide_eq_true hTime
    obtain ⟨i, hBound, hPlace⟩ := List.getElem_of_mem hMem
    have hPlace? : h.timers[i]? = some t := List.getElem?_eq_some_iff.mpr ⟨hBound, hPlace⟩
    -- The first timer goes off; the others that are due are left.
    let fired := { h.service.board with timers := h.timers.eraseIdx i }.fire t
    have hStep : (h.step (.fire i false)).service = { h.service with board := fired } := by
      have hDue? : h.service.board.due? i = some t :=
        JobBoard.due?_eq_some_iff.mpr ⟨hPlace?, Nat.le_trans hLe hPast⟩
      change { h.service with board := h.service.board.fireAt i false } = _
      rw [JobBoard.fireAt, hDue?]
      exact congrArg (fun b => { h.service with board := b }) (JobBoard.expire_false _ t)
    refine PassesTo.trans (.of_step (e := .fire i false) trivial hStep) fun g hService => ?_
    have hBoard : g.service.board = fired := congrArg SearchService.board hService
    obtain ⟨jobs, hFired⟩ :
        ∃ jobs, fired = { h.service.board with jobs, timers := h.timers.eraseIdx i } :=
      JobBoard.exists_fire _ t
    have hTimers : g.timers = h.timers.eraseIdx i := by rw [timers, hBoard, hFired]
    have hNow : g.now = h.now := by rw [now, hBoard, hFired, now]
    have hRest : rest.Perm (g.timers.filter fun t => t.due ≤ time) := by
      have hAll : (t :: h.timers.eraseIdx i).Perm h.timers := by
        rw [← hPlace]
        exact List.getElem_cons_eraseIdx_perm hBound
      have hFirst : (t :: h.timers.eraseIdx i).filter (fun t => t.due ≤ time) =
          t :: (h.timers.eraseIdx i).filter fun t => t.due ≤ time :=
        List.filter_cons_of_pos hTime
      rw [hTimers]
      exact (hDue.trans (hFirst ▸ (hAll.filter _).symm)).cons_inv
    have hLeft : g.timers.filter (fun t => !(t.due ≤ time)) =
        h.timers.filter fun t => !(t.due ≤ time) := by
      rw [hTimers]
      exact filter_eraseIdx hPlace? (by simp [hLe])
    have hPasses := ih (hNow ▸ hPast) hRest
    rw [hLeft, hBoard, ← JobBoard.fire_setTimers] at hPasses
    exact hPasses

/-- Everything goes off that is due by a time in the past. -/
theorem passesTo_settle {time : Nat} (hPast : time ≤ h.now) :
    h.PassesTo (h.service.board.settle time) :=
  passesTo_foldl_fire hPast (List.mergeSort_perm _ _)

/-- The clock is moved, and everything goes off that is due by then. -/
theorem passesTo_advanceTo (h : JobHistory) (time : Nat) :
    h.PassesTo (h.service.board.advanceTo time) := by
  have hClock : h.now + (time - h.now) = max h.now time := by omega
  refine PassesTo.trans (h.passesTo_tick (time - h.now)) fun g hService => ?_
  have hBoard : g.service.board = { h.service.board with now := max h.now time } := by
    rw [hService, hClock]
  have hPast : time ≤ g.now := by
    rw [now, hBoard]
    exact Nat.le_max_right _ _
  have hPasses := g.passesTo_settle hPast
  rw [hBoard] at hPasses
  exact hPasses

/-- All deadlines start, the first of them first. -/
theorem passesTo_foldl_startDeadline {deadlines : List Deadline}
    (hAll : h.service.board.pending = deadlines) :
    h.PassesTo
      (deadlines.foldl JobBoard.startDeadline { h.service.board with pending := [] }) := by
  -- By induction on the pending deadlines: each of them is the first when its turn comes.
  induction deadlines generalizing h with
  | nil =>
    have hNone : { h.service.board with pending := [] } = h.service.board := by rw [← hAll]
    rw [List.foldl_nil, hNone]
    exact .refl h
  | cons d rest ih =>
    let started := { h.service.board with pending := rest }.startDeadline d
    have hStep : (h.step (.startDeadline 0)).service = { h.service with board := started } := by
      change { h.service with board := h.service.board.startAt 0 } = _
      rw [JobBoard.startAt, hAll]
      rfl
    refine PassesTo.trans (.of_step (e := .startDeadline 0) trivial hStep) fun g hService => ?_
    have hBoard : g.service.board = started := congrArg SearchService.board hService
    obtain ⟨timers, hStarted⟩ :
        ∃ timers, started = { h.service.board with timers, pending := rest } :=
      JobBoard.exists_startDeadline _ d
    have hLeft : g.service.board.pending = rest := by rw [hBoard, hStarted]
    have hPasses := ih hLeft
    rw [hBoard, ← JobBoard.startDeadline_setPending] at hPasses
    exact hPasses

/-- All tasks have a turn. -/
theorem passesTo_turn (h : JobHistory) : h.PassesTo h.service.board.turn :=
  passesTo_foldl_startDeadline rfl

/-- The clock jumps before any task has a turn. -/
theorem passesTo_jump (h : JobHistory) (ms : Nat) : h.PassesTo (h.service.board.jump ms) := by
  refine PassesTo.trans (h.passesTo_advanceTo (h.now + ms)) fun g hService => ?_
  have hPasses := g.passesTo_turn
  rw [hService] at hPasses
  exact hPasses

/-- The clock jumps after all tasks have had a turn. -/
theorem passesTo_advance (h : JobHistory) (ms : Nat) :
    h.PassesTo (h.service.board.advance ms) := by
  refine PassesTo.trans h.passesTo_turn fun g hService => ?_
  have hPasses := g.passesTo_jump ms
  rw [hService] at hPasses
  exact hPasses

/-- What can pass once can pass again and again. -/
theorem passesTo_foldl {α : Type} {f : JobBoard → α → JobBoard}
    (hStep : ∀ (g : JobHistory) x, g.PassesTo (f g.service.board x)) (xs : List α)
    (h : JobHistory) : h.PassesTo (xs.foldl f h.service.board) := by
  induction xs generalizing h with
  | nil => exact .refl h
  | cons x rest ih =>
    refine PassesTo.trans (hStep h x) fun g hService => ?_
    have hPasses := ih g
    rw [hService] at hPasses
    exact hPasses

/-- Somebody waits: all tasks have a turn, and the clock is moved from one due time to the next. -/
theorem passesTo_wait (h : JobHistory) (id : String) (ms : Nat) :
    h.PassesTo (h.service.board.wait id ms) := by
  unfold JobBoard.wait
  split
  · exact .refl h
  · refine PassesTo.trans h.passesTo_turn fun g hService => ?_
    have hBoard : g.service.board = h.service.board.turn := congrArg SearchService.board hService
    rw [← hBoard]
    refine passesTo_foldl (fun g time => ?_) _ g
    split
    · exact .refl g
    · exact g.passesTo_advanceTo time

-- ---------------------------------------------------------------------------
-- What a service is asked for
-- ---------------------------------------------------------------------------

/-- While somebody waits for a job, nothing but time passes. -/
theorem passesTo_load (h : JobHistory) (id : String) (user : SearchUser) :
    h.PassesTo (h.service.load id user).2.board := by
  rw [h.service.load_snd]
  dsimp only
  split
  · exact h.passesTo_wait id _
  · exact .refl h

/-- Asking for the view of a job is a look-up, after which time may pass. -/
theorem exists_run_load (h : JobHistory) (id : String) (user : SearchUser) :
    ∃ events : List JobEvent, (∀ e ∈ events, e.IsPassing) ∧
      (h.run (.find id user :: events)).service = (h.service.load id user).2 := by
  have hFound : (h.step (.find id user)).service = h.service.touched id :=
    h.service.find_snd id user
  have hPasses : (h.step (.find id user)).PassesTo (h.service.load id user).2.board := by
    rw [h.service.load_snd]
    dsimp only
    split
    -- a job was found: the caller waits for it; otherwise the look-up is all there is
    · have hWait := (h.step (.find id user)).passesTo_wait id h.service.loadWait
      rw [hFound] at hWait
      exact hWait
    · have hRefl := PassesTo.refl (h.step (.find id user))
      rw [hFound] at hRefl
      exact hRefl
  obtain ⟨events, hPassing, hRun⟩ := hPasses
  refine ⟨events, hPassing, hRun.trans ?_⟩
  rw [hFound, h.service.load_snd]

end JobHistory

/-- Workers report something: a result or an error. -/
def BoardEvent.Reports : BoardEvent → Prop
  | finish _ outcome => ∃ r : JobReport, outcome = r.status
  | finishLater _ _ outcome _ => ∃ r : JobReport, outcome = r.status
  | _ => True

/-- What happens to jobs without the service is made of single events, which create no job. -/
theorem BoardEvent.exists_run {e : BoardEvent} (hReports : e.Reports) (h : JobHistory) :
    ∃ events : List JobEvent, events.filterMap JobEvent.created? = [] ∧
      (h.run events).service = { h.service with board := e.happen h.service.board } := by
  have hPassing {g : JobHistory} {b : JobBoard} (hPasses : g.PassesTo b) :
      ∃ events : List JobEvent, events.filterMap JobEvent.created? = [] ∧
        (g.run events).service = { g.service with board := b } := by
    obtain ⟨events, hAll, hRun⟩ := hPasses
    exact ⟨events, List.filterMap_eq_nil_iff.mpr fun x hMem => (hAll x hMem).created?, hRun⟩
  cases e with
  | finish id outcome =>
    obtain ⟨r, rfl⟩ := hReports
    exact ⟨[.call id (.report r)], rfl, rfl⟩
  | cancel id => exact ⟨[.call id .cancel], rfl, rfl⟩
  | cancelToken id =>
    refine ⟨[.call id .cancelToken], rfl, congrArg (fun b => { h.service with board := b }) ?_⟩
    rw [happen, JobBoard.cancelToken, JobBoard.change, JobBoard.change]
    cases h.service.board.find? id <;> rfl
  | finishLater after id outcome heedsToken =>
    -- All tasks have a turn, among them the one of the worker, who is perhaps done at once.
    obtain ⟨r, rfl⟩ := hReports
    obtain ⟨turns, hNone, hTurn⟩ := hPassing h.passesTo_turn
    let g := h.run turns
    let worked := g.step (.work after id r heedsToken)
    have hBoard : worked.service = { h.service with
        board := h.service.board.turn.arm after id (.finish r.status heedsToken) } :=
      congrArg (fun s : SearchService =>
        { s with board := s.board.arm after id (.finish r.status heedsToken) }) hTurn
    obtain ⟨events, hNone', hRun⟩ := hPassing (worked.passesTo_settle (Nat.le_refl _))
    refine ⟨turns ++ .work after id r heedsToken :: events, ?_, ?_⟩
    · rw [List.filterMap_append, hNone, List.filterMap_cons_none rfl, hNone', List.append_nil]
    · have hNow : worked.now = h.service.board.now := by
        rw [JobHistory.now, hBoard]
        exact h.service.board.now_turn
      rw [JobHistory.run_append]
      refine hRun.trans ?_
      rw [hNow, hBoard]
      rfl
  | wait id ms => exact hPassing (h.passesTo_wait id ms)
  | turn => exact hPassing h.passesTo_turn
  | jump ms => exact hPassing (h.passesTo_jump ms)
  | advance ms => exact hPassing (h.passesTo_advance ms)

/-- What a service is asked for, with workers that report something. -/
def SearchEvent.Reports (e : SearchEvent) : Prop :=
  ∀ event, e = .happen event → event.Reports

/-- One thing that a service is asked for is made of single events, too. -/
theorem SearchEvent.exists_run {e : SearchEvent} (hReports : e.Reports) (h : SearchHistory)
    (g : JobHistory) (hService : g.service = h.service) :
    ∃ events : List JobEvent, events.filterMap JobEvent.created? = e.creation?.toList.map (·.1) ∧
      (g.run events).service = (h.step e).service := by
  cases e with
  | create id search owner cancelAfter =>
    exact ⟨[.create id search owner cancelAfter], rfl,
      congrArg (·.create id search owner cancelAfter) hService⟩
  | lookUp id lookup =>
    cases lookup with
    | find user =>
      exact ⟨[.find id user], rfl, congrArg (fun s => (s.find id user).2) hService⟩
    | load user =>
      obtain ⟨events, hPassing, hRun⟩ := g.exists_run_load id user
      refine ⟨.find id user :: events, ?_, hRun.trans ?_⟩
      · exact List.filterMap_eq_nil_iff.mpr
          (List.forall_mem_cons.mpr ⟨rfl, fun x hMem => (hPassing x hMem).created?⟩)
      · exact congrArg (fun s => (s.load id user).2) hService
    | cancel user =>
      exact ⟨[.cancel id user], rfl, congrArg (fun s => (s.cancel id user).2) hService⟩
    | isInCache => exact ⟨[.isInCache id], rfl, congrArg (fun s => (s.isInCache id).2) hService⟩
  | happen event =>
    obtain ⟨events, hNone, hRun⟩ := BoardEvent.exists_run (hReports event rfl) g
    exact ⟨events, hNone, by rw [hRun, hService]; rfl⟩

/--
**A service that is asked one thing at a time is a case of a race.** The same service comes about by
single events, which create the same jobs.
-/
theorem SearchHistory.exists_run {events : List SearchEvent} (hReports : ∀ e ∈ events, e.Reports)
    (node : String) (settings : SearchJobSettings) (hasTimers : Bool) :
    ∃ single : List JobEvent,
      single.filterMap JobEvent.created? = (creations events).map (·.1) ∧
      ((JobHistory.start node settings hasTimers).run single).service =
        ((start node settings hasTimers).run events).service := by
  -- the two histories record different things, but the services in them stay equal
  suffices hRun : ∀ (h : SearchHistory) (g : JobHistory), g.service = h.service →
      ∃ single : List JobEvent,
        single.filterMap JobEvent.created? = (creations events).map (·.1) ∧
        (g.run single).service = (h.run events).service from hRun _ _ rfl
  induction events with
  | nil => exact fun h g hService => ⟨[], rfl, hService⟩
  | cons e rest ih =>
    intro h g hService
    obtain ⟨hFirst, hRest⟩ := List.forall_mem_cons.mp hReports
    obtain ⟨events, hCreated, hRun⟩ := SearchEvent.exists_run hFirst h g hService
    obtain ⟨more, hCreated', hRun'⟩ := ih hRest _ _ hRun
    refine ⟨events ++ more, ?_, ?_⟩
    · rw [List.filterMap_append, hCreated, hCreated', creations, creations, ← List.map_append]
      cases hCreation : e.creation? <;> simp [hCreation]
    · rw [JobHistory.run_append, hRun']
      rfl

end RuleBlocks
