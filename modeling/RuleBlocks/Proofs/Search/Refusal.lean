import RuleBlocks.Proofs.Search.History

/-!
# What a refusal does

Whoever asks for a job of somebody else is refused, but only after the service has looked into the
cache, so that the refusal counts as an access of the job. Here is shown that it is this access and
nothing else, and what other users can notice of it. A run is compared with a longer one, which has
some more look-ups in it, all of them refused. While nobody can tell the two apart, the jobs, the
clock and the timers are the same in both, and so are the accesses, except that there are more of
them in the longer run. What is retained after one list of accesses and after the other tells which
look-up can be the first one with two different answers.

* `JobLookup.isRefused`, `JobLookup.perform_of_isRefused` — a refused look-up does what asking
  whether the job is in the cache does;
* `AddsAccesses` — accesses with some more among them, and what these change about who is retained;
* `SearchHistory.Intersperses` — events with refused look-ups in between;
* `SearchHistory.Abreast` — the invariant of the two runs: they differ in the cache alone;
* `refused_lookUps_are_accesses` — the effect of a refusal, at once and later.
-/

namespace RuleBlocks

-- ---------------------------------------------------------------------------
-- A refused look-up
-- ---------------------------------------------------------------------------

/-- Whether a look-up is answered by a refusal. -/
def JobLookup.isRefused (s : SearchService) (id : String) : JobLookup → Bool
  | find user => !(s.find id user).1.isOk
  | load user => !(s.load id user).1.isOk
  | cancel user => !(s.cancel id user).1.isOk
  | isInCache => false

/-- An access that hits puts its entry in front. -/
theorem JobCache.touch_of_found {c : JobCache} {now : Nat} {id : String}
    (h : (c.touch now id).1 = true) :
    c.touch now id = (true, { c with entries := ⟨id, now⟩ :: c.others id }) := by
  unfold touch at h ⊢
  split at h
  · exact absurd h Bool.false_ne_true
  · split at h
    · exact absurd h Bool.false_ne_true
    · next hFresh => rw [if_neg hFresh]

namespace SearchService

variable {s : SearchService} {id : String} {user : SearchUser}

/-- A job is found before anybody is refused, and only the cache is written. -/
theorem find_of_not_isOk (h : (s.find id user).1.isOk = false) :
    (s.cache.touch s.board.now id).1 = true ∧
      s.find id user = (.error ⟨user.username, id⟩, s.touched id) := by
  cases hHeld : s.held? id with
  | none =>
    rw [find_of_not_held hHeld] at h
    exact absurd h (by simp [Except.isOk, Except.toBool])
  | some j =>
    cases hMay : user.mayAccess j.owner with
    | true =>
      rw [find_of_held hHeld hMay] at h
      exact absurd h (by simp [Except.isOk, Except.toBool])
    | false =>
      refine ⟨?_, find_of_not_mayAccess hHeld hMay⟩
      -- a job that is held was hit
      by_contra hTouch
      rw [held?, if_neg hTouch] at hHeld
      exact absurd hHeld (by simp)

/-- A request is refused exactly if the look-up is. -/
theorem isOk_load : (s.load id user).1.isOk = (s.find id user).1.isOk := by
  unfold load
  split <;> simp_all [Except.isOk, Except.toBool]

theorem isOk_cancel : (s.cancel id user).1.isOk = (s.find id user).1.isOk := by
  unfold cancel
  split <;> simp_all [Except.isOk, Except.toBool]

end SearchService

open SearchService in
/-- **A refused look-up finds the job and does nothing but look into the cache.** -/
theorem JobLookup.perform_of_isRefused {lookup : JobLookup} {s : SearchService} {id : String}
    (h : lookup.isRefused s id = true) :
    (s.cache.touch s.board.now id).1 = true ∧ lookup.perform s id = (true, s.touched id) := by
  cases lookup with
  | isInCache => exact absurd h Bool.false_ne_true
  | find user =>
    rw [isRefused, Bool.not_eq_true'] at h
    obtain ⟨hTouch, hFind⟩ := find_of_not_isOk h
    exact ⟨hTouch, by rw [perform, hFind]; rfl⟩
  | load user =>
    rw [isRefused, Bool.not_eq_true', isOk_load] at h
    obtain ⟨hTouch, hFind⟩ := find_of_not_isOk h
    exact ⟨hTouch, by rw [perform, SearchService.load, hFind]; rfl⟩
  | cancel user =>
    rw [isRefused, Bool.not_eq_true', isOk_cancel] at h
    obtain ⟨hTouch, hFind⟩ := find_of_not_isOk h
    exact ⟨hTouch, by rw [perform, SearchService.cancel, hFind]; rfl⟩

-- ---------------------------------------------------------------------------
-- More accesses
-- ---------------------------------------------------------------------------

/-- There are more accesses in one list than in the other, all of them of the given jobs. -/
inductive AddsAccesses (ids : List String) : List JobAccess → List JobAccess → Prop
  | nil : AddsAccesses ids [] []
  | both (a : JobAccess) {fewer more : List JobAccess} (h : AddsAccesses ids fewer more) :
    AddsAccesses ids (a :: fewer) (a :: more)
  | added (a : JobAccess) {fewer more : List JobAccess} (h : AddsAccesses ids fewer more)
    (hMem : a.id ∈ ids) : AddsAccesses ids fewer (a :: more)

theorem card_ids_le {accesses others : List JobAccess} (h : accesses ⊆ others) :
    (accesses.map (·.id)).toFinset.card ≤ (others.map (·.id)).toFinset.card := by
  apply Finset.card_le_card
  intro id hId
  rw [List.mem_toFinset] at hId ⊢
  exact List.map_subset _ h hId

section LastAccess

variable {after before : List JobAccess} {id : String} {time : Nat}

/-- Fewer jobs are accessed after the last access of a job than altogether. -/
theorem card_ids_lt (hLast : ∀ a ∈ after, a.id ≠ id) :
    (after.map (·.id)).toFinset.card <
      ((after ++ ⟨id, time⟩ :: before).map (·.id)).toFinset.card := by
  have hNew : id ∉ (after.map (·.id)).toFinset := by simpa using fun a ha => hLast a ha
  have hIds : insert id (after.map (·.id)).toFinset ⊆
      ((after ++ ⟨id, time⟩ :: before).map (·.id)).toFinset := by
    intro other
    simp only [Finset.mem_insert, List.mem_toFinset, List.map_append, List.map_cons,
      List.mem_append, List.mem_cons]
    tauto
  have hCard := Finset.card_le_card hIds
  rwa [Finset.card_insert_of_notMem hNew] at hCard

/-- No access of a job is later than its last one. -/
theorem JobCache.InTime.le_last {now earlier : Nat}
    (h : InTime now (after ++ ⟨id, time⟩ :: before)) (hLast : ∀ a ∈ after, a.id ≠ id)
    (hMem : ⟨id, earlier⟩ ∈ after ++ ⟨id, time⟩ :: before) : earlier ≤ time := by
  have hOrder : (time :: before.map (·.time)).Pairwise (· ≥ ·) := by
    have hAll := (List.pairwise_cons.mp h).2
    rw [List.map_append] at hAll
    exact (List.pairwise_append.mp hAll).2.1
  obtain hAfter | hHere := List.mem_append.mp hMem
  · exact absurd rfl (hLast _ hAfter)
  obtain hHere | hBefore := List.mem_cons.mp hHere
  · exact Nat.le_of_eq (congrArg JobAccess.time hHere)
  · exact (List.pairwise_cons.mp hOrder).1 earlier (List.mem_map_of_mem hBefore)

end LastAccess

namespace AddsAccesses

variable {ids : List String} {fewer more : List JobAccess} {capacity expiry now : Nat} {id : String}

/-- The history with more accesses has all of the other, in order. -/
theorem sublist (h : AddsAccesses ids fewer more) : fewer.Sublist more := by
  induction h with
  | nil => exact .slnil
  | both a _ ih => exact ih.cons_cons a
  | added a _ _ ih => exact ih.cons a

/-- An access that was not added is in both lists, and no more accesses come after it in the shorter
one. -/
theorem exists_fewer_after (h : AddsAccesses ids fewer more) (hNot : id ∉ ids)
    {after before : List JobAccess} {time : Nat} (hSplit : more = after ++ ⟨id, time⟩ :: before) :
    ∃ after' before', fewer = after' ++ ⟨id, time⟩ :: before' ∧ after' ⊆ after := by
  induction h generalizing after with
  | nil => simp at hSplit
  | both a _ ih =>
    cases after with
    | nil =>
      obtain ⟨rfl, rfl⟩ := List.cons.inj hSplit
      exact ⟨[], _, rfl, List.Subset.refl _⟩
    | cons b after =>
      obtain ⟨rfl, hRest⟩ := List.cons.inj hSplit
      obtain ⟨after', before', rfl, hSub⟩ := ih hRest
      exact ⟨a :: after', before', rfl, List.cons_subset_cons a hSub⟩
  | added a _ hMem ih =>
    cases after with
    | nil =>
      obtain ⟨rfl, -⟩ := List.cons.inj hSplit
      -- the access that was added is not one of this job
      exact absurd hMem hNot
    | cons b after =>
      obtain ⟨rfl, hRest⟩ := List.cons.inj hSplit
      obtain ⟨after', before', rfl, hSub⟩ := ih hRest
      exact ⟨after', before', rfl, List.subset_cons_of_subset a hSub⟩

/-- A job that was accessed has a last access in the longer list, too. If nothing but this job was
accessed more often, no more accesses come after it there. -/
theorem exists_last (h : AddsAccesses ids fewer more) {after before : List JobAccess} {time : Nat}
    (hSplit : fewer = after ++ ⟨id, time⟩ :: before) (hLast : ∀ a ∈ after, a.id ≠ id) :
    ∃ after' time' before', more = after' ++ ⟨id, time'⟩ :: before' ∧
      (∀ a ∈ after', a.id ≠ id) ∧ ((∀ other ∈ ids, other = id) → after' ⊆ after) := by
  induction h generalizing after with
  | nil => simp at hSplit
  | both a _ ih =>
    cases after with
    | nil =>
      obtain ⟨rfl, rfl⟩ := List.cons.inj hSplit
      exact ⟨[], time, _, rfl, by simp, fun _ => List.Subset.refl _⟩
    | cons b after =>
      obtain ⟨rfl, hRest⟩ := List.cons.inj hSplit
      obtain ⟨hFirst, hLast⟩ := List.forall_mem_cons.mp hLast
      obtain ⟨after', time', before', rfl, hLast', hSub⟩ := ih hRest hLast
      exact ⟨a :: after', time', before', rfl, List.forall_mem_cons.mpr ⟨hFirst, hLast'⟩,
        fun hOnly => List.cons_subset_cons a (hSub hOnly)⟩
  | added a _ hMem ih =>
    by_cases hSame : a.id = id
    · subst hSame
      exact ⟨[], a.time, _, rfl, by simp, fun _ => List.nil_subset _⟩
    · obtain ⟨after', time', before', rfl, hLast', hSub⟩ := ih hSplit hLast
      exact ⟨a :: after', time', before', rfl, List.forall_mem_cons.mpr ⟨hSame, hLast'⟩,
        fun hOnly => absurd (hOnly _ hMem) hSame⟩

/-- More accesses of other jobs do not help a job to be retained. -/
theorem isRetained_of_more (h : AddsAccesses ids fewer more) (hNot : id ∉ ids)
    (hRetained : IsRetained capacity expiry now more id) :
    IsRetained capacity expiry now fewer id := by
  obtain ⟨after, time, before, hSplit, hLast, hTime, hCard⟩ := hRetained
  obtain ⟨after', before', hSplit', hSub⟩ := h.exists_fewer_after hNot hSplit
  refine ⟨after', time, before', hSplit', fun a ha => hLast a (hSub ha), hTime, ?_⟩
  exact Nat.lt_of_le_of_lt (card_ids_le hSub) hCard

/-- More accesses of a job, and of others as far as there is room for all, do not harm it. -/
theorem isRetained_of_fewer (h : AddsAccesses ids fewer more) (hInTime : JobCache.InTime now more)
    (hRoom : (∀ other ∈ ids, other = id) ∨ (more.map (·.id)).toFinset.card ≤ capacity)
    (hRetained : IsRetained capacity expiry now fewer id) :
    IsRetained capacity expiry now more id := by
  obtain ⟨after, time, before, hSplit, hLast, hTime, hCard⟩ := hRetained
  obtain ⟨after', time', before', rfl, hLast', hSub⟩ := h.exists_last hSplit hLast
  refine ⟨after', time', before', rfl, hLast', ?_, ?_⟩
  · -- the access that decided before is this one or an earlier one
    have hMem : (⟨id, time⟩ : JobAccess) ∈ after' ++ ⟨id, time'⟩ :: before' :=
      h.sublist.subset (hSplit ▸ List.mem_append_right _ List.mem_cons_self)
    have hLater : time ≤ time' := hInTime.le_last hLast' hMem
    omega
  · obtain hOnly | hRoom := hRoom
    -- only accesses to this job were added, so no other job comes behind it
    · exact Nat.lt_of_le_of_lt (card_ids_le (hSub hOnly)) hCard
    · exact Nat.lt_of_lt_of_le (card_ids_lt hLast') hRoom

end AddsAccesses

-- ---------------------------------------------------------------------------
-- Two runs
-- ---------------------------------------------------------------------------

/-- What a look-up answers and writes depends on the cache only in what is found there. -/
theorem JobLookup.perform_withCache (lookup : JobLookup) {s : SearchService} {id : String}
    {cache : JobCache}
    (h : (cache.touch s.board.now id).1 = (s.cache.touch s.board.now id).1) :
    lookup.perform { s with cache } id =
      ((lookup.perform s id).1,
        { (lookup.perform s id).2 with cache := (cache.touch s.board.now id).2 }) := by
  -- all look-ups begin with an access, and only its answer counts
  have hFind (user : SearchUser) : SearchService.find { s with cache } id user =
      ((s.find id user).1,
        { (s.find id user).2 with cache := (cache.touch s.board.now id).2 }) := by
    simp only [SearchService.find, h]
    split
    · rfl
    · split <;> rfl
  cases lookup with
  | isInCache => simp only [perform, SearchService.isInCache, h]
  | find user => rw [perform, perform, hFind]
  | load user =>
    rw [perform, perform, SearchService.load, SearchService.load, hFind]
    rcases s.find id user with ⟨_ | _ | _, _⟩ <;> rfl
  | cancel user =>
    rw [perform, perform, SearchService.cancel, SearchService.cancel, hFind]
    rcases s.find id user with ⟨_ | _ | _, _⟩ <;> rfl

namespace SearchHistory

/-- Whether an event is a look-up that finds a job. -/
def finds (h : SearchHistory) : SearchEvent → Bool
  | .lookUp id lookup => (lookup.perform h.service id).1
  | _ => false

/-- The same events with look-ups of certain jobs in between, all of which are refused. Every other
look-up finds a job in both runs or in neither. -/
inductive Intersperses (start : SearchHistory) (refused : List String) :
    List SearchEvent → List SearchEvent → Prop
  | nil : Intersperses start refused [] []
  | both {events longer : List SearchEvent} (h : Intersperses start refused events longer)
    (e : SearchEvent) (hAlike : (start.run longer).finds e = (start.run events).finds e) :
    Intersperses start refused (events ++ [e]) (longer ++ [e])
  | refusal {events longer : List SearchEvent} (h : Intersperses start refused events longer)
    (id : String) (lookup : JobLookup) (hMem : id ∈ refused)
    (hRefused : lookup.isRefused (start.run longer).service id = true) :
    Intersperses start refused events (longer ++ [.lookUp id lookup])

/-- Two histories that nothing but the accesses of some jobs tells apart. -/
structure Abreast (refused : List String) (h longer : SearchHistory) : Prop where
  service : ∃ cache, longer.service = { h.service with cache }
  accesses : AddsAccesses refused h.accesses longer.accesses

variable {settings : SearchJobSettings} {created : List (String × String)}
  {refused : List String} {h longer : SearchHistory}

/-- A look-up finds what the cache finds. -/
theorem Sound.finds_lookUp (hSound : h.Sound settings created) (id : String) (lookup : JobLookup) :
    h.finds (.lookUp id lookup) = (h.service.cache.touch h.now id).1 := by
  obtain ⟨later, -, hPerform⟩ := lookup.exists_perform h.service id hSound.exists_job
  rw [finds, hPerform, now]

namespace Abreast

/-- Refused look-ups leave no trace on the jobs. -/
theorem board_eq (hAbreast : h.Abreast refused longer) : longer.service.board = h.service.board := by
  obtain ⟨cache, hService⟩ := hAbreast.service
  rw [hService]

/-- **An event that happens in both runs** and finds the same in both keeps them abreast. -/
theorem step (hAbreast : h.Abreast refused longer) (hSound : h.Sound settings created)
    (hSound' : longer.Sound settings created) (e : SearchEvent)
    (hAlike : longer.finds e = h.finds e) : (h.step e).Abreast refused (longer.step e) := by
  have hNow : longer.now = h.now := by rw [now, hAbreast.board_eq, now]
  obtain ⟨cache, hService⟩ := hAbreast.service
  cases e with
  | create id search owner cancelAfter =>
    refine ⟨⟨cache.insert h.now id, ?_⟩, ?_⟩
    · simp only [SearchHistory.step, hService]
      rfl
    · simp only [SearchHistory.step, hNow]
      exact hAbreast.accesses.both _
  | lookUp id lookup =>
    -- the caches may differ, but the job is in both or in neither
    have hTouch : (cache.touch h.now id).1 = (h.service.cache.touch h.now id).1 := by
      rw [hSound.finds_lookUp, hSound'.finds_lookUp, hNow, hService] at hAlike
      exact hAlike
    have hPerform := lookup.perform_withCache hTouch
    refine ⟨⟨(cache.touch h.now id).2, ?_⟩, ?_⟩
    · simp only [SearchHistory.step, hService, hPerform]
      rfl
    · simp only [SearchHistory.step, hService, hPerform, hNow]
      split
      · exact hAbreast.accesses.both _
      · exact hAbreast.accesses
  | happen event =>
    refine ⟨⟨cache, ?_⟩, hAbreast.accesses⟩
    simp only [SearchHistory.step, hService]

/-- **A refused look-up in one of the runs** keeps them abreast. -/
theorem refuse (hAbreast : h.Abreast refused longer) {id : String} {lookup : JobLookup}
    (hMem : id ∈ refused) (hRefused : lookup.isRefused longer.service id = true) :
    h.Abreast refused (longer.step (.lookUp id lookup)) := by
  obtain ⟨-, hPerform⟩ := JobLookup.perform_of_isRefused hRefused
  obtain ⟨cache, hService⟩ := hAbreast.service
  simp only [SearchHistory.step, hPerform, if_true]
  refine ⟨⟨(longer.service.touched id).cache, ?_⟩, hAbreast.accesses.added _ hMem⟩
  simp only [SearchService.touched, hService]

end Abreast

/-- **The runs stay abreast** while every other look-up finds the same in both. -/
theorem Intersperses.abreast {node : String} {hasTimers : Bool} {events more : List SearchEvent}
    (hRuns : (start node settings hasTimers).Intersperses refused events more)
    (hDistinct : ((creations events).map (·.1)).Nodup) :
    let h := (start node settings hasTimers).run events
    let longer := (start node settings hasTimers).run more
    h.Sound settings (creations events) ∧ longer.Sound settings (creations events) ∧
      h.Abreast refused longer := by
  -- along the longer run: an event of both, or a refused look-up of it alone
  induction hRuns with
  | nil => exact ⟨sound_start .., sound_start .., ⟨_, rfl⟩, .nil⟩
  | @both events more hRuns e hAlike ih =>
    obtain ⟨hBefore, hFresh⟩ := fresh_of_nodup hDistinct
    obtain ⟨hSound, hSound', hAbreast⟩ := ih hBefore
    rw [run_concat, run_concat, creations_concat]
    exact ⟨hSound.step e hFresh, hSound'.step e hFresh, hAbreast.step hSound hSound' e hAlike⟩
  | refusal hRuns id lookup hMem hRefused ih =>
    obtain ⟨hSound, hSound', hAbreast⟩ := ih hDistinct
    rw [run_concat]
    exact ⟨hSound, hSound'.lookUp id lookup, hAbreast.refuse hMem hRefused⟩

/-- Look-ups find the jobs that the accesses say are retained. -/
theorem Sound.held?_eq_some_iff (hSound : h.Sound settings created) {id : String} {j : SearchJob} :
    h.service.held? id = some j ↔
      h.Retains settings id ∧ h.service.board.find? id = some j := by
  rw [← hSound.touch_iff, SearchService.held?, now]
  split <;> simp [*]

/-- No more jobs are accessed than were created. -/
theorem Sound.card_accesses_le (hSound : h.Sound settings created) :
    (h.accesses.map (·.id)).toFinset.card ≤ created.length := by
  have hIds : (h.accesses.map (·.id)).toFinset ⊆ (created.map (·.1)).toFinset := by
    intro id hId
    rw [List.mem_toFinset] at hId ⊢
    obtain ⟨a, ha, rfl⟩ := List.mem_map.mp hId
    exact hSound.accessed a ha
  calc (h.accesses.map (·.id)).toFinset.card
      ≤ (created.map (·.1)).toFinset.card := Finset.card_le_card hIds
    _ ≤ (created.map (·.1)).length := List.toFinset_card_le _
    _ = created.length := List.length_map _

namespace Abreast

variable {id : String} {j : SearchJob}

/-- What the longer run finds, the other one finds as well, unless somebody was refused it. -/
theorem held?_of_longer (hAbreast : h.Abreast refused longer) (hSound : h.Sound settings created)
    (hSound' : longer.Sound settings created) (hHeld : longer.service.held? id = some j)
    (hNot : id ∉ refused) : h.service.held? id = some j := by
  rw [hSound'.held?_eq_some_iff, Retains, now, hAbreast.board_eq] at hHeld
  obtain ⟨hRetains, hFind⟩ := hHeld
  exact hSound.held?_eq_some_iff.mpr ⟨hAbreast.accesses.isRetained_of_more hNot hRetains, hFind⟩

/-- The longer run finds what the other one finds, if nobody was refused another job or there is
room for all. -/
theorem held?_longer (hAbreast : h.Abreast refused longer) (hSound : h.Sound settings created)
    (hSound' : longer.Sound settings created) (hHeld : h.service.held? id = some j)
    (hRoom : (∀ other ∈ refused, other = id) ∨ created.length ≤ max 1 settings.maxSize) :
    longer.service.held? id = some j := by
  obtain ⟨hRetains, hFind⟩ := hSound.held?_eq_some_iff.mp hHeld
  have hInTime := hSound'.inTime
  rw [now, hAbreast.board_eq] at hInTime
  rw [hSound'.held?_eq_some_iff, Retains, now, hAbreast.board_eq]
  refine ⟨hAbreast.accesses.isRetained_of_fewer hInTime ?_ hRetains, hFind⟩
  exact hRoom.imp_right hSound'.card_accesses_le.trans

end Abreast

end SearchHistory

open SearchHistory in
/--
**A refused look-up is an access of the job, and nothing else.** In any state it writes what asking
whether the job is in the cache writes: the entry of the job moves to the front and is as good as
new, the other entries stay as they are, and so do the jobs, the clock and the timers. With refused
look-ups anywhere in between, as long as every other look-up finds the same, the jobs, the clock and
the timers are those of the run without. The first look-up that does not find the same either finds
a job that somebody was refused and that would have been forgotten, or misses a job that had to make
room, because somebody was refused another one and there are more jobs than the cache holds.
-/
theorem refused_lookUps_are_accesses (node : String) (settings : SearchJobSettings)
    (hasTimers : Bool) {refused : List String} {events longer : List SearchEvent}
    (hRuns : (start node settings hasTimers).Intersperses refused events longer)
    (hDistinct : ((creations events).map (·.1)).Nodup) :
    let s := ((start node settings hasTimers).run events).service
    let s' := ((start node settings hasTimers).run longer).service
    (∀ id (lookup : JobLookup), lookup.isRefused s' id = true →
      s'.isInCache id =
        (true, { s' with cache.entries := ⟨id, s'.board.now⟩ :: s'.cache.others id }) ∧
      lookup.perform s' id = s'.isInCache id) ∧
    s'.board = s.board ∧
    (∀ id j, s'.held? id = some j → s.held? id = some j ∨ id ∈ refused) ∧
    (∀ id j, s.held? id = some j → s'.held? id = some j ∨
      (∃ other ∈ refused, other ≠ id) ∧ max 1 settings.maxSize < (creations events).length) := by
  intro s s'
  obtain ⟨hSound, hSound', hAbreast⟩ := hRuns.abreast hDistinct
  refine ⟨fun id lookup hRefused => ?_, hAbreast.board_eq, fun id j hHeld => ?_,
    fun id j hHeld => ?_⟩
  · obtain ⟨hTouch, hPerform⟩ := JobLookup.perform_of_isRefused hRefused
    have hCache := JobCache.touch_of_found hTouch
    rw [hPerform, SearchService.touched, SearchService.isInCache, hCache]
    exact ⟨rfl, rfl⟩
  · by_cases hRefused : id ∈ refused
    · exact .inr hRefused
    · exact .inl (hAbreast.held?_of_longer hSound hSound' hHeld hRefused)
  · by_cases hRoom : (∀ other ∈ refused, other = id) ∨
        (creations events).length ≤ max 1 settings.maxSize
    · exact .inl (hAbreast.held?_longer hSound hSound' hHeld hRoom)
    · push Not at hRoom
      exact .inr hRoom

open SearchHistory in
/-- Bob is refused the older of two jobs, and then there is one more than the cache holds. Whatever
is found now and would not have been found otherwise is the job that he was refused. -/
theorem refused_lookUps_are_accesses_older :
    let settings : SearchJobSettings := { SearchJobSettings.standard with maxSize := 2 }
    let setUp : List SearchEvent :=
      [.create "j0" .null "alice" none, .create "j1" .null "alice" (some 60),
        .happen (.advance 1000)]
    let refusal : SearchEvent := .lookUp "j0" (.load (.ordinary "bob"))
    let last : SearchEvent := .create "j2" .null "alice" none
    let h := start "node" settings true
    let s := (h.run (setUp ++ [last])).service
    let s' := (h.run (setUp ++ [refusal] ++ [last])).service
    h.Intersperses ["j0"] (setUp ++ [last]) (setUp ++ [refusal] ++ [last]) ∧
      ((creations (setUp ++ [last])).map (·.1)).Nodup ∧ s'.board = s.board ∧
      ∀ id j, s'.held? id = some j → s.held? id = some j ∨ id = "j0" := by
  intro settings setUp refusal last h s s'
  have hSetUp : h.Intersperses ["j0"] setUp setUp := .both (.both (.both .nil _ rfl) _ rfl) _ rfl
  have hRefused : h.Intersperses ["j0"] setUp (setUp ++ [refusal]) :=
    hSetUp.refusal "j0" _ (by decide) (by decide +kernel)
  have hRuns : h.Intersperses ["j0"] (setUp ++ [last]) (setUp ++ [refusal] ++ [last]) :=
    hRefused.both last (by simp only [finds, last])
  have hDistinct : ((creations (setUp ++ [last])).map (·.1)).Nodup := by decide
  have hFinds := refused_lookUps_are_accesses "node" settings true hRuns hDistinct
  refine ⟨hRuns, hDistinct, hFinds.2.1, fun id j hHeld => ?_⟩
  exact (hFinds.2.2.1 id j hHeld).imp_right List.mem_singleton.mp

open SearchHistory in
/-- A refusal does not leave the cache as it was, and changes what is found later: with it the next
job drives out the newer of two jobs, without it the older one. -/
theorem refused_lookUp_refreshes :
    let settings : SearchJobSettings := { SearchJobSettings.standard with maxSize := 2 }
    let bob := SearchUser.ordinary "bob"
    let setUp : List SearchEvent :=
      [.create "j0" .null "alice" none, .create "j1" .null "alice" none, .happen (.advance 1000)]
    let refusal : SearchEvent := .lookUp "j0" (.find bob)
    let last : SearchEvent := .create "j2" .null "alice" none
    let run (events : List SearchEvent) := ((start "node" settings true).run events).service
    (JobLookup.find bob).isRefused (run setUp) "j0" = true ∧
      (run setUp).cache.entries = [⟨"j1", 0⟩, ⟨"j0", 0⟩] ∧
      (run (setUp ++ [refusal])).cache.entries = [⟨"j0", 1000⟩, ⟨"j1", 0⟩] ∧
      (["j0", "j1"].map fun id => ((run (setUp ++ [last])).isInCache id).1) = [false, true] ∧
      (["j0", "j1"].map fun id => ((run (setUp ++ [refusal, last])).isInCache id).1) =
        [true, false] := by
  decide +kernel

end RuleBlocks
