import RuleBlocks.Proofs.Search.Lookup

/-!
# The history of a service

Jobs are created, looked up and ended, and time passes. Beside the service itself the history keeps
a record on which nothing depends: which job was accessed at which time. Creating a job is an access
of it, and so is every look-up that finds it. From this record alone, without the cache, can be told
which look-ups find a job.

* `SearchEvent`, `SearchHistory` — one event, and the service with its record;
* `SearchHistory.step`, `SearchHistory.run` — the effect of one event and of a sequence;
* `SearchHistory.Sound` — the invariant: the cache follows the record, all jobs are on the board;
* `Sound.step`, `Sound.run` — every event keeps it, and so does a history of any length;
* `lookups_find_retained` — look-ups find the jobs that are retained, and no others.
-/

namespace RuleBlocks

/-- One event. -/
inductive SearchEvent
  | create (id : String) (search : Json) (owner : String) (cancelAfter : Option Nat)
  | lookUp (id : String) (lookup : JobLookup)
  /-- Something that the service has no part in. -/
  | happen (event : BoardEvent)

/-- The id and the owner of the job that an event creates. -/
def SearchEvent.creation? : SearchEvent → Option (String × String)
  | create id _ owner _ => some (id, owner)
  | _ => none

structure SearchHistory where
  service : SearchService
  /-- The latest comes first. -/
  accesses : List JobAccess

namespace SearchHistory

/-- A service that nothing was asked of yet. -/
def start (node : String) (settings : SearchJobSettings) (hasTimers : Bool) : SearchHistory :=
  { service := { SearchService.new node settings with hasTimers }, accesses := [] }

def now (h : SearchHistory) : Nat :=
  h.service.board.now

def step (h : SearchHistory) : SearchEvent → SearchHistory
  | .create id search owner cancelAfter =>
    { service := h.service.create id search owner cancelAfter
      accesses := ⟨id, h.now⟩ :: h.accesses }
  | .lookUp id lookup =>
    let (found, service) := lookup.perform h.service id
    { service, accesses := if found then ⟨id, h.now⟩ :: h.accesses else h.accesses }
  | .happen event => { h with service.board := event.happen h.service.board }

def run (h : SearchHistory) (events : List SearchEvent) : SearchHistory :=
  events.foldl step h

theorem run_concat (h : SearchHistory) (events : List SearchEvent) (e : SearchEvent) :
    h.run (events ++ [e]) = (h.run events).step e := by
  rw [run, List.foldl_concat, run]

/-- The jobs that were created: their ids and owners. -/
def creations (events : List SearchEvent) : List (String × String) :=
  events.filterMap SearchEvent.creation?

theorem creations_concat (events : List SearchEvent) (e : SearchEvent) :
    creations (events ++ [e]) = creations events ++ e.creation?.toList := by
  rw [creations, List.filterMap_append]
  cases hCreation : e.creation? <;> simp [creations, hCreation]

/-- Where no job is created twice, an event creates none that has been created before. -/
theorem fresh_of_nodup {events : List SearchEvent} {e : SearchEvent}
    (h : ((creations (events ++ [e])).map (·.1)).Nodup) :
    ((creations events).map (·.1)).Nodup ∧
      ∀ job ∈ e.creation?, job.1 ∉ (creations events).map (·.1) := by
  rw [creations_concat, List.map_append, List.nodup_append] at h
  refine ⟨h.1, fun job hJob hMem => ?_⟩
  have hNew : job.1 ∈ e.creation?.toList.map (·.1) :=
    List.mem_map_of_mem (Option.mem_toList.mpr hJob)
  exact h.2.2 _ hMem _ hNew rfl

/-- The accesses so far say that a job is retained. -/
def Retains (settings : SearchJobSettings) (h : SearchHistory) (id : String) : Prop :=
  IsRetained (max 1 settings.maxSize) (1000 * settings.expireAfterAccessSecs) h.now h.accesses id

-- ---------------------------------------------------------------------------
-- The invariant
-- ---------------------------------------------------------------------------

/-- What holds after some events: the cache follows the accesses, these are accesses of jobs that
were created, and all of those are on the board. -/
structure Sound (settings : SearchJobSettings) (created : List (String × String))
    (h : SearchHistory) : Prop where
  capacity : h.service.cache.capacity = max 1 settings.maxSize
  expiry : h.service.cache.expiry = 1000 * settings.expireAfterAccessSecs
  inTime : JobCache.InTime h.now h.accesses
  follows : h.service.cache.Follows h.now h.accesses
  accessed : ∀ a ∈ h.accesses, a.id ∈ created.map (·.1)
  onBoard : ∀ job ∈ created, ∃ j, h.service.board.find? job.1 = some j ∧ j.identity = job

variable {settings : SearchJobSettings} {created : List (String × String)} {h : SearchHistory}

/-- At the start no job was created, and none was accessed. -/
theorem sound_start (node : String) (settings : SearchJobSettings) (hasTimers : Bool) :
    (start node settings hasTimers).Sound settings [] where
  capacity := rfl
  expiry := rfl
  inTime := List.pairwise_singleton _ _
  follows := JobCache.follows_new _ _ _
  accessed := fun _ ha => absurd ha List.not_mem_nil
  onBoard := fun _ hJob => absurd hJob List.not_mem_nil

namespace Sound

/-- The cache has room for one job at least. -/
theorem capacity_pos (hSound : h.Sound settings created) : 0 < h.service.cache.capacity := by
  rw [hSound.capacity]
  exact Nat.lt_of_lt_of_le Nat.one_pos (Nat.le_max_left _ _)

theorem touch_iff (hSound : h.Sound settings created) {id : String} :
    (h.service.cache.touch h.now id).1 ↔ h.Retains settings id := by
  rw [hSound.follows.touch_iff hSound.inTime, hSound.capacity, hSound.expiry, Retains]

/-- A job that is retained was created. -/
theorem mem_created (hSound : h.Sound settings created) {id : String}
    (hRetains : h.Retains settings id) : id ∈ created.map (·.1) := by
  obtain ⟨after, time, before, hSplit, -⟩ := hRetains
  exact hSound.accessed ⟨id, time⟩ (hSplit ▸ List.mem_append_right _ List.mem_cons_self)

/-- Time passes. -/
theorem elapse (hSound : h.Sound settings created) {later : JobBoard}
    (hLeads : h.service.board.LeadsTo later) :
    Sound settings created { h with service.board := later } where
  capacity := hSound.capacity
  expiry := hSound.expiry
  inTime := hSound.inTime.elapse hLeads.clock
  follows := hSound.follows.elapse hSound.inTime.descends hLeads.clock
  accessed := hSound.accessed
  onBoard := by
    intro job hJob
    obtain ⟨j, hFind, hIdentity⟩ := hSound.onBoard job hJob
    obtain ⟨k, hFind', hSame⟩ := hLeads.exists_find? hFind
    exact ⟨k, hFind', hSame.trans hIdentity⟩

/-- Somebody looks a job up: an access, if it is found. -/
theorem touch (hSound : h.Sound settings created) (id : String) :
    Sound settings created
      { service := { h.service with cache := (h.service.cache.touch h.now id).2 }
        accesses :=
          if (h.service.cache.touch h.now id).1 then ⟨id, h.now⟩ :: h.accesses
          else h.accesses } where
  capacity := (JobCache.capacity_touch _ _ _).trans hSound.capacity
  expiry := (JobCache.expiry_touch _ _ _).trans hSound.expiry
  inTime := by
    dsimp only
    split
    · exact hSound.inTime.access id
    · exact hSound.inTime
  follows := hSound.follows.touch hSound.capacity_pos id
  accessed := by
    dsimp only
    split
    · next hFound =>
      exact List.forall_mem_cons.mpr
        ⟨hSound.mem_created (hSound.touch_iff.mp hFound), hSound.accessed⟩
    · exact hSound.accessed
  onBoard := hSound.onBoard

theorem exists_job (hSound : h.Sound settings created) {id : String}
    (hFound : (h.service.cache.touch h.now id).1 = true) :
    ∃ j, h.service.board.find? id = some j := by
  obtain ⟨job, hJob, rfl⟩ := List.mem_map.mp (hSound.mem_created (hSound.touch_iff.mp hFound))
  obtain ⟨j, hFind, -⟩ := hSound.onBoard job hJob
  exact ⟨j, hFind⟩

/-- A look-up is an access at most: it creates nothing, and keeps who owns what. -/
theorem lookUp (hSound : h.Sound settings created) (id : String) (lookup : JobLookup) :
    (h.step (.lookUp id lookup)).Sound settings created := by
  obtain ⟨later, hLeads, hPerform⟩ := lookup.exists_perform h.service id hSound.exists_job
  rw [step, hPerform]
  exact (hSound.touch id).elapse hLeads

/-- A job is created. -/
theorem create (hSound : h.Sound settings created) {id : String} (search : Json) (owner : String)
    (cancelAfter : Option Nat) (hFresh : id ∉ created.map (·.1)) :
    (h.step (.create id search owner cancelAfter)).Sound settings (created ++ [(id, owner)]) := by
  set job := SearchJob.new id search owner h.service.node cancelAfter with hJob
  have hLeads : (h.service.board.add job).LeadsTo
      (h.service.create id search owner cancelAfter).board := by
    simp only [SearchService.create, ← hJob]
    split
    · exact JobBoard.leadsTo_setDeadline _ _ _
    · exact .refl _
  -- a job that was accessed was created before, and this one was not
  have hUnseen : id ∉ h.accesses.map (·.id) := by
    intro hMem
    obtain ⟨a, ha, rfl⟩ := List.mem_map.mp hMem
    exact hFresh (hSound.accessed a ha)
  have hAdded : Sound settings (created ++ [(id, owner)])
      { service := { h.service with
          cache := h.service.cache.insert h.now id
          board := h.service.board.add job }
        accesses := ⟨id, h.now⟩ :: h.accesses } := by
    refine ⟨hSound.capacity, hSound.expiry, hSound.inTime.access id, ?_, ?_, ?_⟩
    · exact hSound.follows.insert hSound.inTime.descends hSound.capacity_pos hUnseen
    · rw [List.map_append]
      refine List.forall_mem_cons.mpr ⟨by simp, fun a ha => ?_⟩
      exact List.mem_append_left _ (hSound.accessed a ha)
    · intro other hOther
      change ∃ j, (h.service.board.jobs.insert id job).find? other.1 = some j ∧ _
      rw [Named.find?_insert]
      obtain hOther | hOther := List.mem_append.mp hOther
      · have hNe : other.1 ≠ id := fun hSame => hFresh (hSame ▸ List.mem_map_of_mem hOther)
        rw [if_neg hNe]
        exact hSound.onBoard other hOther
      · obtain rfl := List.mem_singleton.mp hOther
        exact ⟨job, if_pos rfl, rfl⟩
  -- setting the deadline changes nothing that is recorded
  exact hAdded.elapse hLeads

/-- **Every event keeps the invariant.** -/
theorem step (hSound : h.Sound settings created) (e : SearchEvent)
    (hFresh : ∀ job ∈ e.creation?, job.1 ∉ created.map (·.1)) :
    (h.step e).Sound settings (created ++ e.creation?.toList) := by
  cases e with
  | create id search owner cancelAfter =>
    exact hSound.create search owner cancelAfter (hFresh _ rfl)
  | lookUp id lookup => exact (List.append_nil created).symm ▸ hSound.lookUp id lookup
  | happen event =>
    exact (List.append_nil created).symm ▸ hSound.elapse (event.leadsTo_happen h.service.board)

/-- **It holds after any events** that create no job twice. -/
theorem run (node : String) (settings : SearchJobSettings) (hasTimers : Bool)
    (events : List SearchEvent) (hDistinct : ((creations events).map (·.1)).Nodup) :
    ((start node settings hasTimers).run events).Sound settings (creations events) := by
  induction events using List.reverseRecOn with
  | nil => exact sound_start node settings hasTimers
  | append_singleton events e ih =>
    obtain ⟨hBefore, hFresh⟩ := fresh_of_nodup hDistinct
    rw [run_concat, creations_concat]
    exact (ih hBefore).step e hFresh

end Sound

end SearchHistory

open SearchHistory in
/--
**Look-ups find the jobs that are retained, and no others.** After any events that create no job
twice, a look-up finds a job if and only if it was created, its last access is not as long ago as
the settings say, and fewer other jobs than the cache holds have been accessed since. What is found
is the job of the one who owns it; a user who is neither the owner nor an administrator is refused,
and of a job that is not found nobody is.
-/
theorem lookups_find_retained (node : String) (settings : SearchJobSettings) (hasTimers : Bool)
    (events : List SearchEvent) (hDistinct : ((creations events).map (·.1)).Nodup) (id : String)
    (user : SearchUser) :
    let h := (start node settings hasTimers).run events
    (∀ owner, (id, owner) ∈ creations events → h.Retains settings id →
      h.service.Finds id owner user) ∧
    (¬ (id ∈ (creations events).map (·.1) ∧ h.Retains settings id) → h.service.Misses id user) := by
  intro h
  have hSound : h.Sound settings (creations events) :=
    Sound.run node settings hasTimers events hDistinct
  constructor
  · intro owner hCreated hRetains
    obtain ⟨j, hFind, hIdentity⟩ := hSound.onBoard _ hCreated
    have hFound : (h.service.cache.touch h.service.board.now id).1 = true :=
      hSound.touch_iff.mpr hRetains
    have hHeld : h.service.held? id = some j := by
      rw [SearchService.held?, if_pos hFound]
      exact hFind
    exact SearchService.finds_of_held hHeld hIdentity user
  · intro hNot
    -- what is found was hit, and only what is retained can be
    apply SearchService.misses_of_touch
    rw [← Bool.not_eq_true]
    intro hTouch
    have hRetains := hSound.touch_iff.mp hTouch
    exact hNot ⟨hSound.mem_created hRetains, hRetains⟩

open SearchHistory in
/-- A cache for two jobs. Bob is refused the job of Alice, which is an access of it all the same, so
that the next job drives out his own. -/
theorem lookups_find_retained_refused :
    let settings : SearchJobSettings := { SearchJobSettings.standard with maxSize := 2 }
    let bob := SearchUser.ordinary "bob"
    let events : List SearchEvent :=
      [.create "j0" .null "alice" none, .create "j1" .null "bob" (some 60), .happen (.advance 1000),
        .lookUp "j0" (.load bob), .create "j2" .null "carol" none, .happen (.advance 2000)]
    let h := (start "node" settings true).run events
    ((creations events).map (·.1)).Nodup ∧ h.service.Finds "j0" "alice" bob ∧
      h.service.Misses "j1" bob := by
  intro settings bob events h
  have hDistinct : ((creations events).map (·.1)).Nodup := by decide
  have hAccesses : h.accesses = [⟨"j2", 1000⟩, ⟨"j0", 1000⟩, ⟨"j1", 0⟩, ⟨"j0", 0⟩] := by
    decide +kernel
  have hNow : h.now = 3000 := by decide +kernel
  have hRetains : h.Retains settings "j0" := by
    rw [Retains, hAccesses, hNow]
    exact ⟨[⟨"j2", 1000⟩], 1000, _, rfl, by decide, by decide, by decide⟩
  have hDrivenOut : ¬ h.Retains settings "j1" := by
    rw [Retains, hAccesses, hNow]
    have hInTime : JobCache.InTime 3000 [⟨"j2", 1000⟩, ⟨"j0", 1000⟩, ⟨"j1", 0⟩, ⟨"j0", 0⟩] := by
      unfold JobCache.InTime
      decide
    exact (JobCache.isRetained_iff (.new 2 300000) hInTime).not.mpr (by decide)
  obtain ⟨hFinds, -⟩ := lookups_find_retained "node" settings true events hDistinct "j0" bob
  obtain ⟨-, hMisses⟩ := lookups_find_retained "node" settings true events hDistinct "j1" bob
  exact ⟨hDistinct, hFinds "alice" (by decide) hRetains, hMisses fun hBoth => hDrivenOut hBoth.2⟩

end RuleBlocks
