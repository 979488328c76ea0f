import RuleBlocks.Proofs.Search.History

/-!
# What makes room for a new job

A cache looks for expired entries from the end, and stops at the first one that has not expired. It
drops all of them only if no entry stands behind one that was accessed earlier. This holds of every
cache that comes about: a look-up that finds its job brings the entry to the front with the time of
the clock, which has not gone back; one that comes across an expired entry drops it, and the others
stay in their order; and expiry after no time at all, or accesses at one and the same time, make no
difference to that.

* `JobCache.IsOrderly` — the invariant: entries in the order of their accesses, none of them yet to
  come, and no more than there is room for;
* `IsOrderly.elapse`, `IsOrderly.touch`, `IsOrderly.insert` — time, look-ups and new jobs keep it;
* `JobCache.entries_insert` — what an orderly cache drops for a new job;
* `SearchHistory.orderly_run` — every history of a service keeps it;
* `create_drops_expired_then_oldest` — which jobs are dropped when a job is created.
-/

namespace RuleBlocks

-- ---------------------------------------------------------------------------
-- Caches
-- ---------------------------------------------------------------------------

namespace JobCache

/-- The entries stand in the order of their accesses, which are all in the past, and there is room
for them. -/
structure IsOrderly (c : JobCache) (now : Nat) : Prop where
  descends : Descends c.entries
  past : ∀ e ∈ c.entries, e.lastAccess ≤ now
  fits : c.size ≤ c.capacity
  capacity_pos : 0 < c.capacity

variable {c : JobCache} {now : Nat} {id : String}

theorem isOrderly_new (capacity expiry now : Nat) : (new capacity expiry).IsOrderly now where
  descends := List.Pairwise.nil
  past := fun _ hMem => absurd hMem List.not_mem_nil
  fits := Nat.zero_le _
  capacity_pos := Nat.lt_of_lt_of_le Nat.one_pos (Nat.le_max_left _ _)

/-- Time disturbs nothing. -/
theorem IsOrderly.elapse {later : Nat} (h : c.IsOrderly now) (hLater : now ≤ later) :
    c.IsOrderly later where
  descends := h.descends
  past := fun e hMem => Nat.le_trans (h.past e hMem) hLater
  fits := h.fits
  capacity_pos := h.capacity_pos

/-- Some of the entries may go. -/
theorem IsOrderly.sublist {kept : List Entry} (h : c.IsOrderly now)
    (hKept : kept.Sublist c.entries) : { c with entries := kept }.IsOrderly now where
  descends := h.descends.sublist hKept
  past := fun e hMem => h.past e (hKept.subset hMem)
  fits := Nat.le_trans hKept.length_le h.fits
  capacity_pos := h.capacity_pos

/-- An access that is made now comes to the front. -/
theorem IsOrderly.access {kept : List Entry} (h : c.IsOrderly now)
    (hKept : kept.Sublist c.entries) (hRoom : kept.length < c.capacity) (id : String) :
    { c with entries := ⟨id, now⟩ :: kept }.IsOrderly now where
  descends :=
    List.pairwise_cons.mpr ⟨fun e hMem => h.past e (hKept.subset hMem), h.descends.sublist hKept⟩
  past := List.forall_mem_cons.mpr ⟨Nat.le_refl _, fun e hMem => h.past e (hKept.subset hMem)⟩
  fits := hRoom
  capacity_pos := h.capacity_pos

/-- Without the entry that was found there are fewer. -/
theorem length_others_lt {e : Entry} (hFind : c.find? id = some e) :
    (c.others id).length < c.entries.length := by
  refine List.length_filter_lt_length_iff_exists.mpr
    ⟨e, List.mem_of_find?_eq_some hFind, ?_⟩
  simpa using List.find?_some hFind

/-- **A look-up** brings an entry to the front, or drops one, or leaves all as they are. -/
theorem IsOrderly.touch (h : c.IsOrderly now) (id : String) :
    (c.touch now id).2.IsOrderly now := by
  cases hFind : c.find? id with
  | none =>
    rw [touch_of_none hFind]
    exact h
  | some e =>
    cases hLive : c.isLive now e with
    | false =>
      rw [touch_of_expired hFind hLive]
      exact h.sublist List.filter_sublist
    | true =>
      rw [touch_of_live hFind hLive]
      exact h.access List.filter_sublist (Nat.lt_of_lt_of_le (length_others_lt hFind) h.fits) id

/-- **A new job** drops the expired entries, and then, if there is no room left, the last one. -/
theorem entries_insert (h : c.IsOrderly now) (id : String) :
    (c.insert now id).entries = ⟨id, now⟩ ::
      if c.capacity ≤ (c.entries.filter (c.isLive now)).length then
        (c.entries.filter (c.isLive now)).dropLast
      else c.entries.filter (c.isLive now) := by
  rw [insert, ← entries_dropExpired h.descends]
  rfl

/-- Room is made first, so a new entry does not exceed the bound. -/
theorem IsOrderly.insert (h : c.IsOrderly now) (id : String) : (c.insert now id).IsOrderly now := by
  set live := c.entries.filter (c.isLive now) with hLive
  have hSub : live.Sublist c.entries := List.filter_sublist
  have hFits : live.length ≤ c.capacity := Nat.le_trans hSub.length_le h.fits
  have hCache : c.insert now id = { c with entries := (c.insert now id).entries } := rfl
  rw [hCache, entries_insert h, ← hLive]
  split
  case isTrue hFull =>
    refine h.access ((List.dropLast_sublist live).trans hSub) ?_ id
    have hPos := h.capacity_pos
    rw [List.length_dropLast]
    omega
  case isFalse hRoom => exact h.access hSub (Nat.not_le.mp hRoom) id

/-- A cache that follows the accesses keeps the last accesses that have not expired, up to one less
than there is room for, and puts the new job in front of them. -/
theorem entries_insert_of_follows {accesses : List JobAccess} (h : c.IsOrderly now)
    (hFollows : c.Follows now accesses) (id : String) :
    (c.insert now id).entries = ⟨id, now⟩ ::
      ((lastAccesses accesses).filter (c.isLive now)).take (c.capacity - 1) := by
  rw [entries_insert h, hFollows.live, take_pred]

/-- The entry that makes room is the one whose access is longest ago. -/
theorem IsOrderly.le_of_concat {kept : List Entry} {oldest : Entry} (h : c.IsOrderly now)
    (hLive : c.entries.filter (c.isLive now) = kept ++ [oldest]) :
    ∀ e ∈ kept, oldest.lastAccess ≤ e.lastAccess := by
  have hDescends : Descends (kept ++ [oldest]) := hLive ▸ h.descends.sublist List.filter_sublist
  exact fun e hMem => (List.pairwise_append.mp hDescends).2.2 e hMem oldest (by simp)

end JobCache

-- ---------------------------------------------------------------------------
-- Histories
-- ---------------------------------------------------------------------------

/-- Whatever a look-up answers, it looks into the cache once, and the clock does not go back. -/
theorem JobLookup.perform_writes (lookup : JobLookup) (s : SearchService) (id : String) :
    (lookup.perform s id).2.cache = (s.cache.touch s.board.now id).2 ∧
      s.board.now ≤ (lookup.perform s id).2.board.now := by
  cases lookup with
  | isInCache => exact ⟨rfl, Nat.le_refl _⟩
  | find user =>
    rw [perform, s.find_snd]
    exact ⟨rfl, Nat.le_refl _⟩
  | load user =>
    rw [perform, s.load_snd]
    refine ⟨rfl, ?_⟩
    dsimp only
    split
    · exact (s.board.leadsTo_wait id s.loadWait).clock
    · exact Nat.le_refl _
  | cancel user =>
    rw [perform, s.cancel_snd]
    refine ⟨rfl, ?_⟩
    dsimp only
    split
    · exact (s.board.leadsTo_cancel id).clock
    · exact Nat.le_refl _

/-- Creating a job takes no time. -/
theorem SearchService.now_create (s : SearchService) (id : String) (search : Json) (owner : String)
    (cancelAfter : Option Nat) :
    (s.create id search owner cancelAfter).board.now = s.board.now := by
  rw [create]
  dsimp only
  split <;> rfl

namespace SearchHistory

variable {settings : SearchJobSettings} {h : SearchHistory}

/-- The cache of a service is orderly, and has the size and the expiry of its settings. -/
structure Orderly (settings : SearchJobSettings) (h : SearchHistory) : Prop where
  cache : h.service.cache.IsOrderly h.now
  capacity : h.service.cache.capacity = max 1 settings.maxSize
  expiry : h.service.cache.expiry = 1000 * settings.expireAfterAccessSecs

/-- **Every event keeps a cache orderly.** -/
theorem Orderly.step (hOrderly : h.Orderly settings) (e : SearchEvent) :
    (h.step e).Orderly settings := by
  cases e with
  | create id search owner cancelAfter =>
    have hNow : (h.step (.create id search owner cancelAfter)).now = h.now :=
      h.service.now_create id search owner cancelAfter
    refine ⟨?_, hOrderly.capacity, hOrderly.expiry⟩
    rw [hNow]
    exact hOrderly.cache.insert id
  | lookUp id lookup =>
    obtain ⟨hCache, hClock⟩ := lookup.perform_writes h.service id
    have hService : (h.step (.lookUp id lookup)).service = (lookup.perform h.service id).2 := rfl
    rw [← hService] at hCache hClock
    refine ⟨?_, ?_, ?_⟩
    · rw [hCache]
      exact (hOrderly.cache.touch id).elapse hClock
    · rw [hCache, JobCache.capacity_touch, hOrderly.capacity]
    · rw [hCache, JobCache.expiry_touch, hOrderly.expiry]
  | happen event =>
    exact ⟨hOrderly.cache.elapse (event.leadsTo_happen h.service.board).clock, hOrderly.capacity,
      hOrderly.expiry⟩

/-- **It is orderly after any events.** -/
theorem orderly_run (node : String) (settings : SearchJobSettings) (hasTimers : Bool)
    (events : List SearchEvent) :
    ((start node settings hasTimers).run events).Orderly settings := by
  induction events using List.reverseRecOn with
  | nil => exact ⟨JobCache.isOrderly_new _ _ _, rfl, rfl⟩
  | append_singleton events e ih =>
    rw [run_concat]
    exact ih.step e

end SearchHistory

open SearchHistory in
/--
**Expired jobs make room first, then the oldest one.** After any events the last accesses do not go
back along the cache, from the entry that makes room next to the one that was accessed last, and
there are no more entries than the settings say. Hence, when a job is created, no other entry is
left that has expired; and one that has not expired is dropped only if the cache is full without the
expired ones, and then it is that single one whose access is longest ago. If no job was created
twice, entries and times are those of the accesses that were made: the cache holds the last accesses
of jobs in their order, of those that have not expired the first ones, and a new job comes before as
many of them as there is room for beside it.
-/
theorem create_drops_expired_then_oldest (node : String) (settings : SearchJobSettings)
    (hasTimers : Bool) (events : List SearchEvent) :
    let h := (start node settings hasTimers).run events
    let cache := h.service.cache
    let live := cache.entries.filter fun e =>
      h.now - e.lastAccess < 1000 * settings.expireAfterAccessSecs
    let recent := (lastAccesses h.accesses).filter fun e =>
      h.now - e.lastAccess < 1000 * settings.expireAfterAccessSecs
    (cache.entries.reverse.map (·.lastAccess)).Pairwise (· ≤ ·) ∧
      cache.size ≤ max 1 settings.maxSize ∧
      (∀ id search owner cancelAfter, ∃ kept,
        (h.service.create id search owner cancelAfter).cache.entries = ⟨id, h.now⟩ :: kept ∧
        (∀ e ∈ kept, h.now - e.lastAccess < 1000 * settings.expireAfterAccessSecs) ∧
        (live.length < max 1 settings.maxSize ∧ kept = live ∨
          live.length = max 1 settings.maxSize ∧ ∃ oldest, live = kept ++ [oldest] ∧
            ∀ e ∈ kept, oldest.lastAccess ≤ e.lastAccess)) ∧
      (((creations events).map (·.1)).Nodup →
        cache.entries.Sublist (lastAccesses h.accesses) ∧
        live = recent.take (max 1 settings.maxSize) ∧
        ∀ id search owner cancelAfter,
          (h.service.create id search owner cancelAfter).cache.entries =
            ⟨id, h.now⟩ :: recent.take (max 1 settings.maxSize - 1)) := by
  intro h cache live recent
  obtain ⟨hCache, hCapacity, hExpiry⟩ := orderly_run node settings hasTimers events
  have hIsLive : ∀ entries : List JobCache.Entry, entries.filter (cache.isLive h.now) =
      entries.filter fun e => h.now - e.lastAccess < 1000 * settings.expireAfterAccessSecs := by
    refine fun entries => List.filter_congr fun e _ => ?_
    rw [Bool.eq_iff_iff, JobCache.isLive_iff, hExpiry, decide_eq_true_iff]
  have hLive : cache.entries.filter (cache.isLive h.now) = live := hIsLive _
  have hNotExpired : ∀ e ∈ live, h.now - e.lastAccess < 1000 * settings.expireAfterAccessSecs :=
    fun e hMem => of_decide_eq_true (List.mem_filter.mp hMem).2
  refine ⟨?_, hCapacity ▸ hCache.fits, fun id search owner cancelAfter => ?_, fun hDistinct => ?_⟩
  · rw [List.map_reverse, List.pairwise_reverse, List.pairwise_map]
    exact hCache.descends
  · have hEntries := JobCache.entries_insert hCache id
    rw [hLive, hCapacity] at hEntries
    have hFits : live.length ≤ max 1 settings.maxSize :=
      Nat.le_trans (List.length_filter_le _ _) (hCapacity ▸ hCache.fits)
    -- with room left no live entry goes; without, exactly the last one does
    by_cases hFull : max 1 settings.maxSize ≤ live.length
    · have hNe : live ≠ [] := List.ne_nil_of_length_pos (by omega)
      have hSplit : live = live.dropLast ++ [live.getLast hNe] :=
        (List.dropLast_append_getLast hNe).symm
      rw [if_pos hFull] at hEntries
      exact ⟨live.dropLast, hEntries,
        fun e hMem => hNotExpired e (List.mem_of_mem_dropLast hMem),
        .inr ⟨by omega, live.getLast hNe, hSplit, hCache.le_of_concat (hLive.trans hSplit)⟩⟩
    · rw [if_neg hFull] at hEntries
      exact ⟨live, hEntries, hNotExpired, .inl ⟨by omega, rfl⟩⟩
  · have hFollows : cache.Follows h.now h.accesses :=
      (Sound.run node settings hasTimers events hDistinct).follows
    -- the cache follows the accesses, so its live entries are the most recent of the live ones
    have hRecent : live = recent.take (max 1 settings.maxSize) := by
      rw [← hLive, hFollows.live, hIsLive, hCapacity]
    refine ⟨hFollows.kept, hRecent, fun id search owner cancelAfter => ?_⟩
    have hEntries := JobCache.entries_insert_of_follows hCache hFollows id
    rw [hIsLive, hCapacity] at hEntries
    exact hEntries

end RuleBlocks
