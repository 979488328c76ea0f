import RuleBlocks.Search.Cache
import Mathlib.Data.Finset.Card
import Mathlib.Data.Finset.Dedup
import Mathlib.Data.List.DropRight

/-!
# Which jobs are retained

A cache forgets a job for one of two reasons: nobody has accessed it for too long, or too many other
jobs have been accessed since. Here this is said of the accesses alone, without a cache, and shown
to be what a cache does, although it drops expired entries only when somebody comes across them.

* `IsRetained` — the law: what the accesses so far say about a job;
* `lastAccesses` — the last access of every job, the latest first;
* `JobCache.Follows` — a cache holds a part of the last accesses, and of those that have not expired
  exactly the first ones, up to its capacity;
* `Follows.insert`, `Follows.touch`, `Follows.elapse` — new jobs, look-ups and time keep it so;
* `Follows.touch_iff` — the cache then finds the jobs that the law says.
-/

namespace RuleBlocks

/-- Somebody accessed a job. -/
structure JobAccess where
  id : String
  time : Nat
deriving DecidableEq, Repr

/-- What the accesses, the latest first, say about a job: its last access is not as long ago as the
expiry, and fewer other jobs than the capacity have been accessed since. -/
def IsRetained (capacity expiry now : Nat) (accesses : List JobAccess) (id : String) : Prop :=
  ∃ after time before, accesses = after ++ ⟨id, time⟩ :: before ∧ (∀ a ∈ after, a.id ≠ id) ∧
    now < time + expiry ∧ (after.map (·.id)).toFinset.card < capacity

/-- The last access of every job, the latest first. -/
def lastAccesses : List JobAccess → List JobCache.Entry
  | [] => []
  | a :: older => ⟨a.id, a.time⟩ :: (lastAccesses older).filter (·.id != a.id)

-- ---------------------------------------------------------------------------
-- Last accesses
-- ---------------------------------------------------------------------------

/-- A last access is an access. -/
theorem exists_access_of_mem {e : JobCache.Entry} {accesses : List JobAccess}
    (h : e ∈ lastAccesses accesses) : ⟨e.id, e.lastAccess⟩ ∈ accesses := by
  induction accesses with
  | nil => exact absurd h List.not_mem_nil
  | cons a older ih =>
    rw [lastAccesses, List.mem_cons] at h
    obtain rfl | h := h
    · exact List.mem_cons_self
    · exact List.mem_cons_of_mem _ (ih (List.mem_of_mem_filter h))

/-- Every job has one last access at most. -/
theorem nodup_ids_lastAccesses (accesses : List JobAccess) :
    ((lastAccesses accesses).map (·.id)).Nodup := by
  induction accesses with
  | nil => exact List.nodup_nil
  | cons a older ih =>
    rw [lastAccesses, List.map_cons, List.nodup_cons]
    exact ⟨by simp, ih.sublist (List.filter_sublist.map _)⟩

/-- Every job that was accessed has a last access. -/
theorem mem_ids_lastAccesses {id : String} {accesses : List JobAccess} :
    id ∈ (lastAccesses accesses).map (·.id) ↔ id ∈ accesses.map (·.id) := by
  induction accesses with
  | nil => rfl
  | cons a older ih =>
    rw [lastAccesses, List.map_cons, List.map_cons, List.mem_cons, List.mem_cons, ← ih]
    by_cases h : id = a.id
    · exact iff_of_true (.inl h) (.inl h)
    · rw [or_iff_right h, or_iff_right h, List.mem_map, List.mem_map]
      refine exists_congr fun e => and_congr_left fun hId => ?_
      rw [List.mem_filter, bne_iff_ne, hId, and_iff_left h]

/-- As many jobs have a last access as there are jobs that were accessed. -/
theorem length_lastAccesses (accesses : List JobAccess) :
    (lastAccesses accesses).length = (accesses.map (·.id)).toFinset.card := by
  have hSame : (accesses.map (·.id)).toFinset = ((lastAccesses accesses).map (·.id)).toFinset := by
    ext id
    rw [List.mem_toFinset, List.mem_toFinset, mem_ids_lastAccesses]
  rw [hSame, List.toFinset_card_of_nodup (nodup_ids_lastAccesses accesses), List.length_map]

/-- Later accesses hide the earlier ones of the same jobs. -/
theorem lastAccesses_append (after before : List JobAccess) :
    lastAccesses (after ++ before) =
      lastAccesses after ++ (lastAccesses before).filter fun e => e.id ∉ after.map (·.id) := by
  induction after with
  | nil => simp [lastAccesses]
  | cons a newer ih =>
    rw [List.cons_append, lastAccesses, lastAccesses, ih, List.filter_append, List.filter_filter,
      List.cons_append]
    congr 2
    apply List.filter_congr
    intro e _
    simp [bne, Bool.beq_eq_decide_eq, not_or]

/-- Where a job is not accessed again, its access is a last one, after those of later jobs. -/
theorem lastAccesses_split {after : List JobAccess} {id : String} (h : ∀ a ∈ after, a.id ≠ id)
    (time : Nat) (before : List JobAccess) :
    ∃ rest, lastAccesses (after ++ ⟨id, time⟩ :: before) =
      lastAccesses after ++ ⟨id, time⟩ :: rest := by
  have hId : id ∉ after.map (·.id) := by simpa using fun a ha => h a ha
  rw [lastAccesses_append, lastAccesses, List.filter_cons_of_pos (by simpa using hId)]
  exact ⟨_, rfl⟩

-- ---------------------------------------------------------------------------
-- Sorted lists
-- ---------------------------------------------------------------------------

/-! Times go down along the last accesses, so that whoever has expired stands behind all that have
not. Three facts about lists whose elements with a property stand in front. -/

section Front

variable {α : Type} {p : α → Bool}

/-- If all that passes stands in front, the order of cutting and filtering does not matter. -/
theorem filter_take_of_pairwise {l : List α} (h : l.Pairwise fun x y => p y → p x) (k : Nat) :
    (l.take k).filter p = (l.filter p).take k := by
  induction l generalizing k with
  | nil => simp
  | cons x rest ih =>
    obtain ⟨hFirst, hRest⟩ := List.pairwise_cons.mp h
    cases k with
    | zero => simp
    | succ k =>
      cases hx : p x with
      | true => simp [hx, ih hRest]
      | false =>
        -- the first element that fails is the end: nothing behind it passes
        have hNone : rest.filter p = [] := by
          rw [List.filter_eq_nil_iff]
          exact fun y hy hp => by simp [hFirst y hy hp] at hx
        have hNone' : (rest.take k).filter p = [] := by rw [ih hRest, hNone, List.take_nil]
        simp [hx, hNone, hNone']

/-- If all that is dropped stands at the end, dropping from the end is filtering. -/
theorem rdropWhile_of_pairwise {l : List α} (h : l.Pairwise fun x y => p x → p y) :
    l.rdropWhile p = l.filter (!p ·) := by
  induction l using List.reverseRecOn with
  | nil => rfl
  | append_singleton rest x ih =>
    obtain ⟨hRest, -, hLast⟩ := List.pairwise_append.mp h
    cases hx : p x with
    | true => simp [hx, ih hRest]
    | false =>
      -- the last element stays, so nothing in front of it is dropped either
      have hAll : rest.filter (!p ·) = rest := by
        rw [List.filter_eq_self]
        exact fun y hy => by simpa [hx] using hLast y hy x (by simp)
      simp [hx, hAll]

/-- Of the first elements, as many as there is room for, the last one makes room for another. -/
theorem take_pred (l : List α) (k : Nat) :
    (if k ≤ (l.take k).length then (l.take k).dropLast else l.take k) = l.take (k - 1) := by
  rw [List.length_take]
  split
  · rw [List.dropLast_eq_take, List.take_take, List.length_take]
    congr 1
    omega
  · rw [List.take_of_length_le (by omega), List.take_of_length_le (by omega)]

end Front

/-- Taking away one of the first entries lets the next one come up. -/
theorem filter_take_of_mem {l : List JobCache.Entry} {e : JobCache.Entry} {k : Nat}
    (hNodup : (l.map (·.id)).Nodup) (hMem : e ∈ l.take (k + 1)) :
    (l.take (k + 1)).filter (·.id != e.id) = (l.filter (·.id != e.id)).take k := by
  induction l generalizing k with
  | nil => simp
  | cons x rest ih =>
    rw [List.map_cons, List.nodup_cons] at hNodup
    rw [List.take_succ_cons, List.mem_cons] at hMem
    rw [List.take_succ_cons]
    by_cases hx : x.id = e.id
    -- the entry to leave out stands in front, and no other is of the same job
    · have hOther : ∀ y ∈ rest, (y.id != e.id) = true := by
        intro y hy
        rw [bne_iff_ne, ← hx]
        exact fun hSame => hNodup.1 (hSame ▸ List.mem_map_of_mem hy)
      rw [List.filter_cons_of_neg (by simp [hx]), List.filter_cons_of_neg (by simp [hx]),
        List.filter_eq_self.mpr hOther,
        List.filter_eq_self.mpr fun y hy => hOther y (List.mem_of_mem_take hy)]
    · have hRest : e ∈ rest.take k := hMem.resolve_left fun hSame => hx (hSame ▸ rfl)
      cases k with
      | zero => simp at hRest
      | succ k =>
        have hKeep (l : List JobCache.Entry) :
            (x :: l).filter (·.id != e.id) = x :: l.filter (·.id != e.id) :=
          List.filter_cons_of_pos (by simpa using hx)
        rw [hKeep, hKeep, ih hNodup.2 hRest, List.take_succ_cons]

-- ---------------------------------------------------------------------------
-- Entries that have not expired
-- ---------------------------------------------------------------------------

namespace JobCache

def isLive (c : JobCache) (now : Nat) (e : Entry) : Bool :=
  !c.isExpired now e

/-- An entry is live as long as less than the expiry has passed since its last access. -/
theorem isLive_iff {c : JobCache} {now : Nat} {e : Entry} :
    c.isLive now e ↔ now - e.lastAccess < c.expiry := by
  simp [isLive, isExpired]

/-- Entries in the order of their accesses, the latest first. -/
def Descends (entries : List Entry) : Prop :=
  entries.Pairwise fun e f => f.lastAccess ≤ e.lastAccess

/-- Accesses in the order of time leave last accesses in that order. -/
theorem descends_lastAccesses {accesses : List JobAccess}
    (h : (accesses.map (·.time)).Pairwise (· ≥ ·)) : Descends (lastAccesses accesses) := by
  induction accesses with
  | nil => exact List.Pairwise.nil
  | cons a older ih =>
    rw [List.map_cons, List.pairwise_cons, List.forall_mem_map] at h
    refine List.pairwise_cons.mpr ⟨fun e he => ?_, (ih h.2).filter _⟩
    exact h.1 _ (exists_access_of_mem (List.mem_of_mem_filter he))

/-- Leaving out entries keeps the order. -/
theorem Descends.sublist {entries kept : List Entry} (h : Descends entries)
    (hKept : kept.Sublist entries) : Descends kept :=
  List.Pairwise.sublist hKept h

/-- In that order the live entries stand in front of the expired ones. -/
theorem Descends.pairwise_isLive {entries : List Entry} (h : Descends entries) (c : JobCache)
    (now : Nat) : entries.Pairwise fun e f => c.isLive now f → c.isLive now e := by
  refine List.Pairwise.imp (fun {e f} hLater hLive => ?_) h
  rw [isLive_iff] at hLive ⊢
  omega

/-- What is live later was live before. -/
theorem filter_isLive_later (c : JobCache) {now later : Nat} (h : now ≤ later)
    (entries : List Entry) :
    (entries.filter (c.isLive now)).filter (c.isLive later) = entries.filter (c.isLive later) := by
  rw [List.filter_filter]
  apply List.filter_congr
  intro e _
  have hEarlier : c.isLive later e → c.isLive now e := by
    rw [isLive_iff, isLive_iff]
    omega
  cases hLater : c.isLive later e with
  | false => rfl
  | true => simpa using hEarlier hLater

/-- Dropping expired entries from the end drops all of them. -/
theorem entries_dropExpired {c : JobCache} {now : Nat} (h : Descends c.entries) :
    (c.dropExpired now).entries = c.entries.filter (c.isLive now) := by
  apply rdropWhile_of_pairwise
  refine List.Pairwise.imp (fun {e f} hLater hExpired => ?_) h
  rw [isExpired, decide_eq_true_eq] at hExpired ⊢
  omega

-- ---------------------------------------------------------------------------
-- What a cache holds
-- ---------------------------------------------------------------------------

/-- A cache holds a part of the last accesses: of those that have not expired, the first ones. It
may hold expired ones as well. -/
structure Follows (c : JobCache) (now : Nat) (accesses : List JobAccess) : Prop where
  kept : c.entries.Sublist (lastAccesses accesses)
  live : c.entries.filter (c.isLive now) =
    ((lastAccesses accesses).filter (c.isLive now)).take c.capacity

section Steps

variable {c : JobCache} {now : Nat} {accesses : List JobAccess}

/-- The cache holds a job once at most. -/
theorem Follows.nodup_ids (h : c.Follows now accesses) : (c.entries.map (·.id)).Nodup :=
  (nodup_ids_lastAccesses accesses).sublist (h.kept.map _)

/-- An empty cache has nothing to follow. -/
theorem follows_new (capacity expiry now : Nat) : (new capacity expiry).Follows now [] :=
  ⟨List.Sublist.slnil, by simp [new, lastAccesses]⟩

/-- **Time passes**: entries expire from the end. -/
theorem Follows.elapse {later : Nat} (h : c.Follows now accesses)
    (hDescends : Descends (lastAccesses accesses)) (hLater : now ≤ later) :
    c.Follows later accesses := by
  refine ⟨h.kept, ?_⟩
  have hFront : ((lastAccesses accesses).filter (c.isLive now)).Pairwise fun e f =>
      c.isLive later f → c.isLive later e :=
    (hDescends.sublist List.filter_sublist).pairwise_isLive c later
  set last := lastAccesses accesses
  calc c.entries.filter (c.isLive later)
      = (c.entries.filter (c.isLive now)).filter (c.isLive later) :=
        (c.filter_isLive_later hLater _).symm
    _ = ((last.filter (c.isLive now)).filter (c.isLive later)).take c.capacity := by
        rw [h.live, filter_take_of_pairwise hFront]
    _ = (last.filter (c.isLive later)).take c.capacity := by rw [c.filter_isLive_later hLater]

/-- **An access**: the entry comes to the front of those of others, of which one less is left. -/
theorem follows_access {id : String} {kept : List Entry} (hCapacity : 0 < c.capacity)
    (hKept : kept.Sublist ((lastAccesses accesses).filter (·.id != id)))
    (hLive : kept.filter (c.isLive now) =
      (((lastAccesses accesses).filter (·.id != id)).filter (c.isLive now)).take (c.capacity - 1)) :
    { c with entries := ⟨id, now⟩ :: kept }.Follows now (⟨id, now⟩ :: accesses) := by
  refine ⟨hKept.cons_cons _, ?_⟩
  change List.filter (c.isLive now) (_ :: kept) =
    List.take c.capacity (List.filter (c.isLive now) (_ :: _))
  cases hNew : c.isLive now ⟨id, now⟩ with
  | true =>
    obtain ⟨k, hk⟩ := Nat.exists_eq_add_one.mpr hCapacity
    rw [List.filter_cons_of_pos hNew, List.filter_cons_of_pos hNew, hLive, hk, List.take_succ_cons,
      Nat.add_sub_cancel]
  | false =>
    -- An entry that is expired at the moment of its access: there is no time before expiry.
    have hNone : ∀ entries : List Entry, entries.filter (c.isLive now) = [] := by
      intro entries
      rw [List.filter_eq_nil_iff]
      intro e _ hLive
      have hExpired : ¬ now - now < c.expiry := by
        rw [← isLive_iff (e := ⟨id, now⟩), hNew]
        decide
      rw [isLive_iff] at hLive
      omega
    rw [hNone, hNone, List.take_nil]

/-- **A new job**: what has not expired stays, but for the one entry that makes room. -/
theorem Follows.insert {id : String} (h : c.Follows now accesses)
    (hDescends : Descends (lastAccesses accesses)) (hCapacity : 0 < c.capacity)
    (hFresh : id ∉ accesses.map (·.id)) :
    (c.insert now id).Follows now (⟨id, now⟩ :: accesses) := by
  have hOthers : (lastAccesses accesses).filter (·.id != id) = lastAccesses accesses := by
    rw [List.filter_eq_self]
    intro e he
    rw [bne_iff_ne]
    exact fun hSame => hFresh (mem_ids_lastAccesses.mp (hSame ▸ List.mem_map_of_mem he))
  set live := (lastAccesses accesses).filter (c.isLive now) with hLiveDef
  have hDrop : (c.dropExpired now).entries = live.take c.capacity := by
    rw [entries_dropExpired (hDescends.sublist h.kept), h.live]
  -- room is made for one: of the live entries the first ones stay
  have hRoom : (if c.capacity ≤ (c.dropExpired now).size then (c.dropExpired now).entries.dropLast
      else (c.dropExpired now).entries) = live.take (c.capacity - 1) := by
    rw [size, hDrop, take_pred]
  refine (congrArg (fun kept => Follows { c with entries := ⟨id, now⟩ :: kept } now _) hRoom).mpr ?_
  apply follows_access hCapacity
  · rw [hOthers]
    exact (List.take_sublist _ _).trans List.filter_sublist
  · rw [hOthers, ← hLiveDef, List.filter_eq_self]
    exact fun e he => (List.mem_filter.mp (List.mem_of_mem_take he)).2

-- ---------------------------------------------------------------------------
-- Look-ups
-- ---------------------------------------------------------------------------

/-- Since no job is held twice, looking for one finds its entry. -/
theorem find?_eq_some_iff {id : String} {e : Entry} (h : (c.entries.map (·.id)).Nodup) :
    c.find? id = some e ↔ e ∈ c.entries ∧ e.id = id := by
  constructor
  · intro hFind
    exact ⟨List.mem_of_find?_eq_some hFind, by simpa using List.find?_some hFind⟩
  · rintro ⟨hMem, hId⟩
    obtain ⟨f, hFind⟩ : ∃ f, c.find? id = some f :=
      Option.isSome_iff_exists.mp (List.find?_isSome.mpr ⟨e, hMem, by simpa using hId⟩)
    have hf : f.id = id := by simpa using List.find?_some hFind
    rw [hFind,
      List.inj_on_of_nodup_map h (List.mem_of_find?_eq_some hFind) hMem (hf.trans hId.symm)]

variable {id : String} {e : Entry}

theorem touch_of_none (hFind : c.find? id = none) : c.touch now id = (false, c) := by
  rw [touch, hFind]

/-- An access to an expired entry drops it. -/
theorem touch_of_expired (hFind : c.find? id = some e) (hLive : c.isLive now e = false) :
    c.touch now id = (false, { c with entries := c.others id }) := by
  rw [isLive, Bool.not_eq_false'] at hLive
  simp only [touch, hFind, hLive, if_true]

/-- An access to a live entry puts it in front. -/
theorem touch_of_live (hFind : c.find? id = some e) (hLive : c.isLive now e = true) :
    c.touch now id = (true, { c with entries := ⟨id, now⟩ :: c.others id }) := by
  rw [isLive, Bool.not_eq_true'] at hLive
  simp [touch, hFind, hLive]

theorem capacity_touch (c : JobCache) (now : Nat) (id : String) :
    (c.touch now id).2.capacity = c.capacity := by
  unfold touch
  split
  · rfl
  · split <;> rfl

theorem expiry_touch (c : JobCache) (now : Nat) (id : String) :
    (c.touch now id).2.expiry = c.expiry := by
  unfold touch
  split
  · rfl
  · split <;> rfl

/-- An access hits if there is a live entry. -/
theorem touch_fst (c : JobCache) (now : Nat) (id : String) :
    (c.touch now id).1 = (c.find? id).any (c.isLive now) := by
  cases hFind : c.find? id with
  | none => rw [touch_of_none hFind, Option.any_none]
  | some e =>
    cases hLive : c.isLive now e with
    | false => rw [touch_of_expired hFind hLive, Option.any_some, hLive]
    | true => rw [touch_of_live hFind hLive, Option.any_some, hLive]

/-- An entry that has expired can be dropped. -/
theorem Follows.drop (h : c.Follows now accesses) (hMem : e ∈ c.entries)
    (hLive : c.isLive now e = false) :
    { c with entries := c.others e.id }.Follows now accesses := by
  refine ⟨List.filter_sublist.trans h.kept, ?_⟩
  have hOther : ∀ f ∈ c.entries.filter (c.isLive now), (f.id != e.id) = true := by
    intro f hf
    obtain ⟨hf, hLive'⟩ := List.mem_filter.mp hf
    rw [bne_iff_ne]
    intro hSame
    rw [List.inj_on_of_nodup_map h.nodup_ids hf hMem hSame, hLive] at hLive'
    exact absurd hLive' (by decide)
  change (c.entries.filter (·.id != e.id)).filter (c.isLive now) = _
  rw [List.filter_comm, List.filter_eq_self.mpr hOther]
  exact h.live

/-- An entry that has not expired comes to the front. -/
theorem Follows.refresh (h : c.Follows now accesses) (hCapacity : 0 < c.capacity)
    (hMem : e ∈ c.entries) (hLive : c.isLive now e = true) :
    { c with entries := ⟨e.id, now⟩ :: c.others e.id }.Follows now (⟨e.id, now⟩ :: accesses) := by
  apply follows_access hCapacity (h.kept.filter _)
  have hFront : e ∈ ((lastAccesses accesses).filter (c.isLive now)).take c.capacity := by
    rw [← h.live]
    exact List.mem_filter.mpr ⟨hMem, hLive⟩
  have hNodup : (((lastAccesses accesses).filter (c.isLive now)).map (·.id)).Nodup :=
    (nodup_ids_lastAccesses accesses).sublist (List.filter_sublist.map _)
  obtain ⟨k, hk⟩ := Nat.exists_eq_add_one.mpr hCapacity
  rw [List.filter_comm, h.live, hk, filter_take_of_mem hNodup (hk ▸ hFront), Nat.add_sub_cancel,
    List.filter_comm]

/-- **A look-up** is an access if it finds the job. If it does not, nothing is lost. -/
theorem Follows.touch (h : c.Follows now accesses) (hCapacity : 0 < c.capacity) (id : String) :
    (c.touch now id).2.Follows now
      (if (c.touch now id).1 then ⟨id, now⟩ :: accesses else accesses) := by
  cases hFind : c.find? id with
  | none =>
    rw [touch_of_none hFind]
    exact h
  | some e =>
    obtain ⟨hMem, rfl⟩ := (find?_eq_some_iff h.nodup_ids).mp hFind
    cases hLive : c.isLive now e with
    | false =>
      rw [touch_of_expired hFind hLive]
      exact h.drop hMem hLive
    | true =>
      rw [touch_of_live hFind hLive]
      exact h.refresh hCapacity hMem hLive

end Steps

-- ---------------------------------------------------------------------------
-- The law
-- ---------------------------------------------------------------------------

/-- Accesses in time: the latest comes first, and none is yet to come. -/
def InTime (now : Nat) (accesses : List JobAccess) : Prop :=
  (now :: accesses.map (·.time)).Pairwise (· ≥ ·)

section Law

variable {c : JobCache} {now : Nat} {accesses : List JobAccess} {id : String}

/-- Accesses recorded in time are in order. -/
theorem InTime.descends (h : InTime now accesses) : Descends (lastAccesses accesses) :=
  descends_lastAccesses (List.pairwise_cons.mp h).2

/-- An access happens now. -/
theorem InTime.access (h : InTime now accesses) (id : String) :
    InTime now (⟨id, now⟩ :: accesses) := by
  rw [InTime, List.map_cons, List.pairwise_cons]
  refine ⟨fun time hTime => ?_, h⟩
  obtain rfl | hTime := List.mem_cons.mp hTime
  · exact Nat.le_refl _
  · exact (List.pairwise_cons.mp h).1 time hTime

/-- The past stays past. -/
theorem InTime.elapse {later : Nat} (h : InTime now accesses) (hLater : now ≤ later) :
    InTime later accesses := by
  obtain ⟨hPast, hOrder⟩ := List.pairwise_cons.mp h
  exact List.pairwise_cons.mpr ⟨fun time hTime => (hPast time hTime).trans hLater, hOrder⟩

/-- If the last access of a job has not expired, neither have those of the jobs before it. -/
theorem filter_isLive_split {front rest : List Entry} {e : Entry}
    (h : Descends (front ++ e :: rest)) (hLive : c.isLive now e = true) :
    (front ++ e :: rest).filter (c.isLive now) = front ++ e :: rest.filter (c.isLive now) := by
  have hFront : ∀ f ∈ front, c.isLive now f = true := fun f hf =>
    (List.pairwise_append.mp (h.pairwise_isLive c now)).2.2 f hf e List.mem_cons_self hLive
  rw [List.filter_append, List.filter_cons_of_pos hLive, List.filter_eq_self.mpr hFront]

/-- The law, read off the last accesses. -/
theorem isRetained_iff (c : JobCache) (h : InTime now accesses) :
    IsRetained c.capacity c.expiry now accesses id ↔
      ∃ e ∈ ((lastAccesses accesses).filter (c.isLive now)).take c.capacity, e.id = id := by
  constructor
  · rintro ⟨after, time, before, rfl, hAfter, hTime, hCard⟩
    obtain ⟨rest, hSplit⟩ := lastAccesses_split hAfter time before
    have hPast : time ≤ now := (List.pairwise_cons.mp h).1 time (by simp)
    have hLive : c.isLive now ⟨id, time⟩ := isLive_iff.mpr (by simp only; omega)
    rw [← length_lastAccesses] at hCard
    refine ⟨⟨id, time⟩, ?_, rfl⟩
    rw [hSplit, filter_isLive_split (hSplit ▸ h.descends) hLive, List.take_append, List.mem_append]
    obtain ⟨k, hk⟩ := Nat.exists_eq_add_one.mpr (Nat.sub_pos_of_lt hCard)
    rw [hk, List.take_succ_cons]
    exact .inr List.mem_cons_self
  · rintro ⟨e, hMem, rfl⟩
    obtain ⟨hLast, hLive⟩ := List.mem_filter.mp (List.mem_of_mem_take hMem)
    obtain ⟨a, hFind⟩ : ∃ a, accesses.find? (·.id == e.id) = some a :=
      Option.isSome_iff_exists.mp
        (List.find?_isSome.mpr ⟨_, exists_access_of_mem hLast, by simp⟩)
    obtain ⟨hId, after, before, rfl, hAfter⟩ := List.find?_eq_some_iff_append.mp hFind
    obtain ⟨id, time⟩ := a
    obtain rfl : id = e.id := by simpa using hId
    have hAfter : ∀ a ∈ after, a.id ≠ e.id := fun a ha => by simpa using hAfter a ha
    obtain ⟨rest, hSplit⟩ := lastAccesses_split hAfter time before
    have hMem' : ⟨e.id, time⟩ ∈ lastAccesses (after ++ ⟨e.id, time⟩ :: before) := by
      rw [hSplit]
      exact List.mem_append_right _ List.mem_cons_self
    obtain rfl : e.lastAccess = time :=
      congrArg Entry.lastAccess
        (List.inj_on_of_nodup_map (nodup_ids_lastAccesses _) hLast hMem' rfl)
    refine ⟨after, _, before, rfl, hAfter, ?_, ?_⟩
    -- live: less than the expiry has passed since
    · have hPast := (List.pairwise_cons.mp h).1 e.lastAccess (by simp)
      rw [isLive_iff] at hLive
      omega
    · rw [← length_lastAccesses]
      -- with a full cache of later accesses, the entry would not be among the first
      by_contra hFull
      rw [hSplit, filter_isLive_split (hSplit ▸ h.descends) hLive,
        List.take_append_of_le_length (Nat.not_lt.mp hFull)] at hMem
      exact hAfter _ (exists_access_of_mem (List.mem_of_mem_take hMem)) rfl

/-- **A cache that follows the accesses finds the jobs that are retained.** -/
theorem Follows.touch_iff (h : c.Follows now accesses) (hInTime : InTime now accesses) :
    (c.touch now id).1 ↔ IsRetained c.capacity c.expiry now accesses id := by
  rw [isRetained_iff c hInTime, ← h.live, touch_fst, Option.any_eq_true]
  refine exists_congr fun e => ?_
  rw [find?_eq_some_iff h.nodup_ids, List.mem_filter, and_right_comm]

end Law

end JobCache

end RuleBlocks
