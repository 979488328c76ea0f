import RuleBlocks.Proofs.Search.Continuity
import RuleBlocks.Proofs.Search.Retention
import RuleBlocks.Search.Service

/-!
# What a look-up answers

A service can be asked for a job in four ways: for the job itself, for its view, to cancel it, and
whether it is there at all. Each of them looks into the cache first, and what it finds there decides
the answer: nothing, the job, or a refusal.

* `SearchService.held?` — the job that a look-up finds;
* `find_of_held`, `find_of_not_mayAccess`, `find_of_not_held` — look-ups by what they find;
* `JobLookup.perform` — a look-up, and whether its answer shows that the job was found;
* `JobLookup.exists_perform` — all that a look-up does;
* `SearchService.Finds`, `SearchService.Misses` — what all look-ups of an id answer;
* `SearchService.cancel_snd`, `SearchService.load_snd` — what look-ups leave behind.
-/

namespace RuleBlocks

namespace SearchService

variable {s : SearchService} {id : String} {j : SearchJob} {user : SearchUser}

/-- The job that a look-up finds. -/
def held? (s : SearchService) (id : String) : Option SearchJob :=
  if (s.cache.touch s.board.now id).1 then s.board.find? id else none

/-- A service whose cache was asked for a job. -/
def touched (s : SearchService) (id : String) : SearchService :=
  { s with cache := (s.cache.touch s.board.now id).2 }

/-- A job that is not held is not found. -/
theorem find_of_not_held (h : s.held? id = none) : s.find id user = (.ok none, s.touched id) := by
  rw [held?] at h
  simp only [find, h, touched]

/-- A job that is held is found by whoever may see it. -/
theorem find_of_held (h : s.held? id = some j) (hMay : user.mayAccess j.owner = true) :
    s.find id user = (.ok (some j), s.touched id) := by
  rw [held?] at h
  simp only [find, h, hMay, touched, if_true]

/-- A job that is held is refused to others, but it was accessed. -/
theorem find_of_not_mayAccess (h : s.held? id = some j) (hMay : user.mayAccess j.owner = false) :
    s.find id user = (.error ⟨user.username, id⟩, s.touched id) := by
  rw [held?] at h
  simp [find, h, hMay, touched]

end SearchService

/-- Administrators and the owner may see a job. -/
theorem SearchUser.mayAccess_iff {user : SearchUser} {owner : String} :
    user.mayAccess owner ↔ user.isAdmin = true ∨ user.username = owner := by
  simp [mayAccess]

-- ---------------------------------------------------------------------------
-- Look-ups
-- ---------------------------------------------------------------------------

/-- One of the ways to ask for a job. -/
inductive JobLookup
  | find (user : SearchUser)
  | load (user : SearchUser)
  | cancel (user : SearchUser)
  | isInCache

/-- Whether an answer shows that there was a job. Who is refused learns that, too. -/
def showsJob {α : Type} (isJob : α → Bool) : Except JobForbidden α → Bool
  | .ok answer => isJob answer
  | .error _ => true

/-- Look a job up; tells whether it was found. -/
def JobLookup.perform (s : SearchService) (id : String) : JobLookup → Bool × SearchService
  | find user => (showsJob Option.isSome (s.find id user).1, (s.find id user).2)
  | load user => (showsJob Option.isSome (s.load id user).1, (s.load id user).2)
  | cancel user => (showsJob (· == true) (s.cancel id user).1, (s.cancel id user).2)
  | isInCache => s.isInCache id

namespace SearchService

/-- All look-ups of an id find the job: it is told to whoever may see it, and others are refused. -/
structure Finds (s : SearchService) (id owner : String) (user : SearchUser) : Prop where
  isInCache : (s.isInCache id).1 = true
  allowed : user.isAdmin = true ∨ user.username = owner →
    (∃ j, (s.find id user).1 = .ok (some j) ∧ j.id = id ∧ j.owner = owner) ∧
    (∃ v, (s.load id user).1 = .ok (some v) ∧ v.id = id ∧ v.owner = owner) ∧
    (s.cancel id user).1 = .ok true
  refused : ¬ (user.isAdmin = true ∨ user.username = owner) →
    (s.find id user).1 = .error ⟨user.username, id⟩ ∧
    (s.load id user).1 = .error ⟨user.username, id⟩ ∧
    (s.cancel id user).1 = .error ⟨user.username, id⟩

/-- No look-up of an id finds anything, and nobody is refused. -/
structure Misses (s : SearchService) (id : String) (user : SearchUser) : Prop where
  isInCache : (s.isInCache id).1 = false
  find : (s.find id user).1 = .ok none
  load : (s.load id user).1 = .ok none
  cancel : (s.cancel id user).1 = .ok false

variable {s : SearchService} {id : String} {j : SearchJob} {user : SearchUser}

/-- A request shows the job, as it is after the waiting. -/
theorem load_of_held (h : s.held? id = some j) (hMay : user.mayAccess j.owner = true) :
    ∃ k : SearchJob, k.identity = j.identity ∧ s.load id user =
      (.ok (some k.view), { s.touched id with board := s.board.wait id s.loadWait }) := by
  obtain ⟨k, hFind, hIdentity⟩ : ∃ k, (s.board.wait id s.loadWait).find? id = some k ∧
      k.identity = j.identity := by
    -- the job may end during the waiting, but it is still there, and the same one
    refine (s.board.leadsTo_wait id s.loadWait).exists_find? ?_
    rw [held?] at h
    split at h
    · exact h
    · exact absurd h (by simp)
  refine ⟨k, hIdentity, ?_⟩
  rw [load, find_of_held h hMay]
  simp only [touched, hFind, Option.map_some]

/-- **Whoever may see a job finds it**, however it is asked for. -/
theorem finds_of_held {owner : String} (h : s.held? id = some j)
    (hIdentity : j.identity = (id, owner)) (user : SearchUser) : s.Finds id owner user := by
  obtain ⟨hId, hOwner⟩ := Prod.ext_iff.mp hIdentity
  change j.id = id at hId
  change j.owner = owner at hOwner
  refine ⟨?_, fun hMay => ?_, fun hMay => ?_⟩
  · by_contra hTouch
    rw [isInCache] at hTouch
    rw [held?, if_neg hTouch] at h
    exact absurd h (by simp)
  · rw [← SearchUser.mayAccess_iff, ← hOwner] at hMay
    obtain ⟨k, hSame, hLoad⟩ := load_of_held h hMay
    obtain ⟨hId', hOwner'⟩ := Prod.ext_iff.mp (hSame.trans hIdentity)
    rw [hLoad, find_of_held h hMay, cancel, find_of_held h hMay]
    exact ⟨⟨j, rfl, hId, hOwner⟩, ⟨k.view, rfl, hId', hOwner'⟩, rfl⟩
  · rw [← SearchUser.mayAccess_iff, ← hOwner, Bool.not_eq_true] at hMay
    rw [load, cancel, find_of_not_mayAccess h hMay]
    exact ⟨rfl, rfl, rfl⟩

/-- **A job that the cache has lost is not found**, however it is asked for. -/
theorem misses_of_touch (h : (s.cache.touch s.board.now id).1 = false) (user : SearchUser) :
    s.Misses id user := by
  have hNone : s.held? id = none := by rw [held?, h]; rfl
  refine ⟨h, ?_, ?_, ?_⟩
  · rw [find_of_not_held hNone]
  · rw [load, find_of_not_held hNone]
  · rw [cancel, find_of_not_held hNone]

-- ---------------------------------------------------------------------------
-- What is left of a service
-- ---------------------------------------------------------------------------

/-- Looking a job up writes the cache alone. -/
theorem exists_find (s : SearchService) (id : String) (user : SearchUser) :
    ∃ answer, s.find id user = (answer, s.touched id) := by
  cases hHeld : s.held? id with
  | none => exact ⟨_, find_of_not_held hHeld⟩
  | some j =>
    cases hMay : user.mayAccess j.owner with
    | true => exact ⟨_, find_of_held hHeld hMay⟩
    | false => exact ⟨_, find_of_not_mayAccess hHeld hMay⟩

/-- What a look-up leaves does not depend on its answer. -/
theorem find_snd (s : SearchService) (id : String) (user : SearchUser) :
    (s.find id user).2 = s.touched id := by
  obtain ⟨answer, hFind⟩ := s.exists_find id user
  rw [hFind]

/-- Who may see a job cancels it, and otherwise nothing but a look-up happens. -/
theorem cancel_snd (s : SearchService) (id : String) (user : SearchUser) :
    (s.cancel id user).2 = { s.touched id with
      board := match (s.find id user).1 with
        | .ok (some _) => (s.board.cancel id).2
        | _ => s.board } := by
  obtain ⟨answer, hFind⟩ := s.exists_find id user
  rw [cancel, hFind]
  cases answer with
  | error e => rfl
  | ok job? => cases job? <;> rfl

/-- Who may see a job waits for it, and otherwise nothing but a look-up happens. -/
theorem load_snd (s : SearchService) (id : String) (user : SearchUser) :
    (s.load id user).2 = { s.touched id with
      board := match (s.find id user).1 with
        | .ok (some _) => s.board.wait id s.loadWait
        | _ => s.board } := by
  obtain ⟨answer, hFind⟩ := s.exists_find id user
  rw [load, hFind]
  cases answer with
  | error e => rfl
  | ok job? => cases job? <;> rfl

/-- A job that is held is one of the jobs. -/
theorem find?_of_held (h : s.held? id = some j) : s.board.find? id = some j := by
  rw [held?] at h
  split at h
  · exact h
  · cases h

/-- Who is given a job may see it. -/
theorem find_eq_ok_some_iff :
    (s.find id user).1 = .ok (some j) ↔ s.held? id = some j ∧ user.mayAccess j.owner = true := by
  cases hHeld : s.held? id with
  | none => simp [find_of_not_held hHeld]
  | some k =>
    cases hMay : user.mayAccess k.owner with
    | true =>
      rw [find_of_held hHeld hMay]
      constructor
      · intro hFind
        obtain rfl := Option.some.inj (Except.ok.inj hFind)
        exact ⟨rfl, hMay⟩
      · rintro ⟨hSame, -⟩
        rw [Option.some.inj hSame]
    | false =>
      rw [find_of_not_mayAccess hHeld hMay]
      refine iff_of_false (by simp) ?_
      rintro ⟨hSame, hMay'⟩
      rw [← Option.some.inj hSame, hMay] at hMay'
      cases hMay'

/-- A view that is shown is a view of the job that was found. -/
theorem exists_found_of_load {v : JobView}
    (h : (s.load id user).1 = .ok (some v)) :
    ∃ k, (s.find id user).1 = .ok (some k) ∧ v.id = k.id := by
  obtain ⟨answer, hFind⟩ := s.exists_find id user
  cases answer with
  | error e =>
    rw [load, hFind] at h
    cases h
  | ok found =>
    cases found with
    | none =>
      rw [load, hFind] at h
      cases h
    | some k =>
      have hFound : (s.find id user).1 = .ok (some k) := by rw [hFind]
      -- only a job that was found is shown, so the caller may see it
      obtain ⟨hHeld, hMay⟩ := find_eq_ok_some_iff.mp hFound
      obtain ⟨l, hIdentity, hLoad⟩ := load_of_held hHeld hMay
      rw [hLoad] at h
      obtain rfl := Option.some.inj (Except.ok.inj h)
      exact ⟨k, hFound, congrArg Prod.fst hIdentity⟩

end SearchService

-- ---------------------------------------------------------------------------
-- What a look-up does
-- ---------------------------------------------------------------------------

/-- The cache finds a job if there is one for its id. -/
theorem SearchService.isSome_held? {s : SearchService} {id : String}
    (h : (s.cache.touch s.board.now id).1 = true → ∃ j, s.board.find? id = some j) :
    (s.held? id).isSome = (s.cache.touch s.board.now id).1 := by
  cases hTouch : (s.cache.touch s.board.now id).1 with
  | false => rw [held?, hTouch]; rfl
  | true =>
    obtain ⟨j, hFind⟩ := h hTouch
    rw [held?, hTouch, if_pos rfl, hFind, Option.isSome_some]

open SearchService in
/-- Whatever is asked, the cache is asked for the job, the answer shows what the cache has found,
and only time passes otherwise. -/
theorem JobLookup.exists_perform (lookup : JobLookup) (s : SearchService) (id : String)
    (h : (s.cache.touch s.board.now id).1 = true → ∃ j, s.board.find? id = some j) :
    ∃ later, s.board.LeadsTo later ∧ lookup.perform s id =
      ((s.cache.touch s.board.now id).1, { s.touched id with board := later }) := by
  have hSame : s.board.LeadsTo s.board := .refl s.board
  rw [← isSome_held? h]
  cases hHeld : s.held? id with
  | none =>
    refine ⟨s.board, hSame, ?_⟩
    cases lookup with
    | isInCache => rw [← hHeld, isSome_held? h]; rfl
    | find user => rw [perform, find_of_not_held hHeld]; rfl
    | load user => rw [perform, SearchService.load, find_of_not_held hHeld]; rfl
    | cancel user => rw [perform, SearchService.cancel, find_of_not_held hHeld]; rfl
  | some j =>
    cases lookup with
    -- only the cache is asked, so nobody is refused
    | isInCache => exact ⟨s.board, hSame, by rw [← hHeld, isSome_held? h]; rfl⟩
    | find user =>
      refine ⟨s.board, hSame, ?_⟩
      cases hMay : user.mayAccess j.owner with
      | true => rw [perform, find_of_held hHeld hMay]; rfl
      | false => rw [perform, find_of_not_mayAccess hHeld hMay]; rfl
    | load user =>
      cases hMay : user.mayAccess j.owner with
      | true =>
        obtain ⟨k, -, hLoad⟩ := load_of_held hHeld hMay
        exact ⟨_, s.board.leadsTo_wait id s.loadWait, by rw [perform, hLoad]; rfl⟩
      | false =>
        refine ⟨s.board, hSame, ?_⟩
        rw [perform, SearchService.load, find_of_not_mayAccess hHeld hMay]
        rfl
    | cancel user =>
      cases hMay : user.mayAccess j.owner with
      | true =>
        refine ⟨_, s.board.leadsTo_cancel id, ?_⟩
        rw [perform, SearchService.cancel, find_of_held hHeld hMay]
        rfl
      | false =>
        refine ⟨s.board, hSame, ?_⟩
        rw [perform, SearchService.cancel, find_of_not_mayAccess hHeld hMay]
        rfl

end RuleBlocks
