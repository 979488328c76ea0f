import RuleBlocks.Search.Board
import RuleBlocks.Search.Cache

/-!
# Search job service

Creates search jobs and lets their owners ask for them. Jobs can be found as long as they are in the
cache; a job that has left it goes on running. A user who may not see a job is refused, but asking
is an access of the job all the same.

Main definitions:

* `SearchJobSettings` — sizes and times, a document;
* `SearchService.create` — make a job and set its deadline;
* `SearchService.find` — look a job up for a user;
* `SearchService.load`, `SearchService.cancel` — wait for its result, cancel it.
-/

namespace RuleBlocks

open DocumentNode

-- ---------------------------------------------------------------------------
-- Settings
-- ---------------------------------------------------------------------------

structure SearchJobSettings where
  maxSize : Nat
  expireAfterAccessSecs : Nat
  loadWaitMillis : Nat
deriving DecidableEq, Repr

namespace SearchJobSettings

def standard : SearchJobSettings :=
  { maxSize := 1000, expireAfterAccessSecs := 300, loadWaitMillis := 5 }

def fieldNames : List String :=
  ["maxSize", "expireAfterAccessSecs", "loadWaitMillis"]

def read? {ν : Type} [DocumentNode ν] (node : ν) : Option SearchJobSettings := do
  let fields : Fields ν ← fields? fieldNames node
  return {
    maxSize := ← fields.defaulted "maxSize" standard.maxSize natural?
    expireAfterAccessSecs :=
      ← fields.defaulted "expireAfterAccessSecs" standard.expireAfterAccessSecs natural?
    loadWaitMillis := ← fields.defaulted "loadWaitMillis" standard.loadWaitMillis natural? }

def json (s : SearchJobSettings) : Json :=
  .object
    [("maxSize", .nat s.maxSize), ("expireAfterAccessSecs", .nat s.expireAfterAccessSecs),
      ("loadWaitMillis", .nat s.loadWaitMillis)]

end SearchJobSettings

-- ---------------------------------------------------------------------------
-- Service
-- ---------------------------------------------------------------------------

/-- A user asked for a job of somebody else. -/
structure JobForbidden where
  user : String
  job : String
deriving DecidableEq, Repr

def JobForbidden.message (e : JobForbidden) : String :=
  "user " ++ e.user ++ " cannot load search job " ++ e.job ++ " that belongs to different user"

structure SearchService where
  node : String
  /-- How long a request for a running job waits for its result, in milliseconds. -/
  loadWait : Nat
  cache : JobCache
  board : JobBoard
  /-- Without timers deadlines are recorded but never set. -/
  hasTimers : Bool
deriving Repr

namespace SearchService

def new (node : String) (settings : SearchJobSettings) : SearchService :=
  { node
    loadWait := settings.loadWaitMillis
    cache := .new settings.maxSize (1000 * settings.expireAfterAccessSecs)
    board := .empty
    hasTimers := true }

/-- Make a running job with a fresh id. A deadline of zero seconds is none. Others are set now, but
their time begins when their task has a turn. -/
def create (s : SearchService) (id : String) (search : Json) (owner : String)
    (cancelAfter : Option Nat) : SearchService :=
  let board := s.board.add (.new id search owner s.node cancelAfter)
  let seconds := cancelAfter.getD 0
  { s with
    cache := s.cache.insert s.board.now id
    board :=
      if s.hasTimers && seconds != 0 then board.setDeadline (1000 * seconds) id else board }

/-- Look a job up for a user: nothing if it is unknown or expired, and a refusal if the user may not
see it. -/
def find (s : SearchService) (id : String) (user : SearchUser) :
    Except JobForbidden (Option SearchJob) × SearchService :=
  let (isThere, cache) := s.cache.touch s.board.now id
  let s := { s with cache }
  match if isThere then s.board.find? id else none with
  | none => (.ok none, s)
  | some j =>
    if user.mayAccess j.owner then (.ok (some j), s)
    else (.error { user := user.username, job := id }, s)

/-- Whether a job can be found. Asking is an access. -/
def isInCache (s : SearchService) (id : String) : Bool × SearchService :=
  let (isThere, cache) := s.cache.touch s.board.now id
  (isThere, { s with cache })

/-- The view of a job, after waiting a little for its result. -/
def load (s : SearchService) (id : String) (user : SearchUser) :
    Except JobForbidden (Option JobView) × SearchService :=
  match s.find id user with
  | (.error e, s) => (.error e, s)
  | (.ok none, s) => (.ok none, s)
  | (.ok (some _), s) =>
    let board := s.board.wait id s.loadWait
    (.ok ((board.find? id).map (·.view)), { s with board })

/-- Cancel a job for a user; tells whether it was found. -/
def cancel (s : SearchService) (id : String) (user : SearchUser) :
    Except JobForbidden Bool × SearchService :=
  match s.find id user with
  | (.error e, s) => (.error e, s)
  | (.ok none, s) => (.ok false, s)
  | (.ok (some _), s) => (.ok true, { s with board := (s.board.cancel id).2 })

end SearchService

end RuleBlocks
