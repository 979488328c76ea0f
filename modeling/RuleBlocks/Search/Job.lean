import RuleBlocks.Json.Basic
import RuleBlocks.Document.Node

/-!
# Search jobs

A search that runs on this node, or has ended there. A job is running until it is completed, fails
or is cancelled, and then never changes again. Besides its status it has a token by which whoever
does the work learns that it should stop; cancelling a job sets the token even if the job has ended
before.

Main definitions:

* `JobStatus`, `SearchJob` — the job;
* `SearchJob.finish`, `SearchJob.cancel` — how it ends;
* `SearchUser` — on whose behalf a job is asked for;
* `JobView` — what is told about a job.
-/

namespace RuleBlocks

open DocumentNode

-- ---------------------------------------------------------------------------
-- Jobs
-- ---------------------------------------------------------------------------

inductive JobStatus
  | running
  | done (result : Json)
  | failed (error : String)
  | cancelled
deriving BEq, Repr

namespace JobStatus

def isFinished : JobStatus → Bool
  | running => false
  | _ => true

def name : JobStatus → String
  | running => "running"
  | done _ => "done"
  | failed _ => "failed"
  | cancelled => "cancelled"

end JobStatus

structure SearchJob where
  id : String
  search : Json
  owner : String
  /-- The node that runs the job. -/
  node : String
  /-- After how many seconds the job is to be cancelled, as it was asked for. -/
  cancelAfter : Option Nat
  tokenCancelled : Bool
  status : JobStatus
deriving Repr

namespace SearchJob

def new (id : String) (search : Json) (owner node : String) (cancelAfter : Option Nat) :
    SearchJob :=
  { id, search, owner, node, cancelAfter, tokenCancelled := false, status := .running }

def isFinished (j : SearchJob) : Bool :=
  j.status.isFinished

/-- End a running job with the given status; tells whether the job was running. -/
def finish (j : SearchJob) (outcome : JobStatus) : Bool × SearchJob :=
  if j.isFinished then (false, j) else (true, { j with status := outcome })

def cancelToken (j : SearchJob) : SearchJob :=
  { j with tokenCancelled := true }

/-- Cancel a job; tells whether it was running. The token is set in any case, and after the status:
these are two steps, between which others see a job that is cancelled with a token that is not yet.
Here they are one, and who looks at a job sees it before both or after both. -/
def cancel (j : SearchJob) : Bool × SearchJob :=
  let (wasRunning, j) := j.finish .cancelled
  (wasRunning, j.cancelToken)

end SearchJob

-- ---------------------------------------------------------------------------
-- Users
-- ---------------------------------------------------------------------------

structure SearchUser where
  username : String
  isAdmin : Bool
deriving DecidableEq, Repr

namespace SearchUser

def ordinary (username : String) : SearchUser :=
  { username, isAdmin := false }

def admin (username : String) : SearchUser :=
  { username, isAdmin := true }

/-- Administrators may see every job, other users their own. -/
def mayAccess (u : SearchUser) (owner : String) : Bool :=
  u.isAdmin || u.username == owner

def fieldNames : List String :=
  ["username", "isAdmin"]

def read? {ν : Type} [DocumentNode ν] (node : ν) : Option SearchUser := do
  let fields : Fields ν ← fields? fieldNames node
  return {
    username := ← fields.required "username" text?
    isAdmin := ← fields.defaulted "isAdmin" false flag? }

def json (u : SearchUser) : Json :=
  .object [("username", .string u.username), ("isAdmin", .bool u.isAdmin)]

end SearchUser

-- ---------------------------------------------------------------------------
-- Views
-- ---------------------------------------------------------------------------

/-- What is told about a job. -/
structure JobView where
  id : String
  owner : String
  node : String
  /-- The `id` of the search, if it has one that is a string. -/
  searchId : Option String
  status : String
  result : Option Json
  errors : List String
deriving Repr

def SearchJob.view (j : SearchJob) : JobView :=
  { id := j.id
    owner := j.owner
    node := j.node
    searchId := (j.search.field? "id").bind Json.string?
    status := j.status.name
    result := match j.status with
      | .done result => some result
      | _ => none
    errors := match j.status with
      | .failed error => [error]
      | _ => [] }

def JobView.json (v : JobView) : Json :=
  .object <|
    [("id", .string v.id), ("owner", .string v.owner), ("executingNode", .string v.node)]
      ++ (match v.searchId with
        | some id => [("searchId", .string id)]
        | none => [])
      ++ [("status", .string v.status)]
      ++ (match v.result with
        | some result => [("result", result)]
        | none => [])
      ++ [("errors", .array (v.errors.map .string))]

end RuleBlocks
