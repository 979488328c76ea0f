import RuleBlocks.Registry.Snapshot

/-!
# The registry

Serves the snapshot that was published last. A reload reads the fragment store as a whole; if that
succeeds the next snapshot is published under the next generation, and if it fails the published
one stays. Before the first publication there is nothing to serve.

Main definitions:

* `Registry` — the catalog, the count of publications, and the published snapshot;
* `Registry.publish`, `Registry.afterRead` — the end of a reload;
* `Registry.snapshot` — what readers get.
-/

namespace RuleBlocks

structure Registry where
  catalog : FunctionCatalog
  /-- The generation that was published last; zero before the first. -/
  generation : Nat
  current : Option Snapshot
deriving Repr

/-- Whether there is a snapshot to serve. -/
inductive RegistryState
  | initializing
  | ready
deriving DecidableEq, Repr

def RegistryState.name : RegistryState → String
  | initializing => "Initializing"
  | ready => "Ready"

namespace Registry

def new (catalog : FunctionCatalog) : Registry :=
  { catalog, generation := 0, current := none }

def state (r : Registry) : RegistryState :=
  if r.current.isSome then .ready else .initializing

/-- The published snapshot. -/
def snapshot (r : Registry) : Except RegistryError Snapshot :=
  match r.current with
  | some s => .ok s
  | none => .error .notInitialized

def conditions (r : Registry) : Except RegistryError BuildingBlocks :=
  r.snapshot.map (·.conditions)

def actions (r : Registry) : Except RegistryError BuildingBlocks :=
  r.snapshot.map (·.actions)

def block (r : Registry) (name : String) : Except RegistryError BuildingBlock :=
  r.snapshot.bind (·.block name)

def render (r : Registry) (name : String) (context : Json) : Except RegistryError String :=
  r.snapshot.bind (·.render name context)

/-- Publish the snapshot of the given fragments under the next generation. -/
def publish (r : Registry) (fragments : List BuildingBlock) : Registry :=
  { r with
    generation := r.generation + 1
    current := some (.build r.catalog fragments (r.generation + 1)) }

/-- End a reload whose read had the given result: the generation that is published, or why nothing
is. -/
def afterRead (r : Registry) (result : Except StoreError (List BuildingBlock)) :
    Except StoreError Nat × Registry :=
  match result with
  | .ok fragments => (.ok (r.generation + 1), r.publish fragments)
  | .error e => (.error e, r)

/-- One line about the registry. -/
def summary (r : Registry) : String :=
  "RuleBuilderRegistry \x7b functions: " ++ toString r.catalog.size ++ ", state: " ++ r.state.name
    ++ ", .. \x7d"

end Registry

end RuleBlocks
