import RuleBlocks.Registry.Basic

/-!
# Reloads side by side

Any number of reloads may be asked for at the same time. They take turns: a call waits for the lock,
reads the store while it holds the lock, and when the read comes back it publishes, counts and gives
the lock back in one step. A read takes time: it looks at the store at some moment, and comes back
later. The store may change and calls may be given up at any time in between. A call that only wants
the registry to be initialized first looks whether there is a snapshot, and otherwise is a reload.

Main definitions:

* `CallStage`, `ReloadSystem` — where calls stand, and the whole of registry, store and calls;
* `ReloadSystem.begin`, `ReloadSystem.proceed`, `ReloadSystem.abandon` — the steps of calls;
* `ReloadSystem.complete` — all steps of one call;
* `ReloadSystem.reload`, `ReloadSystem.ensureReady` — calls that nothing stands in the way of.
-/

namespace RuleBlocks

inductive CallStage
  /-- About to look whether there is a snapshot. -/
  | checking
  | waiting
  /-- Holds the lock; its read has not looked at the store yet. -/
  | reading
  /-- Holds the lock; its read has looked at the store and has not come back yet. -/
  | returning (found : Except StoreError (List BuildingBlock))
  /-- The generation that was published, `none` if there was nothing to do. -/
  | ended (result : Except StoreError (Option Nat))
  | abandoned
deriving Repr

/-- Whether the call holds the lock. -/
def CallStage.holdsLock : CallStage → Bool
  | reading => true
  | returning _ => true
  | _ => false

/-- Whether the call can still go on. -/
def CallStage.isOpen : CallStage → Bool
  | ended _ => false
  | abandoned => false
  | _ => true

structure ReloadSystem where
  registry : Registry
  store : FragmentStore
  /-- The calls in the order in which they began. -/
  calls : List CallStage
deriving Repr

namespace ReloadSystem

def new (registry : Registry) (store : FragmentStore) : ReloadSystem :=
  { registry, store, calls := [] }

def isLocked (s : ReloadSystem) : Bool :=
  s.calls.any (·.holdsLock)

def setStage (s : ReloadSystem) (i : Nat) (stage : CallStage) : ReloadSystem :=
  { s with calls := s.calls.set i stage }

/-- A call begins: an initialization looks at the registry first. -/
def begin (s : ReloadSystem) (initializing : Bool) : ReloadSystem :=
  { s with calls := s.calls ++ [if initializing then .checking else .waiting] }

/-- The next step of a call. A call that waits for the lock cannot go on while another holds it, and
one that has ended or was given up does not go on. -/
def proceed (files : String → FileState) (s : ReloadSystem) (i : Nat) : ReloadSystem :=
  match s.calls[i]? with
  | some .checking =>
    s.setStage i (if s.registry.state = .ready then .ended (.ok none) else .waiting)
  | some .waiting => if s.isLocked then s else s.setStage i .reading
  | some .reading =>
    let (found, store) := s.store.read files
    { s with store }.setStage i (.returning found)
  | some (.returning found) =>
    let (result, registry) := s.registry.afterRead found
    { s with registry }.setStage i (.ended (result.map some))
  | _ => s

/-- Give up a call that has not ended. A lock that it held is free again. -/
def abandon (s : ReloadSystem) (i : Nat) : ReloadSystem :=
  if s.calls[i]?.any (·.isOpen) then s.setStage i .abandoned else s

/-- Change the store. -/
def write (s : ReloadSystem) (change : FragmentStore → FragmentStore) : ReloadSystem :=
  { s with store := change s.store }

/-- What a call has come to. -/
def result? (s : ReloadSystem) (i : Nat) : Option (Except StoreError (Option Nat)) :=
  match s.calls[i]? with
  | some (.ended result) => some result
  | _ => none

/-- All steps of a call: it looks, takes the lock, reads, and publishes. -/
def complete (files : String → FileState) (s : ReloadSystem) (i : Nat) : ReloadSystem :=
  let step (s : ReloadSystem) := s.proceed files i
  step (step (step (step s)))

/-- Begin a call and let it come to its end. -/
def call (files : String → FileState) (s : ReloadSystem) (initializing : Bool) :
    Option (Except StoreError (Option Nat)) × ReloadSystem :=
  let i := s.calls.length
  let s := (s.begin initializing).complete files i
  (s.result? i, s)

/-- Read the fragments and publish them. -/
def reload (files : String → FileState) (s : ReloadSystem) :
    Option (Except StoreError (Option Nat)) × ReloadSystem :=
  s.call files false

/-- Publish the first snapshot, unless there is one. -/
def ensureReady (files : String → FileState) (s : ReloadSystem) :
    Option (Except StoreError (Option Nat)) × ReloadSystem :=
  s.call files true

end ReloadSystem

end RuleBlocks
