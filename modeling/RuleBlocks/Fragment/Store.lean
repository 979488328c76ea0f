import RuleBlocks.Document.File
import RuleBlocks.Fragment.File

/-!
# Fragment stores

Where fragments are kept. Whoever reads a store gets all of its fragments at once, in their order,
or learns why there are none; there are no partial reads.

Main definitions:

* `MemoryStore` — fragments held in memory, with writes and injected failures;
* `FragmentStore`, `FragmentStore.read` — the kinds of store and how each is read;
* `FragmentStore.content` — what a store holds, which no read changes (`content_read`);
* `StoreError` — why a read fails.
-/

namespace RuleBlocks

inductive StoreError
  | unavailable (reason : String)
  | unreadable
  | malformed
deriving DecidableEq, Repr

/-- The wording, where it does not depend on the system or on a notation. -/
def StoreError.message? : StoreError → Option String
  | unavailable reason => some ("fragment store unavailable: " ++ reason)
  | unreadable => none
  | malformed => none

-- ---------------------------------------------------------------------------
-- Fragments in memory
-- ---------------------------------------------------------------------------

/-- Fragments in memory. Writing only changes what the next read gives. -/
structure MemoryStore where
  fragments : List BuildingBlock
  /-- How many of the next reads fail. -/
  failures : Nat
  /-- How many reads there were, failed ones included. -/
  reads : Nat
deriving Repr

namespace MemoryStore

def ofList (fragments : List BuildingBlock) : MemoryStore :=
  { fragments, failures := 0, reads := 0 }

def replace (s : MemoryStore) (fragments : List BuildingBlock) : MemoryStore :=
  { s with fragments }

/-- Put a fragment in the place of the first one of its name, or at the end. -/
def upsertInto (f : BuildingBlock) : List BuildingBlock → List BuildingBlock
  | [] => [f]
  | g :: rest => if g.name = f.name then f :: rest else g :: upsertInto f rest

def upsert (s : MemoryStore) (f : BuildingBlock) : MemoryStore :=
  { s with fragments := upsertInto f s.fragments }

/-- Drop all fragments of a name. -/
def remove (s : MemoryStore) (name : String) : MemoryStore :=
  { s with fragments := s.fragments.filter fun f => f.name != name }

/-- Whether a fragment of the name is there. -/
def holds (s : MemoryStore) (name : String) : Bool :=
  s.fragments.any fun f => f.name == name

/-- Let exactly the given number of the next reads fail. -/
def failNext (s : MemoryStore) (count : Nat) : MemoryStore :=
  { s with failures := count }

def size (s : MemoryStore) : Nat :=
  s.fragments.length

def isEmpty (s : MemoryStore) : Bool :=
  s.fragments.isEmpty

/-- Read all fragments. A read that is made to fail uses up one failure. -/
def read (s : MemoryStore) : Except StoreError (List BuildingBlock) × MemoryStore :=
  let s := { s with reads := s.reads + 1 }
  match s.failures with
  | 0 => (.ok s.fragments, s)
  | failures + 1 => (.error (.unavailable "injected read failure"), { s with failures })

end MemoryStore

-- ---------------------------------------------------------------------------
-- Kinds of store
-- ---------------------------------------------------------------------------

inductive FragmentStore
  | memory (store : MemoryStore)
  /-- A file that is read anew each time. -/
  | file (path : String)
  /-- No fragments at all. -/
  | empty
deriving Repr

namespace FragmentStore

/-- The fragments of what stands at the path of a fragment file. -/
def load (path : String) (found : FileState) : Except StoreError (List BuildingBlock) :=
  match found.text with
  | .error _ => .error .unreadable
  | .ok text =>
    match FragmentFile.parse? path text with
    | some document => .ok document.fragments
    | none => .error .malformed

/-- Read the store, where `files` tells what stands at a path. -/
def read (files : String → FileState) (s : FragmentStore) :
    Except StoreError (List BuildingBlock) × FragmentStore :=
  match s with
  | memory m => let (result, m) := m.read; (result, memory m)
  | file path => (load path (files path), s)
  | empty => (.ok [], s)

/-- What the store holds, whether or not its next reads are made to fail. -/
def content (files : String → FileState) : FragmentStore → Except StoreError (List BuildingBlock)
  | memory m => .ok m.fragments
  | file path => load path (files path)
  | empty => .ok []

/-- Let the next reads fail, where a store can be made to. -/
def failNext (count : Nat) : FragmentStore → FragmentStore
  | memory m => memory (m.failNext count)
  | s => s

/-- Reading does not change what is stored. -/
theorem content_read (files : String → FileState) (s : FragmentStore) :
    (s.read files).2.content files = s.content files := by
  cases s with
  | memory m => cases h : m.failures <;> simp [read, MemoryStore.read, content, h]
  | file path => rfl
  | empty => rfl

/-- Nor does a failure that is yet to come. -/
theorem content_failNext (files : String → FileState) (count : Nat) (s : FragmentStore) :
    (s.failNext count).content files = s.content files := by
  cases s <;> rfl

/-- A read that succeeds gives all that the store holds. -/
theorem content_of_read {files : String → FileState} {s : FragmentStore}
    {fragments : List BuildingBlock} (h : (s.read files).1 = .ok fragments) :
    s.content files = .ok fragments := by
  cases s with
  | memory m =>
    cases hf : m.failures with
    | zero => simpa [read, MemoryStore.read, content, hf] using h
    | succ n => simp [read, MemoryStore.read, hf] at h
  | file path => exact h
  | empty => exact h

end FragmentStore

end RuleBlocks
