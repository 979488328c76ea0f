/-!
# The job cache

Which jobs can still be found. Entries stand in the order of their last access, the latest first.
An entry expires once it has not been accessed for a given time, and when the cache is full the
entry whose access is longest ago makes room. An expired entry stays until somebody looks for it or
a new entry comes.

Main definitions:

* `JobCache`, `JobCache.Entry` — the cache; the clock reading is passed in;
* `JobCache.touch` — look for an entry and refresh it;
* `JobCache.dropExpired`, `JobCache.insert` — make room and add an entry.
-/

namespace RuleBlocks

namespace JobCache

structure Entry where
  id : String
  lastAccess : Nat
deriving DecidableEq, Repr

end JobCache

structure JobCache where
  /-- At most so many entries, and at least one. -/
  capacity : Nat
  /-- Milliseconds without access after which an entry expires. -/
  expiry : Nat
  /-- The entry that was accessed last comes first. -/
  entries : List JobCache.Entry
deriving Repr

namespace JobCache

/-- An empty cache. A capacity of zero counts as one. -/
def new (capacity expiry : Nat) : JobCache :=
  { capacity := max 1 capacity, expiry, entries := [] }

def size (c : JobCache) : Nat :=
  c.entries.length

def isEmpty (c : JobCache) : Bool :=
  c.entries.isEmpty

def isExpired (c : JobCache) (now : Nat) (e : Entry) : Bool :=
  c.expiry ≤ now - e.lastAccess

def find? (c : JobCache) (id : String) : Option Entry :=
  c.entries.find? fun e => e.id == id

/-- The entries of other ids. -/
def others (c : JobCache) (id : String) : List Entry :=
  c.entries.filter fun e => e.id != id

/-- Look for an entry; tells whether it is there and has not expired. Looking for an entry is an
access, whoever looks; an expired entry is dropped. -/
def touch (c : JobCache) (now : Nat) (id : String) : Bool × JobCache :=
  match c.find? id with
  | none => (false, c)
  | some e =>
    if c.isExpired now e then (false, { c with entries := c.others id })
    else (true, { c with entries := { id, lastAccess := now } :: c.others id })

/-- Drop expired entries from the end, up to the first one that has not expired. -/
def dropExpired (c : JobCache) (now : Nat) : JobCache :=
  { c with entries := (c.entries.reverse.dropWhile (c.isExpired now)).reverse }

/-- Add an entry for a new job. Expired entries go first; if the cache is still full, the entry
whose access is longest ago makes room. -/
def insert (c : JobCache) (now : Nat) (id : String) : JobCache :=
  let c := c.dropExpired now
  let kept := if c.capacity ≤ c.size then c.entries.dropLast else c.entries
  { c with entries := { id, lastAccess := now } :: kept }

end JobCache

end RuleBlocks
