/-!
# Notices of change

Whoever changes the fragments announces it over a bounded queue. A notice carries no data: the
fragments are read anew as a whole. So when the queue is full a notice may be lost without harm,
since one that is still queued announces the change as well.

Main definitions:

* `Notice`, `Channel` — a notice, and the queue with its publishers and its subscriber;
* `Channel.publish` — announce a change without waiting;
* `Channel.receive`, `Channel.drain` — take one notice, drop all others.
-/

namespace RuleBlocks

structure Notice where
  /-- Why there is a notice, for whoever reads the log. -/
  reason : Option String
deriving DecidableEq, Repr

namespace Notice

def plain : Notice :=
  { reason := none }

def because (reason : String) : Notice :=
  { reason := some reason }

end Notice

structure Channel where
  capacity : Nat
  /-- The oldest notice comes first. -/
  queue : List Notice
  /-- How many publishers there are. -/
  publishers : Nat
  /-- Whether the subscriber is still there. -/
  subscribed : Bool
deriving Repr

/-- What a subscriber gets that does not wait. -/
inductive Received
  | notice (notice : Notice)
  /-- Nothing is queued, but something may come. -/
  | pending
  /-- Nothing is queued and nobody can publish. -/
  | closed
deriving DecidableEq, Repr

namespace Channel

/-- A channel with one publisher and its subscriber. A capacity of zero counts as one. -/
def new (capacity : Nat) : Channel :=
  { capacity := max 1 capacity, queue := [], publishers := 1, subscribed := true }

/-- Queue a notice if there is room; tells whether the subscriber is there. -/
def publish (c : Channel) (n : Notice) : Bool × Channel :=
  if !c.subscribed then (false, c)
  else if c.queue.length < c.capacity then (true, { c with queue := c.queue ++ [n] })
  else (true, c)

/-- Whatever room there was, once a notice has been heard there is one in the queue. -/
theorem queue_ne_nil_of_publish {c : Channel} {n : Notice} (hcapacity : 0 < c.capacity)
    (h : (c.publish n).1 = true) : (c.publish n).2.queue ≠ [] := by
  unfold publish at h ⊢
  split at h
  · cases h
  · rename_i hsub
    rw [if_neg hsub]
    split
    · simp
    · rename_i hfull
      intro hnil
      have hlength : c.queue.length = 0 := List.length_eq_zero_iff.mpr hnil
      omega

/-- Nothing that was queued is lost by publishing. -/
theorem queue_publish_ne_nil {c : Channel} (n : Notice) (h : c.queue ≠ []) :
    (c.publish n).2.queue ≠ [] := by
  unfold publish
  split
  · exact h
  · split <;> simp [h]

@[simp] theorem capacity_publish (c : Channel) (n : Notice) :
    (c.publish n).2.capacity = c.capacity := by
  unfold publish
  split
  · rfl
  · split <;> rfl

@[simp] theorem publishers_publish (c : Channel) (n : Notice) :
    (c.publish n).2.publishers = c.publishers := by
  unfold publish
  split
  · rfl
  · split <;> rfl

def isClosed (c : Channel) : Bool :=
  !c.subscribed

/-- Take the oldest notice. -/
def receive (c : Channel) : Received × Channel :=
  match c.queue with
  | n :: rest => (.notice n, { c with queue := rest })
  | [] => (if c.publishers = 0 then .closed else .pending, c)

/-- Drop all queued notices; tells how many there were. -/
def drain (c : Channel) : Nat × Channel :=
  (c.queue.length, { c with queue := [] })

/-- Dropping all notices is taking one after the other until there is none. -/
theorem drain_of_receive {c c' : Channel} {n : Notice} (h : c.receive = (.notice n, c')) :
    c.drain = (c'.drain.1 + 1, c'.drain.2) := by
  unfold receive at h
  split at h
  · rename_i m rest hq
    simp only [Prod.mk.injEq] at h
    obtain ⟨-, rfl⟩ := h
    simp [drain, hq]
  · rename_i hq
    split at h <;> cases h

theorem drain_of_queue_nil {c : Channel} (h : c.queue = []) : c.drain = (0, c) := by
  simp [drain, ← h]

def addPublisher (c : Channel) : Channel :=
  { c with publishers := c.publishers + 1 }

def dropPublisher (c : Channel) : Channel :=
  { c with publishers := c.publishers - 1 }

/-- Without a subscriber nothing stays queued. -/
def dropSubscriber (c : Channel) : Channel :=
  { c with subscribed := false, queue := [] }

end Channel

end RuleBlocks
