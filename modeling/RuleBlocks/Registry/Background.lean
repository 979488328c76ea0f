import RuleBlocks.Document.Path
import RuleBlocks.Registry.Listener

/-!
# Background tasks

A registry that is kept up to date. Starting the tasks makes a channel with a listener, hands a
publisher to whoever starts them, and on demand adds a watcher with a publisher of its own. Tasks
may be started more than once; every start has its own channel. The directory of a watched file
must be there; the file itself need not be.

Main definitions:

* `BackgroundTask`, `LiveRegistry` — what was started, and the registry that it serves;
* `LiveRegistry.start` — start a listener, and a watcher if a path is given;
* `LiveRegistry.announce` — use the publisher of the latest start;
* `LiveRegistry.settle`, `LiveRegistry.elapse` — let tasks run, let watchers see what has changed;
* `LiveRegistry.dropPublishers`, `LiveRegistry.stop` — the two ways to end tasks.
-/

namespace RuleBlocks

structure BackgroundTask where
  watcher : Option Watcher
  listener : Listener
  /-- Whether whoever started the task still has the publisher. -/
  hasPublisher : Bool
deriving Repr

namespace BackgroundTask

def listening : BackgroundTask :=
  { watcher := none, listener := .new, hasPublisher := true }

def watching (path : String) : BackgroundTask :=
  { watcher := some (.new path)
    listener := { Listener.new with channel := Listener.new.channel.addPublisher }
    hasPublisher := true }

/-- How many tasks there are in it. -/
def size (t : BackgroundTask) : Nat :=
  if t.watcher.isSome then 2 else 1

def withChannel (t : BackgroundTask) (channel : Channel) : BackgroundTask :=
  { t with listener := { t.listener with channel } }

def withWatcher (t : BackgroundTask) (change : Watcher → Watcher) : BackgroundTask :=
  { t with watcher := t.watcher.map change }

/-- Let the watcher announce what it has seen. A watcher that ends drops its publisher. -/
def elapse (t : BackgroundTask) : BackgroundTask :=
  match t.watcher with
  | none => t
  | some watcher =>
    let (after, channel) := watcher.announce t.listener.channel
    { t.withChannel (if after.ended && !watcher.ended then channel.dropPublisher else channel) with
      watcher := some after }

def dropPublisher (t : BackgroundTask) : BackgroundTask :=
  if t.hasPublisher then
    { t.withChannel t.listener.channel.dropPublisher with hasPublisher := false }
  else t

/-- Stop the watcher and the listener where they stand. -/
def stop (t : BackgroundTask) : BackgroundTask :=
  { t.withWatcher fun w => { w with ended := true } with listener := t.listener.abort }

/-- Which tasks have ended, the watcher first. -/
def ended (t : BackgroundTask) : List Bool :=
  (t.watcher.map (·.ended)).toList ++ [t.listener.hasEnded]

end BackgroundTask

structure LiveRegistry where
  system : ReloadSystem
  /-- In the order in which they were started. -/
  tasks : List BackgroundTask
deriving Repr

namespace LiveRegistry

def new (registry : Registry) (store : FragmentStore) : LiveRegistry :=
  { system := .new registry store, tasks := [] }

def registry (l : LiveRegistry) : Registry :=
  l.system.registry

-- ---------------------------------------------------------------------------
-- Letting tasks run
-- ---------------------------------------------------------------------------

/-- Let the listeners run, one after the other, until none has anything to do. -/
def settle (files : String → FileState) (l : LiveRegistry) : LiveRegistry :=
  l.tasks.foldl
    (fun l t =>
      let (listener, system) := t.listener.settle files l.system
      { system, tasks := l.tasks ++ [{ t with listener }] })
    { l with tasks := [] }

/-- So much time passes that watchers announce what they have seen. Tasks run before and after. -/
def elapse (files : String → FileState) (l : LiveRegistry) : LiveRegistry :=
  let l := l.settle files
  { l with tasks := l.tasks.map BackgroundTask.elapse }.settle files

-- ---------------------------------------------------------------------------
-- Starting and ending tasks
-- ---------------------------------------------------------------------------

def add (l : LiveRegistry) (t : BackgroundTask) : LiveRegistry :=
  { l with tasks := l.tasks ++ [t] }

/-- Whether the directory of a path is there. -/
def canWatch (files : String → FileState) (path : String) : Bool :=
  match (parent? path).map files with
  | none => false
  | some .missing => false
  | some _ => true

/-- Start tasks; tells how many. -/
def start (files : String → FileState) (watch : Option String) (l : LiveRegistry) :
    Except RegistryError Nat × LiveRegistry :=
  let begin (t : BackgroundTask) := (.ok t.size, (l.add t).settle files)
  match watch with
  | none => begin .listening
  | some path => if canWatch files path then begin (.watching path) else (.error .watch, l)

/-- Drop all publishers that were handed out. -/
def dropPublishers (files : String → FileState) (l : LiveRegistry) : LiveRegistry :=
  { l with tasks := l.tasks.map BackgroundTask.dropPublisher }.settle files

def stop (l : LiveRegistry) : LiveRegistry :=
  { l with tasks := l.tasks.map BackgroundTask.stop }

/-- Which tasks have ended, in the order of their start. -/
def ended (l : LiveRegistry) : List Bool :=
  l.tasks.flatMap BackgroundTask.ended

-- ---------------------------------------------------------------------------
-- Changes
-- ---------------------------------------------------------------------------

/-- Publish a notice on the channel that was started last; there is no answer if its publisher is
gone. -/
def announce (n : Notice) (l : LiveRegistry) : Option Bool × LiveRegistry :=
  match l.tasks.getLast? with
  | none => (none, l)
  | some t =>
    if t.hasPublisher then
      let (heard, channel) := t.listener.channel.publish n
      (some heard, { l with tasks := l.tasks.dropLast ++ [t.withChannel channel] })
    else (none, l)

/-- Set what the watchers of a path have seen. -/
def setChanged (path : String) (changed : Bool) (l : LiveRegistry) : LiveRegistry :=
  let see (w : Watcher) := if samePath w.path path then { w with changed } else w
  { l with tasks := l.tasks.map (·.withWatcher see) }

/-- A file was written, or moved to a path or from it. -/
def fileChanged (path : String) (l : LiveRegistry) : LiveRegistry :=
  l.setChanged path true

/-- A file was removed, which is not announced. -/
def fileRemoved (path : String) (l : LiveRegistry) : LiveRegistry :=
  l.setChanged path false

/-- Change the store. -/
def write (change : FragmentStore → FragmentStore) (l : LiveRegistry) : LiveRegistry :=
  { l with system := l.system.write change }

end LiveRegistry

end RuleBlocks
