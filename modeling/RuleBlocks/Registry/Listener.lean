import RuleBlocks.Registry.Channel
import RuleBlocks.Registry.Reload

/-!
# Listeners

A listener turns notices into reloads. It takes one notice, drops the others that are queued, since
one reload answers for all of them, and reloads; then it looks at the queue again. It ends once the
queue is empty and nobody can publish any more. A reload that fails changes nothing for it. A
listener may be fed by a watcher, which announces that a file has changed.

Main definitions:

* `ListenerStage`, `Listener` — where a listener stands, and its channel;
* `Listener.step` — one step of a listener;
* `Listener.settle` — its steps until it has nothing to do;
* `Watcher`, `Watcher.announce` — the notice of a change to a file.
-/

namespace RuleBlocks

inductive ListenerStage
  | idle
  /-- Has taken a notice and is dropping the others, one by one. -/
  | taken
  /-- Waits for the end of its reload. -/
  | reloading (call : Nat)
  | ended
deriving DecidableEq, Repr

structure Listener where
  channel : Channel
  stage : ListenerStage
deriving Repr

namespace Listener

/-- How many notices a listener lets wait. -/
def queueLength : Nat := 16

def new : Listener :=
  { channel := .new queueLength, stage := .idle }

/-- One step of a listener. While its reload is going on the step is one of the reload. -/
def step (files : String → FileState) (l : Listener) (s : ReloadSystem) : Listener × ReloadSystem :=
  match l.stage with
  | .idle =>
    match l.channel.receive with
    | (.notice _, channel) => ({ channel, stage := .taken }, s)
    | (.pending, _) => (l, s)
    | (.closed, _) => ({ l with stage := .ended }, s)
  | .taken =>
    match l.channel.receive with
    | (.notice _, channel) => ({ l with channel }, s)
    | _ => ({ l with stage := .reloading s.calls.length }, s.begin false)
  | .reloading call =>
    match s.result? call with
    | some _ => ({ l with stage := .idle }, s)
    | none => (l, s.proceed files call)
  | .ended => (l, s)

/-- The steps of a listener until it has nothing to do. If nothing comes in meanwhile there is one
for each notice, then the begin of the reload, three steps of it, the way back, and the look that
ends it. -/
def settle (files : String → FileState) (l : Listener) (s : ReloadSystem) :
    Listener × ReloadSystem :=
  (List.range (l.channel.queue.length + 6)).foldl (fun (l, s) _ => l.step files s) (l, s)

/-- Stop a listener where it stands. Its channel has no subscriber any more. -/
def abort (l : Listener) : Listener :=
  { channel := l.channel.dropSubscriber, stage := .ended }

def hasEnded (l : Listener) : Bool :=
  l.stage == .ended

end Listener

/-- Watches a file. -/
structure Watcher where
  path : String
  /-- Whether the file has changed since the last notice. -/
  changed : Bool
  ended : Bool
deriving Repr

namespace Watcher

def new (path : String) : Watcher :=
  { path, changed := false, ended := false }

/-- Announce a change, if there was one. A watcher ends when nobody listens. -/
def announce (w : Watcher) (c : Channel) : Watcher × Channel :=
  if w.ended || !w.changed then (w, c)
  else
    let (heard, channel) := c.publish (.because (w.path ++ " changed"))
    ({ w with changed := false, ended := !heard }, channel)

end Watcher

end RuleBlocks
