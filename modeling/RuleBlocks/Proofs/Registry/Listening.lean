import RuleBlocks.Registry.Listener
import RuleBlocks.Proofs.Registry.Serialization

/-!
# No announced change is lost

Writers change the store and then announce it; a listener takes one notice, drops the others, and
reloads. A notice that finds the queue full is dropped at once, and one that the listener drains is
dropped later, yet no change goes unseen: a notice is in the queue, or the listener is on its way to
a read, or a read of the listener came after the change. This is the invariant, and every step keeps
it: a notice that is dropped leaves another one in the queue, and a listener that drops notices has
its read still before it.

* `ListeningEvent`, `Listening` — a timeline with a listener, writers and other callers;
* `Listening.listen` — a step of the listener, which is that of the library (`listen_eq`);
* `Listening.Covered` — the three ways in which a change is taken care of;
* `Listening.Attentive` — the invariant;
* `announced_writes_are_read` — what has been announced is published, unless a read failed.
-/

namespace RuleBlocks

inductive ListeningEvent
  /-- The listener goes on. -/
  | listen
  | write (writer : Nat) (change : FragmentStore → FragmentStore)
  | writeFiles (writer : Nat) (files : String → FileState)
  /-- A writer announces what it has written. -/
  | publish (writer : Nat) (notice : Notice)
  | addPublisher
  | dropPublisher
  /-- Anything else that can happen to a registry. Only the listener moves its own call. -/
  | elsewhere (event : ReloadEvent)

/-- A registry with a listener and with writers that announce what they have written. -/
structure Listening where
  timeline : Timeline
  listener : Listener
  /-- The versions that each writer has written since it last announced anything. -/
  unannounced : Nat → List Nat
  /-- The versions whose writer has announced them, and was heard. -/
  announced : List Nat
  /-- The reloads of the listener. -/
  attempts : List Nat

/-- What the next step of a listener does to calls. -/
def Listener.event? (l : Listener) (s : ReloadSystem) : Option ReloadEvent :=
  match l.stage with
  | .idle => none
  | .taken =>
    match l.channel.receive.1 with
    | .notice _ => none
    | _ => some (.begin false)
  | .reloading call => if (s.result? call).isSome then none else some (.proceed call)
  | .ended => none

/-- Whether an event moves the call that the listener waits for. -/
def Listener.awaits (l : Listener) (event : ReloadEvent) : Bool :=
  event.call?.any fun call => l.stage == .reloading call

namespace Listening

def start (catalog : FunctionCatalog) (store : FragmentStore) (files : String → FileState)
    (capacity : Nat) : Listening :=
  { timeline := .start catalog store files
    listener := { channel := .new capacity, stage := .idle }
    unannounced := fun _ => []
    announced := []
    attempts := [] }

def listen (w : Listening) : Listening :=
  let listener := (w.listener.step w.timeline.files w.timeline.system).1
  match w.listener.event? w.timeline.system with
  | none => { w with listener }
  | some event =>
    { w with
      listener
      timeline := w.timeline.step event
      attempts :=
        if event.call?.isNone then w.attempts ++ [w.timeline.system.calls.length] else w.attempts }

/-- Note that a writer has written a version. -/
def note (w : Listening) (writer : Nat) (event : ReloadEvent) : Listening :=
  { w with
    timeline := w.timeline.step event
    unannounced := Function.update w.unannounced writer
      (w.unannounced writer ++ [w.timeline.version + 1]) }

/-- A notice goes out, as long as there is a publisher to send it. -/
def publish (w : Listening) (writer : Nat) (notice : Notice) : Listening :=
  if w.listener.channel.publishers = 0 then w
  else
    let (heard, channel) := w.listener.channel.publish notice
    { w with
      listener := { w.listener with channel }
      unannounced := Function.update w.unannounced writer []
      announced := if heard then w.announced ++ w.unannounced writer else w.announced }

def withChannel (w : Listening) (channel : Channel) : Listening :=
  { w with listener := { w.listener with channel } }

def step (w : Listening) : ListeningEvent → Listening
  | .listen => w.listen
  | .write writer change => w.note writer (.write change)
  | .writeFiles writer files => w.note writer (.writeFiles files)
  | .publish writer notice => w.publish writer notice
  | .addPublisher =>
    if w.listener.channel.publishers = 0 then w
    else w.withChannel w.listener.channel.addPublisher
  | .dropPublisher => w.withChannel w.listener.channel.dropPublisher
  | .elsewhere event =>
    if w.listener.awaits event then w else { w with timeline := w.timeline.step event }

def run (w : Listening) (events : List ListeningEvent) : Listening :=
  events.foldl step w

-- ---------------------------------------------------------------------------
-- What is known of a listener
-- ---------------------------------------------------------------------------

/-- The listener has taken a notice and the read of its reload has not looked at the store. -/
def OnTheWay (w : Listening) : Prop :=
  w.listener.stage = .taken ∨
    ∃ call, w.listener.stage = .reloading call ∧ w.timeline.looked call = none

/-- A reload of the listener has looked at the store when it had the version, or later. -/
def ReadSince (w : Listening) (version : Nat) : Prop :=
  ∃ call ∈ w.attempts, ∃ seen, w.timeline.looked call = some seen ∧ version ≤ seen

/-- A version of the store is taken care of. -/
def Covered (w : Listening) (version : Nat) : Prop :=
  w.listener.channel.queue ≠ [] ∨ w.OnTheWay ∨ w.ReadSince version

/-- The listener waits at an empty queue, or has ended. -/
def AtRest (w : Listening) : Prop :=
  w.listener.stage = .idle ∧ w.listener.channel.queue = [] ∨ w.listener.stage = .ended

/-- No reload of the listener that has read since has failed. -/
def Unfailed (w : Listening) (version : Nat) : Prop :=
  ∀ call ∈ w.attempts, ∀ seen, w.timeline.looked call = some seen → version ≤ seen →
    ∀ e, w.timeline.result? call ≠ some (.error e)

end Listening

/-- Whether the stage is one of a reload that nobody has given up. -/
def CallStage.isReload : CallStage → Bool
  | checking => false
  | ended (.ok none) => false
  | abandoned => false
  | _ => true

/-- A reload that goes on is still one. -/
theorem Timeline.isReload_proceed {t : Timeline} {call : Nat} {stage : CallStage}
    (hs : t.stage? call = some stage) (hreload : stage.isReload = true) :
    ∃ new, (t.step (.proceed call)).stage? call = some new ∧ new.isReload = true := by
  match stage, hs, hreload with
  | .waiting, hs, _ =>
    rw [proceed_waiting hs]
    split
    · exact ⟨_, hs, rfl⟩
    · exact ⟨_, (stage?_set hs _ call).trans (if_pos rfl), rfl⟩
  | .reading, hs, _ =>
    rw [proceed_reading hs]
    exact ⟨_, (stage?_set hs _ call).trans (if_pos rfl), rfl⟩
  | .returning (.ok fragments), hs, _ =>
    rw [proceed_returning_ok hs]
    exact ⟨_, (stage?_set hs _ call).trans (if_pos rfl), rfl⟩
  | .returning (.error e), hs, _ =>
    rw [proceed_returning_error hs]
    exact ⟨_, (stage?_set hs _ call).trans (if_pos rfl), rfl⟩
  | .ended (.ok (some g)), hs, _ => exact ⟨_, stage?_step_of_closed rfl hs, rfl⟩
  | .ended (.error e), hs, _ => exact ⟨_, stage?_step_of_closed rfl hs, rfl⟩

namespace Listening

/-- The invariant. -/
structure Attentive (catalog : FunctionCatalog) (w : Listening) : Prop where
  consistent : w.timeline.Consistent catalog
  capacity : 0 < w.listener.channel.capacity
  ended : w.listener.stage = .ended →
    w.listener.channel.queue = [] ∧ w.listener.channel.publishers = 0
  unannounced : ∀ writer, ∀ v ∈ w.unannounced writer, v ≤ w.timeline.version
  announced : ∀ v ∈ w.announced, v ≤ w.timeline.version
  attempts : ∀ call ∈ w.attempts, ∃ stage, w.timeline.stage? call = some stage ∧
    stage.isReload = true ∧ (stage.isOpen = true → w.listener.stage = .reloading call)
  current : ∀ call, w.listener.stage = .reloading call → call ∈ w.attempts
  covered : ∀ v ∈ w.announced, w.Covered v

-- ---------------------------------------------------------------------------
-- Steps of the listener
-- ---------------------------------------------------------------------------

section

variable {w : Listening}

/-- An idle listener takes what is announced. -/
theorem listen_idle_notice {n : Notice} {rest : List Notice} (hs : w.listener.stage = .idle)
    (hq : w.listener.channel.queue = n :: rest) :
    w.listen = { w with
      listener := { channel := { w.listener.channel with queue := rest }, stage := .taken } } := by
  simp only [listen, Listener.event?, Listener.step, hs, Channel.receive, hq]

/-- An idle listener ends if nobody is left to announce anything. -/
theorem listen_idle_empty (hs : w.listener.stage = .idle) (hq : w.listener.channel.queue = []) :
    w.listen = if w.listener.channel.publishers = 0 then
      { w with listener := { w.listener with stage := .ended } } else w := by
  simp only [listen, Listener.event?, Listener.step, hs, Channel.receive, hq]
  by_cases hp : w.listener.channel.publishers = 0 <;> simp only [hp, if_true, if_false]

/-- Having taken one announcement, the listener takes all that is there. -/
theorem listen_taken_notice {n : Notice} {rest : List Notice} (hs : w.listener.stage = .taken)
    (hq : w.listener.channel.queue = n :: rest) :
    w.listen = { w with
      listener := { channel := { w.listener.channel with queue := rest }, stage := .taken } } := by
  simp only [listen, Listener.event?, Listener.step, hs, Channel.receive, hq]

/-- When no announcement is left, it begins to reload. -/
theorem listen_taken_empty (hs : w.listener.stage = .taken)
    (hq : w.listener.channel.queue = []) :
    w.listen = { w with
      listener := { w.listener with stage := .reloading w.timeline.system.calls.length }
      timeline := w.timeline.step (.begin false)
      attempts := w.attempts ++ [w.timeline.system.calls.length] } := by
  simp only [listen, Listener.event?, Listener.step, hs, Channel.receive, hq]
  by_cases hp : w.listener.channel.publishers = 0 <;> simp [hp, ReloadEvent.call?]

/-- It stays with that reload until it has a result. -/
theorem listen_reloading {call : Nat} (hs : w.listener.stage = .reloading call) :
    w.listen = if (w.timeline.result? call).isSome then
      { w with listener := { w.listener with stage := .idle } }
      else { w with timeline := w.timeline.step (.proceed call) } := by
  have hresult : w.timeline.system.result? call = w.timeline.result? call := rfl
  simp only [listen, Listener.event?, Listener.step, hs, hresult]
  cases w.timeline.result? call <;> simp [ReloadEvent.call?]

theorem listen_ended (hs : w.listener.stage = .ended) : w.listen = w := by
  simp only [listen, Listener.event?, Listener.step, hs]

end

/-- A step of the listener is the step of the library: on the listener itself, and on the system
that it shares with others. -/
theorem listen_eq (w : Listening) :
    (w.listen.listener, w.listen.timeline.system) =
      w.listener.step w.timeline.files w.timeline.system := by
  cases hs : w.listener.stage with
  | idle =>
    cases hq : w.listener.channel.queue with
    | nil =>
      rw [listen_idle_empty hs hq]
      by_cases hp : w.listener.channel.publishers = 0 <;>
        simp [Listener.step, hs, Channel.receive, hq, hp]
    | cons n rest =>
      rw [listen_idle_notice hs hq]
      simp [Listener.step, hs, Channel.receive, hq]
  | taken =>
    cases hq : w.listener.channel.queue with
    | nil =>
      rw [listen_taken_empty hs hq]
      by_cases hp : w.listener.channel.publishers = 0 <;>
        simp [Listener.step, hs, Channel.receive, hq, hp, Timeline.step]
    | cons n rest =>
      rw [listen_taken_notice hs hq]
      simp [Listener.step, hs, Channel.receive, hq]
  | reloading call =>
    rw [listen_reloading hs, Timeline.result?]
    cases hr : w.timeline.system.result? call <;> simp [Listener.step, hs, hr, Timeline.step]
  | ended =>
    rw [listen_ended hs]
    simp [Listener.step, hs]

-- ---------------------------------------------------------------------------
-- Every step keeps the invariant
-- ---------------------------------------------------------------------------

section

variable {catalog : FunctionCatalog} {w : Listening}

/-- **Step.** Something happens to the registry that does not move the call of the listener. -/
theorem Attentive.outside (h : w.Attentive catalog) (event : ReloadEvent)
    (hother : w.listener.awaits event = false) :
    Attentive catalog { w with timeline := w.timeline.step event } := by
  have hne : ∀ call, w.listener.stage = .reloading call → event.call? ≠ some call := by
    intro call hs heq
    simp [Listener.awaits, heq, hs] at hother
  have hread : ∀ v, w.ReadSince v →
      ReadSince { w with timeline := w.timeline.step event } v := by
    rintro v ⟨call, hmem, seen, hseen, hle⟩
    exact ⟨call, hmem, seen, h.consistent.looked_step event hseen, hle⟩
  have hversion := Timeline.version_le_step w.timeline event
  constructor
  case consistent => exact h.consistent.step event
  case capacity => exact h.capacity
  case ended => exact h.ended
  case unannounced => exact fun writer v hv => Nat.le_trans (h.unannounced writer v hv) hversion
  case announced => exact fun v hv => Nat.le_trans (h.announced v hv) hversion
  case attempts =>
    intro call hmem
    obtain ⟨stage, hs, hreload, hcurrent⟩ := h.attempts call hmem
    refine ⟨stage, ?_, hreload, hcurrent⟩
    cases hopen : stage.isOpen with
    | true => exact Timeline.stage?_step_of_ne (hne call (hcurrent hopen)) hs
    | false => exact Timeline.stage?_step_of_closed hopen hs
  case current => exact h.current
  case covered =>
    intro v hv
    rcases h.covered v hv with hq | ((htaken | ⟨call, hs, hnone⟩) | hr)
    · exact Or.inl hq
    · exact Or.inr (Or.inl (Or.inl htaken))
    -- the reload that is underway has not looked yet, and this event is not a step of it
    · refine Or.inr (Or.inl (Or.inr ⟨call, hs, ?_⟩))
      exact (Timeline.looked_step_of_ne (hne call hs)).trans hnone
    · exact Or.inr (Or.inr (hread v hr))

/-- **Step.** A writer writes. The new version is not announced yet. -/
theorem Attentive.note (h : w.Attentive catalog) (writer : Nat) {event : ReloadEvent}
    (hcall : event.call? = none) (hversion : (w.timeline.step event).version = w.timeline.version + 1) :
    (w.note writer event).Attentive catalog := by
  have hout := h.outside event (by rw [Listener.awaits, hcall]; rfl)
  refine ⟨hout.consistent, hout.capacity, hout.ended, ?_, hout.announced, hout.attempts,
    hout.current, hout.covered⟩
  intro other v hv
  show v ≤ (w.timeline.step event).version
  -- the new version is the one that the writer has to announce; those of others stay
  change v ∈ Function.update w.unannounced writer
    (w.unannounced writer ++ [w.timeline.version + 1]) other at hv
  by_cases ho : other = writer
  · subst ho
    rw [Function.update_self, List.mem_append, List.mem_singleton] at hv
    rcases hv with hv | rfl
    · have := h.unannounced other v hv
      omega
    · omega
  · rw [Function.update_of_ne ho] at hv
    exact hout.unannounced other v hv

/-- **Step.** A notice that is heard leaves a notice in the queue, whether or not there was room
for it: all that its writer has written is taken care of. -/
theorem Attentive.publish (h : w.Attentive catalog) (writer : Nat) (notice : Notice) :
    (w.publish writer notice).Attentive catalog := by
  unfold Listening.publish
  split
  case isTrue => exact h
  case isFalse hpublishers =>
    have hcovered : ∀ v, w.Covered v →
        (w.withChannel (w.listener.channel.publish notice).2).Covered v := by
      rintro v (hq | hrest)
      · exact Or.inl (Channel.queue_publish_ne_nil notice hq)
      · exact Or.inr hrest
    refine ⟨h.consistent, ?_, ?_, ?_, ?_, h.attempts, h.current, ?_⟩
    · exact (Channel.capacity_publish _ _).symm ▸ h.capacity
    · intro hended
      -- the listener ends only when nobody is left to publish
      exact absurd (h.ended hended).2 hpublishers
    · intro other v hv
      by_cases ho : other = writer
      · subst ho
        simp at hv
      · simp only [Function.update_of_ne ho] at hv
        exact h.unannounced other v hv
    · intro v hv
      simp only at hv
      split at hv
      · rcases List.mem_append.mp hv with hv | hv
        · exact h.announced v hv
        · exact h.unannounced writer v hv
      · exact h.announced v hv
    · intro v hv
      simp only at hv
      split at hv
      -- if the listener hears of it something is queued, even when the oldest had to go
      case isTrue hheard =>
        exact Or.inl (Channel.queue_ne_nil_of_publish h.capacity hheard)
      case isFalse => exact hcovered v (h.covered v hv)

/-- **Step.** Publishers come and go. Without any there will never be one again. -/
theorem Attentive.withPublishers (h : w.Attentive catalog) {channel : Channel}
    (hqueue : channel.queue = w.listener.channel.queue)
    (hcapacity : channel.capacity = w.listener.channel.capacity)
    (hnone : w.listener.channel.publishers = 0 → channel.publishers = 0) :
    (w.withChannel channel).Attentive catalog where
  consistent := h.consistent
  capacity := hcapacity ▸ h.capacity
  ended hended := ⟨hqueue.trans (h.ended hended).1, hnone (h.ended hended).2⟩
  unannounced := h.unannounced
  announced := h.announced
  attempts := h.attempts
  current := h.current
  covered v hv := (h.covered v hv).imp_left fun hq => hqueue ▸ hq

/-- **Step.** The listener takes a notice, the first one or one more. Its read is still before
it, so whatever was taken care of still is. -/
theorem Attentive.take (h : w.Attentive catalog) (rest : List Notice)
    (hs : w.listener.stage = .idle ∨ w.listener.stage = .taken) :
    Attentive catalog { w with
      listener := { channel := { w.listener.channel with queue := rest }, stage := .taken } } where
  consistent := h.consistent
  capacity := h.capacity
  ended hended := by cases hended
  unannounced := h.unannounced
  announced := h.announced
  attempts call hmem := by
    obtain ⟨stage, hstage, hreload, hcurrent⟩ := h.attempts call hmem
    refine ⟨stage, hstage, hreload, fun hopen => ?_⟩
    rcases hs with hs | hs <;> rw [hcurrent hopen] at hs <;> cases hs
  current call hcall := by cases hcall
  covered v _ := Or.inr (Or.inl (Or.inl rfl))

/-- **Step.** The queue is drained and the listener begins its reload. -/
theorem Attentive.beginReload (h : w.Attentive catalog) (hs : w.listener.stage = .taken) :
    Attentive catalog { w with
      listener := { w.listener with stage := .reloading w.timeline.system.calls.length }
      timeline := w.timeline.step (.begin false)
      attempts := w.attempts ++ [w.timeline.system.calls.length] } := by
  set call := w.timeline.system.calls.length with hcall
  -- the reload that begins has looked at nothing yet, so it will see all that was announced
  have hfresh : w.timeline.looked call = none :=
    h.consistent.fresh call (List.getElem?_eq_none (Nat.le_refl _))
  have hout := h.outside (.begin false) rfl
  refine ⟨hout.consistent, h.capacity, fun hended => (by cases hended), hout.unannounced,
    hout.announced, ?_, ?_, ?_⟩
  · intro other hmem
    rcases List.mem_append.mp hmem with hmem | hmem
    · obtain ⟨stage, hstage, hreload, hcurrent⟩ := hout.attempts other hmem
      refine ⟨stage, hstage, hreload, fun hopen => ?_⟩
      have := hcurrent hopen
      rw [hs] at this
      cases this
    · rw [List.mem_singleton] at hmem
      subst hmem
      exact ⟨.waiting, (Timeline.stage?_begin _ _ _).trans (if_pos rfl), rfl, fun _ => rfl⟩
  · intro other hother
    obtain rfl : call = other := by simpa using hother
    exact List.mem_append_right _ (List.mem_singleton.mpr rfl)
  · exact fun v _ => Or.inr (Or.inl (Or.inr ⟨call, rfl, hfresh⟩))

/-- **Step.** The reload of the listener goes on. When its read looks at the store, it sees a
version that is at least as new as all that has been announced. -/
theorem Attentive.proceedReload (h : w.Attentive catalog) {call : Nat}
    (hs : w.listener.stage = .reloading call) :
    Attentive catalog { w with timeline := w.timeline.step (.proceed call) } := by
  have hmem := h.current call hs
  obtain ⟨stage, hstage, hreload, -⟩ := h.attempts call hmem
  have hversion := Timeline.version_le_step w.timeline (.proceed call)
  constructor
  case consistent => exact h.consistent.step (.proceed call)
  case capacity => exact h.capacity
  case ended => exact h.ended
  case unannounced => exact fun writer v hv => Nat.le_trans (h.unannounced writer v hv) hversion
  case announced => exact fun v hv => Nat.le_trans (h.announced v hv) hversion
  case attempts =>
    intro other hother
    by_cases hc : other = call
    · subst hc
      obtain ⟨new, hnew, hnewReload⟩ := Timeline.isReload_proceed hstage hreload
      exact ⟨new, hnew, hnewReload, fun _ => hs⟩
    · obtain ⟨old, hold, holdReload, hcurrent⟩ := h.attempts other hother
      refine ⟨old, Timeline.stage?_step_of_ne ?_ hold, holdReload, hcurrent⟩
      exact fun heq => hc (Option.some.inj heq).symm
  case current => exact h.current
  case covered =>
    intro v hv
    rcases h.covered v hv with hq | ((htaken | ⟨other, ho, hnone⟩) | hr)
    · exact Or.inl hq
    · exact Or.inr (Or.inl (Or.inl htaken))
    · -- the read looks at the store now, or it is still before the listener
      obtain rfl : call = other := by simpa [hs] using ho
      rcases w.timeline.recordLook_cases call with hlook | ⟨-, hlook⟩
      · exact Or.inr (Or.inl (Or.inr ⟨call, hs, (congrFun hlook call).trans hnone⟩))
      · refine Or.inr (Or.inr ⟨call, hmem, w.timeline.version, ?_, h.announced v hv⟩)
        exact (congrFun hlook call).trans (Function.update_self ..)
    · obtain ⟨other, hother, seen, hseen, hle⟩ := hr
      exact Or.inr (Or.inr ⟨other, hother, seen, h.consistent.looked_step (.proceed call) hseen, hle⟩)

/-- A reload of the listener that has ended has looked at the store. -/
theorem Attentive.looked_of_ended (h : w.Attentive catalog) {call : Nat}
    {result : Except StoreError (Option Nat)} (hmem : call ∈ w.attempts)
    (hended : w.timeline.stage? call = some (.ended result)) :
    ∃ seen, w.timeline.looked call = some seen := by
  obtain ⟨stage, hstage, hreload, -⟩ := h.attempts call hmem
  rw [hended, Option.some.injEq] at hstage
  subst hstage
  match result, hended, hreload with
  | .ok (some g), hended, _ =>
    obtain ⟨k, p, -, hp, rfl⟩ := h.consistent.calls call _ hended
    exact ⟨p.version, (h.consistent.publications k p hp).looked⟩
  | .error e, hended, _ => exact Option.isSome_iff_exists.mp (h.consistent.calls call _ hended)

/-- **Step.** The reload of the listener has ended, and the listener turns to the queue again. -/
theorem Attentive.endReload (h : w.Attentive catalog) {call : Nat}
    {result : Except StoreError (Option Nat)} (hs : w.listener.stage = .reloading call)
    (hresult : w.timeline.result? call = some result) :
    Attentive catalog { w with listener := { w.listener with stage := .idle } } := by
  have hended := Timeline.result?_eq_some_iff.mp hresult
  refine ⟨h.consistent, h.capacity, fun he => (by cases he), h.unannounced, h.announced, ?_,
    fun other ho => (by cases ho), ?_⟩
  · intro other hmem
    obtain ⟨stage, hstage, hreload, hcurrent⟩ := h.attempts other hmem
    refine ⟨stage, hstage, hreload, fun hopen => ?_⟩
    obtain rfl : call = other := by simpa [hs] using hcurrent hopen
    rw [hended, Option.some.injEq] at hstage
    subst hstage
    cases hopen
  · intro v hv
    rcases h.covered v hv with hq | ((htaken | ⟨other, ho, hnone⟩) | hr)
    · exact Or.inl hq
    · rw [hs] at htaken
      cases htaken
    · obtain rfl : call = other := by simpa [hs] using ho
      -- a reload ends only after it has looked
      obtain ⟨seen, hseen⟩ := h.looked_of_ended (h.current call hs) hended
      rw [hnone] at hseen
      cases hseen
    · exact Or.inr (Or.inr hr)

/-- **Step.** The listener ends: nothing is queued and nobody can publish. -/
theorem Attentive.endListener (h : w.Attentive catalog) (hs : w.listener.stage = .idle)
    (hqueue : w.listener.channel.queue = []) (hpublishers : w.listener.channel.publishers = 0) :
    Attentive catalog { w with listener := { w.listener with stage := .ended } } where
  consistent := h.consistent
  capacity := h.capacity
  ended _ := ⟨hqueue, hpublishers⟩
  unannounced := h.unannounced
  announced := h.announced
  attempts call hmem := by
    obtain ⟨stage, hstage, hreload, hcurrent⟩ := h.attempts call hmem
    refine ⟨stage, hstage, hreload, fun hopen => ?_⟩
    rw [hcurrent hopen] at hs
    cases hs
  current call hcall := by cases hcall
  covered v hv := by
    rcases h.covered v hv with hq | ((htaken | ⟨other, ho, -⟩) | hr)
    · exact absurd hqueue hq
    · rw [hs] at htaken
      cases htaken
    · rw [hs] at ho
      cases ho
    · exact Or.inr (Or.inr hr)

/-- **A step of the listener keeps the invariant.** -/
theorem Attentive.listen (h : w.Attentive catalog) : w.listen.Attentive catalog := by
  cases hs : w.listener.stage with
  | idle =>
    cases hq : w.listener.channel.queue with
    | nil =>
      rw [listen_idle_empty hs hq]
      split
      case isTrue hpublishers => exact h.endListener hs hq hpublishers
      case isFalse => exact h
    | cons n rest =>
      rw [listen_idle_notice hs hq]
      exact h.take rest (Or.inl hs)
  | taken =>
    cases hq : w.listener.channel.queue with
    | nil =>
      rw [listen_taken_empty hs hq]
      exact h.beginReload hs
    | cons n rest =>
      rw [listen_taken_notice hs hq]
      exact h.take rest (Or.inr hs)
  | reloading call =>
    rw [listen_reloading hs]
    split
    case isTrue hsome =>
      obtain ⟨result, hresult⟩ := Option.isSome_iff_exists.mp hsome
      exact h.endReload hs hresult
    case isFalse => exact h.proceedReload hs
  | ended =>
    rw [listen_ended hs]
    exact h

/-- **Every event keeps the invariant.** -/
theorem Attentive.step (h : w.Attentive catalog) (event : ListeningEvent) :
    (w.step event).Attentive catalog := by
  cases event with
  | listen => exact h.listen
  | write writer change => exact h.note writer rfl rfl
  | writeFiles writer files => exact h.note writer rfl rfl
  | publish writer notice => exact h.publish writer notice
  | addPublisher =>
    simp only [Listening.step]
    split
    case isTrue => exact h
    case isFalse hpublishers =>
      exact h.withPublishers rfl rfl fun hnone => absurd hnone hpublishers
  | dropPublisher =>
    exact h.withPublishers rfl rfl fun hnone => by simp [Channel.dropPublisher, hnone]
  | elsewhere event =>
    simp only [Listening.step]
    split
    case isTrue => exact h
    case isFalse hother => exact h.outside event (Bool.eq_false_iff.mpr hother)

/-- At the start nothing is announced. -/
theorem attentive_start (catalog : FunctionCatalog) (store : FragmentStore)
    (files : String → FileState) (capacity : Nat) :
    (start catalog store files capacity).Attentive catalog where
  consistent := Timeline.consistent_start catalog store files
  capacity := Nat.lt_of_lt_of_le Nat.one_pos (Nat.le_max_left 1 capacity)
  ended hended := by cases hended
  unannounced _ _ hv := by cases hv
  announced _ hv := by cases hv
  attempts _ hmem := by cases hmem
  current _ hcall := by cases hcall
  covered _ hv := by cases hv

/-- Every sequence of events keeps the invariant. -/
theorem Attentive.run (h : w.Attentive catalog) (events : List ListeningEvent) :
    (w.run events).Attentive catalog := by
  induction events generalizing w with
  | nil => exact h
  | cons event rest ih => exact ih (h.step event)

-- ---------------------------------------------------------------------------
-- What is published
-- ---------------------------------------------------------------------------

/-- A listener at rest has no reload under way, so every change that was announced has been read. -/
theorem Attentive.readSince (h : w.Attentive catalog) (hrest : w.AtRest) {v : Nat}
    (hv : v ∈ w.announced) : w.ReadSince v := by
  have hqueue : w.listener.channel.queue = [] := hrest.elim (·.2) fun he => (h.ended he).1
  have hstage : w.listener.stage = .idle ∨ w.listener.stage = .ended := hrest.imp_left (·.1)
  rcases h.covered v hv with hq | ((htaken | ⟨call, hs, -⟩) | hr)
  · exact absurd hqueue hq
  · rw [htaken] at hstage
    rcases hstage with hs | hs <;> cases hs
  · rw [hs] at hstage
    rcases hstage with hs | hs <;> cases hs
  · exact hr

/-- A reload that has read a version and has not failed has published it, and what is published last
is at least as new. -/
theorem Attentive.published (h : w.Attentive catalog) (hrest : w.AtRest) {v : Nat}
    (hread : w.ReadSince v) (hunfailed : w.Unfailed v) :
    ∃ p, w.timeline.publications.getLast? = some p ∧ v ≤ p.version := by
  obtain ⟨call, hmem, seen, hseen, hle⟩ := hread
  obtain ⟨stage, hs, hreload, hcurrent⟩ := h.attempts call hmem
  have hclosed : stage.isOpen = false := by
    rw [← Bool.not_eq_true]
    intro hopen
    rcases hrest with ⟨hidle, -⟩ | hended
    · rw [hcurrent hopen] at hidle
      cases hidle
    · rw [hcurrent hopen] at hended
      cases hended
  match stage, hs, hreload, hclosed with
  | .ended (.error e), hs, _, _ =>
    exact absurd (Timeline.result?_eq_some_iff.mpr hs) (hunfailed call hmem seen hseen hle e)
  | .ended (.ok (some g)), hs, _, _ =>
    obtain ⟨k, p, -, hp, rfl⟩ := h.consistent.calls call _ hs
    have hversion : p.version = seen := by
      rw [(h.consistent.publications k p hp).looked, Option.some.injEq] at hseen
      exact hseen
    obtain ⟨last, hlast⟩ : ∃ q, w.timeline.publications.getLast? = some q :=
      Option.ne_none_iff_exists'.mp fun hnone => by
        rw [List.getLast?_eq_none_iff] at hnone
        simp [hnone] at hp
    have hlater := h.consistent.version_le_last (List.mem_of_getElem? hp) hlast
    exact ⟨last, hlast, by omega⟩

end

/--
**No announced change is lost.** Take a new registry over any store, a listener with a queue of any
size, any writers and any other calls, and any order of events. Every version of the store whose
writer has announced it and was heard is taken care of. When the listener is at rest and none of its
reads since has failed, the snapshot that is served was made from that version or a later one.
-/
theorem announced_writes_are_read (catalog : FunctionCatalog) (store : FragmentStore)
    (files : String → FileState) (capacity : Nat) (events : List ListeningEvent) :
    let w := (start catalog store files capacity).run events
    ∀ v ∈ w.announced, w.Covered v ∧ (w.AtRest → w.Unfailed v →
      ∃ p, w.timeline.publications.getLast? = some p ∧ v ≤ p.version ∧
        w.timeline.contents p.version = .ok p.fragments ∧
        w.timeline.system.registry.snapshot =
          .ok (.build catalog p.fragments w.timeline.system.registry.generation)) := by
  intro w v hv
  have h : w.Attentive catalog := (attentive_start catalog store files capacity).run events
  refine ⟨h.covered v hv, fun hrest hunfailed => ?_⟩
  obtain ⟨p, hp, hle⟩ := h.published hrest (h.readSince hrest hv) hunfailed
  have hserialized := h.consistent.serialized
  have hwhole := hserialized.whole p (List.mem_of_getLast? hp)
  exact ⟨p, hp, hle, hwhole.2.2, hserialized.served p hp⟩

/-- Two writers announce one after the other, and there is room for one notice only. The listener
reloads once, and what it publishes holds the second write too. -/
theorem announced_writes_are_read_once :
    let w := (start .empty .empty (fun _ => .missing) 0).run
      [.write 0 fun _ => .memory (.ofList []), .write 1 fun _ => .empty, .publish 0 .plain,
        .publish 1 .plain, .listen, .listen, .listen, .listen, .listen, .listen]
    2 ∈ w.announced ∧ w.AtRest ∧ w.Unfailed 2 ∧ w.timeline.publications.length = 1 ∧
      w.Covered 2 ∧
      ∃ p, w.timeline.publications.getLast? = some p ∧ 2 ≤ p.version ∧
        w.timeline.contents p.version = .ok p.fragments ∧
        w.timeline.system.registry.snapshot =
          .ok (.build .empty p.fragments w.timeline.system.registry.generation) := by
  intro w
  have hmem : 2 ∈ w.announced := by decide
  have hrest : w.AtRest := Or.inl ⟨rfl, rfl⟩
  have hunfailed : w.Unfailed 2 := by
    intro call hcall seen _ _ e
    have hzero : call = 0 := List.mem_singleton.mp hcall
    rw [hzero, show w.timeline.result? 0 = some (.ok (some 1)) from rfl]
    simp
  have h := announced_writes_are_read .empty .empty (fun _ => .missing) 0 _ 2 hmem
  exact ⟨hmem, hrest, hunfailed, rfl, h.1, h.2 hrest hunfailed⟩

end Listening

end RuleBlocks
