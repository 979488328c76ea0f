import RuleBlocks.Registry.Reload
import Mathlib.Logic.Function.Basic

/-!
# Everything that can happen to a registry

Calls come in, go on and are given up, the store is written and made to fail, files change: a
timeline is what has become of a registry after any sequence of such events, in any order. Beside
the system itself it keeps a record of the past, on which nothing that the system does depends:
which version of the store was current when a call began and when its read looked at the store, and
what was published.

* `ReloadEvent`, `Timeline` — one event, and the system with its record;
* `Timeline.step`, `Timeline.run` — the effect of one event and of a sequence;
* `Publication` — what is recorded of a publication;
* `proceed_checking` … `abandon_closed` — all that a call can do, one stage at a time.
-/

namespace RuleBlocks

/-- One event. Those of different calls and writers may follow each other in any order. -/
inductive ReloadEvent
  | begin (initializing : Bool)
  | proceed (call : Nat)
  | abandon (call : Nat)
  | write (change : FragmentStore → FragmentStore)
  | writeFiles (files : String → FileState)
  /-- The next reads are made to fail. What the store holds stays the same. -/
  | failReads (count : Nat)

/-- The call that an event moves. -/
def ReloadEvent.call? : ReloadEvent → Option Nat
  | proceed call => some call
  | abandon call => some call
  | _ => none

/-- A snapshot that was published: by which call, from which version of the store. -/
structure Publication where
  call : Nat
  version : Nat
  fragments : List BuildingBlock

structure Timeline where
  system : ReloadSystem
  files : String → FileState
  /-- How often the store was written. -/
  version : Nat
  /-- What the store held at each version. -/
  contents : Nat → Except StoreError (List BuildingBlock)
  /-- The version that was current when a call began. -/
  begun : Nat → Nat
  /-- The version that was current when the read of a call looked at the store. -/
  looked : Nat → Option Nat
  /-- The oldest comes first. -/
  publications : List Publication

namespace Timeline

/-- A registry that nothing was asked of yet. -/
def start (catalog : FunctionCatalog) (store : FragmentStore) (files : String → FileState) :
    Timeline :=
  { system := .new (.new catalog) store
    files
    version := 0
    contents := fun _ => store.content files
    begun := fun _ => 0
    looked := fun _ => none
    publications := [] }

def stage? (t : Timeline) (call : Nat) : Option CallStage :=
  t.system.calls[call]?

/-- The store holds something new. -/
def rewrite (t : Timeline) (system : ReloadSystem) (files : String → FileState) : Timeline :=
  { t with
    system
    files
    version := t.version + 1
    contents := Function.update t.contents (t.version + 1) (system.store.content files) }

/-- What is recorded when a call goes on. -/
def recordLook (t : Timeline) (call : Nat) : Nat → Option Nat :=
  match t.stage? call with
  | some .reading => Function.update t.looked call (some t.version)
  | _ => t.looked

def recordPublication (t : Timeline) (call : Nat) : List Publication :=
  match t.stage? call with
  | some (.returning (.ok fragments)) =>
    t.publications ++ [{ call, version := (t.looked call).getD 0, fragments }]
  | _ => t.publications

def step (t : Timeline) : ReloadEvent → Timeline
  | .begin initializing =>
    { t with
      system := t.system.begin initializing
      begun := Function.update t.begun t.system.calls.length t.version }
  | .proceed call =>
    { t with
      system := t.system.proceed t.files call
      looked := t.recordLook call
      publications := t.recordPublication call }
  | .abandon call => { t with system := t.system.abandon call }
  | .write change => t.rewrite (t.system.write change) t.files
  | .writeFiles files => t.rewrite t.system files
  | .failReads count => { t with system := t.system.write (.failNext count) }

def run (t : Timeline) (events : List ReloadEvent) : Timeline :=
  events.foldl step t

/-- What a call has come to. -/
def result? (t : Timeline) (call : Nat) : Option (Except StoreError (Option Nat)) :=
  t.system.result? call

/-- A call has a result exactly if it has ended with it. -/
theorem result?_eq_some_iff {t : Timeline} {call : Nat}
    {result : Except StoreError (Option Nat)} :
    t.result? call = some result ↔ t.stage? call = some (.ended result) := by
  unfold result? ReloadSystem.result? stage?
  split
  · rename_i r heq
    rw [heq, Option.some.injEq, Option.some.injEq, CallStage.ended.injEq]
  · rename_i hne
    constructor
    · intro h
      cases h
    · intro h
      exact absurd h (hne result)

-- ---------------------------------------------------------------------------
-- Stages
-- ---------------------------------------------------------------------------

/-- Moving one call moves no other. -/
theorem stage?_set {t : Timeline} {call : Nat} {old : CallStage} (h : t.stage? call = some old)
    (new : CallStage) (i : Nat) :
    (t.system.calls.set call new)[i]? = if i = call then some new else t.stage? i := by
  have hlt : call < t.system.calls.length := (List.getElem?_eq_some_iff.mp h).1
  rw [List.getElem?_set]
  by_cases hi : i = call
  · rw [if_pos hi.symm, if_pos hi, if_pos hlt]
  · rw [if_neg (Ne.symm hi), if_neg hi]
    rfl

theorem getElem?_concat {α : Type} (l : List α) (a : α) (i : Nat) :
    (l ++ [a])[i]? = if i = l.length then some a else l[i]? := by
  rcases Nat.lt_trichotomy i l.length with hlt | heq | hgt
  · rw [List.getElem?_append_left hlt, if_neg (by omega)]
  · rw [if_pos heq, heq, List.getElem?_concat_length]
  · rw [if_neg (by omega), List.getElem?_eq_none (by simp; omega),
      List.getElem?_eq_none (by omega)]

/-- A new call comes last, and moves no other. -/
theorem stage?_begin (t : Timeline) (initializing : Bool) (i : Nat) :
    (t.step (.begin initializing)).stage? i =
      if i = t.system.calls.length then some (if initializing then .checking else .waiting)
      else t.stage? i :=
  getElem?_concat _ _ _

-- ---------------------------------------------------------------------------
-- What a call can do
-- ---------------------------------------------------------------------------

/-- The call has got to a stage; nothing else has changed. -/
def setStage (t : Timeline) (call : Nat) (stage : CallStage) : Timeline :=
  { t with system := t.system.setStage call stage }

section

variable {t : Timeline} {call : Nat}

/-- A call that checks the state ends if the registry is ready, and waits otherwise. -/
theorem proceed_checking (h : t.stage? call = some .checking) :
    t.step (.proceed call) = t.setStage call
      (if t.system.registry.state = .ready then .ended (.ok none) else .waiting) := by
  have hsys : t.system.calls[call]? = some .checking := h
  simp only [step, recordLook, recordPublication, h, ReloadSystem.proceed, hsys, setStage]

/-- A call that waits takes the lock if it is free. -/
theorem proceed_waiting (h : t.stage? call = some .waiting) :
    t.step (.proceed call) = if t.system.isLocked then t else t.setStage call .reading := by
  have hsys : t.system.calls[call]? = some .waiting := h
  simp only [step, recordLook, recordPublication, h, ReloadSystem.proceed, hsys, setStage]
  split <;> rfl

/-- The read looks at the store. -/
theorem proceed_reading (h : t.stage? call = some .reading) :
    t.step (.proceed call) =
      { t with
        system := { t.system with store := (t.system.store.read t.files).2 }.setStage call
          (.returning (t.system.store.read t.files).1)
        looked := Function.update t.looked call (some t.version) } := by
  have hsys : t.system.calls[call]? = some .reading := h
  simp only [step, recordLook, recordPublication, h, ReloadSystem.proceed, hsys]

/-- A call that has read publishes what it has read, and ends. -/
theorem proceed_returning_ok {fragments : List BuildingBlock}
    (h : t.stage? call = some (.returning (.ok fragments))) :
    t.step (.proceed call) =
      { t with
        system := { t.system with registry := t.system.registry.publish fragments }.setStage call
          (.ended (.ok (some (t.system.registry.generation + 1))))
        publications :=
          t.publications ++ [{ call, version := (t.looked call).getD 0, fragments }] } := by
  have hsys : t.system.calls[call]? = some (.returning (.ok fragments)) := h
  simp only [step, recordLook, recordPublication, h, ReloadSystem.proceed, hsys,
    Registry.afterRead, Except.map]

/-- A call that could not read ends with the error. -/
theorem proceed_returning_error {e : StoreError}
    (h : t.stage? call = some (.returning (.error e))) :
    t.step (.proceed call) = t.setStage call (.ended (.error e)) := by
  have hsys : t.system.calls[call]? = some (.returning (.error e)) := h
  simp only [step, recordLook, recordPublication, h, ReloadSystem.proceed, hsys,
    Registry.afterRead, Except.map, setStage]

/-- A call that has ended, or was given up, does nothing more. -/
theorem proceed_closed (h : ∀ stage, t.stage? call = some stage → stage.isOpen = false) :
    t.step (.proceed call) = t := by
  have hsys : t.system.calls[call]? = t.stage? call := rfl
  cases hs : t.stage? call with
  | none => simp only [step, recordLook, recordPublication, hs, ReloadSystem.proceed, hsys]
  | some stage =>
    have hclosed := h stage hs
    cases stage with
    | ended r => simp only [step, recordLook, recordPublication, hs, ReloadSystem.proceed, hsys]
    | abandoned => simp only [step, recordLook, recordPublication, hs, ReloadSystem.proceed, hsys]
    | _ => cases hclosed

/-- An open call can be given up at any stage. -/
theorem abandon_open {stage : CallStage} (h : t.stage? call = some stage)
    (hopen : stage.isOpen = true) : t.step (.abandon call) = t.setStage call .abandoned := by
  have hsys : t.system.calls[call]? = some stage := h
  simp only [step, ReloadSystem.abandon, hsys, Option.any_some, hopen, if_true, setStage]

theorem abandon_closed (h : ∀ stage, t.stage? call = some stage → stage.isOpen = false) :
    t.step (.abandon call) = t := by
  have hsys : (t.system.calls[call]?.any (·.isOpen)) = false := by
    cases hs : t.system.calls[call]? with
    | none => rfl
    | some stage => exact h stage hs
  simp only [step, ReloadSystem.abandon, hsys, Bool.false_eq_true, if_false]

end

-- ---------------------------------------------------------------------------
-- What an event leaves alone
-- ---------------------------------------------------------------------------

theorem recordLook_cases (t : Timeline) (call : Nat) :
    t.recordLook call = t.looked ∨
      t.stage? call = some .reading ∧
        t.recordLook call = Function.update t.looked call (some t.version) := by
  unfold recordLook
  split
  case h_1 hs => exact Or.inr ⟨hs, rfl⟩
  case h_2 => exact Or.inl rfl

/-- An event moves no call but its own. -/
theorem stage?_step_of_ne {t : Timeline} {event : ReloadEvent} {call : Nat} {stage : CallStage}
    (hne : event.call? ≠ some call) (hs : t.stage? call = some stage) :
    (t.step event).stage? call = some stage := by
  -- every event that moves a call moves another one
  have hset : ∀ (s : ReloadSystem) (other : Nat) (new : CallStage), other ≠ call →
      s.calls = t.system.calls → (s.setStage other new).calls[call]? = some stage := by
    intro s other new ho hc
    rw [ReloadSystem.setStage, List.getElem?_set_ne ho, hc]
    exact hs
  cases event with
  | begin initializing =>
    rw [stage?_begin, if_neg]
    · exact hs
    · have hlt : call < t.system.calls.length := (List.getElem?_eq_some_iff.mp hs).1
      omega
  | proceed other =>
    have ho : other ≠ call := fun heq => hne (congrArg some heq)
    show (t.system.proceed t.files other).calls[call]? = some stage
    unfold ReloadSystem.proceed
    split
    · exact hset _ _ _ ho rfl
    · split
      · exact hs
      · exact hset _ _ _ ho rfl
    · exact hset _ _ _ ho rfl
    · exact hset _ _ _ ho rfl
    · exact hs
  | abandon other =>
    have ho : other ≠ call := fun heq => hne (congrArg some heq)
    show (t.system.abandon other).calls[call]? = some stage
    unfold ReloadSystem.abandon
    split
    · exact hset _ _ _ ho rfl
    · exact hs
  | write change => exact hs
  | writeFiles files => exact hs
  | failReads count => exact hs

/-- No event moves a call that has ended or was given up. -/
theorem stage?_step_of_closed {t : Timeline} {event : ReloadEvent} {call : Nat} {stage : CallStage}
    (hclosed : stage.isOpen = false) (hs : t.stage? call = some stage) :
    (t.step event).stage? call = some stage := by
  by_cases hne : event.call? = some call
  · have hall : ∀ s, t.stage? call = some s → s.isOpen = false := by
      intro s h
      rw [hs, Option.some.injEq] at h
      exact h ▸ hclosed
    cases event with
    | proceed other =>
      obtain rfl : other = call := Option.some.inj hne
      rw [proceed_closed hall, hs]
    | abandon other =>
      obtain rfl : other = call := Option.some.inj hne
      rw [abandon_closed hall, hs]
    | _ => cases hne
  · exact stage?_step_of_ne hne hs

/-- What one call has seen, another does not change. -/
theorem looked_step_of_ne {t : Timeline} {event : ReloadEvent} {call : Nat}
    (hne : event.call? ≠ some call) : (t.step event).looked call = t.looked call := by
  cases event with
  | proceed other =>
    show t.recordLook other call = t.looked call
    rcases t.recordLook_cases other with h | ⟨-, h⟩
    · rw [h]
    · rw [h, Function.update_of_ne fun heq => hne (congrArg some heq.symm)]
  | _ => rfl

/-- The store goes on: no version comes back. -/
theorem version_le_step (t : Timeline) (event : ReloadEvent) :
    t.version ≤ (t.step event).version := by
  cases event with
  | write change => exact Nat.le_succ _
  | writeFiles files => exact Nat.le_succ _
  | _ => exact Nat.le_refl _

end Timeline

end RuleBlocks
