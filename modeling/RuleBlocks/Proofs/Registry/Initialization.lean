import RuleBlocks.Proofs.Registry.Serialization
import Mathlib.Data.List.Induction

/-!
# Initializations side by side

An initialization looks whether there is a snapshot before it takes the lock, and does not look
again when it has got it. Several that look before the first publication therefore all go on, one
after the other: each of them reads the store and publishes, or fails although there is a snapshot
by then. What bounds this is that nobody joins them later. From the first publication on every
other initialization finds that there is nothing to do.

* `CallStage.isUnderway` — the call has looked and will read and publish;
* `Timeline.Effect`, `Timeline.effect_step` — all that an event does to calls and registry, where
  every call is an initialization;
* `Timeline.Completes` — a timeline brings to an end what was underway in an earlier one, no more;
* `Completes.first`, `Completes.step` — the first publication begins it, every event keeps it;
* `initializations_complete` — what a registry has come to by initializations alone;
* `initializations_publish_twice` — two of them that both looked too early.
-/

namespace RuleBlocks

/-- A call that is not an initialization begins. -/
def ReloadEvent.isExplicit : ReloadEvent → Bool
  | begin initializing => !initializing
  | _ => false

namespace CallStage

/-- Whether the call goes for the lock or has it. -/
def isUnderway : CallStage → Bool
  | waiting => true
  | reading => true
  | returning _ => true
  | _ => false

/-- A call gets from one stage to the next, and nothing is published. -/
inductive Moves (state : RegistryState) : CallStage → CallStage → Prop
  | check : Moves state .checking (if state = .ready then .ended (.ok none) else .waiting)
  | lock : Moves state .waiting .reading
  | look (found : Except StoreError (List BuildingBlock)) : Moves state .reading (.returning found)
  | fail (e : StoreError) : Moves state (.returning (.error e)) (.ended (.error e))
  | giveUp {stage : CallStage} (hOpen : stage.isOpen = true) : Moves state stage .abandoned

end CallStage

namespace Timeline

-- ---------------------------------------------------------------------------
-- All that an event does
-- ---------------------------------------------------------------------------

/-- What an event does to the calls and to the registry. -/
inductive Effect (t t' : Timeline) : Prop
  | unchanged (hRegistry : t'.system.registry = t.system.registry)
    (hCalls : t'.system.calls = t.system.calls)
  | begin (hRegistry : t'.system.registry = t.system.registry)
    (hCalls : t'.system.calls = t.system.calls ++ [.checking])
  | move {call : Nat} {old new : CallStage} (hStage : t.stage? call = some old)
    (hMoves : CallStage.Moves t.system.registry.state old new)
    (hRegistry : t'.system.registry = t.system.registry)
    (hCalls : t'.system.calls = t.system.calls.set call new)
  | publish {call : Nat} {fragments : List BuildingBlock}
    (hStage : t.stage? call = some (.returning (.ok fragments)))
    (hRegistry : t'.system.registry = t.system.registry.publish fragments)
    (hCalls : t'.system.calls =
      t.system.calls.set call (.ended (.ok (some (t.system.registry.generation + 1)))))

/-- What a step of a call does, stage by stage. -/
theorem effect_proceed (t : Timeline) (call : Nat) : t.Effect (t.step (.proceed call)) := by
  have hSame (h : t.step (.proceed call) = t) : t.Effect (t.step (.proceed call)) := by
    rw [h]
    exact .unchanged rfl rfl
  cases hStage : t.stage? call with
  | none => exact hSame (proceed_closed (by simp [hStage]))
  | some stage =>
    cases stage with
    | checking =>
      rw [proceed_checking hStage]
      exact .move hStage .check rfl rfl
    | waiting =>
      rw [proceed_waiting hStage]
      split
      · exact .unchanged rfl rfl
      · exact .move hStage .lock rfl rfl
    | reading =>
      rw [proceed_reading hStage]
      exact .move hStage (.look _) rfl rfl
    | returning found =>
      cases found with
      | error e =>
        rw [proceed_returning_error hStage]
        exact .move hStage (.fail e) rfl rfl
      | ok fragments =>
        rw [proceed_returning_ok hStage]
        exact .publish hStage rfl rfl
    | ended r => exact hSame (proceed_closed (by simp [hStage, CallStage.isOpen]))
    | abandoned => exact hSame (proceed_closed (by simp [hStage, CallStage.isOpen]))

/-- Giving up a call ends it without a result. -/
theorem effect_abandon (t : Timeline) (call : Nat) : t.Effect (t.step (.abandon call)) := by
  by_cases hOpen : ∃ stage, t.stage? call = some stage ∧ stage.isOpen = true
  · obtain ⟨stage, hStage, hOpen⟩ := hOpen
    rw [abandon_open hStage hOpen]
    exact .move hStage (.giveUp hOpen) rfl rfl
  · push Not at hOpen
    rw [abandon_closed fun stage hStage => Bool.eq_false_iff.mpr (hOpen stage hStage)]
    exact .unchanged rfl rfl

/-- **All that an event does**, unless it asks for a reload. -/
theorem effect_step (t : Timeline) {event : ReloadEvent} (h : event.isExplicit = false) :
    t.Effect (t.step event) := by
  cases event with
  | begin initializing =>
    cases initializing with
    | true => exact .begin rfl rfl
    | false => cases h
  | proceed call => exact t.effect_proceed call
  | abandon call => exact t.effect_abandon call
  | write change => exact .unchanged rfl rfl
  | writeFiles files => exact .unchanged rfl rfl
  | failReads count => exact .unchanged rfl rfl

-- ---------------------------------------------------------------------------
-- Calls that are underway
-- ---------------------------------------------------------------------------

/-- No call gets underway on a registry that is ready: those that check it end at once. -/
def isUnderway (t : Timeline) (call : Nat) : Bool :=
  (t.stage? call).any (·.isUnderway)

/-- The number of calls that are underway. -/
def underway (t : Timeline) : Nat :=
  t.system.calls.countP (·.isUnderway)

variable {t t' : Timeline}

theorem isUnderway_of_stage? {call : Nat} {stage : CallStage}
    (hStage : t.stage? call = some stage) : t.isUnderway call = stage.isUnderway := by
  rw [isUnderway, hStage, Option.any_some]

/-- Moving one call changes the number of those underway by that call only. -/
theorem underway_set {call : Nat} {old new : CallStage} (hStage : t.stage? call = some old)
    (hCalls : t'.system.calls = t.system.calls.set call new) :
    t'.underway + (if old.isUnderway then 1 else 0) =
      t.underway + (if new.isUnderway then 1 else 0) := by
  obtain ⟨hLt, hOld⟩ := List.getElem?_eq_some_iff.mp hStage
  have hCounted : (if old.isUnderway then 1 else 0) ≤ t.underway := by
    split
    · next h => exact List.countP_pos_iff.mpr ⟨old, List.mem_of_getElem? hStage, h⟩
    · exact Nat.zero_le _
  rw [underway, hCalls, List.countP_set hLt, hOld]
  rw [underway] at hCounted ⊢
  omega

namespace Effect

/-- Where there is a snapshot afterwards, a call stands where it stood, was underway, or has come to
a stage that leads to no publication. -/
theorem stage?_cases (h : t.Effect t') (hReady : t'.system.registry.state = .ready) {call : Nat}
    {stage : CallStage} (hStage : t'.stage? call = some stage) :
    t.stage? call = some stage ∨ t.isUnderway call = true ∨
      stage = .checking ∨ stage = .ended (.ok none) ∨ stage = .abandoned := by
  rw [stage?] at hStage
  cases h with
  | unchanged _ hCalls =>
    rw [hCalls] at hStage
    exact .inl hStage
  | begin _ hCalls =>
    rw [hCalls, getElem?_concat] at hStage
    split at hStage
    · exact .inr (.inr (.inl (Option.some.inj hStage).symm))
    · exact .inl hStage
  | move hOld hMoves hRegistry hCalls =>
    rw [hCalls, stage?_set hOld] at hStage
    split at hStage
    · next hSame =>
      subst hSame
      obtain rfl := Option.some.inj hStage
      rw [isUnderway_of_stage? hOld]
      rw [hRegistry] at hReady
      -- nobody gets underway any more: whoever looks finds the snapshot
      cases hMoves with
      | check => simp [hReady]
      | lock => simp [CallStage.isUnderway]
      | look found => simp [CallStage.isUnderway]
      | fail e => simp [CallStage.isUnderway]
      | giveUp hOpen => simp
    · exact .inl hStage
  | publish hOld hRegistry hCalls =>
    rw [hCalls, stage?_set hOld] at hStage
    split at hStage
    · next hSame =>
      subst hSame
      exact .inr (.inl (isUnderway_of_stage? hOld))
    · exact .inl hStage

/-- A publication is made by a call that was underway, and nobody takes its place. -/
theorem count (h : t.Effect t') (hReady : t'.system.registry.state = .ready) :
    t'.system.registry.generation + t'.underway ≤ t.system.registry.generation + t.underway := by
  cases h with
  | unchanged hRegistry hCalls =>
    rw [hRegistry, underway, hCalls]
    exact Nat.le_refl _
  | begin hRegistry hCalls =>
    rw [hRegistry, underway, hCalls, List.countP_append]
    exact Nat.le_refl _
  | move hStage hMoves hRegistry hCalls =>
    have hCount := underway_set hStage hCalls
    rw [hRegistry] at hReady ⊢
    refine Nat.add_le_add_left ?_ _
    -- a move leaves the counter alone, so it is the calls underway that matter
    cases hMoves with
    | check =>
      rw [if_pos hReady] at hCount
      exact Nat.le_of_eq hCount
    | lock => exact Nat.le_of_eq (Nat.succ.inj hCount)
    | look found => exact Nat.le_of_eq (Nat.succ.inj hCount)
    | fail e => exact Nat.le_of_succ_le (Nat.le_of_eq hCount)
    | giveUp hOpen => exact Nat.le.intro hCount
  | publish hStage hRegistry hCalls =>
    -- the call that publishes is no longer underway: one more there, one less here
    have hCount : t'.underway + 1 = t.underway := underway_set hStage hCalls
    rw [hRegistry, ← hCount, Registry.publish]
    dsimp only
    omega

/-- A registry that is ready stays so. -/
theorem ready (h : t.Effect t') (hReady : t.system.registry.state = .ready) :
    t'.system.registry.state = .ready := by
  cases h with
  | publish hStage hRegistry hCalls => rw [hRegistry]; rfl
  | _ => simp only [*]

end Effect

-- ---------------------------------------------------------------------------
-- From the first publication on
-- ---------------------------------------------------------------------------

/-- From the moment of the first publication on, only what was underway at that moment comes to an
end. -/
structure Completes (first t : Timeline) : Prop where
  ready : t.system.registry.state = .ready
  /-- There are as many publications at most as calls were underway, those included that still
  are. -/
  count : t.system.registry.generation + t.underway ≤ first.underway
  underway : ∀ call, t.isUnderway call = true → first.isUnderway call = true
  /-- All other calls had ended before, or find that there is nothing to do. -/
  results : ∀ call result, t.result? call = some result →
    result = .ok none ∨ first.result? call = some result ∨ first.isUnderway call = true

namespace Effect

theorem isUnderway (h : t.Effect t') (hReady : t'.system.registry.state = .ready) {call : Nat}
    (hUnderway : t'.isUnderway call = true) : t.isUnderway call = true := by
  obtain ⟨stage, hStage, hStageUnderway⟩ := Option.any_eq_true .. |>.mp hUnderway
  obtain hSame | hBefore | rfl | rfl | rfl := h.stage?_cases hReady hStage
  · rw [isUnderway_of_stage? hSame, hStageUnderway]
  · exact hBefore
  all_goals cases hStageUnderway

/-- A result was there before, or is that of a call that was underway, or says that all is done. -/
theorem result?_cases (h : t.Effect t') (hReady : t'.system.registry.state = .ready) {call : Nat}
    {result : Except StoreError (Option Nat)} (hResult : t'.result? call = some result) :
    result = .ok none ∨ t.result? call = some result ∨ t.isUnderway call = true := by
  rw [result?_eq_some_iff] at hResult ⊢
  obtain hSame | hBefore | hEnded | hEnded | hEnded := h.stage?_cases hReady hResult
  · exact .inr (.inl hSame)
  · exact .inr (.inr hBefore)
  · cases hEnded
  · exact .inl (CallStage.ended.inj hEnded)
  · cases hEnded

end Effect

/-- **The first publication.** -/
theorem Completes.first (h : t.Effect t') (hNone : t.system.registry.generation = 0)
    (hReady : t'.system.registry.state = .ready) : t.Completes t' where
  ready := hReady
  count := by simpa only [hNone, Nat.zero_add] using h.count hReady
  underway := fun _ => h.isUnderway hReady
  results := fun _ _ => h.result?_cases hReady

/-- **Every event after it.** -/
theorem Completes.step {first : Timeline} (h : first.Completes t) (hEffect : t.Effect t') :
    first.Completes t' where
  ready := hEffect.ready h.ready
  count := Nat.le_trans (hEffect.count (hEffect.ready h.ready)) h.count
  underway := fun call hUnderway =>
    h.underway call (hEffect.isUnderway (hEffect.ready h.ready) hUnderway)
  results := by
    intro call result hResult
    obtain hNothing | hBefore | hUnderway := hEffect.result?_cases (hEffect.ready h.ready) hResult
    · exact .inl hNothing
    · exact h.results call result hBefore
    · exact .inr (.inr (h.underway call hUnderway))

theorem run_concat (t : Timeline) (events : List ReloadEvent) (event : ReloadEvent) :
    t.run (events ++ [event]) = (t.run events).step event := by
  rw [run, List.foldl_append]
  rfl

/--
**What initializations do side by side.** A new registry of which nothing is asked but to be
initialized, by any number of calls and in any order: either nothing has been published so far, or
there was a first publication, and since then nothing but the calls that were underway at that
moment has come to an end. So there are as many publications at most as calls were underway, and who
fails either had failed before the first publication or was underway when it was made.
-/
theorem initializations_complete (catalog : FunctionCatalog) (store : FragmentStore)
    (files : String → FileState) {events : List ReloadEvent}
    (hOnly : ∀ event ∈ events, event.isExplicit = false) :
    let t := start catalog store files
    ((t.run events).system.registry.state = .initializing ∧
      (t.run events).system.registry.generation = 0) ∨
    ∃ before call after, events = before ++ .proceed call :: after ∧
      (t.run before).system.registry.state = .initializing ∧
      (t.run (before ++ [.proceed call])).system.registry.state = .ready ∧
      (t.run before).Completes (t.run events) := by
  intro t
  induction events using List.reverseRecOn with
  | nil => exact .inl ⟨rfl, rfl⟩
  | append_singleton events event ih =>
    obtain ⟨hBefore, hEvent⟩ := List.forall_mem_append.mp hOnly
    have hEffect : (t.run events).Effect (t.run (events ++ [event])) := by
      rw [run_concat]
      exact effect_step _ (hEvent event List.mem_cons_self)
    obtain ⟨hState, hNone⟩ | ⟨before, call, after, rfl, hState, hFirst, hCompletes⟩ := ih hBefore
    -- not ready before: either still not, or it is this event that has made it so
    · cases hNow : (t.run (events ++ [event])).system.registry.state with
      | initializing =>
        have hConsistent := consistent_run catalog store files (events ++ [event])
        have hUnpublished := hConsistent.serialized.initializing.mp hNow
        exact .inl ⟨rfl, hConsistent.generation_eq.trans hUnpublished⟩
      | ready =>
        have hChange : ((t.run events).step event).system.registry ≠
            (t.run events).system.registry := by
          intro hSame
          rw [run_concat, hSame, hState] at hNow
          cases hNow
        obtain ⟨call, rfl, -, -⟩ := registry_step _ event hChange
        exact .inr ⟨events, call, [], rfl, hState, hNow, .first hEffect hNone hNow⟩
    -- ready before: what this event does, it does behind the first publication
    · refine .inr ⟨before, call, after ++ [event], by simp, hState, hFirst, ?_⟩
      exact hCompletes.step hEffect

/-- Two initializations, one of which looks before the first publication and one after it. -/
theorem initializations_complete_later :
    let events : List ReloadEvent :=
      [.begin true, .begin true, .proceed 0, .proceed 0, .proceed 0, .proceed 0, .proceed 1]
    let t := start .empty (.memory (.ofList [])) fun _ => .missing
    (∀ event ∈ events, event.isExplicit = false) ∧
      ∃ before call after, events = before ++ .proceed call :: after ∧
        (t.run before).system.registry.state = .initializing ∧
        (t.run (before ++ [.proceed call])).system.registry.state = .ready ∧
        (t.run before).Completes (t.run events) := by
  intro events t
  have hOnly : ∀ event ∈ events, event.isExplicit = false := by
    simp [events, ReloadEvent.isExplicit]
  refine ⟨hOnly, ?_⟩
  obtain ⟨hState, -⟩ | hFirst := initializations_complete .empty (.memory (.ofList []))
    (fun _ => .missing) hOnly
  · exact absurd hState (by decide +kernel)
  · exact hFirst

/-- Two initializations that both look before the first publication. Both publish; and if the read
of the second one fails, it fails although there is a snapshot. -/
theorem initializations_publish_twice :
    let looked : List ReloadEvent := [.begin true, .begin true, .proceed 0, .proceed 1]
    let first : List ReloadEvent := [.proceed 0, .proceed 0, .proceed 0]
    let second : List ReloadEvent := [.proceed 1, .proceed 1, .proceed 1]
    let run (events : List ReloadEvent) :=
      (start .empty (.memory (.ofList [])) fun _ => .missing).run events
    let t := run (looked ++ first ++ second)
    let failing := run (looked ++ first ++ [.failReads 1] ++ second)
    (∀ event ∈ looked ++ first ++ [.failReads 1] ++ second, event.isExplicit = false) ∧
      t.result? 0 = some (.ok (some 1)) ∧ t.result? 1 = some (.ok (some 2)) ∧
      t.system.registry.generation = 2 ∧
      (run (looked ++ first)).system.registry.state = .ready ∧
      failing.result? 1 = some (.error (.unavailable "injected read failure")) ∧
      failing.system.registry.state = .ready := by
  intro looked first second run t failing
  refine ⟨?_, rfl, rfl, rfl, rfl, rfl, rfl⟩
  simp [looked, first, second, ReloadEvent.isExplicit]

end Timeline

end RuleBlocks
