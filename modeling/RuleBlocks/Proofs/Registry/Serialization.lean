import RuleBlocks.Proofs.Registry.Timeline
import Mathlib.Tactic.ByContra
import Mathlib.Tactic.Set

/-!
# Reloads take turns

Whatever happens to a registry, in whatever order, its counter is the number of publications, and
what it serves was made from one whole read of the store. The invariant ties four things together:
the stage of every call, the lock, the record of reads, and the record of publications. Its heart is
what is known of a call whose read has looked at the store and has not come back: nothing newer has
been published, and nothing will be while the call holds the lock.

* `Timeline.Accounts`, `Timeline.Backed` — what the record says of a call and of a publication;
* `Timeline.Consistent` — the invariant;
* `Consistent.move`, `Consistent.publish` — the two kinds of step of a call;
* `consistent_run` — every timeline that starts with a new registry is consistent;
* `reloads_take_turns` — what this means for the counter, for readers, and for callers.
-/

namespace RuleBlocks

/-- The registry after some publications. -/
def Registry.after (catalog : FunctionCatalog) (publications : List Publication) : Registry :=
  { catalog
    generation := publications.length
    current := publications.getLast?.map fun p =>
      .build catalog p.fragments publications.length }

namespace Timeline

/-- What the record says of a call that has got to a stage. -/
def Accounts (t : Timeline) (call : Nat) : CallStage → Prop
  | .checking => t.looked call = none
  | .waiting => t.looked call = none
  | .reading => t.looked call = none
  | .returning found => ∃ v, t.looked call = some v ∧ t.begun call ≤ v ∧ v ≤ t.version ∧
      (∀ p ∈ t.publications, p.version ≤ v) ∧
      ∀ fragments, found = .ok fragments → t.contents v = .ok fragments
  | .ended (.ok none) => t.looked call = none
  | .ended (.ok (some generation)) => ∃ k p, generation = k + 1 ∧ t.publications[k]? = some p ∧
      p.call = call
  | .ended (.error _) => (t.looked call).isSome
  | .abandoned => True

/-- What the record says of a publication: its call has ended with its generation, and it was made
from all that the store held when the read of that call looked at it. -/
structure Backed (t : Timeline) (k : Nat) (p : Publication) : Prop where
  ended : t.stage? p.call = some (.ended (.ok (some (k + 1))))
  looked : t.looked p.call = some p.version
  begun : t.begun p.call ≤ p.version
  current : p.version ≤ t.version
  content : t.contents p.version = .ok p.fragments

/-- The invariant. -/
structure Consistent (catalog : FunctionCatalog) (t : Timeline) : Prop where
  registry : t.system.registry = .after catalog t.publications
  content : t.contents t.version = t.system.store.content t.files
  begun : ∀ i, t.begun i ≤ t.version
  fresh : ∀ i, t.stage? i = none → t.looked i = none
  lock : ∀ i j a b, t.stage? i = some a → t.stage? j = some b →
    a.holdsLock = true → b.holdsLock = true → i = j
  calls : ∀ i stage, t.stage? i = some stage → t.Accounts i stage
  publications : ∀ k p, t.publications[k]? = some p → t.Backed k p
  sorted : t.publications.Pairwise fun p q => p.version ≤ q.version

-- ---------------------------------------------------------------------------
-- What stays true of a call and of a publication
-- ---------------------------------------------------------------------------

/-- If the lock is free nobody holds it. -/
theorem not_holdsLock {t : Timeline} (h : t.system.isLocked = false) {i : Nat} {a : CallStage}
    (hi : t.stage? i = some a) : a.holdsLock = false := by
  rw [ReloadSystem.isLocked, List.any_eq_false] at h
  simpa using h a (List.mem_of_getElem? hi)

/-- A call is accounted for as long as nothing is published and its own record stays. -/
theorem Accounts.mono {t t' : Timeline} {i : Nat} {stage : CallStage} (h : t.Accounts i stage)
    (hlooked : t'.looked i = t.looked i) (hbegun : t'.begun i = t.begun i)
    (hversion : t.version ≤ t'.version)
    (hcontents : ∀ v ≤ t.version, t'.contents v = t.contents v)
    (hpublications : t'.publications = t.publications) : t'.Accounts i stage := by
  match stage, h with
  | .checking, h => exact hlooked.trans h
  | .waiting, h => exact hlooked.trans h
  | .reading, h => exact hlooked.trans h
  | .returning found, ⟨v, hv, hb, hle, hp, hc⟩ =>
    refine ⟨v, hlooked.trans hv, hbegun ▸ hb, Nat.le_trans hle hversion, hpublications ▸ hp, ?_⟩
    intro fragments hf
    rw [hcontents v hle, hc fragments hf]
  | .ended (.ok none), h => exact hlooked.trans h
  | .ended (.ok (some g)), ⟨k, p, hg, hk, hcall⟩ => exact ⟨k, p, hg, hpublications ▸ hk, hcall⟩
  | .ended (.error _), h => exact (congrArg Option.isSome hlooked).trans h
  | .abandoned, _ => trivial

/-- What backs a publication, backs it later: its call has ended and stays as it is. -/
theorem Backed.mono {t t' : Timeline} {k : Nat} {p : Publication} (h : t.Backed k p)
    (hstage : t'.stage? p.call = t.stage? p.call) (hlooked : t'.looked p.call = t.looked p.call)
    (hbegun : t'.begun p.call = t.begun p.call) (hversion : t.version ≤ t'.version)
    (hcontents : ∀ v ≤ t.version, t'.contents v = t.contents v) : t'.Backed k p where
  ended := hstage.trans h.ended
  looked := hlooked.trans h.looked
  begun := hbegun ▸ h.begun
  current := Nat.le_trans h.current hversion
  content := (hcontents _ h.current).trans h.content

/-- A call that is still open has published nothing. -/
theorem Backed.call_ne {t : Timeline} {k : Nat} {p : Publication} (h : t.Backed k p) {call : Nat}
    {stage : CallStage} (hs : t.stage? call = some stage) (hopen : stage.isOpen = true) :
    p.call ≠ call := by
  rintro rfl
  rw [h.ended, Option.some.injEq] at hs
  subst hs
  cases hopen

-- ---------------------------------------------------------------------------
-- Steps of calls
-- ---------------------------------------------------------------------------

section

variable {catalog : FunctionCatalog} {t : Timeline}

/-- **Step.** An open call gets to another stage without a publication. It may take the lock if the
lock is free, and it may leave a store that holds the same. -/
theorem Consistent.move (h : t.Consistent catalog) {call : Nat} {old new : CallStage}
    {store : FragmentStore} {looked : Nat → Option Nat}
    (hold : t.stage? call = some old) (hopen : old.isOpen = true)
    (hstore : store.content t.files = t.system.store.content t.files)
    (hlooked : ∀ i, i ≠ call → looked i = t.looked i)
    (hlock : new.holdsLock = true → old.holdsLock = true ∨ t.system.isLocked = false)
    (hnew : Accounts { t with looked } call new) :
    Consistent catalog
      { t with system := { t.system with store }.setStage call new, looked } := by
  have hstage : ∀ i, ({ t with
      system := { t.system with store }.setStage call new, looked } : Timeline).stage? i =
      if i = call then some new else t.stage? i := stage?_set hold new
  -- only the old holder, or nobody, stands in the way of the new one
  have hfree : ∀ i b, new.holdsLock = true → t.stage? i = some b → b.holdsLock = true →
      i = call := by
    intro i b hn hi hb
    rcases hlock hn with ho | hf
    · exact h.lock i call b old hi hold hb ho
    · rw [not_holdsLock hf hi] at hb
      cases hb
  constructor
  case registry => exact h.registry
  case content => exact h.content.trans hstore.symm
  case begun => exact h.begun
  case fresh =>
    intro i hi
    rw [hstage] at hi
    by_cases hc : i = call
    · rw [if_pos hc] at hi
      cases hi
    · rw [if_neg hc] at hi
      exact (hlooked i hc).trans (h.fresh i hi)
  case lock =>
    intro i j a b hi hj ha hb
    rw [hstage] at hi hj
    by_cases hic : i = call <;> by_cases hjc : j = call
    · rw [hic, hjc]
    · rw [if_pos hic, Option.some.injEq] at hi
      rw [if_neg hjc] at hj
      exact absurd (hfree j b (hi ▸ ha) hj hb) hjc
    · rw [if_neg hic] at hi
      rw [if_pos hjc, Option.some.injEq] at hj
      exact absurd (hfree i a (hj ▸ hb) hi ha) hic
    · rw [if_neg hic] at hi
      rw [if_neg hjc] at hj
      exact h.lock i j a b hi hj ha hb
  case calls =>
    intro i stage hi
    rw [hstage] at hi
    by_cases hc : i = call
    · rw [if_pos hc, Option.some.injEq] at hi
      subst hi hc
      exact hnew.mono rfl rfl (Nat.le_refl _) (fun _ _ => rfl) rfl
    · rw [if_neg hc] at hi
      exact (h.calls i stage hi).mono (hlooked i hc) rfl (Nat.le_refl _) (fun _ _ => rfl) rfl
  case publications =>
    intro k p hk
    have hp := h.publications k p hk
    have hne := hp.call_ne hold hopen
    exact hp.mono ((hstage p.call).trans (if_neg hne)) (hlooked _ hne) rfl (Nat.le_refl _)
      fun _ _ => rfl
  case sorted => exact h.sorted

/-- A move that touches neither the store nor the record. -/
theorem Consistent.setStage (h : t.Consistent catalog) {call : Nat} {old new : CallStage}
    (hold : t.stage? call = some old) (hopen : old.isOpen = true)
    (hlock : new.holdsLock = true → old.holdsLock = true ∨ t.system.isLocked = false)
    (hnew : t.Accounts call new) : (t.setStage call new).Consistent catalog :=
  h.move hold hopen rfl (fun _ _ => rfl) hlock hnew

/-- **Step.** A read looks at the store. What it finds is what the store holds now, and nothing
newer can have been published. -/
theorem Consistent.look (h : t.Consistent catalog) {call : Nat}
    (hstage : t.stage? call = some .reading) :
    (t.step (.proceed call)).Consistent catalog := by
  rw [proceed_reading hstage]
  refine h.move hstage rfl (FragmentStore.content_read _ _) ?_ (fun _ => Or.inl rfl) ?_
  · intro i hi
    exact Function.update_of_ne hi _ _
  · refine ⟨t.version, Function.update_self .., h.begun call, Nat.le_refl _, ?_, ?_⟩
    · intro p hp
      obtain ⟨k, hk⟩ := List.getElem?_of_mem hp
      exact (h.publications k p hk).current
    · intro fragments hf
      exact h.content.trans (FragmentStore.content_of_read hf)

/-- **Step.** A read that has succeeded comes back: its fragments are published under the next
generation, and the lock is given back. -/
theorem Consistent.publish (h : t.Consistent catalog) {call : Nat}
    {fragments : List BuildingBlock} (hold : t.stage? call = some (.returning (.ok fragments))) :
    (t.step (.proceed call)).Consistent catalog := by
  obtain ⟨v, hv, hb, hle, hnewest, hc⟩ := h.calls call _ hold
  rw [proceed_returning_ok hold, hv, Option.getD_some]
  set p : Publication := { call, version := v, fragments } with hp
  set t' : Timeline := { t with
    system := { t.system with registry := t.system.registry.publish fragments }.setStage call
      (.ended (.ok (some (t.system.registry.generation + 1))))
    publications := t.publications ++ [p] } with ht'
  have hgeneration : t.system.registry.generation = t.publications.length := by
    rw [h.registry]
    rfl
  have hstage : ∀ i, t'.stage? i =
      if i = call then some (.ended (.ok (some (t.publications.length + 1)))) else t.stage? i := by
    rw [← hgeneration]
    exact stage?_set hold _
  -- the call held the lock, so no other call holds it
  have hothers : ∀ i a, i ≠ call → t.stage? i = some a → a.holdsLock = false := by
    intro i a hi ha
    by_contra hl
    exact hi (h.lock i call a _ ha hold (by simpa using hl) rfl)
  constructor
  case registry =>
    show t.system.registry.publish fragments = .after catalog (t.publications ++ [p])
    rw [h.registry]
    simp [Registry.publish, Registry.after, hp]
  case content => exact h.content
  case begun => exact h.begun
  case fresh =>
    intro i hi
    rw [hstage] at hi
    by_cases hic : i = call
    · rw [if_pos hic] at hi
      cases hi
    · rw [if_neg hic] at hi
      exact h.fresh i hi
  case lock =>
    intro i j a b hi hj ha hb
    rw [hstage] at hi
    by_cases hic : i = call
    · rw [if_pos hic, Option.some.injEq] at hi
      subst hi
      cases ha
    · rw [if_neg hic] at hi
      rw [hothers i a hic hi] at ha
      cases ha
  case calls =>
    intro i stage hi
    rw [hstage] at hi
    by_cases hic : i = call
    · rw [if_pos hic, Option.some.injEq] at hi
      subst hi
      exact ⟨t.publications.length, p, rfl, by simp [ht'], hic.symm⟩
    · rw [if_neg hic] at hi
      have hi' := h.calls i stage hi
      have hfree := hothers i stage hic hi
      match stage, hi', hfree with
      | .checking, hi', _ => exact hi'
      | .waiting, hi', _ => exact hi'
      | .ended (.ok none), hi', _ => exact hi'
      | .ended (.ok (some g)), ⟨k, q, hg, hk, hq⟩, _ =>
        exact ⟨k, q, hg, List.getElem?_append_left (List.getElem?_eq_some_iff.mp hk).1 ▸ hk, hq⟩
      | .ended (.error _), hi', _ => exact hi'
      | .abandoned, _, _ => trivial
  case publications =>
    intro k q hk
    rw [ht', getElem?_concat] at hk
    by_cases hlast : k = t.publications.length
    · rw [if_pos hlast, Option.some.injEq] at hk
      subst hk hlast
      exact ⟨(hstage call).trans (if_pos rfl), hv, hb, hle, hc fragments rfl⟩
    · rw [if_neg hlast] at hk
      have hq := h.publications k q hk
      exact hq.mono ((hstage q.call).trans (if_neg (hq.call_ne hold rfl))) rfl rfl (Nat.le_refl _)
        fun _ _ => rfl
  case sorted =>
    show (t.publications ++ [p]).Pairwise _
    rw [List.pairwise_append]
    refine ⟨h.sorted, List.pairwise_singleton _ _, ?_⟩
    intro q hq r hr
    rw [List.mem_singleton] at hr
    subst hr
    exact hnewest q hq

-- ---------------------------------------------------------------------------
-- Steps of the surroundings
-- ---------------------------------------------------------------------------

/-- **Step.** A call comes in. -/
theorem Consistent.begin (h : t.Consistent catalog) (initializing : Bool) :
    (t.step (.begin initializing)).Consistent catalog := by
  have hnone : t.stage? t.system.calls.length = none := List.getElem?_eq_none (Nat.le_refl _)
  -- a call that is there already is not the new one
  have hold : ∀ i stage, t.stage? i = some stage → i ≠ t.system.calls.length := by
    rintro i stage hi rfl
    rw [hnone] at hi
    cases hi
  have hbegun : ∀ i, i ≠ t.system.calls.length →
      (t.step (.begin initializing)).begun i = t.begun i := fun i hi =>
    Function.update_of_ne hi _ _
  constructor
  case registry => exact h.registry
  case content => exact h.content
  case begun =>
    intro i
    by_cases hi : i = t.system.calls.length
    · subst hi
      exact Nat.le_of_eq (Function.update_self ..)
    · rw [hbegun i hi]
      exact h.begun i
  case fresh =>
    intro i hi
    rw [stage?_begin] at hi
    split at hi
    · cases hi
    · exact h.fresh i hi
  case lock =>
    intro i j a b hi hj ha hb
    rw [stage?_begin] at hi hj
    split at hi
    · rw [Option.some.injEq] at hi
      subst hi
      cases initializing <;> cases ha
    · split at hj
      · rw [Option.some.injEq] at hj
        subst hj
        cases initializing <;> cases hb
      · exact h.lock i j a b hi hj ha hb
  case calls =>
    intro i stage hi
    rw [stage?_begin] at hi
    split at hi
    case isTrue hlen =>
      -- a call that has just begun has looked at nothing
      have hlooked : t.looked i = none := h.fresh i (hlen ▸ hnone)
      rw [Option.some.injEq] at hi
      subst hi
      cases initializing <;> exact hlooked
    case isFalse hlen =>
      exact (h.calls i stage hi).mono rfl (hbegun i hlen) (Nat.le_refl _) (fun _ _ => rfl) rfl
  case publications =>
    intro k p hk
    have hp := h.publications k p hk
    have hne := hold p.call _ hp.ended
    exact hp.mono ((stage?_begin t initializing p.call).trans (if_neg hne)) rfl (hbegun _ hne)
      (Nat.le_refl _) fun _ _ => rfl
  case sorted => exact h.sorted

/-- **Step.** The store holds something new. What it held before stays on record. -/
theorem Consistent.rewrite (h : t.Consistent catalog) (store : FragmentStore)
    (files : String → FileState) :
    (t.rewrite { t.system with store } files).Consistent catalog := by
  have hcontents : ∀ v ≤ t.version,
      (t.rewrite { t.system with store } files).contents v = t.contents v := fun v hv =>
    Function.update_of_ne (by omega) _ _
  constructor
  case registry => exact h.registry
  case content => exact Function.update_self ..
  case begun => exact fun i => Nat.le_succ_of_le (h.begun i)
  case fresh => exact h.fresh
  case lock => exact h.lock
  case calls =>
    exact fun i stage hi =>
      (h.calls i stage hi).mono rfl rfl (Nat.le_succ _) hcontents rfl
  case publications =>
    exact fun k p hk =>
      (h.publications k p hk).mono rfl rfl rfl (Nat.le_succ _) hcontents
  case sorted => exact h.sorted

/-- **Step.** Reads are made to fail. -/
theorem Consistent.failReads (h : t.Consistent catalog) (count : Nat) :
    (t.step (.failReads count)).Consistent catalog where
  registry := h.registry
  content := h.content.trans (FragmentStore.content_failNext _ _ _).symm
  begun := h.begun
  fresh := h.fresh
  lock := h.lock
  calls i stage hi :=
    (h.calls i stage hi).mono rfl rfl (Nat.le_refl _) (fun _ _ => rfl) rfl
  publications k p hk :=
    (h.publications k p hk).mono rfl rfl rfl (Nat.le_refl _) fun _ _ => rfl
  sorted := h.sorted

-- ---------------------------------------------------------------------------
-- Runs
-- ---------------------------------------------------------------------------

/-- A call that goes on keeps the invariant, whatever stage it has got to. -/
theorem Consistent.proceed (h : t.Consistent catalog) (call : Nat) :
    (t.step (.proceed call)).Consistent catalog := by
  cases hs : t.stage? call with
  | none => rw [proceed_closed (by simp [hs])]; exact h
  | some stage =>
    have hcall := h.calls call stage hs
    match stage, hs, hcall with
    | .checking, hs, hcall =>
      rw [proceed_checking hs]
      split
      · exact h.setStage hs rfl (fun hl => by cases hl) hcall
      · exact h.setStage hs rfl (fun hl => by cases hl) hcall
    | .waiting, hs, hcall =>
      rw [proceed_waiting hs]
      split
      case isTrue => exact h
      case isFalse hfree =>
        -- the lock is free, so nobody else holds it
        exact h.setStage hs rfl (fun _ => Or.inr (Bool.eq_false_iff.mpr hfree)) hcall
    | .reading, hs, _ => exact h.look hs
    | .returning (.ok fragments), hs, _ => exact h.publish hs
    | .returning (.error e), hs, ⟨v, hv, _⟩ =>
      rw [proceed_returning_error hs]
      exact h.setStage hs rfl (fun hl => by cases hl) (Option.isSome_of_eq_some hv)
    | .ended r, hs, _ => rw [proceed_closed (by simp [hs, CallStage.isOpen])]; exact h
    | .abandoned, hs, _ => rw [proceed_closed (by simp [hs, CallStage.isOpen])]; exact h

/-- Giving up a call publishes nothing, and frees the lock that it held. -/
theorem Consistent.abandon (h : t.Consistent catalog) (call : Nat) :
    (t.step (.abandon call)).Consistent catalog := by
  by_cases hopen : ∃ stage, t.stage? call = some stage ∧ stage.isOpen = true
  · obtain ⟨stage, hs, ho⟩ := hopen
    rw [abandon_open hs ho]
    exact h.setStage hs ho (fun hl => by cases hl) trivial
  · rw [abandon_closed fun stage hs => by
      rw [← Bool.not_eq_true]
      exact fun ho => hopen ⟨stage, hs, ho⟩]
    exact h

/-- **Every event keeps the record consistent.** -/
theorem Consistent.step (h : t.Consistent catalog) (event : ReloadEvent) :
    (t.step event).Consistent catalog := by
  cases event with
  | begin initializing => exact h.begin initializing
  | proceed call => exact h.proceed call
  | abandon call => exact h.abandon call
  | write change => exact h.rewrite (change t.system.store) t.files
  | writeFiles files => exact h.rewrite t.system.store files
  | failReads count => exact h.failReads count

/-- A read looks at the store only once. -/
theorem Consistent.looked_step (h : t.Consistent catalog) (event : ReloadEvent) {call v : Nat}
    (hv : t.looked call = some v) : (t.step event).looked call = some v := by
  cases event with
  | proceed other =>
    show t.recordLook other call = some v
    rcases t.recordLook_cases other with hr | ⟨hs, hr⟩
    · rw [hr, hv]
    · have hnone : t.looked other = none := h.calls other _ hs
      have hne : call ≠ other := by
        rintro rfl
        rw [hnone] at hv
        cases hv
      rw [hr, Function.update_of_ne hne, hv]
  | _ => exact hv

/-- At the start there is nothing to account for. -/
theorem consistent_start (catalog : FunctionCatalog) (store : FragmentStore)
    (files : String → FileState) : (start catalog store files).Consistent catalog where
  registry := rfl
  content := rfl
  begun _ := Nat.le_refl _
  fresh _ _ := rfl
  lock _ _ _ _ hi := by cases hi
  calls _ _ hi := by cases hi
  publications _ _ hk := by cases hk
  sorted := List.Pairwise.nil

/-- Every sequence of events keeps the record consistent. -/
theorem Consistent.run (h : t.Consistent catalog) (events : List ReloadEvent) :
    (t.run events).Consistent catalog := by
  induction events generalizing t with
  | nil => exact h
  | cons event rest ih => exact ih (h.step event)

end

/-- **Whatever has happened, the record is consistent.** -/
theorem consistent_run (catalog : FunctionCatalog) (store : FragmentStore)
    (files : String → FileState) (events : List ReloadEvent) :
    ((start catalog store files).run events).Consistent catalog :=
  (consistent_start catalog store files).run events

-- ---------------------------------------------------------------------------
-- What readers and callers see
-- ---------------------------------------------------------------------------

/-- What a timeline shows to those who read from its registry and to those who asked for a
reload. -/
structure Serialized (catalog : FunctionCatalog) (t : Timeline) : Prop where
  /-- The guarded counter is the number of publications. -/
  counter : t.system.registry.generation = t.publications.length
  /-- There is nothing to serve as long as nothing has been published, and no longer. -/
  initializing : t.system.registry.state = .initializing ↔ t.publications.length = 0
  /-- Until then every reader is told so, and none afterwards. -/
  unread : t.publications.length = 0 ↔ t.system.registry.snapshot = .error .notInitialized
  unreadViews : t.publications.length = 0 →
    t.system.registry.conditions = .error .notInitialized ∧
      t.system.registry.actions = .error .notInitialized
  unreadBlocks : t.publications.length = 0 → ∀ name context,
    t.system.registry.block name = .error .notInitialized ∧
      t.system.registry.render name context = .error .notInitialized
  /-- Afterwards readers get the snapshot of the last publication, under the number of the
  counter. -/
  served : ∀ p, t.publications.getLast? = some p → t.system.registry.snapshot =
    .ok (.build catalog p.fragments t.system.registry.generation)
  /-- A publication is made from all that the store held at one moment of the read. -/
  whole : ∀ p ∈ t.publications, p.version ≤ t.version ∧ t.looked p.call = some p.version ∧
    t.contents p.version = .ok p.fragments
  /-- Counter and snapshot change only when a call ends with the next number. -/
  silent : ∀ event, (t.step event).system.registry ≠ t.system.registry →
    ∃ call, event = .proceed call ∧ t.result? call = none ∧
      (t.step event).result? call = some (.ok (some (t.system.registry.generation + 1)))
  /-- A call that has failed or was given up has published nothing. -/
  fruitless : ∀ call, (∃ e, t.result? call = some (.error e)) ∨ t.stage? call = some .abandoned →
    ∀ p ∈ t.publications, p.call ≠ call
  /-- Every number up to the counter is the answer to one call, and to only one. -/
  once : ∀ g, 0 < g → g ≤ t.system.registry.generation →
    ∃! call, t.result? call = some (.ok (some g))
  /-- No other number is an answer, and a number is the answer to the call that published it. The
  store was read after the call began. -/
  answered : ∀ call g, t.result? call = some (.ok (some g)) →
    0 < g ∧ g ≤ t.system.registry.generation ∧
      ∃ p, t.publications[g - 1]? = some p ∧ p.call = call ∧ t.begun call ≤ p.version
  /-- Later publications are made from the same version of the store or from later ones. -/
  sorted : t.publications.Pairwise fun p q => p.version ≤ q.version

section

variable {catalog : FunctionCatalog} {t : Timeline}

/-- The counter counts the publications. -/
theorem Consistent.generation_eq (h : t.Consistent catalog) :
    t.system.registry.generation = t.publications.length := by
  rw [h.registry]
  rfl

/-- The snapshot that is served is built from the last publication. -/
theorem Consistent.current_eq (h : t.Consistent catalog) :
    t.system.registry.current = t.publications.getLast?.map fun p =>
      .build catalog p.fragments t.publications.length := by
  rw [h.registry]
  rfl

/-- Nothing is served before the first publication. -/
theorem Consistent.current_eq_none_iff (h : t.Consistent catalog) :
    t.system.registry.current = none ↔ t.publications.length = 0 := by
  rw [h.current_eq, Option.map_eq_none_iff, List.getLast?_eq_none_iff, List.length_eq_zero_iff]

/-- Who asks before that is told so. -/
theorem snapshot_of_current_none {r : Registry} (h : r.current = none) :
    r.snapshot = .error .notInitialized := by
  rw [Registry.snapshot, h]

/-- A number is the answer to the call of the publication that it counts. -/
theorem Consistent.result?_iff (h : t.Consistent catalog) {call k : Nat} :
    t.result? call = some (.ok (some (k + 1))) ↔
      ∃ p, t.publications[k]? = some p ∧ p.call = call := by
  rw [result?_eq_some_iff]
  constructor
  · intro hs
    obtain ⟨j, p, hj, hp, hc⟩ := h.calls call _ hs
    rw [Nat.add_right_cancel hj]
    exact ⟨p, hp, hc⟩
  · rintro ⟨p, hp, rfl⟩
    exact (h.publications k p hp).ended

/-- What was published last is at least as new as anything before. -/
theorem Consistent.version_le_last (h : t.Consistent catalog) {p last : Publication}
    (hp : p ∈ t.publications) (hlast : t.publications.getLast? = some last) :
    p.version ≤ last.version := by
  obtain ⟨before, heq⟩ := List.getLast?_eq_some_iff.mp hlast
  have hsorted := h.sorted
  rw [heq] at hp hsorted
  rcases List.mem_append.mp hp with hp | hp
  · exact (List.pairwise_append.mp hsorted).2.2 p hp last (List.mem_singleton.mpr rfl)
  · obtain rfl : p = last := List.mem_singleton.mp hp
    exact Nat.le_refl _

/-- Only a call that ends with the next number changes the registry. -/
theorem registry_step (t : Timeline) (event : ReloadEvent)
    (hchange : (t.step event).system.registry ≠ t.system.registry) :
    ∃ call, event = .proceed call ∧ t.result? call = none ∧
      (t.step event).result? call = some (.ok (some (t.system.registry.generation + 1))) := by
  cases event with
  | begin initializing => exact absurd rfl hchange
  | write change => exact absurd rfl hchange
  | writeFiles files => exact absurd rfl hchange
  | failReads count => exact absurd rfl hchange
  | abandon call =>
    refine absurd ?_ hchange
    simp only [step, ReloadSystem.abandon, ReloadSystem.setStage]
    split <;> rfl
  | proceed call =>
    cases hs : t.stage? call with
    | none => exact absurd (by rw [proceed_closed (by simp [hs])]) hchange
    | some stage =>
      cases stage with
      | checking => exact absurd (by rw [proceed_checking hs]; rfl) hchange
      | waiting => exact absurd (by rw [proceed_waiting hs]; split <;> rfl) hchange
      | reading => exact absurd (by rw [proceed_reading hs]; rfl) hchange
      | ended r => exact absurd (by rw [proceed_closed (by simp [hs, CallStage.isOpen])]) hchange
      | abandoned => exact absurd (by rw [proceed_closed (by simp [hs, CallStage.isOpen])]) hchange
      | returning found =>
        cases found with
        | error e => exact absurd (by rw [proceed_returning_error hs]; rfl) hchange
        | ok fragments =>
          refine ⟨call, rfl, ?_, ?_⟩
          · unfold result? ReloadSystem.result? stage? at *
            rw [hs]
          · rw [result?_eq_some_iff, proceed_returning_ok hs]
            exact (stage?_set hs _ call).trans (if_pos rfl)

/-- All that is said of a registry can be read off its record. -/
theorem Consistent.serialized (h : t.Consistent catalog) : t.Serialized catalog where
  counter := h.generation_eq
  initializing := by
    rw [← h.current_eq_none_iff, Registry.state]
    cases t.system.registry.current <;> simp
  unread := by
    rw [← h.current_eq_none_iff, Registry.snapshot]
    cases t.system.registry.current <;> simp
  unreadViews h0 := by
    have hnone := snapshot_of_current_none (h.current_eq_none_iff.mpr h0)
    rw [Registry.conditions, Registry.actions, hnone]
    exact ⟨rfl, rfl⟩
  unreadBlocks h0 name context := by
    have hnone := snapshot_of_current_none (h.current_eq_none_iff.mpr h0)
    rw [Registry.block, Registry.render, hnone]
    exact ⟨rfl, rfl⟩
  served p hp := by
    rw [Registry.snapshot, h.current_eq, hp, h.generation_eq]
    rfl
  whole p hp := by
    obtain ⟨k, hk⟩ := List.getElem?_of_mem hp
    have hb := h.publications k p hk
    exact ⟨hb.current, hb.looked, hb.content⟩
  silent := registry_step t
  fruitless call hfail p hp := by
    rintro rfl
    obtain ⟨k, hk⟩ := List.getElem?_of_mem hp
    have hended := (h.publications k p hk).ended
    rcases hfail with ⟨e, he⟩ | ha
    · rw [result?_eq_some_iff, hended] at he
      cases he
    · rw [hended] at ha
      cases ha
  once g hpos hle := by
    obtain ⟨k, rfl⟩ : ∃ k, g = k + 1 := ⟨g - 1, by omega⟩
    rw [h.generation_eq] at hle
    obtain ⟨p, hp⟩ : ∃ p, t.publications[k]? = some p :=
      ⟨t.publications[k], List.getElem?_eq_getElem hle⟩
    -- every number up to the counter was given to one publication, and each to one call
    refine ⟨p.call, h.result?_iff.mpr ⟨p, hp, rfl⟩, ?_⟩
    intro call hcall
    obtain ⟨q, hq, rfl⟩ := h.result?_iff.mp hcall
    rw [hp, Option.some.injEq] at hq
    rw [hq]
  answered call g hcall := by
    obtain ⟨k, -, hk, -, -⟩ := h.calls call _ (result?_eq_some_iff.mp hcall)
    subst hk
    obtain ⟨p, hp, hc⟩ := h.result?_iff.mp hcall
    rw [h.generation_eq]
    refine ⟨Nat.succ_pos k, (List.getElem?_eq_some_iff.mp hp).1, p, hp, hc, ?_⟩
    exact hc ▸ (h.publications k p hp).begun
  sorted := h.sorted

end

/--
**Serialization.** A new registry over any store, and any events after that, in any order: the
counter, the snapshot and the answers to all calls are those of reloads that were made one after
the other.
-/
theorem reloads_take_turns (catalog : FunctionCatalog) (store : FragmentStore)
    (files : String → FileState) (events : List ReloadEvent) :
    ((start catalog store files).run events).Serialized catalog :=
  (consistent_run catalog store files events).serialized

/-- The first call holds the lock when the store is written, and is given up after it has looked;
the second, which waited, publishes what was written. -/
example :
    let t := (start .empty .empty fun _ => .missing).run
      [.begin false, .begin true, .proceed 0, .proceed 1, .proceed 1, .write fun _ => .empty,
        .proceed 0, .abandon 0, .proceed 1, .proceed 1, .proceed 1]
    t.result? 0 = none ∧ t.result? 1 = some (.ok (some 1)) ∧
      t.publications.map (·.version) = [1] := by
  intro t
  exact ⟨rfl, rfl, rfl⟩

end Timeline

end RuleBlocks
