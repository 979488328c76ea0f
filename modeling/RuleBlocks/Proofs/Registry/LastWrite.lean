import RuleBlocks.Registry.Reload
import RuleBlocks.Proofs.Registry.Rendering
import RuleBlocks.Proofs.Registry.Visibility

/-!
# What was written last

A list of fragments may hold a name several times. Writing a fragment replaces the first one of its
name, removing a name drops all of that name, and a snapshot lists the last one that is enabled. The
three agree as long as a name stands only once. If it stands more often, what is written goes to the
front of the copies and the further ones stay behind it, so that the last of them that is enabled is
listed in its place.

* `MemoryStore.copies` — the fragments of a name, and what each operation makes of them;
* `StoreOperation`, `MemoryStore.run` — any operations on the fragments in memory;
* `FunctionCatalog.listed?` — the function that is listed under a name where no fragment is;
* `ReloadSystem.publish_of_reload` — a reload that succeeds publishes what it reads;
* `last_write_or_last_copy_is_listed` — what is listed after any operations.
-/

namespace RuleBlocks

-- ---------------------------------------------------------------------------
-- Copies of a name
-- ---------------------------------------------------------------------------

namespace MemoryStore

/-- The fragments of a name, in their order. -/
def copies (s : MemoryStore) (name : String) : List BuildingBlock :=
  s.fragments.filter fun f => f.name == name

/-- Overwriting replaces the first copy of a name, and leaves other names alone. -/
theorem filter_upsertInto (f : BuildingBlock) (name : String) (fragments : List BuildingBlock) :
    (upsertInto f fragments).filter (fun g => g.name == name) =
      if f.name = name then f :: (fragments.filter fun g => g.name == name).tail
      else fragments.filter fun g => g.name == name := by
  induction fragments with
  | nil => by_cases hName : f.name = name <;> simp [upsertInto, hName]
  | cons g rest ih =>
    rw [upsertInto]
    -- the first copy is the one that is overwritten, so what follows it is untouched
    by_cases hFirst : g.name = f.name
    · by_cases hName : f.name = name <;> simp [hFirst, hName]
    · rw [if_neg hFirst, List.filter_cons, ih]
      by_cases hName : f.name = name
      · have hOther : (g.name == name) = false := by simpa [← hName] using hFirst
        simp [hName, hOther]
      · by_cases hOther : g.name = name <;> simp [hName, hOther]

/-- A fragment that is written takes the place of the first copy; the further ones stay. -/
theorem copies_upsert (s : MemoryStore) (f : BuildingBlock) (name : String) :
    (s.upsert f).copies name =
      if f.name = name then f :: (s.copies name).tail else s.copies name :=
  filter_upsertInto f name s.fragments

/-- Removing takes all copies of a name, and none of another. -/
theorem copies_remove (s : MemoryStore) (other name : String) :
    (s.remove other).copies name = if other = name then [] else s.copies name := by
  rw [copies, remove, List.filter_filter]
  split
  case isTrue hSame => simp [hSame]
  case isFalse hNe =>
    apply List.filter_congr
    intro f _
    by_cases hName : f.name = name
    · simp [hName, Ne.symm hNe]
    · simp [hName]

theorem fragments_read (s : MemoryStore) : s.read.2.fragments = s.fragments := by
  cases hFailures : s.failures <;> simp only [read, hFailures]

end MemoryStore

-- ---------------------------------------------------------------------------
-- Operations
-- ---------------------------------------------------------------------------

/-- An operation on the fragments in memory. -/
inductive StoreOperation
  | replace (fragments : List BuildingBlock)
  | upsert (f : BuildingBlock)
  | remove (name : String)
  | failNext (count : Nat)
  | read

namespace StoreOperation

def perform (s : MemoryStore) : StoreOperation → MemoryStore
  | replace fragments => s.replace fragments
  | upsert f => s.upsert f
  | remove name => s.remove name
  | failNext count => s.failNext count
  | read => s.read.2

/-- Whether an operation decides what is kept under a name. A replacement decides it for all. -/
def Concerns (name : String) : StoreOperation → Prop
  | replace _ => True
  | upsert f => f.name = name
  | remove other => other = name
  | failNext _ => False
  | read => False

instance (name : String) (o : StoreOperation) : Decidable (o.Concerns name) :=
  match o with
  | replace _ => inferInstanceAs (Decidable True)
  | upsert f => inferInstanceAs (Decidable (f.name = name))
  | remove other => inferInstanceAs (Decidable (other = name))
  | failNext _ => inferInstanceAs (Decidable False)
  | read => inferInstanceAs (Decidable False)

/-- An operation that does not concern a name leaves its copies alone. -/
theorem copies_perform_of_not_concerns {o : StoreOperation} {name : String}
    (h : ¬ o.Concerns name) (s : MemoryStore) : (o.perform s).copies name = s.copies name := by
  cases o with
  -- a new list concerns every name
  | replace fragments => exact absurd trivial h
  | upsert f => exact (s.copies_upsert f name).trans (if_neg h)
  | remove other => exact (s.copies_remove other name).trans (if_neg h)
  | failNext count => rfl
  | read => rw [perform, MemoryStore.copies, MemoryStore.fragments_read, MemoryStore.copies]

end StoreOperation

/-- A list that holds a name once at most. -/
def HoldsOnce (name : String) (fragments : List BuildingBlock) : Prop :=
  (fragments.filter fun f => f.name == name).length ≤ 1

namespace MemoryStore

def run (s : MemoryStore) (operations : List StoreOperation) : MemoryStore :=
  operations.foldl StoreOperation.perform s

theorem run_append (s : MemoryStore) (before after : List StoreOperation) :
    s.run (before ++ after) = (s.run before).run after :=
  List.foldl_append

/-- Any number of such operations leaves the copies alone. -/
theorem copies_run_of_not_concerns {operations : List StoreOperation} {name : String}
    (h : ∀ o ∈ operations, ¬ o.Concerns name) (s : MemoryStore) :
    (s.run operations).copies name = s.copies name := by
  induction operations generalizing s with
  | nil => rfl
  | cons o rest ih =>
    obtain ⟨hFirst, hRest⟩ := List.forall_mem_cons.mp h
    exact (ih hRest _).trans (StoreOperation.copies_perform_of_not_concerns hFirst s)

/-- The last operation that concerns a name decides about its copies. -/
theorem copies_run_of_last {before after : List StoreOperation} {name : String}
    (h : ∀ o ∈ after, ¬ o.Concerns name) (s : MemoryStore) (o : StoreOperation) :
    (s.run (before ++ o :: after)).copies name = (o.perform (s.run before)).copies name := by
  rw [run_append]
  exact copies_run_of_not_concerns h _

/-- A store that is given no list with several copies of a name never has several. -/
theorem holdsOnce_run {operations : List StoreOperation} {name : String} {s : MemoryStore}
    (hStart : HoldsOnce name s.fragments)
    (hLists : ∀ fragments, .replace fragments ∈ operations → HoldsOnce name fragments) :
    HoldsOnce name (s.run operations).fragments := by
  induction operations generalizing s with
  | nil => exact hStart
  | cons o rest ih =>
    have hRest : ∀ fragments, .replace fragments ∈ rest → HoldsOnce name fragments :=
      fun fragments hMem => hLists fragments (List.mem_cons_of_mem o hMem)
    refine ih ?_ hRest
    change ((o.perform s).copies name).length ≤ 1
    cases o with
    | replace fragments => exact hLists fragments List.mem_cons_self
    | upsert f =>
      rw [StoreOperation.perform, copies_upsert]
      split
      · rw [List.length_cons, List.length_tail]
        exact Nat.succ_le_succ (Nat.le_of_eq (Nat.sub_eq_zero_of_le hStart))
      · exact hStart
    | remove other =>
      rw [StoreOperation.perform, copies_remove]
      split
      · exact Nat.zero_le 1
      · exact hStart
    | failNext count => exact hStart
    | read =>
      rw [StoreOperation.perform, copies, fragments_read]
      exact hStart

end MemoryStore

-- ---------------------------------------------------------------------------
-- What is listed
-- ---------------------------------------------------------------------------

/-- The block of the function of a name, if there is one that is enabled. -/
def FunctionCatalog.listed? (c : FunctionCatalog) (name : String) : Option BuildingBlock :=
  ((c.find? name).filter (·.enabled)).map .ofFunction

/-- Of a single block, the last of a name is the block itself. -/
theorem lastNamed_singleton (name : String) (b : BuildingBlock) :
    lastNamed name [b] = if b.name = name then some b else none :=
  lastNamed_concat name [] b

/-- Where every name stands once, the last enabled function of a name is the one that is found. -/
theorem lastNamed_values {entries : List (String × FunctionDescriptor)}
    (hNodup : (entries.map (·.1)).Nodup) (hKeyed : ∀ e ∈ entries, e.1 = e.2.name) (name : String) :
    lastNamed name (enabledBlocks (entries.map (·.2)) []) =
      ((entries.lookup name).filter (·.enabled)).map .ofFunction := by
  induction entries with
  | nil => rfl
  | cons e rest ih =>
    rw [List.map_cons, List.nodup_cons] at hNodup
    obtain ⟨hFirst, hRest⟩ := List.forall_mem_cons.mp hKeyed
    have hSplit : enabledBlocks ((e :: rest).map (·.2)) [] =
        [BuildingBlock.ofFunction e.2].filter (·.enabled) ++ enabledBlocks (rest.map (·.2)) [] := by
      simp only [enabledBlocks, List.map_cons, List.append_nil, ← List.filter_append,
        List.singleton_append]
    -- the first function gives its block only if it is enabled, and only under its own name
    have hOne : lastNamed name ([BuildingBlock.ofFunction e.2].filter (·.enabled)) =
        if name = e.1 then (some e.2).filter (·.enabled) |>.map .ofFunction else none := by
      have hName : (BuildingBlock.ofFunction e.2).name = e.1 := hFirst.symm
      cases hEnabled : (BuildingBlock.ofFunction e.2).enabled with
      | false =>
        have hNone : (some e.2).filter (·.enabled) = none := Option.filter_some_neg hEnabled
        rw [List.filter_cons_of_neg (by simp [hEnabled]), hNone]
        exact (ite_self none).symm
      | true =>
        have hSome : (some e.2).filter (·.enabled) = some e.2 := Option.filter_some_pos hEnabled
        rw [List.filter_cons_of_pos hEnabled, List.filter_nil, lastNamed_singleton, hName, hSome,
          Option.map_some]
        simp only [eq_comm (a := name)]
    rw [hSplit, lastNamed_append, ih hNodup.2 hRest, hOne, Named.lookup_entry]
    by_cases hName : name = e.1
    · have hNone : rest.lookup name = none :=
        Named.lookup_eq_none_iff_names.mpr (hName ▸ hNodup.1)
      rw [hNone, if_pos hName, if_pos hName]
      rfl
    · rw [if_neg hName, if_neg hName, Option.or_none]

/-- Where no fragment of the name is listed, the function of the name is, if it is enabled. -/
theorem lastNamed_functions {c : FunctionCatalog} (h : c.IsKeyed) (name : String) :
    lastNamed name (enabledBlocks c.allWithInternal []) = c.listed? name := by
  rw [FunctionCatalog.allWithInternal_eq_map, lastNamed_values h.nodup h.keyed,
    FunctionCatalog.listed?, FunctionCatalog.find?_eq_lookup]

/-- The last block of a name that is enabled is the last one among the copies of the name. -/
theorem lastNamed_filter_enabled (name : String) (fragments : List BuildingBlock) :
    lastNamed name (fragments.filter (·.enabled)) =
      ((fragments.filter fun f => f.name == name).filter (·.enabled)).getLast? := by
  rw [lastNamed, ← List.head?_filter, List.filter_reverse, List.head?_reverse, List.filter_filter,
    List.filter_filter]
  simp only [Bool.and_comm]

/-- Under a name the last enabled copy in the store is listed, or else the function. -/
theorem block_build_of_copies {c : FunctionCatalog} (h : c.IsKeyed) (s : MemoryStore)
    (generation : Nat) (name : String) :
    (Snapshot.build c s.fragments generation).block name =
      ((((s.copies name).filter (·.enabled)).getLast?).or (c.listed? name)).elim
        (.error (.unknownBlock name)) .ok := by
  have hSplit : enabledBlocks c.allWithInternal s.fragments =
      enabledBlocks c.allWithInternal [] ++ s.fragments.filter (·.enabled) := by
    rw [enabledBlocks, enabledBlocks, List.append_nil, List.filter_append]
  rw [block_build, hSplit, lastNamed_append, lastNamed_functions h, lastNamed_filter_enabled,
    MemoryStore.copies]

-- ---------------------------------------------------------------------------
-- A reload
-- ---------------------------------------------------------------------------

namespace ReloadSystem

variable {files : String → FileState} {s : ReloadSystem} {i : Nat}

/-- A call that is moved is where it was moved to. -/
theorem stage?_setStage {old : CallStage} (h : s.calls[i]? = some old) (new : CallStage) :
    (s.setStage i new).calls[i]? = some new :=
  List.getElem?_set_self (List.getElem?_eq_some_iff.mp h).1

theorem proceed_of_locked (h : s.calls[i]? = some .waiting) (hLocked : s.isLocked = true) :
    s.proceed files i = s := by
  simp only [proceed, h, hLocked, if_true]

/-- A call takes the lock when it is free. -/
theorem proceed_of_unlocked (h : s.calls[i]? = some .waiting) (hLocked : s.isLocked = false) :
    s.proceed files i = s.setStage i .reading := by
  simp only [proceed, h, hLocked, Bool.false_eq_true, if_false]

theorem proceed_of_reading (h : s.calls[i]? = some .reading) :
    s.proceed files i =
      { s with store := (s.store.read files).2 }.setStage i
        (.returning (s.store.read files).1) := by
  simp only [proceed, h]

/-- A call publishes what it has read. -/
theorem proceed_of_returning {found : Except StoreError (List BuildingBlock)}
    (h : s.calls[i]? = some (.returning found)) :
    s.proceed files i =
      { s with registry := (s.registry.afterRead found).2 }.setStage i
        (.ended ((s.registry.afterRead found).1.map some)) := by
  simp only [proceed, h]

theorem proceed_of_ended {result : Except StoreError (Option Nat)}
    (h : s.calls[i]? = some (.ended result)) : s.proceed files i = s := by
  simp only [proceed, h]

/-- A call that finds the lock taken gets nowhere. -/
theorem complete_of_locked (h : s.calls[i]? = some .waiting) (hLocked : s.isLocked = true) :
    s.complete files i = s := by
  simp only [complete, proceed_of_locked h hLocked]

/-- A call that gets the lock reads the store, and ends as the read does. -/
theorem complete_of_unlocked (h : s.calls[i]? = some .waiting) (hLocked : s.isLocked = false) :
    s.complete files i =
      { s with
        store := (s.store.read files).2
        registry := (s.registry.afterRead (s.store.read files).1).2
        calls := ((s.calls.set i .reading).set i (.returning (s.store.read files).1)).set i
          (.ended ((s.registry.afterRead (s.store.read files).1).1.map some)) } := by
  let reading := s.setStage i .reading
  have hReading : reading.calls[i]? = some .reading := stage?_setStage h _
  let looked := { reading with store := (s.store.read files).2 }.setStage i
    (.returning (s.store.read files).1)
  have hLooked : looked.calls[i]? = some (.returning (s.store.read files).1) :=
    stage?_setStage (s := { reading with store := (s.store.read files).2 }) hReading _
  let ended := { looked with
    registry := (s.registry.afterRead (s.store.read files).1).2 }.setStage i
      (.ended ((s.registry.afterRead (s.store.read files).1).1.map some))
  have hEnded : ended.calls[i]? =
      some (.ended ((s.registry.afterRead (s.store.read files).1).1.map some)) :=
    stage?_setStage (s := { looked with
      registry := (s.registry.afterRead (s.store.read files).1).2 }) hLooked _
  calc s.complete files i
      = (((s.proceed files i).proceed files i).proceed files i).proceed files i := rfl
    _ = ((reading.proceed files i).proceed files i).proceed files i := by
        rw [proceed_of_unlocked h hLocked]
    _ = (looked.proceed files i).proceed files i := by rw [proceed_of_reading hReading]; rfl
    _ = ended.proceed files i := by rw [proceed_of_returning hLooked]; rfl
    _ = ended := proceed_of_ended hEnded

/-- **A reload that succeeds publishes what it has read.** -/
theorem publish_of_reload {generation : Nat}
    (h : (s.reload files).1 = some (.ok (some generation))) :
    ∃ fragments, (s.store.read files).1 = .ok fragments ∧
      (s.reload files).2.registry = s.registry.publish fragments := by
  have hWaiting : (s.begin false).calls[s.calls.length]? = some .waiting :=
    List.getElem?_concat_length
  rw [reload, call] at h ⊢
  cases hLocked : (s.begin false).isLocked with
  | true =>
    simp only [complete_of_locked hWaiting hLocked, result?, hWaiting] at h
    cases h
  | false =>
    have hComplete : (s.begin false).complete files s.calls.length = _ :=
      complete_of_unlocked hWaiting hLocked
    have hEnded : ((s.begin false).complete files s.calls.length).result? s.calls.length =
        some ((s.registry.afterRead (s.store.read files).1).1.map some) := by
      rw [hComplete, result?]
      simp [begin]
    have hRegistry : ((s.begin false).complete files s.calls.length).registry =
        (s.registry.afterRead (s.store.read files).1).2 := by
      rw [hComplete]
      rfl
    rw [hEnded] at h
    rw [hRegistry]
    cases hRead : (s.store.read files).1 with
    | ok fragments => exact ⟨fragments, rfl, rfl⟩
    | error e =>
      rw [hRead] at h
      cases h

end ReloadSystem

-- ---------------------------------------------------------------------------
-- The last write
-- ---------------------------------------------------------------------------

/-- What is answered about a name under which a block, or none, is listed. -/
def blockOrUnknown (name : String) (listed : Option BuildingBlock) :
    Except RegistryError BuildingBlock :=
  listed.elim (.error (.unknownBlock name)) .ok

/-- After a reload that succeeds the last enabled copy in the store is listed, or else the
function. -/
theorem block_reload_of_copies {s : ReloadSystem} {files : String → FileState} {generation : Nat}
    {m : MemoryStore} (hKeyed : s.registry.catalog.IsKeyed) (hStore : s.store = .memory m)
    (hReload : (s.reload files).1 = some (.ok (some generation))) (name : String) :
    (s.reload files).2.registry.block name =
      blockOrUnknown name
        ((((m.copies name).filter (·.enabled)).getLast?).or (s.registry.catalog.listed? name)) := by
  obtain ⟨fragments, hRead, hRegistry⟩ := ReloadSystem.publish_of_reload hReload
  have hContent : s.store.content files = .ok fragments := FragmentStore.content_of_read hRead
  obtain rfl : m.fragments = fragments := by
    rw [hStore] at hContent
    exact Except.ok.inj hContent
  rw [hRegistry, blockOrUnknown, ← block_build_of_copies hKeyed]
  rfl

/-- The last enabled one of a block and the further ones behind it. -/
theorem getLast?_filter_cons (f : BuildingBlock) (further : List BuildingBlock) :
    ((f :: further).filter (·.enabled)).getLast? =
      ((further.filter (·.enabled)).getLast?).or (if f.enabled then some f else none) := by
  cases hEnabled : f.enabled with
  | true =>
    rw [List.filter_cons_of_pos hEnabled, List.getLast?_cons, if_pos rfl]
    cases (further.filter (·.enabled)).getLast? <;> rfl
  | false =>
    rw [List.filter_cons_of_neg (by simp [hEnabled])]
    exact Option.or_none.symm

/--
**What was written last.** After any operations on the fragments in memory and a reload that
succeeds, the last operation that concerns a name decides what is listed under it. If the name was
removed, the function of the name is listed, if it is enabled, and nothing otherwise. If a fragment
was written, it is listed in the same way before the function, but behind the further copies of the
name that the store held: the last of these that is enabled comes before both. There are no further
copies if no list that the store was given holds the name twice.
-/
theorem last_write_or_last_copy_is_listed {descriptors : List FunctionDescriptor}
    {s : ReloadSystem} {files : String → FileState} {generation : Nat}
    (hCatalog : FunctionCatalog.build descriptors = .ok s.registry.catalog)
    (fragments : List BuildingBlock) {before after : List StoreOperation} {last : StoreOperation}
    (hStore : s.store = .memory ((MemoryStore.ofList fragments).run (before ++ last :: after)))
    (hReload : (s.reload files).1 = some (.ok (some generation)))
    {name : String} (hAfter : ∀ o ∈ after, ¬ o.Concerns name) :
    let block := (s.reload files).2.registry.block name
    let function := s.registry.catalog.listed? name
    let further := (((MemoryStore.ofList fragments).run before).copies name).tail
    (last = .remove name → block = blockOrUnknown name function) ∧
    (∀ f, last = .upsert f → f.name = name →
      block = blockOrUnknown name
        (((further.filter (·.enabled)).getLast?).or (if f.enabled then some f else function))) ∧
    (HoldsOnce name fragments → (∀ list, .replace list ∈ before → HoldsOnce name list) →
      further = []) := by
  intro block function further
  have hBlock := block_reload_of_copies (FunctionCatalog.isKeyed_of_build hCatalog) hStore hReload
    name
  rw [MemoryStore.copies_run_of_last hAfter] at hBlock
  refine ⟨?_, ?_, fun hStart hLists => ?_⟩
  · rintro rfl
    rw [StoreOperation.perform, MemoryStore.copies_remove, if_pos rfl] at hBlock
    exact hBlock
  · rintro f rfl hName
    rw [StoreOperation.perform, MemoryStore.copies_upsert, if_pos hName, getLast?_filter_cons,
      Option.or_assoc] at hBlock
    refine hBlock.trans (congrArg (fun listed => blockOrUnknown name (Option.or _ listed)) ?_)
    cases f.enabled <;> rfl
  · have hOnce := MemoryStore.holdsOnce_run (s := .ofList fragments) hStart hLists
    exact List.eq_nil_of_length_eq_zero
      ((List.length_tail).trans (Nat.sub_eq_zero_of_le hOnce))

/-- Bare fragments, to be told apart by what they say. -/
def saying (name text : String) : BuildingBlock :=
  .condition (FunctionDescriptor.ofType name .boolean).enable text

/-- A fragment is written whose name stood once, and then another one. -/
theorem last_write_or_last_copy_is_listed_once :
    let before : List StoreOperation := [.replace [saying "a" "old", saying "b" "b"], .read]
    let after : List StoreOperation := [.remove "b", .upsert (saying "c" "c")]
    let store := (MemoryStore.ofList []).run (before ++ .upsert (saying "a" "new") :: after)
    let s := ReloadSystem.new (.new .empty) (.memory store)
    let files : String → FileState := fun _ => .missing
    (s.reload files).1 = some (.ok (some 1)) ∧ (∀ o ∈ after, ¬ o.Concerns "a") ∧
      (s.reload files).2.registry.block "a" = .ok (saying "a" "new") := by
  intro before after store s files
  have hReload : (s.reload files).1 = some (.ok (some 1)) := rfl
  have hAfter : ∀ o ∈ after, ¬ o.Concerns "a" := by decide
  have hCatalog : FunctionCatalog.build [] = .ok s.registry.catalog := rfl
  obtain ⟨-, hUpsert, hOnce⟩ := last_write_or_last_copy_is_listed hCatalog [] rfl hReload hAfter
  refine ⟨hReload, hAfter, ?_⟩
  have hLists : ∀ list, .replace list ∈ before → HoldsOnce "a" list := by
    intro list hMem
    obtain rfl : list = [saying "a" "old", saying "b" "b"] := by simpa [before] using hMem
    exact Nat.le_refl 1
  rw [hUpsert _ rfl rfl, hOnce (Nat.zero_le 1) hLists]
  rfl

/-- A list holds a name twice. A fragment of the name is written last, and is not listed. -/
theorem upserted_block_is_not_listed :
    let operations : List StoreOperation :=
      [.replace [saying "a" "first", saying "a" "second"], .upsert (saying "a" "new")]
    let s := ReloadSystem.new (.new .empty) (.memory ((MemoryStore.ofList []).run operations))
    let files : String → FileState := fun _ => .missing
    (s.reload files).1 = some (.ok (some 1)) ∧ (saying "a" "new").enabled = true ∧
      (s.reload files).2.registry.block "a" = .ok (saying "a" "second") ∧
      (s.reload files).2.registry.block "a" ≠ .ok (saying "a" "new") := by
  intro operations s files
  have hBlock : (s.reload files).2.registry.block "a" = .ok (saying "a" "second") := rfl
  refine ⟨rfl, rfl, hBlock, fun hNew => ?_⟩
  have hSame : saying "a" "second" = saying "a" "new" := Except.ok.inj (hBlock.symm.trans hNew)
  exact absurd hSame (by decide +kernel)

end RuleBlocks
