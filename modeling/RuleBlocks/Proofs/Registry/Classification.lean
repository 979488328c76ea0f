import RuleBlocks.Registry.Snapshot

/-!
# The last block of a name decides

A name may come any number of times, as a function, as a fragment, on one side and on the other.
Each block that is placed edits both sides: it enters its own and takes its name off the other. What
remains in the end depends, for each name, only on the last block of that name.

* `lastNamed` — the last block of a name in a sequence;
* `Views.Holds` — the invariant of placing: each side shows the last block of a name or nothing;
* `Views.LastWins` — what the invariant means for names, keys and sides;
* `build_views_last_wins` — both pairs of views of every snapshot are of this kind.
-/

namespace RuleBlocks

/-- The blocks of functions and of the fragments that follow them, as far as they are enabled. -/
def enabledBlocks (functions : List FunctionDescriptor) (fragments : List BuildingBlock) :
    List BuildingBlock :=
  (functions.map BuildingBlock.ofFunction ++ fragments).filter (·.enabled)

/-- The last block of a name. -/
def lastNamed (name : String) (blocks : List BuildingBlock) : Option BuildingBlock :=
  blocks.reverse.find? fun b => b.name == name

-- ---------------------------------------------------------------------------
-- The last block of a name
-- ---------------------------------------------------------------------------

/-- The last block counts if it has the name. -/
theorem lastNamed_concat (name : String) (blocks : List BuildingBlock) (b : BuildingBlock) :
    lastNamed name (blocks ++ [b]) = if b.name = name then some b else lastNamed name blocks := by
  rw [lastNamed, List.reverse_append, List.reverse_singleton, List.singleton_append,
    List.find?_cons]
  by_cases h : b.name = name
  · simp [h]
  · have : (b.name == name) = false := beq_eq_false_iff_ne.mpr h
    rw [this, if_neg h]
    rfl

/-- The last block decides which side its name is on, and no other name. -/
theorem filter_lastNamed_concat (p : BuildingBlock → Bool) (name : String)
    (blocks : List BuildingBlock) (b : BuildingBlock) :
    (lastNamed name (blocks ++ [b])).filter p =
      if name = b.name then (if p b then some b else none) else (lastNamed name blocks).filter p := by
  rw [lastNamed_concat]
  by_cases h : b.name = name
  · rw [if_pos h, if_pos h.symm, Option.filter_some]
  · rw [if_neg h, if_neg (Ne.symm h)]

/-- A name that no block has has no last block. -/
theorem lastNamed_eq_none {name : String} {blocks : List BuildingBlock}
    (h : ∀ b ∈ blocks, b.name ≠ name) : lastNamed name blocks = none := by
  rw [lastNamed, List.find?_eq_none]
  intro b hb
  simpa using h b (List.mem_reverse.mp hb)

/-- A block is the last of its name if no later one has the name. -/
theorem lastNamed_eq_some {before after : List BuildingBlock} {b : BuildingBlock}
    (h : ∀ c ∈ after, c.name ≠ b.name) : lastNamed b.name (before ++ b :: after) = some b := by
  have hafter : after.reverse.find? (fun c => c.name == b.name) = none := lastNamed_eq_none h
  rw [lastNamed, List.reverse_append, List.reverse_cons, List.append_assoc, List.find?_append,
    hafter]
  simp

/-- The last block of a name is one of the sequence, and has that name. -/
theorem of_lastNamed {name : String} {blocks : List BuildingBlock} {b : BuildingBlock}
    (h : lastNamed name blocks = some b) : b ∈ blocks ∧ b.name = name :=
  ⟨List.mem_reverse.mp (List.mem_of_find?_eq_some h), by simpa using List.find?_some h⟩

-- ---------------------------------------------------------------------------
-- Placing
-- ---------------------------------------------------------------------------

namespace Views

/-- The invariant of placing: for each name a side shows the last block of that name, if the block
is of that side. -/
structure Holds (v : Views) (blocks : List BuildingBlock) : Prop where
  conditions : ∀ name, v.conditions.find? name = (lastNamed name blocks).filter (·.isCondition)
  actions : ∀ name, v.actions.find? name = (lastNamed name blocks).filter (!·.isCondition)
  nodupConditions : v.conditions.names.Nodup
  nodupActions : v.actions.names.Nodup

/-- Of no blocks nothing is held. -/
theorem holds_empty : Holds empty [] where
  conditions _ := rfl
  actions _ := rfl
  nodupConditions := List.nodup_nil
  nodupActions := List.nodup_nil

/-- **Step.** Placing a block makes it the last one of its name and changes no other name. -/
theorem Holds.place {v : Views} {blocks : List BuildingBlock} (h : v.Holds blocks)
    (b : BuildingBlock) : (v.place b).Holds (blocks ++ [b]) := by
  unfold Views.place
  split
  case isTrue hb =>
    -- a condition goes to the one side, and takes its name away from the other
    refine ⟨fun name => ?_, fun name => ?_, Named.nodup_names_insert _ _ h.nodupConditions,
      Named.nodup_names_erase _ h.nodupActions⟩
    · rw [Named.find?_insert, filter_lastNamed_concat, h.conditions, if_pos hb]
    · rw [Named.find?_erase, filter_lastNamed_concat, h.actions]
      simp [hb]
  case isFalse hb =>
    refine ⟨fun name => ?_, fun name => ?_, Named.nodup_names_erase _ h.nodupConditions,
      Named.nodup_names_insert _ _ h.nodupActions⟩
    · rw [Named.find?_erase, filter_lastNamed_concat, h.conditions, if_neg hb]
    · rw [Named.find?_insert, filter_lastNamed_concat, h.actions]
      simp [hb]

/-- **Run.** Placing one block after the other keeps the invariant. -/
theorem Holds.foldl_place {v : Views} {blocks : List BuildingBlock} (h : v.Holds blocks)
    (more : List BuildingBlock) : (more.foldl Views.place v).Holds (blocks ++ more) := by
  induction more generalizing v blocks with
  | nil => simpa using h
  | cons b rest ih =>
    rw [List.foldl_cons, List.append_cons]
    exact ih (h.place b)

/-- **The views hold the enabled blocks.** -/
theorem holds_classify (functions : List FunctionDescriptor) (fragments : List BuildingBlock) :
    (classify functions fragments).Holds (enabledBlocks functions fragments) :=
  holds_empty.foldl_place _

-- ---------------------------------------------------------------------------
-- What the invariant means
-- ---------------------------------------------------------------------------

/-- The sides of a sequence of blocks are decided by the last block of each name. -/
structure LastWins (v : Views) (blocks : List BuildingBlock) : Prop where
  /-- A name of no block stands on neither side. -/
  absent : ∀ name, (∀ b ∈ blocks, b.name ≠ name) →
    v.conditions.find? name = none ∧ v.actions.find? name = none
  /-- The last block of a name stands on its own side, and nothing on the other. -/
  last : ∀ before b after, blocks = before ++ b :: after → (∀ c ∈ after, c.name ≠ b.name) →
    if b.isCondition then
      v.conditions.find? b.name = some b ∧ v.actions.find? b.name = none
    else
      v.conditions.find? b.name = none ∧ v.actions.find? b.name = some b
  /-- No name stands twice, on one side or on both. -/
  nodup : (v.conditions.names ++ v.actions.names).Nodup
  /-- Every condition is kept under its own name, is a condition, and is one of the blocks. -/
  condition : ∀ name b, (name, b) ∈ v.conditions.entries →
    name = b.name ∧ b.isCondition = true ∧ b ∈ blocks
  /-- The same for actions. -/
  action : ∀ name b, (name, b) ∈ v.actions.entries →
    name = b.name ∧ b.isCondition = false ∧ b ∈ blocks

/-- No name is on both sides: its last block is on one only. -/
theorem Holds.disjoint {v : Views} {blocks : List BuildingBlock} (h : v.Holds blocks) :
    ∀ name ∈ v.conditions.names, name ∉ v.actions.names := by
  intro name hc
  have hcond : v.conditions.find? name ≠ none := fun hn => Named.find?_eq_none_iff.mp hn hc
  rw [h.conditions] at hcond
  rw [← Named.find?_eq_none_iff, h.actions]
  cases hl : lastNamed name blocks with
  | none => simp [hl] at hcond
  | some b =>
    cases hb : b.isCondition with
    | true => simp [Option.filter_some, hb]
    | false => simp [Option.filter_some, hl, hb] at hcond

/-- What the views hold is the last block of each name. -/
theorem Holds.lastWins {v : Views} {blocks : List BuildingBlock} (h : v.Holds blocks) :
    v.LastWins blocks where
  absent name hnone := by
    rw [h.conditions, h.actions, lastNamed_eq_none hnone]
    exact ⟨rfl, rfl⟩
  -- the last block of a name decides both sides: it is kept on one and filtered out on the other
  last before b after hblocks hafter := by
    have hlast : lastNamed b.name blocks = some b := hblocks ▸ lastNamed_eq_some hafter
    rw [h.conditions, h.actions, hlast]
    cases hb : b.isCondition <;> simp [Option.filter_some, hb]
  nodup := by
    rw [List.nodup_append]
    refine ⟨h.nodupConditions, h.nodupActions, ?_⟩
    rintro name hc _ ha rfl
    exact h.disjoint name hc ha
  condition name b hb := by
    rw [← Named.find?_eq_some_iff h.nodupConditions, h.conditions, Option.filter_eq_some_iff] at hb
    obtain ⟨hmem, hname⟩ := of_lastNamed hb.1
    exact ⟨hname.symm, hb.2, hmem⟩
  action name b hb := by
    rw [← Named.find?_eq_some_iff h.nodupActions, h.actions, Option.filter_eq_some_iff] at hb
    obtain ⟨hmem, hname⟩ := of_lastNamed hb.1
    exact ⟨hname.symm, by simpa using hb.2, hmem⟩

end Views

/--
**Classification.** In every snapshot, what users are shown is decided by the last enabled block of
each name among the public functions and the fragments, and what is kept with internal functions by
the last one among all functions and the fragments.
-/
theorem build_views_last_wins (catalog : FunctionCatalog) (fragments : List BuildingBlock)
    (generation : Nat) :
    (Snapshot.build catalog fragments generation).offered.LastWins
        (enabledBlocks catalog.all fragments) ∧
      (Snapshot.build catalog fragments generation).complete.LastWins
        (enabledBlocks catalog.allWithInternal fragments) :=
  ⟨(Views.holds_classify _ _).lastWins, (Views.holds_classify _ _).lastWins⟩

end RuleBlocks
