import Mathlib.Data.List.DropRight
import RuleBlocks.Proofs.Registry.Classification

/-!
# The order of a view

A view lists its names in the order in which they came to stand there. A name that is defined again
on the same side keeps its place. One that changes sides leaves its place, without disturbing the
others, and comes last on the other side; if it changes back it comes last once more. So the place
of a name is decided by its last change of sides: by where the final run of its blocks starts which
are all of the side of the last one.

* `LastOn` — the side of a name is that of its last block;
* `finalRun`, `runStart?` — the blocks of a name since it last changed sides, and where they start;
* `Views.side`, `Views.side_place` — the two sides, and what placing a block does to each;
* `Views.InOrder` — the invariant of placing: names stand in the order of their final runs;
* `Views.OrderedByRuns` — what the invariant means for the names of both sides;
* `Views.Moves`, `Views.moves_ofBlocks` — what one more block does to the names of both sides;
* `build_views_ordered` — both pairs of views of every snapshot are of this kind.
-/

namespace RuleBlocks

-- ---------------------------------------------------------------------------
-- Final runs
-- ---------------------------------------------------------------------------

/-- The last block of a name is of a side. -/
def LastOn (blocks : List BuildingBlock) (side : Bool) (name : String) : Prop :=
  ∃ last, lastNamed name blocks = some last ∧ last.isCondition = side

/-- The blocks of a name in their order, each with its place in the sequence. -/
def namedBlocks (name : String) (blocks : List BuildingBlock) : List (BuildingBlock × Nat) :=
  blocks.zipIdx.filter fun e => e.1.name == name

/-- The longest final run among the blocks of a name in which all are of the given side. -/
def finalRun (side : Bool) (name : String) (blocks : List BuildingBlock) :
    List (BuildingBlock × Nat) :=
  (namedBlocks name blocks).rtakeWhile fun e => e.1.isCondition == side

/-- The place of the first block in the final run of a name whose side is that of its last block. -/
def runStart? (name : String) (blocks : List BuildingBlock) : Option Nat := do
  let last ← lastNamed name blocks
  let first ← (finalRun last.isCondition name blocks).head?
  return first.2

/-- The final run of the one name starts before that of the other. -/
def StartsBefore (blocks : List BuildingBlock) (first second : String) : Prop :=
  ∃ i j, runStart? first blocks = some i ∧ runStart? second blocks = some j ∧ i < j

/-- One more block comes last among those of its name. -/
theorem namedBlocks_concat (name : String) (blocks : List BuildingBlock) (b : BuildingBlock) :
    namedBlocks name (blocks ++ [b]) =
      if b.name = name then namedBlocks name blocks ++ [(b, blocks.length)]
      else namedBlocks name blocks := by
  rw [namedBlocks, List.zipIdx_append, List.filter_append, Nat.zero_add]
  by_cases h : b.name = name
  · simp [namedBlocks, h]
  · simp [namedBlocks, h]

/-- One more block goes on with the final run of its name on its side, and ends the one on the other
side. -/
theorem finalRun_concat (side : Bool) (name : String) (blocks : List BuildingBlock)
    (b : BuildingBlock) :
    finalRun side name (blocks ++ [b]) =
      if b.name = name then
        if b.isCondition = side then finalRun side name blocks ++ [(b, blocks.length)] else []
      else finalRun side name blocks := by
  rw [finalRun, namedBlocks_concat]
  split
  · rw [List.rtakeWhile_concat, finalRun]
    simp only [beq_iff_eq]
  · rfl

/-- A name has a final run on the side of its last block, and on no other. -/
theorem finalRun_ne_nil_iff {side : Bool} {name : String} {blocks : List BuildingBlock} :
    finalRun side name blocks ≠ [] ↔ LastOn blocks side name := by
  induction blocks using List.reverseRecOn with
  | nil => simp [finalRun, namedBlocks, LastOn, lastNamed]
  | append_singleton blocks b ih =>
    rw [finalRun_concat, LastOn, lastNamed_concat]
    by_cases hName : b.name = name
    · rw [if_pos hName, if_pos hName]
      by_cases hSide : b.isCondition = side <;> simp [hSide]
    · rw [if_neg hName, if_neg hName]
      exact ih

/-- A block of another name does not move the start of a run. -/
theorem runStart?_concat_of_ne {name : String} (blocks : List BuildingBlock) {b : BuildingBlock}
    (h : b.name ≠ name) : runStart? name (blocks ++ [b]) = runStart? name blocks := by
  simp only [runStart?, lastNamed_concat, finalRun_concat, if_neg h]

/-- A block continues the run of its name, or starts one. -/
theorem runStart?_concat_self (blocks : List BuildingBlock) (b : BuildingBlock) :
    runStart? b.name (blocks ++ [b]) =
      some (((finalRun b.isCondition b.name blocks).head?.map (·.2)).getD blocks.length) := by
  have hLast : lastNamed b.name (blocks ++ [b]) = some b := by rw [lastNamed_concat, if_pos rfl]
  have hRun : finalRun b.isCondition b.name (blocks ++ [b]) =
      finalRun b.isCondition b.name blocks ++ [(b, blocks.length)] := by
    rw [finalRun_concat, if_pos rfl, if_pos rfl]
  rw [runStart?, hLast]
  simp only [Option.bind_eq_bind, Option.bind_some, hRun]
  cases finalRun b.isCondition b.name blocks <;> rfl

/-- A block of the same side leaves the start of the run of its name where it is. -/
theorem runStart?_concat_of_same {blocks : List BuildingBlock} {b last : BuildingBlock}
    (hLast : lastNamed b.name blocks = some last) (hSide : last.isCondition = b.isCondition) :
    runStart? b.name (blocks ++ [b]) = runStart? b.name blocks := by
  have hRun := finalRun_ne_nil_iff.mpr ⟨last, hLast, hSide⟩
  rw [runStart?_concat_self, runStart?, hLast]
  simp only [Option.bind_eq_bind, Option.bind_some, hSide]
  cases hFinal : finalRun b.isCondition b.name blocks with
  | nil => exact absurd hFinal hRun
  | cons first rest => rfl

/-- A block with which its name changes sides, or appears, starts a run. -/
theorem runStart?_concat_of_turn {blocks : List BuildingBlock} {b : BuildingBlock}
    (h : ∀ last, lastNamed b.name blocks = some last → last.isCondition ≠ b.isCondition) :
    runStart? b.name (blocks ++ [b]) = some blocks.length := by
  have hRun : finalRun b.isCondition b.name blocks = [] := by
    refine Decidable.byContradiction fun hRun => ?_
    obtain ⟨last, hLast, hSide⟩ := finalRun_ne_nil_iff.mp hRun
    exact h last hLast hSide
  rw [runStart?_concat_self, hRun]
  rfl

/-- Every name of the sequence has a final run, which starts within the sequence. -/
theorem exists_runStart? {name : String} {blocks : List BuildingBlock} {last : BuildingBlock}
    (h : lastNamed name blocks = some last) :
    ∃ i, runStart? name blocks = some i ∧ i < blocks.length := by
  have hRun := finalRun_ne_nil_iff.mpr ⟨last, h, rfl⟩
  rw [runStart?, h]
  simp only [Option.bind_eq_bind, Option.bind_some]
  cases hFinal : finalRun last.isCondition name blocks with
  | nil => exact absurd hFinal hRun
  | cons first rest =>
    have hMem : first ∈ finalRun last.isCondition name blocks := hFinal ▸ List.mem_cons_self
    have hPlace := List.mem_of_mem_filter ((List.rtakeWhile_suffix _ _).subset hMem)
    exact ⟨first.2, rfl, by simpa using List.snd_lt_add_of_mem_zipIdx hPlace⟩

-- ---------------------------------------------------------------------------
-- Sides
-- ---------------------------------------------------------------------------

namespace Views

/-- The side of conditions, or that of actions. -/
def side (v : Views) (isCondition : Bool) : BuildingBlocks :=
  if isCondition then v.conditions else v.actions

/-- **Step.** A block enters its own side, and its name leaves the other one. -/
theorem side_place (v : Views) (b : BuildingBlock) (side : Bool) :
    (v.place b).side side =
      if b.isCondition = side then (v.side side).insert b.name b
      else (v.side side).erase b.name := by
  rw [Views.place]
  cases hBlock : b.isCondition <;> cases side <;> rfl

/-- A side shows the last block of a name, if it is of that side. -/
theorem Holds.find?_side {v : Views} {blocks : List BuildingBlock} (h : v.Holds blocks)
    (side : Bool) (name : String) :
    (v.side side).find? name = (lastNamed name blocks).filter (·.isCondition == side) := by
  cases side with
  | true =>
    refine (h.conditions name).trans (congrArg (Option.filter · _) ?_)
    funext b
    cases b.isCondition <;> rfl
  | false =>
    refine (h.actions name).trans (congrArg (Option.filter · _) ?_)
    funext b
    cases b.isCondition <;> rfl

/-- A name stands on the side of its last block. -/
theorem Holds.mem_names_side_iff {v : Views} {blocks : List BuildingBlock} (h : v.Holds blocks)
    {side : Bool} {name : String} :
    name ∈ (v.side side).names ↔ LastOn blocks side name := by
  rw [← not_iff_not, ← Named.find?_eq_none_iff, h.find?_side, Option.filter_eq_none_iff, LastOn]
  simp

-- ---------------------------------------------------------------------------
-- Placing
-- ---------------------------------------------------------------------------

/-- The invariant of placing: on each side the names stand in the order in which their final runs
start. -/
def InOrder (v : Views) (blocks : List BuildingBlock) : Prop :=
  ∀ side, (v.side side).names.Pairwise (StartsBefore blocks)

/-- Where there are no names, none is out of order. -/
theorem inOrder_empty : InOrder empty [] := by
  intro side
  cases side <;> exact .nil

section Step

variable {v : Views} {blocks : List BuildingBlock} (b : BuildingBlock) {side : Bool}

/-- Names whose runs start where they did keep their order. -/
theorem pairwise_of_runStart?_eq {names : List String}
    (hOrder : names.Pairwise (StartsBefore blocks))
    (hSame : ∀ name ∈ names, runStart? name (blocks ++ [b]) = runStart? name blocks) :
    names.Pairwise (StartsBefore (blocks ++ [b])) := by
  refine List.Pairwise.imp_of_mem ?_ hOrder
  rintro n m hn hm ⟨i, j, hi, hj, hLt⟩
  exact ⟨i, j, (hSame n hn).trans hi, (hSame m hm).trans hj, hLt⟩

/-- A block of the same side continues the runs of all names on that side. -/
theorem Holds.runStart?_concat_eq (h : v.Holds blocks) (hSide : b.isCondition = side) :
    ∀ name ∈ (v.side side).names, runStart? name (blocks ++ [b]) = runStart? name blocks := by
  intro name hMem
  by_cases hName : b.name = name
  · subst hName
    obtain ⟨last, hLast, hLastSide⟩ := h.mem_names_side_iff.mp hMem
    exact runStart?_concat_of_same hLast (hLastSide.trans hSide.symm)
  · exact runStart?_concat_of_ne blocks hName

/-- **Step.** Placing a block keeps the names of both sides in order. -/
theorem InOrder.place (hOrder : v.InOrder blocks) (h : v.Holds blocks) :
    (v.place b).InOrder (blocks ++ [b]) := by
  intro side
  rw [side_place]
  split
  case isTrue hSide =>
    have hOld := pairwise_of_runStart?_eq b (hOrder side) (h.runStart?_concat_eq b hSide)
    rw [Named.names_insert]
    split
    case isTrue hMem => exact hOld
    case isFalse hNew =>
      -- the name turns to this side, and its run starts after those of all names that are there
      have hTurn : runStart? b.name (blocks ++ [b]) = some blocks.length := by
        refine runStart?_concat_of_turn fun last hLast hLastSide => hNew ?_
        exact h.mem_names_side_iff.mpr ⟨last, hLast, hLastSide.trans hSide⟩
      refine List.pairwise_append.mpr ⟨hOld, List.pairwise_singleton _ _, fun n hn m hm => ?_⟩
      obtain rfl := List.mem_singleton.mp hm
      obtain ⟨last, hLast, -⟩ := h.mem_names_side_iff.mp hn
      obtain ⟨i, hi, hLt⟩ := exists_runStart? hLast
      exact ⟨i, blocks.length, (h.runStart?_concat_eq b hSide n hn).trans hi, hTurn, hLt⟩
  case isFalse =>
    rw [Named.names_erase]
    refine pairwise_of_runStart?_eq b ((hOrder side).filter _) fun name hMem => ?_
    have hName : name ≠ b.name := by simpa using (List.mem_filter.mp hMem).2
    exact runStart?_concat_of_ne blocks hName.symm

end Step

/-- **Run.** Placing one block after the other keeps the names in order. -/
theorem InOrder.foldl_place {v : Views} {blocks : List BuildingBlock} (hOrder : v.InOrder blocks)
    (h : v.Holds blocks) (more : List BuildingBlock) :
    (more.foldl Views.place v).InOrder (blocks ++ more) := by
  induction more generalizing v blocks with
  | nil => simpa using hOrder
  | cons b rest ih =>
    rw [List.foldl_cons, List.append_cons]
    exact ih (hOrder.place b h) (h.place b)

-- ---------------------------------------------------------------------------
-- What the invariant means
-- ---------------------------------------------------------------------------

/-- The names of both sides stand in the order in which their final runs start: one name stands
before another on a side exactly if both stand on it and the run of the one starts first. -/
structure OrderedByRuns (v : Views) (blocks : List BuildingBlock) : Prop where
  /-- A name stands on the side of its last block, and not on the other one. -/
  member : ∀ side name, name ∈ (v.side side).names ↔ LastOn blocks side name
  conditions : ∀ n m, [n, m].Sublist v.conditions.names ↔
    n ∈ v.conditions.names ∧ m ∈ v.conditions.names ∧ StartsBefore blocks n m
  actions : ∀ n m, [n, m].Sublist v.actions.names ↔
    n ∈ v.actions.names ∧ m ∈ v.actions.names ∧ StartsBefore blocks n m

end Views

/-- Of two runs one starts first. -/
theorem StartsBefore.asymm {blocks : List BuildingBlock} {n m : String}
    (h : StartsBefore blocks n m) : ¬ StartsBefore blocks m n := by
  obtain ⟨i, j, hi, hj, hLt⟩ := h
  rintro ⟨j', i', hj', hi', hGt⟩
  obtain rfl := Option.some.inj (hi.symm.trans hi')
  obtain rfl := Option.some.inj (hj.symm.trans hj')
  omega

/-- Of two members of a list one stands before the other. -/
theorem sublist_or_sublist_of_mem {n m : String} {names : List String} (hn : n ∈ names)
    (hm : m ∈ names) (hNe : n ≠ m) : [n, m].Sublist names ∨ [m, n].Sublist names := by
  obtain ⟨before, after, rfl⟩ := List.append_of_mem hn
  rcases List.mem_append.mp hm with hBefore | hAfter
  · have hPair := (List.singleton_sublist.mpr hBefore).append
      (List.singleton_sublist.mpr (List.mem_cons_self (a := n) (l := after)))
    exact .inr hPair
  · have hLater := (List.mem_cons.mp hAfter).resolve_left hNe.symm
    exact .inl (((List.singleton_sublist.mpr hLater).cons_cons n).trans
      (List.sublist_append_right before _))

/-- In an ordered list the order of two members is that of their runs. -/
theorem sublist_iff_startsBefore {blocks : List BuildingBlock} {names : List String}
    (h : names.Pairwise (StartsBefore blocks)) (n m : String) :
    [n, m].Sublist names ↔ n ∈ names ∧ m ∈ names ∧ StartsBefore blocks n m := by
  have hOrder {a b : String} (hPair : [a, b].Sublist names) : StartsBefore blocks a b :=
    List.pairwise_iff_forall_sublist.mp h hPair
  constructor
  · intro hPair
    exact ⟨hPair.subset (by simp), hPair.subset (by simp), hOrder hPair⟩
  · rintro ⟨hn, hm, hStarts⟩
    have hNe : n ≠ m := by
      rintro rfl
      exact hStarts.asymm hStarts
    exact (sublist_or_sublist_of_mem hn hm hNe).resolve_right fun hPair =>
      hStarts.asymm (hOrder hPair)

/-- Views that hold the last blocks in order are ordered by runs. -/
theorem Views.InOrder.orderedByRuns {v : Views} {blocks : List BuildingBlock}
    (hOrder : v.InOrder blocks) (h : v.Holds blocks) : v.OrderedByRuns blocks where
  member _ _ := h.mem_names_side_iff
  conditions := sublist_iff_startsBefore (hOrder true)
  actions := sublist_iff_startsBefore (hOrder false)

/-- The views of functions and fragments are ordered by runs. -/
theorem orderedByRuns_classify (functions : List FunctionDescriptor)
    (fragments : List BuildingBlock) :
    (Views.classify functions fragments).OrderedByRuns (enabledBlocks functions fragments) :=
  (Views.inOrder_empty.foldl_place Views.holds_empty _).orderedByRuns
    (Views.holds_classify functions fragments)

-- ---------------------------------------------------------------------------
-- One more block
-- ---------------------------------------------------------------------------

namespace Views

/-- What one more block does to the names of both sides, after some blocks. -/
structure Moves (before : Views) (blocks : List BuildingBlock) (b : BuildingBlock) (after : Views) :
    Prop where
  /-- A name that is defined again on its side keeps its place, and so do the others. -/
  kept : LastOn blocks b.isCondition b.name →
    (after.side b.isCondition).names = (before.side b.isCondition).names
  /-- A name that turns to this side, or appears, comes last. -/
  turned : ¬ LastOn blocks b.isCondition b.name →
    (after.side b.isCondition).names = (before.side b.isCondition).names ++ [b.name]
  /-- On the other side the name is gone, and the others stand as they stood. -/
  left : (after.side (!b.isCondition)).names =
    (before.side (!b.isCondition)).names.filter (· != b.name)

/-- Placing a block moves its name, and no other. -/
theorem Holds.moves_place {v : Views} {blocks : List BuildingBlock} (h : v.Holds blocks)
    (b : BuildingBlock) : v.Moves blocks b (v.place b) where
  kept hLast := by
    rw [side_place, if_pos rfl, Named.names_insert, if_pos (h.mem_names_side_iff.mpr hLast)]
  turned hNew := by
    rw [side_place, if_pos rfl, Named.names_insert,
      if_neg fun hMem => hNew (h.mem_names_side_iff.mp hMem)]
  left := by
    have hOther : b.isCondition ≠ !b.isCondition := by simp
    rw [side_place, if_neg hOther, Named.names_erase]

/-- One more block is placed after the others, if it is enabled. -/
theorem ofBlocks_concat (blocks : List BuildingBlock) (b : BuildingBlock) :
    ofBlocks (blocks ++ [b]) =
      if b.enabled then (ofBlocks blocks).place b else ofBlocks blocks := by
  rw [ofBlocks, List.filter_append, List.foldl_append, ← ofBlocks]
  cases hEnabled : b.enabled <;> simp [hEnabled]

/-- One more block moves its name if it is enabled, and else nothing. -/
theorem moves_ofBlocks (blocks : List BuildingBlock) (b : BuildingBlock) :
    if b.enabled then
      (ofBlocks blocks).Moves (blocks.filter (·.enabled)) b (ofBlocks (blocks ++ [b]))
    else ofBlocks (blocks ++ [b]) = ofBlocks blocks := by
  rw [ofBlocks_concat]
  split
  · exact Holds.moves_place (holds_empty.foldl_place _) b
  · rfl

/-- One more fragment comes after all functions and the other fragments. -/
theorem moves_classify (functions : List FunctionDescriptor) (fragments : List BuildingBlock)
    (b : BuildingBlock) :
    if b.enabled then
      (classify functions fragments).Moves (enabledBlocks functions fragments) b
        (classify functions (fragments ++ [b]))
    else classify functions (fragments ++ [b]) = classify functions fragments := by
  rw [classify, classify, ← List.append_assoc]
  exact moves_ofBlocks (functions.map .ofFunction ++ fragments) b

end Views

/--
**View order.** In both pairs of views of every snapshot a name stands on the side of the last of
its blocks, among the enabled blocks of the functions and of the fragments that follow them; and on
each side the names stand in the order in which their final runs start. One more enabled block
leaves all names of its side in place if its name stands there already, and else brings it there as
the last one; on the other side the name is taken out and the order of the others stays. A block
that is not enabled changes nothing. This holds of one more fragment of a snapshot, and of any
sequence of blocks.
-/
theorem build_views_ordered (catalog : FunctionCatalog) (fragments : List BuildingBlock)
    (generation : Nat) :
    (Snapshot.build catalog fragments generation).offered.OrderedByRuns
        (enabledBlocks catalog.all fragments) ∧
      (Snapshot.build catalog fragments generation).complete.OrderedByRuns
        (enabledBlocks catalog.allWithInternal fragments) ∧
      (∀ b later,
        let before := Snapshot.build catalog fragments generation
        let after := Snapshot.build catalog (fragments ++ [b]) later
        if b.enabled then
          before.offered.Moves (enabledBlocks catalog.all fragments) b after.offered ∧
            before.complete.Moves (enabledBlocks catalog.allWithInternal fragments) b after.complete
        else after.offered = before.offered ∧ after.complete = before.complete) ∧
      ∀ blocks b,
        if b.enabled then
          (Views.ofBlocks blocks).Moves (blocks.filter (·.enabled)) b
            (Views.ofBlocks (blocks ++ [b]))
        else Views.ofBlocks (blocks ++ [b]) = Views.ofBlocks blocks := by
  refine ⟨orderedByRuns_classify _ _, orderedByRuns_classify _ _, fun b later => ?_,
    Views.moves_ofBlocks⟩
  have hOffered := Views.moves_classify catalog.all fragments b
  have hComplete := Views.moves_classify catalog.allWithInternal fragments b
  cases hEnabled : b.enabled with
  | true =>
    rw [hEnabled] at hOffered hComplete
    exact ⟨hOffered, hComplete⟩
  | false =>
    rw [hEnabled] at hOffered hComplete
    exact ⟨hOffered, hComplete⟩

/-- The name that turned away and back comes last, though it was the first to come. -/
example :
    let truth (name : String) := (FunctionDescriptor.ofType name .boolean).enable
    (Snapshot.build .empty
      [.condition (truth "a") "", .condition (truth "b") "", .action (truth "a") "",
        .condition (truth "a") "", .condition (truth "b") ""] 0).conditions.names = ["b", "a"] := by
  decide

end RuleBlocks
