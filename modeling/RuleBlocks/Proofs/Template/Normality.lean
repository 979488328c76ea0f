import RuleBlocks.Proofs.Template.Sandbox

/-!
# Every tree is normal

The trees that come of sources are the normal ones, and no others. A reader puts nodes into the tree
at four different places, text among them as late as it can, and what keeps the tree normal is
spread over all of them. The grammar shows it at once: a character in front of nodes joins their
first text, so no two texts meet and none is empty; an expression that is admitted has a valid path;
and a conditional assembles only where one more may still be opened.

Normal form is a condition on the whole tree, computed from its leaves upward. Here it is also said
level by level, from the root downward, where a level is the tree itself or a branch of a
conditional of another level.

* `Path.IsWellFormed`, `Path.isValid_iff` — which paths are valid;
* `IsLevel`, `LevelIsNormal`, `isNormal_iff_levels` — normal form level by level;
* `Assembles.depth_le` — conditionals assemble no deeper than they may stand;
* `exists_parse_iff_levels` — **the trees of sources are the normal ones**.
-/

namespace RuleBlocks.Template

-- ---------------------------------------------------------------------------
-- Valid paths
-- ---------------------------------------------------------------------------

/-- An ASCII letter or an underscore, and then ASCII letters, digits and underscores. -/
def IsIdentifier (s : List Char) : Prop :=
  ∃ c r, s = c :: r ∧ (c.isAlpha = true ∨ c = '_') ∧ ∀ d ∈ r, d.isAlphanum = true ∨ d = '_'

/-- ASCII digits, and at least one of them. -/
def IsNumeral (s : List Char) : Prop :=
  s ≠ [] ∧ ∀ d ∈ s, d.isDigit = true

/-- What is required of a path segment by segment. -/
structure Path.IsWellFormed (path : Path) : Prop where
  nonempty : path ≠ []
  segment : ∀ segment ∈ path, IsIdentifier segment.toList ∨ IsNumeral segment.toList
  first : ∀ first ∈ path.head?, ∀ c ∈ first.toList.head?, c.isDigit = false

/-- A segment is an identifier or a numeral. -/
theorem isSegment_iff {s : List Char} : isSegment s = true ↔ IsIdentifier s ∨ IsNumeral s := by
  cases s with
  | nil => simp [isSegment, IsIdentifier, IsNumeral]
  | cons c r =>
    have hIdentifier : IsIdentifier (c :: r) ↔
        (c.isAlpha = true ∨ c = '_') ∧ ∀ d ∈ r, d.isAlphanum = true ∨ d = '_' := by
      constructor
      · rintro ⟨c, r, ⟨⟩, h⟩
        exact h
      · exact fun h => ⟨c, r, rfl, h⟩
    rw [hIdentifier]
    simp [isSegment, IsNumeral]

/-- A path is valid if it has segments and each is well formed. -/
theorem Path.isValid_iff {path : Path} : path.isValid = true ↔ path.IsWellFormed := by
  cases path with
  | nil => exact iff_of_false (by simp [Path.isValid, isPath]) fun h => h.nonempty rfl
  | cons first rest =>
    have hFirst : (first.toList.head?.any Char.isDigit) = false ↔
        ∀ c ∈ first.toList.head?, c.isDigit = false := by
      cases first.toList.head? <;> simp
    have hSegments : ((first :: rest).map String.toList).all isSegment = true ↔
        ∀ segment ∈ first :: rest, IsIdentifier segment.toList ∨ IsNumeral segment.toList := by
      simp only [List.all_eq_true, List.forall_mem_map, isSegment_iff]
    rw [Path.isValid, List.map_cons, isPath, Bool.and_eq_true, Bool.not_eq_true', hFirst,
      ← List.map_cons, hSegments]
    constructor
    · rintro ⟨hSegments, hFirst⟩
      exact ⟨List.cons_ne_nil first rest, hSegments, fun _ h => Option.some.inj h ▸ hFirst⟩
    · exact fun h => ⟨h.segment, h.first first rfl⟩

-- ---------------------------------------------------------------------------
-- Levels
-- ---------------------------------------------------------------------------

/-- The nodes of the tree, or those of one branch of a conditional that stands in another level. The
number counts the conditionals around them. -/
inductive IsLevel (nodes : List Node) : Nat → List Node → Prop
  | root : IsLevel nodes 0 nodes
  | thenBranch {k : Nat} {level : List Node} {c : Condition} {thenNodes elseNodes : List Node}
      (hLevel : IsLevel nodes k level) (hMem : .conditional c thenNodes elseNodes ∈ level) :
      IsLevel nodes (k + 1) thenNodes
  | elseBranch {k : Nat} {level : List Node} {c : Condition} {thenNodes elseNodes : List Node}
      (hLevel : IsLevel nodes k level) (hMem : .conditional c thenNodes elseNodes ∈ level) :
      IsLevel nodes (k + 1) elseNodes

/-- What is required of a node, whatever is inside its branches. -/
def Node.IsSound : Node → Prop
  | .text content => content ≠ ""
  | .interpolation i => i.path.IsWellFormed
  | .conditional c _ _ => c.path.IsWellFormed

/-- What is required of the nodes of one level: each of them is sound, and no two texts stand side
by side. -/
structure LevelIsNormal (level : List Node) : Prop where
  sound : ∀ n ∈ level, n.IsSound
  apart : ∀ a b, ¬ [.text a, .text b] <:+: level

/-- The levels of a branch are levels of the tree that the branch belongs to. -/
theorem IsLevel.trans {nodes branch level : List Node} {j k : Nat}
    (hBranch : IsLevel nodes j branch) (h : IsLevel branch k level) :
    IsLevel nodes (j + k) level := by
  induction h with
  | root => exact hBranch
  | thenBranch _ hMem ih => exact .thenBranch ih hMem
  | elseBranch _ hMem ih => exact .elseBranch ih hMem

-- ---------------------------------------------------------------------------
-- One level and its branches
-- ---------------------------------------------------------------------------

/-- A node is regular if it is sound and so are its branches. -/
theorem Node.isRegular_iff {n : Node} :
    n.isRegular = true ↔ n.IsSound ∧ ∀ c thenNodes elseNodes,
      n = .conditional c thenNodes elseNodes →
        Node.areRegular thenNodes = true ∧ Node.areRegular elseNodes = true := by
  cases n with
  | text content => simp [Node.isRegular, Node.IsSound]
  | interpolation i => simp [Node.isRegular, Node.IsSound, Path.isValid_iff]
  | conditional c thenNodes elseNodes =>
    rw [Node.isRegular_conditional, Node.IsSound, Path.isValid_iff]
    refine and_congr_right fun _ => ⟨?_, fun h => h c thenNodes elseNodes rfl⟩
    rintro h _ _ _ ⟨⟩
    exact h

/-- No two texts are neighbours if the first node and the next are not, nor any behind them. -/
theorem forall_not_infix_cons {n : Node} {rest : List Node} :
    (∀ a b, ¬ [.text a, .text b] <:+: n :: rest) ↔
      (n.isText = true → startsWithText rest = false) ∧
        ∀ a b, ¬ [.text a, .text b] <:+: rest := by
  simp only [List.infix_cons_iff, List.cons_prefix_cons, not_or, forall_and]
  refine and_congr_left fun _ => ?_
  cases n with
  | interpolation i => simp [Node.isText]
  | conditional c thenNodes elseNodes => simp [Node.isText]
  | text content =>
    cases rest with
    | nil => simp [startsWithText]
    | cons m more => cases m <;> simp [startsWithText, Node.isText]

/-- A list of nodes is regular if its own level is normal and its branches are regular. -/
theorem areRegular_iff {nodes : List Node} :
    Node.areRegular nodes = true ↔ LevelIsNormal nodes ∧
      ∀ c thenNodes elseNodes, .conditional c thenNodes elseNodes ∈ nodes →
        Node.areRegular thenNodes = true ∧ Node.areRegular elseNodes = true := by
  induction nodes with
  | nil => simpa [Node.areRegular] using ⟨by simp, by simp⟩
  | cons n rest ih =>
    rw [Node.areRegular_cons, Node.isRegular_iff, ih]
    constructor
    · rintro ⟨⟨hSound, hBranches⟩, hNext, hRest, hOthers⟩
      refine ⟨⟨List.forall_mem_cons.mpr ⟨hSound, hRest.sound⟩,
        forall_not_infix_cons.mpr ⟨hNext, hRest.apart⟩⟩, fun c t e hMem => ?_⟩
      -- a conditional of this level stands here or further on
      rcases List.mem_cons.mp hMem with hHere | hLater
      · exact hBranches c t e hHere.symm
      · exact hOthers c t e hLater
    · rintro ⟨hLevel, hBranches⟩
      obtain ⟨hSound, hRest⟩ := List.forall_mem_cons.mp hLevel.sound
      obtain ⟨hNext, hApart⟩ := forall_not_infix_cons.mp hLevel.apart
      refine ⟨⟨hSound, fun c t e hNode => hBranches c t e ?_⟩, hNext, ⟨hRest, hApart⟩,
        fun c t e hMem => hBranches c t e (List.mem_cons_of_mem n hMem)⟩
      exact hNode ▸ List.mem_cons_self

/-- Nodes are so deep at most if their branches are less deep. -/
theorem Node.depthOfList_le_iff {nodes : List Node} {m : Nat} :
    Node.depthOfList nodes ≤ m ↔
      ∀ c thenNodes elseNodes, .conditional c thenNodes elseNodes ∈ nodes →
        Node.depthOfList thenNodes < m ∧ Node.depthOfList elseNodes < m := by
  induction nodes with
  | nil => simp [Node.depthOfList]
  | cons n rest ih =>
    rw [Node.depthOfList, Nat.max_le, ih]
    constructor
    · rintro ⟨hHere, hOthers⟩ c t e hMem
      rcases List.mem_cons.mp hMem with rfl | hLater
      · rw [Node.depth] at hHere
        omega
      · exact hOthers c t e hLater
    · intro hBranches
      refine ⟨?_, fun c t e hMem => hBranches c t e (List.mem_cons_of_mem n hMem)⟩
      cases n with
      | text content => exact Nat.zero_le m
      | interpolation i => exact Nat.zero_le m
      | conditional c t e =>
        have hDepths := hBranches c t e List.mem_cons_self
        rw [Node.depth]
        omega

-- ---------------------------------------------------------------------------
-- Normal form level by level
-- ---------------------------------------------------------------------------

/-- **Downward.** Each level of a normal tree is normal, and leaves the depth that is below it. -/
theorem IsLevel.of_normal {nodes level : List Node} {k m : Nat} (h : IsLevel nodes k level)
    (hRegular : Node.areRegular nodes = true) (hDepth : Node.depthOfList nodes ≤ m) :
    Node.areRegular level = true ∧ k + Node.depthOfList level ≤ m := by
  induction h with
  | root => exact ⟨hRegular, by omega⟩
  | thenBranch _ hMem ih =>
    have hDepths := Node.depthOfList_le_iff.mp (Nat.le_refl _) _ _ _ hMem
    exact ⟨((areRegular_iff.mp ih.1).2 _ _ _ hMem).1, by omega⟩
  | elseBranch _ hMem ih =>
    have hDepths := Node.depthOfList_le_iff.mp (Nat.le_refl _) _ _ _ hMem
    exact ⟨((areRegular_iff.mp ih.1).2 _ _ _ hMem).2, by omega⟩

/-- **Upward.** A tree is normal if all its levels are. The recursion is on the size of the tree,
whose branches are trees of their own with one conditional less around each level. -/
theorem normal_of_levels (nodes : List Node) (m : Nat)
    (h : ∀ k level, IsLevel nodes k level → k ≤ m ∧ LevelIsNormal level) :
    Node.areRegular nodes = true ∧ Node.depthOfList nodes ≤ m := by
  -- the levels of a branch are levels of the whole, one deeper, and a branch is smaller
  have hBranch {branch : List Node} (hBelow : IsLevel nodes 1 branch)
      (hSize : sizeOf branch < sizeOf nodes) :
      Node.areRegular branch = true ∧ Node.depthOfList branch < m := by
    have hFirst := (h 1 branch hBelow).1
    obtain ⟨hRegular, hDepth⟩ := normal_of_levels branch (m - 1) fun k level hLevel => by
      obtain ⟨hDepth, hNormal⟩ := h _ level (hBelow.trans hLevel)
      exact ⟨by omega, hNormal⟩
    exact ⟨hRegular, by omega⟩
  have hBranches (c : Condition) (t e : List Node) (hMem : .conditional c t e ∈ nodes) :
      (Node.areRegular t = true ∧ Node.depthOfList t < m) ∧
        Node.areRegular e = true ∧ Node.depthOfList e < m := by
    have hSize := List.sizeOf_lt_of_mem hMem
    rw [Node.conditional.sizeOf_spec] at hSize
    exact ⟨hBranch (.thenBranch .root hMem) (by omega), hBranch (.elseBranch .root hMem) (by omega)⟩
  constructor
  · exact areRegular_iff.mpr ⟨(h 0 nodes .root).2, fun c t e hMem =>
      ⟨(hBranches c t e hMem).1.1, (hBranches c t e hMem).2.1⟩⟩
  · exact Node.depthOfList_le_iff.mpr fun c t e hMem =>
      ⟨(hBranches c t e hMem).1.2, (hBranches c t e hMem).2.2⟩
termination_by sizeOf nodes

/-- **A tree is normal exactly if every level is**, and no level lies too deep. -/
theorem isNormal_iff_levels {nodes : List Node} :
    isNormal nodes = true ↔
      ∀ k level, IsLevel nodes k level → k ≤ maxNesting ∧ LevelIsNormal level := by
  rw [isNormal_iff]
  constructor
  · rintro ⟨hRegular, hDepth⟩ k level hLevel
    obtain ⟨hRegular, hDepth⟩ := hLevel.of_normal hRegular hDepth
    exact ⟨by omega, (areRegular_iff.mp hRegular).1⟩
  · exact normal_of_levels nodes maxNesting

-- ---------------------------------------------------------------------------
-- The trees of sources
-- ---------------------------------------------------------------------------

theorem depthOfList_prependChar (c : Char) (nodes : List Node) :
    Node.depthOfList (prependChar c nodes) = Node.depthOfList nodes := by
  cases nodes with
  | nil => rfl
  | cons n rest => cases n <;> simp [prependChar, Node.depthOfList, Node.depth]

/-- What items spell is no deeper than what may still be opened around them. -/
theorem Assembles.depth_le {opened : Nat} {items : List Lexeme} {nodes : List Node}
    (h : Assembles opened items nodes) : Node.depthOfList nodes ≤ maxNesting - opened := by
  induction h with
  | nil => exact Nat.zero_le _
  | char _ ih => rwa [depthOfList_prependChar]
  | comment _ ih => exact ih
  | interpolation _ _ ih => simpa [Node.depthOfList, Node.depth] using ih
  | conditional hDepth _ _ _ _ ihThen ih =>
    rw [Node.depthOfList, Node.depth, Node.depthOfList]
    omega
  | branching hDepth _ _ _ _ _ _ ihThen ihElse ih =>
    rw [Node.depthOfList, Node.depth]
    omega

/-- A normal tree is read from any of its spellings. -/
theorem readFrom_of_spells {nodes : List Node} {s : List Char} (hSpells : Spells nodes s)
    (hNormal : isNormal nodes = true) (line : Nat) : readFrom .blank line s = .ok nodes := by
  obtain ⟨hRegular, hDepth⟩ := isNormal_iff.mp hNormal
  have hReads : Reads 0 nodes s := reads_of_spells hSpells hRegular (by omega)
  have hRead := hReads .blank line [] rfl endsText_nil
  rwa [List.append_nil, readFrom_nil, Draft.finish_foldl_hang hRegular] at hRead

/-- **The trees of sources are the normal ones.** In every tree that a source is read as, and at
every level of it, no text is empty, no two texts stand side by side, and every path is well formed;
and no level has more than thirty-two conditionals around it. Nothing else can be said of them, for
every such tree has a source. -/
theorem exists_parse_iff_levels (name : String) (nodes : List Node) :
    (∃ source, parse name source = .ok nodes) ↔
      ∀ k level, IsLevel nodes k level → k ≤ maxNesting ∧ LevelIsNormal level := by
  rw [← isNormal_iff_levels]
  constructor
  · rintro ⟨source, hParse⟩
    obtain ⟨items, -, -, hAssembles⟩ := readFrom_blank_eq_ok_iff.mp (parse_eq_ok_iff.mp hParse)
    exact isNormal_iff.mpr ⟨hAssembles.areRegular, hAssembles.depth_le⟩
  · intro hNormal
    obtain ⟨s, hSpells⟩ := exists_spells nodes (isNormal_iff.mp hNormal).1
    refine ⟨String.ofList s, parse_eq_ok_iff.mpr ?_⟩
    rw [String.toList_ofList]
    exact readFrom_of_spells hSpells hNormal 1

end RuleBlocks.Template
