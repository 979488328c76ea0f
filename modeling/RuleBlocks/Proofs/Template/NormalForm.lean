import RuleBlocks.Template.Node

/-!
# Normal form of template trees

Different sources can have the same tree, but not every tree has a source. No source has a tree in
which two texts stand side by side, since what is read as text is read as one text up to the next
construct; none has an empty text, a path that may not be written, or conditionals that enclose each
other too deeply. The trees without these defects are normal.

The local conditions and the depth are kept apart, because a branch of a normal tree satisfies the
first as a tree of its own, while the depth that is left for it depends on where it hangs.

* `Node.isRegular`, `Node.areRegular` — the local conditions, on a node and on a list of nodes;
* `Node.depth`, `Node.depthOfList` — how many conditionals enclose the innermost point;
* `isNormal` — both together, for the nodes of a whole template.
-/

namespace RuleBlocks.Template

-- ---------------------------------------------------------------------------
-- Local conditions
-- ---------------------------------------------------------------------------

def Node.isText : Node → Bool
  | .text _ => true
  | _ => false

/-- Whether the first of the nodes is text. -/
def startsWithText (nodes : List Node) : Bool :=
  nodes.head?.any Node.isText

mutual

/-- No text is empty, no two texts stand side by side, and every path may be written. -/
def Node.isRegular : Node → Bool
  | .text content => !content.isEmpty
  | .interpolation i => i.path.isValid
  | .conditional c thenNodes elseNodes =>
    c.path.isValid && Node.areRegular thenNodes && Node.areRegular elseNodes

def Node.areRegular : List Node → Bool
  | [] => true
  | n :: rest => n.isRegular && !(n.isText && startsWithText rest) && Node.areRegular rest

end

/-- Nodes are regular one by one, and no text follows a text. -/
theorem Node.areRegular_cons {n : Node} {rest : List Node} :
    Node.areRegular (n :: rest) = true ↔
      n.isRegular = true ∧ (n.isText = true → startsWithText rest = false) ∧
        Node.areRegular rest = true := by
  cases ht : n.isText <;> simp [Node.areRegular, ht, and_assoc]

/-- A conditional is regular with its path and both its branches. -/
theorem Node.isRegular_conditional {c : Condition} {thenNodes elseNodes : List Node} :
    (Node.conditional c thenNodes elseNodes).isRegular = true ↔
      c.path.isValid = true ∧ Node.areRegular thenNodes = true ∧
        Node.areRegular elseNodes = true := by
  simp [Node.isRegular, and_assoc]

-- ---------------------------------------------------------------------------
-- Depth
-- ---------------------------------------------------------------------------

mutual

def Node.depth : Node → Nat
  | .conditional _ thenNodes elseNodes =>
    max (Node.depthOfList thenNodes) (Node.depthOfList elseNodes) + 1
  | _ => 0

def Node.depthOfList : List Node → Nat
  | [] => 0
  | n :: rest => max n.depth (Node.depthOfList rest)

end

-- ---------------------------------------------------------------------------
-- Normal form
-- ---------------------------------------------------------------------------

/-- The nodes can be those of a template. -/
def isNormal (nodes : List Node) : Bool :=
  Node.areRegular nodes && decide (Node.depthOfList nodes ≤ maxNesting)

/-- A tree is normal if it is regular and not too deep. -/
theorem isNormal_iff {nodes : List Node} :
    isNormal nodes = true ↔
      Node.areRegular nodes = true ∧ Node.depthOfList nodes ≤ maxNesting := by
  simp [isNormal]

end RuleBlocks.Template
