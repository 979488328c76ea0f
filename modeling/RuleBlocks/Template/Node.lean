/-!
# Template trees

A compiled template is a list of nodes: literal text, interpolations of a variable, and
conditionals with two branches. A template can only name variables by dotted paths; there is no
other expression, which is what keeps templates from doing anything but reading their context.

Main definitions:

* `Path`, `isSegment`, `Path.isValid` — dotted paths and which of them may be written;
* `Interpolation`, `Condition`, `Node` — the tree;
* `Node.paths` — every path that a list of nodes names, in document order.
-/

namespace RuleBlocks.Template

-- ---------------------------------------------------------------------------
-- Paths
-- ---------------------------------------------------------------------------

/-- The segments of a dotted path, outermost first. -/
abbrev Path := List String

/-- A segment is an ASCII identifier, or a number that indexes a list. -/
def isSegment (s : List Char) : Bool :=
  match s with
  | [] => false
  | c :: r =>
    ((c.isAlpha || c == '_') && r.all fun d => d.isAlphanum || d == '_') || (c :: r).all Char.isDigit

/-- A path that may stand in a template: every segment is well formed, and the first one is not a
number, since a context is not indexed as a list. -/
def isPath : List (List Char) → Bool
  | [] => false
  | first :: rest => (first :: rest).all isSegment && !(first.head?.any Char.isDigit)

/-- Whether the path may stand in a template. -/
def Path.isValid (path : Path) : Bool :=
  isPath (path.map String.toList)

/-- A valid path has segments. -/
theorem Path.ne_nil_of_isValid {path : Path} (h : path.isValid = true) : path ≠ [] := by
  rintro rfl
  simp [Path.isValid, isPath] at h

/-- The path as it is written, without blanks. -/
def Path.dotted (path : Path) : String :=
  ".".intercalate path

-- ---------------------------------------------------------------------------
-- Nodes
-- ---------------------------------------------------------------------------

/-- What an interpolation writes when its variable is missing or null. -/
inductive Fallback
  | required
  | empty
  | literal (text : String)
deriving DecidableEq, Repr

structure Interpolation where
  path : Path
  fallback : Fallback
deriving DecidableEq, Repr

structure Condition where
  path : Path
  negated : Bool
  /-- Only ask whether the variable is present, not what its value is. -/
  existsOnly : Bool
deriving DecidableEq, Repr

inductive Node
  | text (content : String)
  | interpolation (what : Interpolation)
  | conditional (condition : Condition) (thenNodes elseNodes : List Node)
deriving Repr

/-- How many conditionals may enclose a point of a template. -/
def maxNesting : Nat := 32

mutual

/-- Every path that the node names, in document order, on all branches. -/
def Node.paths : Node → List Path
  | .text _ => []
  | .interpolation i => [i.path]
  | .conditional c thenNodes elseNodes =>
    c.path :: (Node.pathsOfList thenNodes ++ Node.pathsOfList elseNodes)

def Node.pathsOfList : List Node → List Path
  | [] => []
  | n :: rest => n.paths ++ Node.pathsOfList rest

end

end RuleBlocks.Template
