import RuleBlocks.Proofs.Template.Spelling
import RuleBlocks.Proofs.Template.Unquoted

/-!
# What a template may be made of

A template is a sequence of items: characters of text, comments, interpolations and tags. Two things
are said of them here, both without a reader. A source scans as a sequence of items if every item
ends where it must and no other item could stand in its place; whether the items may be used, and in
which order, does not matter for that. And a sequence of items assembles to a tree if each of them
is one that templates may use and the tags pair up; what else the source holds does not matter for
that.

Nothing but these items can be used: there is no directive beside `if` and `else`, and no other `?`
outside quotes than the two that test for presence.

* `AdmitsInterpolation`, `AdmitsOpening` — what may stand inside `${…}` and `<#if …>`;
* `Lexeme.IsAdmitted` — the items that templates may use;
* `Lexeme.StandsBefore`, `Scans` — sequences of items that are told apart in only one way;
* `Assembles` — the tree that a sequence of items spells;
* `Assembles.areRegular` — the tree is one that can be written.
-/

namespace RuleBlocks.Template

open Text

-- ---------------------------------------------------------------------------
-- Items that may be used
-- ---------------------------------------------------------------------------

/-- What follows the path of an interpolation. A default stands between two equal quote marks; what
is between them is taken as it is, even if it holds further quote marks. -/
inductive SpellsDefault : Fallback → List Char → Prop
  | required : SpellsDefault .required []
  | empty {blanks : List Char} (hBlanks : isBlank blanks = true) :
      SpellsDefault .empty ('!' :: blanks)
  | literal {mark : Char} {content before after : List Char} (hMark : isQuoteMark mark = true)
      (hBefore : isBlank before = true) (hAfter : isBlank after = true) :
      SpellsDefault (.literal (String.ofList (unescape content)))
        ('!' :: (before ++ mark :: (content ++ [mark]) ++ after))

/-- The inside of an interpolation: a valid path, perhaps a default, and no `?` outside quotes. -/
def AdmitsInterpolation (i : Interpolation) (inner : List Char) : Prop :=
  i.path.isValid = true ∧ ¬ StandsUnquoted '?' inner ∧
    ∃ path default, SpellsPath i.path path ∧ SpellsDefault i.fallback default ∧
      inner = path ++ default

/-- The inside of a tag that opens a conditional: `if` and a condition on a valid path. -/
def AdmitsOpening (c : Condition) (inner : List Char) : Prop :=
  c.path.isValid = true ∧ SpellsOpening c inner

namespace Lexeme

/-- The items that templates may use. Text and comments may hold anything. -/
def IsAdmitted : Lexeme → Prop
  | char _ => True
  | comment _ => True
  | interpolation inner => ∃ i, AdmitsInterpolation i inner
  | closing inner => SpellsTag "if" inner
  | opening inner => (∃ c, AdmitsOpening c inner) ∨ SpellsTag "else" inner

-- ---------------------------------------------------------------------------
-- Scanning
-- ---------------------------------------------------------------------------

/-- The item stands in front of the rest, and a reader who comes from the left takes it for what it
is: a character at which no construct starts; a comment up to the first end mark, which may share
its dashes with the start; an interpolation or tag up to the first end mark outside quotes. -/
def StandsBefore (rest : List Char) : Lexeme → Prop
  | char c => opens (c :: rest) = false
  | comment body => ['-', '-'] <+: body ++ ['-', '-'] ∧ ¬ ['-', '-', '>'] <:+: body ++ ['-', '-']
  | interpolation inner => Encloses '}' inner
  | closing inner => Encloses '>' inner
  | opening inner => ¬ ['-', '-'] <+: inner ∧ Encloses '>' inner

end Lexeme

/-- The items stand one after the other in front of the rest. -/
def Scans : List Lexeme → List Char → Prop
  | [], _ => True
  | l :: ls, rest => l.StandsBefore (ls.flatMap Lexeme.source ++ rest) ∧ Scans ls rest

-- ---------------------------------------------------------------------------
-- Trees
-- ---------------------------------------------------------------------------

/-- A character in front of nodes belongs to their first text, if they start with one. -/
def prependChar (c : Char) : List Node → List Node
  | .text content :: rest => .text (String.singleton c ++ content) :: rest
  | nodes => .text (String.singleton c) :: nodes

/-- The nodes that the items spell where the given number of conditionals is open around them. -/
inductive Assembles : Nat → List Lexeme → List Node → Prop
  | nil {opened : Nat} : Assembles opened [] []
  | char {opened : Nat} {c : Char} {items : List Lexeme} {nodes : List Node}
      (hRest : Assembles opened items nodes) :
      Assembles opened (.char c :: items) (prependChar c nodes)
  | comment {opened : Nat} {body : List Char} {items : List Lexeme} {nodes : List Node}
      (hRest : Assembles opened items nodes) : Assembles opened (.comment body :: items) nodes
  | interpolation {opened : Nat} {i : Interpolation} {inner : List Char} {items : List Lexeme}
      {nodes : List Node} (hInner : AdmitsInterpolation i inner)
      (hRest : Assembles opened items nodes) :
      Assembles opened (.interpolation inner :: items) (.interpolation i :: nodes)
  | conditional {opened : Nat} {c : Condition} {opening closing : List Char}
      {thenItems items : List Lexeme} {thenNodes nodes : List Node}
      (hDepth : opened < maxNesting) (hOpening : AdmitsOpening c opening)
      (hThen : Assembles (opened + 1) thenItems thenNodes) (hClosing : SpellsTag "if" closing)
      (hRest : Assembles opened items nodes) :
      Assembles opened (.opening opening :: (thenItems ++ .closing closing :: items))
        (.conditional c thenNodes [] :: nodes)
  | branching {opened : Nat} {c : Condition} {opening turning closing : List Char}
      {thenItems elseItems items : List Lexeme} {thenNodes elseNodes nodes : List Node}
      (hDepth : opened < maxNesting) (hOpening : AdmitsOpening c opening)
      (hThen : Assembles (opened + 1) thenItems thenNodes) (hTurning : SpellsTag "else" turning)
      (hElse : Assembles (opened + 1) elseItems elseNodes) (hClosing : SpellsTag "if" closing)
      (hRest : Assembles opened items nodes) :
      Assembles opened
        (.opening opening ::
          (thenItems ++ .opening turning :: (elseItems ++ .closing closing :: items)))
        (.conditional c thenNodes elseNodes :: nodes)

/-- A character before regular nodes leaves them regular: it joins a text or becomes one. -/
theorem areRegular_prependChar {nodes : List Node} (h : Node.areRegular nodes = true) (c : Char) :
    Node.areRegular (prependChar c nodes) = true := by
  cases nodes with
  | nil => simp [prependChar, Node.areRegular, Node.isRegular, startsWithText]
  | cons n rest =>
    obtain ⟨hNode, hNext, hRest⟩ := Node.areRegular_cons.mp h
    cases n with
    | text content =>
      exact Node.areRegular_cons.mpr ⟨by simp [Node.isRegular], hNext, hRest⟩
    | interpolation i =>
      exact Node.areRegular_cons.mpr
        ⟨by simp [Node.isRegular], fun _ => by simp [startsWithText, Node.isText], h⟩
    | conditional condition thenNodes elseNodes =>
      exact Node.areRegular_cons.mpr
        ⟨by simp [Node.isRegular], fun _ => by simp [startsWithText, Node.isText], h⟩

/-- What items spell has no empty text, no two texts side by side, and valid paths only. -/
theorem Assembles.areRegular {opened : Nat} {items : List Lexeme} {nodes : List Node}
    (h : Assembles opened items nodes) : Node.areRegular nodes = true := by
  induction h with
  | nil => rfl
  | char _ ih => exact areRegular_prependChar ih _
  | comment _ ih => exact ih
  | interpolation hInner _ ih =>
    exact Node.areRegular_cons.mpr ⟨hInner.1, fun hText => absurd hText (by simp [Node.isText]), ih⟩
  | conditional _ hOpening _ _ _ ihThen ih =>
    refine Node.areRegular_cons.mpr ⟨?_, fun hText => absurd hText (by simp [Node.isText]), ih⟩
    exact Node.isRegular_conditional.mpr ⟨hOpening.1, ihThen, rfl⟩
  | branching _ hOpening _ _ _ _ _ ihThen ihElse ih =>
    refine Node.areRegular_cons.mpr ⟨?_, fun hText => absurd hText (by simp [Node.isText]), ih⟩
    exact Node.isRegular_conditional.mpr ⟨hOpening.1, ihThen, ihElse⟩

end RuleBlocks.Template
