import RuleBlocks.Text.WhiteSpace
import RuleBlocks.Template.Lexeme
import RuleBlocks.Proofs.Template.NormalForm

/-!
# How a template tree is written

A tree has many sources. Blanks may stand around everything inside the delimiters of a construct: a
path and its dots, the marks of a condition, a default, the word of a tag. An else branch without
nodes may be written or left out. The relations here say which sources are meant, one for each part
of the syntax, by saying how the characters are put together. They do not mention how a source is
read.

Text stands as it is, except that a construct must not start in it. Where one would, an empty
comment is put between its first two characters; a comment leaves no trace in the tree.

* `SpellsPath`, `SpellsFallback`, `SpellsInterpolation` — what stands between `${` and `}`;
* `SpellsCondition`, `SpellsOpening`, `SpellsTag` — what stands inside the tags;
* `spellText` — text with its openers taken apart;
* `Spells` — the sources of a list of nodes;
* `exists_spells` — every list of nodes with valid paths has one.
-/

namespace RuleBlocks.Template

open Text

-- ---------------------------------------------------------------------------
-- Interpolations
-- ---------------------------------------------------------------------------

/-- A path: its segments with dots between them, and blanks on both sides of each segment. -/
inductive SpellsPath : Path → List Char → Prop
  | last {segment : String} {before after : List Char}
      (hBefore : isBlank before = true) (hAfter : isBlank after = true) :
      SpellsPath [segment] (before ++ segment.toList ++ after)
  | dot {segment : String} {path : Path} {before after s : List Char}
      (hBefore : isBlank before = true) (hAfter : isBlank after = true)
      (hPath : SpellsPath path s) :
      SpellsPath (segment :: path) (before ++ segment.toList ++ after ++ '.' :: s)

/-- A literal between double quotes; a backslash stands before each `\` and `"` of the text. -/
def quoted (text : String) : List Char :=
  '"' :: (escape '"' text.toList ++ ['"'])

/-- What follows the path of an interpolation. -/
inductive SpellsFallback : Fallback → List Char → Prop
  | required : SpellsFallback .required []
  | empty {blanks : List Char} (hBlanks : isBlank blanks = true) :
      SpellsFallback .empty ('!' :: blanks)
  | literal {text : String} {before after : List Char}
      (hBefore : isBlank before = true) (hAfter : isBlank after = true) :
      SpellsFallback (.literal text) ('!' :: (before ++ quoted text ++ after))

/-- What stands between `${` and `}`. -/
def SpellsInterpolation (i : Interpolation) (s : List Char) : Prop :=
  ∃ path fallback, SpellsPath i.path path ∧ SpellsFallback i.fallback fallback ∧
    s = path ++ fallback

-- ---------------------------------------------------------------------------
-- Tags
-- ---------------------------------------------------------------------------

/-- What precedes the path of a condition. -/
inductive SpellsNegation : Bool → List Char → Prop
  | absent : SpellsNegation false []
  | present {before : List Char} (hBefore : isBlank before = true) :
      SpellsNegation true (before ++ ['!'])

/-- What follows the path of a condition. -/
inductive SpellsPresenceTest : Bool → List Char → Prop
  | absent : SpellsPresenceTest false []
  | present {after : List Char} (hAfter : isBlank after = true) :
      SpellsPresenceTest true ('?' :: '?' :: after)

def SpellsCondition (c : Condition) (s : List Char) : Prop :=
  ∃ negation path test, SpellsNegation c.negated negation ∧ SpellsPath c.path path ∧
    SpellsPresenceTest c.existsOnly test ∧ s = negation ++ path ++ test

/-- What stands between `<#` and `>` where a conditional starts. One blank at least separates the
word from the condition. -/
def SpellsOpening (c : Condition) (s : List Char) : Prop :=
  ∃ before blank condition, isBlank before = true ∧ isWhiteSpace blank = true ∧
    SpellsCondition c condition ∧ s = before ++ 'i' :: 'f' :: blank :: condition

/-- A tag that holds a single word. -/
def SpellsTag (word : String) (s : List Char) : Prop :=
  ∃ before after, isBlank before = true ∧ isBlank after = true ∧
    s = before ++ word.toList ++ after

-- ---------------------------------------------------------------------------
-- Nodes
-- ---------------------------------------------------------------------------

/-- Text in which no construct starts: an empty comment follows the first character of each
opener. -/
def spellText : List Char → List Char
  | [] => []
  | c :: r =>
    if opens (c :: r) then c :: (Lexeme.emptyComment.source ++ spellText r)
    else c :: spellText r

/-- The sources of a list of nodes. Without an else tag there are no nodes in the else branch. -/
inductive Spells : List Node → List Char → Prop
  | nil : Spells [] []
  | text {content : String} {nodes : List Node} {s : List Char} (hRest : Spells nodes s) :
      Spells (.text content :: nodes) (spellText content.toList ++ s)
  | interpolation {i : Interpolation} {nodes : List Node} {inner s : List Char}
      (hInner : SpellsInterpolation i inner) (hRest : Spells nodes s) :
      Spells (.interpolation i :: nodes) ((Lexeme.interpolation inner).source ++ s)
  | conditional {c : Condition} {thenNodes nodes : List Node}
      {opening closing thenSource s : List Char}
      (hOpening : SpellsOpening c opening) (hThen : Spells thenNodes thenSource)
      (hClosing : SpellsTag "if" closing) (hRest : Spells nodes s) :
      Spells (.conditional c thenNodes [] :: nodes)
        ((Lexeme.opening opening).source ++ thenSource ++ (Lexeme.closing closing).source ++ s)
  | branching {c : Condition} {thenNodes elseNodes nodes : List Node}
      {opening turning closing thenSource elseSource s : List Char}
      (hOpening : SpellsOpening c opening) (hThen : Spells thenNodes thenSource)
      (hTurning : SpellsTag "else" turning) (hElse : Spells elseNodes elseSource)
      (hClosing : SpellsTag "if" closing) (hRest : Spells nodes s) :
      Spells (.conditional c thenNodes elseNodes :: nodes)
        ((Lexeme.opening opening).source ++ thenSource ++ (Lexeme.opening turning).source ++
          elseSource ++ (Lexeme.closing closing).source ++ s)

-- ---------------------------------------------------------------------------
-- Every tree can be written
-- ---------------------------------------------------------------------------

/-- Every path can be written down. -/
theorem exists_spellsPath {path : Path} (hPath : path ≠ []) : ∃ s, SpellsPath path s := by
  induction path with
  | nil => exact absurd rfl hPath
  | cons segment rest ih =>
    have hBlank : isBlank [] = true := rfl
    cases rest with
    | nil => exact ⟨_, .last hBlank hBlank⟩
    | cons next more =>
      obtain ⟨s, hs⟩ := ih (List.cons_ne_nil next more)
      exact ⟨_, .dot hBlank hBlank hs⟩

/-- Every interpolation has a spelling. -/
theorem exists_spellsInterpolation {i : Interpolation} (hPath : i.path ≠ []) :
    ∃ s, SpellsInterpolation i s := by
  have hBlank : isBlank [] = true := rfl
  obtain ⟨path, hp⟩ := exists_spellsPath hPath
  obtain ⟨fallback, hf⟩ : ∃ fallback, SpellsFallback i.fallback fallback := by
    cases i.fallback with
    | required => exact ⟨_, .required⟩
    | empty => exact ⟨_, .empty hBlank⟩
    | literal text => exact ⟨_, .literal hBlank hBlank⟩
  exact ⟨_, path, fallback, hp, hf, rfl⟩

/-- Every condition has an opening tag. -/
theorem exists_spellsOpening {c : Condition} (hPath : c.path ≠ []) : ∃ s, SpellsOpening c s := by
  have hBlank : isBlank [] = true := rfl
  obtain ⟨path, hp⟩ := exists_spellsPath hPath
  obtain ⟨negation, hn⟩ : ∃ negation, SpellsNegation c.negated negation := by
    cases c.negated with
    | false => exact ⟨_, .absent⟩
    | true => exact ⟨_, .present hBlank⟩
  obtain ⟨test, ht⟩ : ∃ test, SpellsPresenceTest c.existsOnly test := by
    cases c.existsOnly with
    | false => exact ⟨_, .absent⟩
    | true => exact ⟨_, .present hBlank⟩
  have hCondition : SpellsCondition c (negation ++ path ++ test) :=
    ⟨negation, path, test, hn, hp, ht, rfl⟩
  exact ⟨_, [], ' ', _, rfl, by decide, hCondition, rfl⟩

/-- **Every tree can be written.** The relation is not empty for any list of nodes whose paths are
valid, so a statement about all spellings of a normal tree is about some source. -/
theorem exists_spells : ∀ (nodes : List Node), Node.areRegular nodes = true → ∃ s, Spells nodes s
  | [], _ => ⟨_, .nil⟩
  | n :: rest, hRegular => by
    obtain ⟨hNode, -, hRest⟩ := Node.areRegular_cons.1 hRegular
    obtain ⟨s, hs⟩ := exists_spells rest hRest
    cases n with
    | text content => exact ⟨_, .text hs⟩
    | interpolation i =>
      obtain ⟨inner, hInner⟩ := exists_spellsInterpolation (Path.ne_nil_of_isValid hNode)
      exact ⟨_, .interpolation hInner hs⟩
    | conditional c thenNodes elseNodes =>
      obtain ⟨hPath, hThen, hElse⟩ := Node.isRegular_conditional.1 hNode
      obtain ⟨opening, hOpening⟩ := exists_spellsOpening (Path.ne_nil_of_isValid hPath)
      obtain ⟨t, ht⟩ := exists_spells thenNodes hThen
      obtain ⟨e, he⟩ := exists_spells elseNodes hElse
      exact ⟨_, .branching hOpening ht ⟨[], [], rfl, rfl, rfl⟩ he ⟨[], [], rfl, rfl, rfl⟩ hs⟩

end RuleBlocks.Template
