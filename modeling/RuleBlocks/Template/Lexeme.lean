import RuleBlocks.Text.Quoted
import RuleBlocks.Template.Fault

/-!
# Lexemes of a template

A source is read from left to right as a sequence of lexemes: single characters of text, comments,
interpolations, closing tags and opening tags. The lexemes of a source, written one after the
other, are the source again (`eq_append_of_cut`), so each lexeme uses up at least one
character and reading always ends.

Main definitions:

* `Lexeme`, `Lexeme.source` — a lexeme and the characters that it was read from;
* `cutComment` — the end of a comment;
* `Lexeme.cut` — the first lexeme of a source and what follows it;
* `opens` — whether that lexeme is more than one character of text.
-/

namespace RuleBlocks.Template

open Text

inductive Lexeme
  | char (c : Char)
  /-- `<#` body `-->`, where the body starts with two dashes, which may be the first two of the
  end mark. -/
  | comment (body : List Char)
  | interpolation (inner : List Char)
  | closing (inner : List Char)
  | opening (inner : List Char)
deriving DecidableEq, Repr

def Lexeme.source : Lexeme → List Char
  | char c => [c]
  | comment body => '<' :: '#' :: (body ++ ['-', '-', '>'])
  | interpolation inner => '$' :: '{' :: (inner ++ ['}'])
  | closing inner => '<' :: '/' :: '#' :: (inner ++ ['>'])
  | opening inner => '<' :: '#' :: (inner ++ ['>'])

/-- Every item takes at least one character. -/
theorem Lexeme.source_ne_nil (l : Lexeme) : l.source ≠ [] := by
  cases l <;> simp [Lexeme.source]

/-- What stands before and after the first `-->`. -/
def cutComment : List Char → Option (List Char × List Char)
  | [] => none
  | '-' :: '-' :: '>' :: r => some ([], r)
  | c :: r => (cutComment r).map fun (before, after) => (c :: before, after)

/-- What is before the end mark of a comment, the mark and the rest make up the text. -/
theorem eq_append_of_cutComment {s before after : List Char}
    (h : cutComment s = some (before, after)) :
    s = before ++ '-' :: '-' :: '>' :: after := by
  fun_induction cutComment s generalizing before with
  | case1 => simp at h
  | case2 r => simp_all
  | case3 c r _ ih =>
    obtain ⟨⟨b, a⟩, hr, heq⟩ := Option.map_eq_some_iff.1 h
    simp only [Prod.mk.injEq] at heq
    obtain ⟨rfl, rfl⟩ := heq
    simp [ih hr]

/-- The first lexeme of a source and what follows it; `none` at the end of the source. A construct
whose end is missing is a fault. -/
def Lexeme.cut : List Char → Except SyntaxFault (Option (Lexeme × List Char))
  | [] => .ok none
  | '$' :: '{' :: r =>
    match cutUnquoted '}' r with
    | some (inner, after) => .ok (some (.interpolation inner, after))
    | none => .error .unterminatedInterpolation
  | '<' :: '#' :: '-' :: '-' :: r =>
    match cutComment ('-' :: '-' :: r) with
    | some (body, after) => .ok (some (.comment body, after))
    | none => .error .unterminatedComment
  | '<' :: '/' :: '#' :: r =>
    match cutUnquoted '>' r with
    | some (inner, after) => .ok (some (.closing inner, after))
    | none => .error .unterminatedClosing
  | '<' :: '#' :: r =>
    match cutUnquoted '>' r with
    | some (inner, after) => .ok (some (.opening inner, after))
    | none => .error .unterminatedDirective
  | c :: r => .ok (some (.char c, r))

/-- Whether a construct starts here. Every other character is text. -/
def opens (s : List Char) : Bool :=
  ['$', '{'].isPrefixOf s || ['<', '#'].isPrefixOf s || ['<', '/', '#'].isPrefixOf s

/-- A tag opens with a dollar and a brace, or with a less-than sign and a hash, also after a
slash. -/
theorem opens_cons_iff {c : Char} {s : List Char} :
    opens (c :: s) = true ↔
      (c = '$' ∧ ['{'] <+: s) ∨ (c = '<' ∧ ['#'] <+: s) ∨ (c = '<' ∧ ['/', '#'] <+: s) := by
  simp [opens, List.cons_prefix_cons, or_assoc, @eq_comm Char c]

/-- Where no tag opens, a single character is cut off. -/
theorem Lexeme.cut_char {c : Char} {r : List Char} (h : opens (c :: r) = false) :
    Lexeme.cut (c :: r) = .ok (some (.char c, r)) := by
  simp only [opens, Bool.or_eq_false_iff] at h
  obtain ⟨⟨hd, hh⟩, hs⟩ := h
  rw [Lexeme.cut.eq_def]
  split <;> simp_all

/-- An interpolation is cut off as a whole. -/
theorem Lexeme.cut_interpolation {inner : List Char} (h : Crosses '}' inner) (r : List Char) :
    Lexeme.cut ((Lexeme.interpolation inner).source ++ r) = .ok (some (.interpolation inner, r)) := by
  simp [Lexeme.source, Lexeme.cut, h.cutUnquoted_append]

/-- A closing tag is cut off as a whole. -/
theorem Lexeme.cut_closing {inner : List Char} (h : Crosses '>' inner) (r : List Char) :
    Lexeme.cut ((Lexeme.closing inner).source ++ r) = .ok (some (.closing inner, r)) := by
  simp [Lexeme.source, Lexeme.cut, h.cutUnquoted_append]

/-- A tag is not mistaken for a comment if a dash is not the first character in it. -/
theorem Lexeme.cut_opening {inner : List Char} (hDash : inner.head? ≠ some '-')
    (h : Crosses '>' inner) (r : List Char) :
    Lexeme.cut ((Lexeme.opening inner).source ++ r) = .ok (some (.opening inner, r)) := by
  have hcut := h.cutUnquoted_append r
  cases inner with
  | nil =>
    rw [List.nil_append] at hcut
    simp [Lexeme.source, Lexeme.cut, hcut]
  | cons c inner =>
    have hc : c ≠ '-' := by simpa using hDash
    rw [List.cons_append] at hcut
    simp [Lexeme.source, Lexeme.cut, hc, hcut]

/-- The shortest comment. -/
def Lexeme.emptyComment : Lexeme :=
  .comment ['-', '-']

/-- The shortest comment is cut off as a whole. -/
theorem Lexeme.cut_emptyComment (r : List Char) :
    Lexeme.cut (Lexeme.emptyComment.source ++ r) = .ok (some (.emptyComment, r)) := by
  simp [Lexeme.emptyComment, Lexeme.source, Lexeme.cut, cutComment]

/-- A lexeme and what follows it are the source that they were cut from. -/
theorem Lexeme.eq_append_of_cut {s rest : List Char} {l : Lexeme}
    (h : Lexeme.cut s = .ok (some (l, rest))) : s = l.source ++ rest := by
  -- One case for each kind of item; in those that fail there is nothing to show.
  fun_cases Lexeme.cut s <;> simp_all [Lexeme.cut]
  case case2 r inner after hc =>
    obtain ⟨rfl, rfl⟩ := h
    simp [Lexeme.source, eq_append_of_cutUnquoted hc]
  case case4 r body after hc =>
    obtain ⟨rfl, rfl⟩ := h
    simp [Lexeme.source, eq_append_of_cutComment hc]
  case case6 r inner after hc =>
    obtain ⟨rfl, rfl⟩ := h
    simp [Lexeme.source, eq_append_of_cutUnquoted hc]
  case case8 r inner after _ hc =>
    obtain ⟨rfl, rfl⟩ := h
    simp [Lexeme.source, eq_append_of_cutUnquoted hc]
  case case10 c r =>
    obtain ⟨rfl, rfl⟩ := h
    simp [Lexeme.source]

/-- **The rest is shorter**, so cutting comes to an end. -/
theorem Lexeme.length_lt_of_cut {s rest : List Char} {l : Lexeme}
    (h : Lexeme.cut s = .ok (some (l, rest))) : rest.length < s.length := by
  have hl := List.length_pos_iff.2 l.source_ne_nil
  rw [Lexeme.eq_append_of_cut h, List.length_append]
  omega

end RuleBlocks.Template
