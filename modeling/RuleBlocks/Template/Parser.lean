import RuleBlocks.Template.Draft

/-!
# Reading a template

A source is read lexeme by lexeme into a draft of its tree. The first lexeme that is refused decides
the error, which names the line where that lexeme starts.

Main definitions:

* `readFrom` — the tree of the rest of a source, for a given draft and line;
* `parse` — the tree of a whole source.
-/

namespace RuleBlocks.Template

/-- How many lines a lexeme moves the reader down. -/
def Lexeme.lines (l : Lexeme) : Nat :=
  l.source.count '\n'

/-- Read the rest of a source whose first character stands on the given line. -/
def readFrom (d : Draft) (line : Nat) (s : List Char) : Except (Nat × Refusal) (List Node) :=
  match _cut : Lexeme.cut s with
  | .error what => .error (line, .fault what)
  | .ok none => d.finish
  | .ok (some (l, rest)) =>
    match d.feed line l with
    | .error refusal => .error (line, refusal)
    | .ok d => readFrom d (line + l.lines) rest
termination_by s.length
decreasing_by exact Lexeme.length_lt_of_cut (by assumption)

/-- The reader goes on behind an item that the draft accepts. -/
theorem readFrom_cut {d d' : Draft} {line : Nat} {s rest : List Char} {l : Lexeme}
    (hCut : Lexeme.cut s = .ok (some (l, rest))) (hFeed : d.feed line l = .ok d') :
    readFrom d line s = readFrom d' (line + l.lines) rest := by
  rw [readFrom]
  split
  case h_1 what hError => simp [hCut] at hError
  case h_2 hNone => simp [hCut] at hNone
  case h_3 l' rest' hSome =>
    obtain ⟨rfl, rfl⟩ : l = l' ∧ rest = rest' := by simpa [hCut] using hSome
    rw [hFeed]

/-- At the end of the source the draft is finished. -/
theorem readFrom_nil (d : Draft) (line : Nat) : readFrom d line [] = d.finish := by
  rw [readFrom]
  split
  case h_1 what hError => simp [Lexeme.cut] at hError
  case h_2 => rfl
  case h_3 l rest hSome => simp [Lexeme.cut] at hSome

/-- The tree of the source of the named template. Lines count from one. -/
def parse (name : String) (source : String) : Except TemplateError (List Node) :=
  (readFrom .blank 1 source.toList).mapError fun (line, refusal) => refusal.toError name line

end RuleBlocks.Template
