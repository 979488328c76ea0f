import RuleBlocks.Proofs.Template.Composition

/-!
# Where a source is at fault

A reader carries along the line on which it stands, and never looks at it: it writes it down beside
the conditionals that it opens, and into the error. So a reader may count something else in the
place of lines, and it reads and refuses the same. Counting characters tells of every error where
the construct starts that is at fault, and that the line of a syntax error is the line of that
place.

* `Draft.mapLines`, `Draft.feed_mapLines` — drafts with other numbers at their conditionals are fed
  alike;
* `readMeasured`, `readFrom_eq_readMeasured` — the reader for any measure, of which lines are one;
* `readMeasured_map` — readers with different measures read alike;
* `FailsAt`, `parse_eq_error_iff_failsAt` — every error has a place, which tells its line.
-/

namespace RuleBlocks.Template

-- ---------------------------------------------------------------------------
-- Drafts with other numbers
-- ---------------------------------------------------------------------------

namespace OpenConditional

def mapLine (f : Nat → Nat) (c : OpenConditional) : OpenConditional :=
  { c with line := f c.line }

/-- Adding a node does not look at the line of the tag. -/
theorem add_mapLine (f : Nat → Nat) (c : OpenConditional) (n : Node) :
    (c.mapLine f).add n = (c.add n).mapLine f := by
  rw [add, add]
  cases hElse : c.elseNodes <;> simp [mapLine, hElse]

end OpenConditional

namespace Draft

/-- The draft with other numbers in the place of the lines where its conditionals start. -/
def mapLines (f : Nat → Nat) (d : Draft) : Draft :=
  { d with opened := d.opened.map (·.mapLine f) }

variable (f : Nat → Nat) (d : Draft)

/-- Renumbering lines commutes with adding a node. -/
theorem mapLines_add (n : Node) : (d.mapLines f).add n = (d.add n).mapLines f := by
  obtain ⟨root, opened, text⟩ := d
  cases opened with
  | nil => rfl
  | cons c outer => simp only [mapLines, add, List.map_cons, OpenConditional.add_mapLine]

theorem mapLines_flush : (d.mapLines f).flush = d.flush.mapLines f := by
  rw [flush, flush, mapLines_add]
  by_cases hEmpty : d.text.isEmpty
  · rw [if_pos hEmpty, if_pos (by exact hEmpty)]
  · rw [if_neg hEmpty, if_neg (by exact hEmpty)]
    rfl

/-- Entering a conditional on a renumbered line notes that line. -/
theorem mapLines_openConditional (line : Nat) (arguments : List Char) :
    (d.mapLines f).openConditional (f line) arguments =
      (d.openConditional line arguments).map (mapLines f) := by
  have hLength : (d.mapLines f).opened.length = d.opened.length := List.length_map _
  rw [openConditional, openConditional, hLength]
  by_cases hDeep : maxNesting ≤ d.opened.length
  · rw [if_pos hDeep, if_pos hDeep]
    rfl
  · rw [if_neg hDeep, if_neg hDeep]
    cases readCondition arguments <;> rfl

theorem mapLines_startElse (arguments : List Char) :
    (d.mapLines f).startElse arguments = (d.startElse arguments).map (mapLines f) := by
  obtain ⟨root, opened, text⟩ := d
  rw [startElse, startElse]
  split
  · rfl
  · cases opened with
    | nil => rfl
    | cons c outer =>
      cases hElse : c.elseNodes <;> simp [mapLines, OpenConditional.mapLine, hElse, Except.map]

theorem mapLines_closeTag (inner : List Char) :
    (d.mapLines f).closeTag inner = (d.closeTag inner).map (mapLines f) := by
  obtain ⟨root, opened, text⟩ := d
  simp only [closeTag]
  split
  · rfl
  · cases opened with
    | nil => rfl
    | cons c outer => exact congrArg Except.ok (mapLines_add f ⟨root, outer, text⟩ c.node)

/-- Renumbering lines commutes with what a tag does. -/
theorem mapLines_openTag (line : Nat) (inner : List Char) :
    (d.mapLines f).openTag (f line) inner = (d.openTag line inner).map (mapLines f) := by
  have hDirective (directive arguments : List Char) :
      (if directive = ['i', 'f'] then (d.mapLines f).openConditional (f line) arguments
        else if directive = ['e', 'l', 's', 'e'] then (d.mapLines f).startElse arguments
        else .error (.directive (String.ofList directive))) =
      (if directive = ['i', 'f'] then d.openConditional line arguments
        else if directive = ['e', 'l', 's', 'e'] then d.startElse arguments
        else .error (.directive (String.ofList directive))).map (mapLines f) := by
    split
    · exact mapLines_openConditional f d line arguments
    · split
      · exact mapLines_startElse f d arguments
      · rfl
  simp only [openTag]
  split
  · exact hDirective _ _
  · exact hDirective _ _

/-- **One lexeme.** What it does to a draft does not depend on the numbers in it. -/
theorem feed_mapLines (line : Nat) (l : Lexeme) :
    (d.mapLines f).feed (f line) l = (d.feed line l).map (mapLines f) := by
  cases l with
  | char c => rfl
  | comment body => rfl
  | interpolation inner =>
    rw [feed, feed, mapLines_flush]
    cases readInterpolation inner with
    | error refusal => rfl
    | ok i => exact congrArg Except.ok (mapLines_add f d.flush _)
  | closing inner => rw [feed, feed, mapLines_flush, mapLines_closeTag]
  | opening inner => rw [feed, feed, mapLines_flush, mapLines_openTag]

/-- At the end only the place of a tag left open is renumbered. -/
theorem finish_mapLines : (d.mapLines f).finish = d.finish.mapError (Prod.map f id) := by
  have hFlush := congrArg Draft.root (mapLines_flush f d)
  rw [finish, finish]
  cases hOpened : d.opened with
  | nil => simpa [mapLines, hOpened, Except.mapError] using hFlush
  | cons c outer => simp [mapLines, hOpened, Except.mapError, OpenConditional.mapLine]

end Draft

-- ---------------------------------------------------------------------------
-- Readers that count
-- ---------------------------------------------------------------------------

/-- Read the rest of a source, and count by the given measure how far the reader has come. -/
def readMeasured (measure : Lexeme → Nat) (d : Draft) (n : Nat) (s : List Char) :
    Except (Nat × Refusal) (List Node) :=
  match _cut : Lexeme.cut s with
  | .error what => .error (n, .fault what)
  | .ok none => d.finish
  | .ok (some (l, rest)) =>
    match d.feed n l with
    | .error refusal => .error (n, refusal)
    | .ok d => readMeasured measure d (n + measure l) rest
termination_by s.length
decreasing_by exact Lexeme.length_lt_of_cut (by assumption)

section Readers

variable {measure : Lexeme → Nat} {d : Draft} {n : Nat} {s : List Char}

theorem readMeasured_of_cut_error {what : SyntaxFault} (h : Lexeme.cut s = .error what) :
    readMeasured measure d n s = .error (n, .fault what) := by
  rw [readMeasured]
  split
  case h_1 what' hError => rw [Except.error.inj (h.symm.trans hError)]
  case h_2 hNone => simp [h] at hNone
  case h_3 l rest hSome => simp [h] at hSome

theorem readMeasured_nil : readMeasured measure d n [] = d.finish := by
  rw [readMeasured]
  split
  case h_1 what hError => simp [Lexeme.cut] at hError
  case h_2 => rfl
  case h_3 l rest hSome => simp [Lexeme.cut] at hSome

/-- A lexeme is fed where it stands, and what follows is read behind it. -/
theorem readMeasured_of_cut {l : Lexeme} {rest : List Char}
    (h : Lexeme.cut s = .ok (some (l, rest))) :
    readMeasured measure d n s =
      match d.feed n l with
      | .error refusal => .error (n, refusal)
      | .ok d => readMeasured measure d (n + measure l) rest := by
  rw [readMeasured]
  split
  case h_1 what hError => simp [h] at hError
  case h_2 hNone => simp [h] at hNone
  case h_3 l' rest' hSome =>
    obtain ⟨rfl, rfl⟩ : l = l' ∧ rest = rest' := by simpa [h] using hSome
    rfl

/-- A reader counts lines. -/
theorem readFrom_eq_readMeasured (d : Draft) (line : Nat) (s : List Char) :
    readFrom d line s = readMeasured Lexeme.lines d line s := by
  fun_induction readFrom d line s with
  | case1 d line s what hCut => rw [readMeasured_of_cut_error hCut]
  | case2 d line s hCut => rw [Lexeme.cut_eq_none_iff.mp hCut, readMeasured_nil]
  | case3 d line s l rest hCut refusal hFeed => rw [readMeasured_of_cut hCut, hFeed]
  | case4 d line s l rest hCut next hFeed ih => rw [readMeasured_of_cut hCut, hFeed, ih]

end Readers

def Lexeme.length (l : Lexeme) : Nat :=
  l.source.length

/-- The two measures move on alike: as the one reader moves over an item of the text, from that
place on, so does the other. -/
def Follows (f : Nat → Nat) (other : Lexeme → Nat) (n : Nat) (s : List Char) : Prop :=
  ∀ before l after, s = before ++ (Lexeme.source l ++ after) →
    f (n + before.length + l.length) = f (n + before.length) + other l

/-- Behind a lexeme the rest is followed from there. -/
theorem Follows.behind {f : Nat → Nat} {other : Lexeme → Nat} {n : Nat} {l : Lexeme}
    {rest : List Char} (h : Follows f other n (l.source ++ rest)) :
    Follows f other (n + l.length) rest := by
  rintro before m after rfl
  have hNext := h (l.source ++ before) m after (by simp)
  rwa [List.length_append, ← Nat.add_assoc] at hNext

/-- **Readers with different measures read alike.** -/
theorem readMeasured_map {f : Nat → Nat} {other : Lexeme → Nat} (d : Draft) {n : Nat}
    {s : List Char} (h : Follows f other n s) :
    readMeasured other (d.mapLines f) (f n) s =
      (readMeasured Lexeme.length d n s).mapError (Prod.map f id) := by
  fun_induction readMeasured Lexeme.length d n s with
  | case1 d n s what hCut => rw [readMeasured_of_cut_error hCut]; rfl
  | case2 d n s hCut => rw [Lexeme.cut_eq_none_iff.mp hCut, readMeasured_nil, d.finish_mapLines]
  | case3 d n s l rest hCut refusal hFeed =>
    rw [readMeasured_of_cut hCut, Draft.feed_mapLines, hFeed]
    rfl
  | case4 d n s l rest hCut next hFeed ih =>
    rw [Lexeme.eq_append_of_cut hCut] at h
    -- the next place is the place of this lexeme, moved on by its own measure
    have hMove : f (n + l.length) = f n + other l := h [] l rest rfl
    rw [readMeasured_of_cut hCut, Draft.feed_mapLines, hFeed, ← ih h.behind, hMove]
    rfl

-- ---------------------------------------------------------------------------
-- The place of an error
-- ---------------------------------------------------------------------------

/-- The source is refused for what starts after so many of its characters. -/
def FailsAt (source : List Char) (offset : Nat) (refusal : Refusal) : Prop :=
  readMeasured Lexeme.length .blank 0 source = .error (offset, refusal)

/-- The line on which the text stands that follows on so many characters. Lines count from one. -/
def lineAt (source : List Char) (offset : Nat) : Nat :=
  1 + (source.take offset).count '\n'

/-- Lines follow the characters: the newlines in a lexeme are its lines. -/
theorem follows_lineAt (source : List Char) : Follows (lineAt source) Lexeme.lines 0 source := by
  rintro before l after rfl
  have hTo : before.length + l.source.length = (before ++ l.source).length := by simp
  rw [Nat.zero_add, Lexeme.length, lineAt, lineAt, hTo, ← List.append_assoc, List.take_left,
    List.append_assoc, List.take_left, List.count_append, Nat.add_assoc]
  rfl

/-- Reading by lines is reading by characters, with the place of an error counted in lines. -/
theorem readFrom_eq_mapError (source : List Char) :
    readFrom .blank 1 source =
      (readMeasured Lexeme.length .blank 0 source).mapError (Prod.map (lineAt source) id) := by
  rw [readFrom_eq_readMeasured, ← readMeasured_map .blank (follows_lineAt source)]
  rfl

/-- A source is read as long as it is read by characters. -/
theorem parse_eq_ok_iff_measured {name source : String} {nodes : List Node} :
    parse name source = .ok nodes ↔
      readMeasured Lexeme.length .blank 0 source.toList = .ok nodes := by
  rw [parse_eq_ok_iff, readFrom_eq_mapError]
  cases readMeasured Lexeme.length .blank 0 source.toList <;> simp [Except.mapError]

/-- **Every error has a place**, whose line is the one that a syntax error names. -/
theorem parse_eq_error_iff_failsAt {name source : String} {e : TemplateError} :
    parse name source = .error e ↔ ∃ offset refusal, FailsAt source.toList offset refusal ∧
      e = refusal.toError name (lineAt source.toList offset) := by
  rw [parse_eq_error_iff, readFrom_eq_mapError]
  constructor
  · rintro ⟨line, refusal, hRefused, rfl⟩
    cases hRead : readMeasured Lexeme.length .blank 0 source.toList with
    | ok nodes => simp [hRead, Except.mapError] at hRefused
    | error place =>
      rw [hRead] at hRefused
      obtain ⟨rfl, rfl⟩ := Prod.mk.inj (Except.error.inj hRefused)
      exact ⟨place.1, place.2, hRead, rfl⟩
  · rintro ⟨offset, refusal, hFails, rfl⟩
    exact ⟨_, refusal, by rw [hFails]; rfl, rfl⟩

end RuleBlocks.Template
