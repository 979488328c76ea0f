import RuleBlocks.Text.WhiteSpace
import RuleBlocks.Text.Quoted

/-!
# What stands outside quotes

Both readers of quoted text are cuts at the first mark outside quotes. Here it is said without a cut
which marks stand outside quotes: those before which every pair of quotes is closed. A cut finds the
first of them, and fails if there is none.

* `quotingAfter`, `StandsUnquoted`, `Encloses` — where a text leaves a reader, which marks it bares,
  and which texts can stand in front of their end mark;
* `cutUnquoted_eq_some_iff`, `cutUnquoted_eq_none_iff` — what a cut finds;
* `crosses_iff` — a cut runs through the texts that can stand in front of an end mark;
* `standsUnquoted_surround` — blanks at the two ends bare nothing.
-/

namespace RuleBlocks.Text

/-- Where a reader stands who has started outside quotes and has read the text. -/
def quotingAfter (s : List Char) : Quoting :=
  s.foldl Quoting.next .outside

/-- The mark stands somewhere in the text outside quotes. -/
def StandsUnquoted (mark : Char) (s : List Char) : Prop :=
  ∃ before after, s = before ++ mark :: after ∧ quotingAfter before = .outside

/-- The text can stand in front of the mark that ends it: all quotes are closed, and the mark does
not come earlier. -/
def Encloses (close : Char) (inner : List Char) : Prop :=
  quotingAfter inner = .outside ∧ ¬ StandsUnquoted close inner

-- ---------------------------------------------------------------------------
-- From any position
-- ---------------------------------------------------------------------------

/-- The mark stands outside quotes for a reader who starts at the given position. -/
def StandsFrom (mark : Char) (q : Quoting) (s : List Char) : Prop :=
  ∃ before after, s = before ++ mark :: after ∧ before.foldl Quoting.next q = .outside

section From

variable {mark : Char} {q : Quoting}

theorem not_standsFrom_nil : ¬ StandsFrom mark q [] := by
  rintro ⟨before, after, hSplit, -⟩
  simp at hSplit

/-- A mark stands in a text if it is the first character, met outside quotes, or stands in the
rest. -/
theorem standsFrom_cons {c : Char} {r : List Char} :
    StandsFrom mark q (c :: r) ↔ (q = .outside ∧ c = mark) ∨ StandsFrom mark (q.next c) r := by
  constructor
  · rintro ⟨before, after, hSplit, hBefore⟩
    cases before with
    | nil =>
      obtain ⟨rfl, -⟩ := List.cons.inj hSplit
      exact .inl ⟨hBefore, rfl⟩
    | cons b before =>
      obtain ⟨rfl, rfl⟩ := List.cons.inj hSplit
      exact .inr ⟨before, after, rfl, hBefore⟩
  · rintro (⟨rfl, rfl⟩ | ⟨before, after, rfl, hBefore⟩)
    · exact ⟨[], r, rfl, rfl⟩
    · exact ⟨c :: before, after, rfl, hBefore⟩

/-- A mark that stands outside quotes occurs at all. -/
theorem StandsFrom.mem {s : List Char} (h : StandsFrom mark q s) : mark ∈ s := by
  obtain ⟨before, after, rfl, -⟩ := h
  exact List.mem_append_right _ List.mem_cons_self

/-- In two texts after one another: in the first, or in the second from the state the first
leaves. -/
theorem standsFrom_append {s t : List Char} :
    StandsFrom mark q (s ++ t) ↔
      StandsFrom mark q s ∨ StandsFrom mark (s.foldl Quoting.next q) t := by
  induction s generalizing q with
  | nil => exact (or_iff_right not_standsFrom_nil).symm
  | cons c r ih => rw [List.cons_append, standsFrom_cons, standsFrom_cons, ih, or_assoc]; rfl

/-- The search fails exactly if the mark does not stand outside quotes. -/
theorem cutFrom_eq_none_iff {s : List Char} : cutFrom mark q s = none ↔ ¬ StandsFrom mark q s := by
  induction s generalizing q with
  | nil => exact iff_of_true rfl not_standsFrom_nil
  | cons c r ih =>
    rw [cutFrom, standsFrom_cons, not_or, ← ih]
    by_cases hHere : q = .outside ∧ c = mark
    · simp [hHere]
    · rw [if_neg hHere, Option.map_eq_none_iff, and_iff_right hHere]

/-- A cut takes the first mark outside quotes. -/
theorem cutFrom_eq_some_iff {s before after : List Char} :
    cutFrom mark q s = some (before, after) ↔
      s = before ++ mark :: after ∧ before.foldl Quoting.next q = .outside ∧
        ¬ StandsFrom mark q before := by
  -- the state of the quotes changes with every character, hence the generalization over it
  induction s generalizing q before with
  | nil => simp [cutFrom]
  | cons c r ih =>
    rw [cutFrom]
    by_cases hHere : q = .outside ∧ c = mark
    · rw [if_pos hHere]
      cases before with
      | nil => simp [hHere, not_standsFrom_nil, eq_comm]
      | cons b before =>
        refine iff_of_false (by simp) ?_
        rintro ⟨hSplit, -, hFirst⟩
        obtain ⟨rfl, -⟩ := List.cons.inj hSplit
        -- a cut behind this character would have passed a mark that counts
        exact hFirst (standsFrom_cons.mpr (.inl hHere))
    · rw [if_neg hHere]
      cases before with
      | nil =>
        refine iff_of_false (by simp) ?_
        rintro ⟨hSplit, hOutside, -⟩
        exact hHere ⟨hOutside, (List.cons.inj hSplit).1⟩
      | cons b before =>
        rw [Option.map_eq_some_iff]
        constructor
        · rintro ⟨⟨before', after'⟩, hCut, hPair⟩
          obtain ⟨⟨rfl, rfl⟩, rfl⟩ := by simpa using hPair
          obtain ⟨rfl, hOutside, hFirst⟩ := ih.mp hCut
          exact ⟨rfl, hOutside, mt standsFrom_cons.mp (not_or.mpr ⟨hHere, hFirst⟩)⟩
        · rintro ⟨hSplit, hOutside, hFirst⟩
          obtain ⟨rfl, rfl⟩ := List.cons.inj hSplit
          rw [standsFrom_cons, not_or] at hFirst
          exact ⟨(before, after), ih.mpr ⟨rfl, hOutside, hFirst.2⟩, rfl⟩

end From

-- ---------------------------------------------------------------------------
-- From outside quotes
-- ---------------------------------------------------------------------------

variable {mark : Char} {s : List Char}

/-- A text is not cut exactly if the mark does not stand in it outside quotes. -/
theorem cutUnquoted_eq_none_iff : cutUnquoted mark s = none ↔ ¬ StandsUnquoted mark s :=
  cutFrom_eq_none_iff

/-- A text is cut at the first mark that is not quoted. -/
theorem cutUnquoted_eq_some_iff {before after : List Char} :
    cutUnquoted mark s = some (before, after) ↔
      s = before ++ mark :: after ∧ Encloses mark before :=
  cutFrom_eq_some_iff

/-- Behind a text that leaves no quote open the search starts afresh. -/
theorem standsUnquoted_append {t : List Char} (hs : quotingAfter s = .outside) :
    StandsUnquoted mark (s ++ t) ↔ StandsUnquoted mark s ∨ StandsUnquoted mark t := by
  have hAppend := @standsFrom_append mark .outside s t
  rw [← quotingAfter, hs] at hAppend
  exact hAppend

/-- What a search runs through, whatever follows, is what encloses the mark. -/
theorem crosses_iff : Crosses mark s ↔ Encloses mark s := by
  constructor
  · intro hCrosses
    exact (cutUnquoted_eq_some_iff.mp (hCrosses.cutUnquoted_append [])).2
  · rintro ⟨hOutside, hNone⟩ r
    have hRight {t : List Char} (ht : ¬ StandsUnquoted mark t) :
        ¬ StandsUnquoted mark (s ++ t) := by
      rw [standsUnquoted_append hOutside, not_or]
      exact ⟨hNone, ht⟩
    cases hRest : cutUnquoted mark r with
    | none => exact cutUnquoted_eq_none_iff.mpr (hRight (cutUnquoted_eq_none_iff.mp hRest))
    | some cut =>
      obtain ⟨before, after⟩ := cut
      obtain ⟨rfl, hBefore, hFirst⟩ := cutUnquoted_eq_some_iff.mp hRest
      refine cutUnquoted_eq_some_iff.mpr ⟨(List.append_assoc _ _ _).symm, ?_, hRight hFirst⟩
      rw [quotingAfter, List.foldl_append, ← quotingAfter, hOutside]
      exact hBefore

theorem quotingAfter_of_isBlank {b : List Char} (hb : isBlank b = true) :
    quotingAfter b = .outside := by
  induction b with
  | nil => rfl
  | cons c r ih =>
    rw [isBlank, List.all_cons, Bool.and_eq_true] at hb
    have hPlain : isQuoteMark c = false := by
      rw [← Bool.not_eq_true]
      intro hMark
      simp only [isQuoteMark, Bool.or_eq_true, beq_iff_eq] at hMark
      rcases hMark with rfl | rfl <;> exact absurd hb.1 (by decide)
    have hNext : Quoting.next .outside c = .outside := by simp [Quoting.next, hPlain]
    rw [quotingAfter, List.foldl_cons, hNext]
    exact ih hb.2

/-- Blanks at the two ends bare no mark. -/
theorem standsUnquoted_surround (hMark : isWhiteSpace mark = false) {b a : List Char}
    (hb : isBlank b = true) (ha : isBlank a = true) :
    StandsUnquoted mark (b ++ s ++ a) ↔ StandsUnquoted mark s := by
  have hNone {t : List Char} (ht : isBlank t = true) : mark ∉ t := not_mem_of_isBlank ht hMark
  have hFront : ¬ StandsUnquoted mark b := fun h => hNone hb (StandsFrom.mem h)
  rw [List.append_assoc, standsUnquoted_append (quotingAfter_of_isBlank hb), or_iff_right hFront]
  exact standsFrom_append.trans (or_iff_left fun h => hNone ha h.mem)

theorem Encloses.append {s t : List Char} (hs : Encloses mark s) (ht : Encloses mark t) :
    Encloses mark (s ++ t) :=
  crosses_iff.mp ((crosses_iff.mpr hs).append (crosses_iff.mpr ht))

/-- Blanks enclose every mark that is not blank. -/
theorem encloses_of_isBlank (hMark : isWhiteSpace mark = false) {b : List Char}
    (hb : isBlank b = true) : Encloses mark b :=
  ⟨quotingAfter_of_isBlank hb, fun h => not_mem_of_isBlank hb hMark (StandsFrom.mem h)⟩

/-- Blanks at the two ends go to the two sides of a cut. -/
theorem cutUnquoted_surround (hMark : isWhiteSpace mark = false) {b a : List Char}
    (hb : isBlank b = true) (ha : isBlank a = true) :
    cutUnquoted mark (b ++ s ++ a) =
      (cutUnquoted mark s).map fun (before, after) => (b ++ before, after ++ a) := by
  cases hCut : cutUnquoted mark s with
  | none =>
    rw [Option.map_none, cutUnquoted_eq_none_iff, standsUnquoted_surround hMark hb ha]
    exact cutUnquoted_eq_none_iff.mp hCut
  | some cut =>
    obtain ⟨before, after⟩ := cut
    obtain ⟨rfl, hBefore⟩ := cutUnquoted_eq_some_iff.mp hCut
    rw [Option.map_some, cutUnquoted_eq_some_iff]
    exact ⟨by simp, (encloses_of_isBlank hMark hb).append hBefore⟩

end RuleBlocks.Text
