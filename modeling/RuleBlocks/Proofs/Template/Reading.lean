import RuleBlocks.Template.Draft
import RuleBlocks.Proofs.Template.Spelling

/-!
# What is written is read

Each part of the syntax is read back from every spelling of it. The readers trim their argument
before they look at it, so the spellings of a part must stay spellings of it when they are trimmed;
and they search for marks outside quotes, so it must be known which marks a spelling can hold. With
these two facts about paths the rest follows the order in which a reader takes its argument apart.

* `SpellsPath.trimStart`, `SpellsPath.trimEnd` — spellings of a path are kept by trimming;
* `SpellsPath.crosses`, `SpellsInterpolation.crosses` — no mark ends the search too early;
* `readPath_of_spells`, `readInterpolation_of_spells`, `readCondition_of_spells` — the readers;
* `openTag_of_opening`, `openTag_of_turning`, `closeTag_of_closing` — what the tags do to a draft.
-/

namespace RuleBlocks.Template

open Text

-- ---------------------------------------------------------------------------
-- Characters of a path
-- ---------------------------------------------------------------------------

/-- The characters that a segment of a path is made of. -/
def isWordChar (c : Char) : Bool :=
  c.isAlphanum || c == '_'

/-- No blank is part of a word. -/
theorem isWhiteSpace_of_isWordChar {c : Char} (hc : isWordChar c = true) :
    isWhiteSpace c = false := by
  rcases (Bool.or_eq_true _ _).mp hc with hAlphanum | hUnderscore
  · exact isWhiteSpace_eq_false_of_isAlphanum hAlphanum
  · rw [beq_iff_eq.mp hUnderscore]
    decide

/-- A segment is a word: it is not empty, and no blank, dot or mark stands in it. -/
theorem isWordChar_of_isSegment {s : List Char} (hs : isSegment s = true) :
    s ≠ [] ∧ ∀ c ∈ s, isWordChar c = true := by
  cases s with
  | nil => simp [isSegment] at hs
  | cons c r =>
    refine ⟨List.cons_ne_nil c r, ?_⟩
    simp only [isSegment, Bool.or_eq_true, Bool.and_eq_true, List.all_eq_true] at hs
    intro d hd
    rcases hs with ⟨hFirst, hRest⟩ | hDigits
    · rcases List.mem_cons.mp hd with rfl | hd
      · rcases hFirst with hAlpha | hUnderscore
        · simp [isWordChar, Char.isAlphanum, hAlpha]
        · simp [isWordChar, hUnderscore]
      · simpa [isWordChar] using hRest d hd
    · simp [isWordChar, Char.isAlphanum, hDigits d hd]

/-- Every segment of the path is a word. -/
def Path.IsWords (path : Path) : Prop :=
  ∀ segment ∈ path, segment.toList ≠ [] ∧ ∀ c ∈ segment.toList, isWordChar c = true

theorem Path.IsWords.tail {segment : String} {path : Path}
    (h : Path.IsWords (segment :: path)) : path.IsWords :=
  fun other hMem => h other (List.mem_cons_of_mem _ hMem)

/-- The paths that the reader accepts are made of words. -/
theorem Path.isWords_of_isValid {path : Path} (h : path.isValid = true) : path.IsWords := by
  intro segment hSegment
  cases path with
  | nil => simp at hSegment
  | cons first rest =>
    simp only [Path.isValid, isPath, List.map_cons, Bool.and_eq_true, List.all_eq_true] at h
    refine isWordChar_of_isSegment (h.1 _ ?_)
    rw [← List.map_cons]
    exact List.mem_map_of_mem hSegment

/-- The characters that a spelling of a path may hold. -/
def isPathChar (c : Char) : Bool :=
  isWhiteSpace c || isWordChar c || c == '.'

/-- A path opens no literal. -/
theorem isQuoteMark_of_isPathChar {c : Char} (hc : isPathChar c = true) :
    isQuoteMark c = false := by
  rw [← Bool.not_eq_true]
  intro hMark
  simp only [isQuoteMark, Bool.or_eq_true, beq_iff_eq] at hMark
  rcases hMark with rfl | rfl <;> exact absurd hc (by decide)

/-- A search for a mark that no path can hold runs through the characters of one. -/
theorem crosses_of_isPathChar {sep : Char} (hSep : isPathChar sep = false) {s : List Char}
    (hs : ∀ c ∈ s, isPathChar c = true) : Crosses sep s := by
  refine .of_forall fun c hc => ⟨?_, isQuoteMark_of_isPathChar (hs c hc)⟩
  rintro rfl
  simp [hs c hc] at hSep

/-- Blanks may stand around the segments. -/
theorem isPathChar_of_isBlank {s : List Char} (hs : isBlank s = true) :
    ∀ c ∈ s, isPathChar c = true := by
  intro c hc
  simp [isPathChar, List.all_eq_true.mp hs c hc]

/-- A search for a mark that is not blank runs through blanks. -/
theorem crosses_of_isBlank {sep : Char} (hSep : isPathChar sep = false) {s : List Char}
    (hs : isBlank s = true) : Crosses sep s :=
  crosses_of_isPathChar hSep (isPathChar_of_isBlank hs)

-- ---------------------------------------------------------------------------
-- Paths
-- ---------------------------------------------------------------------------

section Word

variable {word : List Char} (hWord : ∀ c ∈ word, isWordChar c = true)

include hWord

/-- Trimming takes nothing from within a word. -/
theorem isWhiteSpace_of_mem_word : ∀ c ∈ word, isWhiteSpace c = false :=
  fun c hc => isWhiteSpace_of_isWordChar (hWord c hc)

/-- A word that is not empty is not blank. -/
theorem isBlank_word (hNe : word ≠ []) : isBlank word = false := by
  obtain ⟨c, r, rfl⟩ := List.exists_cons_of_ne_nil hNe
  simp [isBlank, isWhiteSpace_of_mem_word hWord c List.mem_cons_self]

/-- A dot ends a segment, since neither words nor blanks hold one. -/
theorem dot_not_mem {before after : List Char} (hBefore : isBlank before = true)
    (hAfter : isBlank after = true) : '.' ∉ before ++ word ++ after := by
  have hBlank {b : List Char} (hb : isBlank b = true) : '.' ∉ b :=
    not_mem_of_isBlank hb (by decide)
  have hDot : '.' ∉ word := by
    intro hMem
    exact absurd (hWord _ hMem) (by decide)
  simp [hBlank hBefore, hBlank hAfter, hDot]

/-- Trimming what stands between two dots gives the segment. -/
theorem trim_segment {before after : List Char} (hBefore : isBlank before = true)
    (hAfter : isBlank after = true) : trim (before ++ word ++ after) = word := by
  rw [trim_surround hBefore _ hAfter, trim_of_forall (isWhiteSpace_of_mem_word hWord)]

end Word

namespace SpellsPath

variable {path : Path} {s : List Char}

/-- The characters of a spelling, one segment after the other. -/
theorem isPathChar_of_mem (h : SpellsPath path s) (hWords : path.IsWords) :
    ∀ c ∈ s, isPathChar c = true := by
  have hSegment {word before after : List Char} (hWord : ∀ c ∈ word, isWordChar c = true)
      (hBefore : isBlank before = true) (hAfter : isBlank after = true) :
      ∀ c ∈ before ++ word ++ after, isPathChar c = true := by
    intro c hc
    simp only [List.mem_append] at hc
    rcases hc with (hc | hc) | hc
    · exact isPathChar_of_isBlank hBefore c hc
    · simp [isPathChar, hWord c hc]
    · exact isPathChar_of_isBlank hAfter c hc
  induction h with
  | last hBefore hAfter =>
    -- the last segment has no dot behind it
    exact hSegment (hWords _ List.mem_cons_self).2 hBefore hAfter
  | dot hBefore hAfter hPath ih =>
    have hFirst := hSegment (hWords _ List.mem_cons_self).2 hBefore hAfter
    have hRest := ih hWords.tail
    intro c hc
    rcases List.mem_append.mp hc with hc | hc
    · exact hFirst c hc
    · rcases List.mem_cons.mp hc with rfl | hc
      · decide
      · exact hRest c hc

/-- A search for any mark outside the alphabet of paths runs through a spelling. -/
theorem crosses {sep : Char} (hSep : isPathChar sep = false) (h : SpellsPath path s)
    (hWords : path.IsWords) : Crosses sep s :=
  crosses_of_isPathChar hSep (h.isPathChar_of_mem hWords)

/-- A spelling is never blank: even one segment leaves something. -/
theorem isBlank_eq_false (h : SpellsPath path s) (hWords : path.IsWords) : isBlank s = false := by
  cases h with
  | last hBefore hAfter =>
    obtain ⟨hNe, hWord⟩ := hWords _ List.mem_cons_self
    have hBlank := isBlank_word hWord hNe
    simp only [isBlank] at hBlank ⊢
    simp [hBlank]
  | dot hBefore hAfter hPath =>
    have hDot : isWhiteSpace '.' = false := by decide
    simp [isBlank, hDot]

protected theorem trimStart (h : SpellsPath path s) (hWords : path.IsWords) :
    SpellsPath path (trimStart s) := by
  have hNil : isBlank [] = true := rfl
  -- whatever follows the first segment, only the blanks in front of it go
  have hSegment {segment : String} (hMem : segment ∈ path) {before : List Char}
      (hBefore : isBlank before = true) (r : List Char) :
      Text.trimStart (before ++ (segment.toList ++ r)) = [] ++ segment.toList ++ r := by
    obtain ⟨hNe, hWord⟩ := hWords _ hMem
    rw [trimStart_append_of_isBlank hBefore, trimStart_append (isBlank_word hWord hNe),
      trimStart_of_forall (isWhiteSpace_of_mem_word hWord), List.nil_append]
  cases h with
  | last hBefore hAfter =>
    rw [List.append_assoc, hSegment List.mem_cons_self hBefore]
    exact .last hNil hAfter
  | dot hBefore hAfter hPath =>
    rw [List.append_assoc, List.append_assoc, hSegment List.mem_cons_self hBefore,
      ← List.append_assoc]
    exact .dot hNil hAfter hPath

protected theorem trimEnd (h : SpellsPath path s) (hWords : path.IsWords) :
    SpellsPath path (trimEnd s) := by
  induction h with
  | last hBefore hAfter =>
    obtain ⟨hNe, hWord⟩ := hWords _ List.mem_cons_self
    rw [trimEnd_append_of_isBlank _ hAfter, trimEnd_append _ (isBlank_word hWord hNe),
      trimEnd_of_forall (isWhiteSpace_of_mem_word hWord), ← List.append_nil (_ ++ _)]
    exact .last hBefore rfl
  | dot hBefore hAfter hPath ih =>
    have hDot : isWhiteSpace '.' = false := by decide
    rw [trimEnd_append _ (by simp [isBlank, hDot]), trimEnd_cons hDot]
    exact .dot hBefore hAfter (ih hWords.tail)

/-- Splitting at the dots and trimming the parts gives the segments back. -/
theorem splitOn_map_trim (h : SpellsPath path s) (hWords : path.IsWords) :
    (s.splitOn '.').map trim = path.map String.toList := by
  induction h with
  | last hBefore hAfter =>
    obtain ⟨-, hWord⟩ := hWords _ List.mem_cons_self
    rw [List.splitOn_eq_singleton (dot_not_mem hWord hBefore hAfter), List.map_singleton,
      trim_segment hWord hBefore hAfter, List.map_singleton]
  | dot hBefore hAfter hPath ih =>
    obtain ⟨-, hWord⟩ := hWords _ List.mem_cons_self
    rw [List.splitOn_append_cons_self_of_not_mem (dot_not_mem hWord hBefore hAfter),
      List.map_cons, trim_segment hWord hBefore hAfter, ih hWords.tail, List.map_cons]

end SpellsPath

/-- **A path is read back** from every spelling of it. -/
theorem readPath_of_spells {path : Path} {s : List Char} (h : SpellsPath path s)
    (hPath : path.isValid = true) : readPath s = .ok path := by
  have hWords := Path.isWords_of_isValid hPath
  -- the reader trims first, and what it has trimmed is still a spelling
  have hTrim : SpellsPath path (trim s) := (h.trimStart hWords).trimEnd hWords
  have hNe : trim s ≠ [] := by
    intro hNil
    have hBlank := hTrim.isBlank_eq_false hWords
    simp [hNil, isBlank] at hBlank
  have hValid : isPath (path.map String.toList) = true := hPath
  simp [readPath, hNe, hTrim.splitOn_map_trim hWords, hValid, Function.comp_def]

-- ---------------------------------------------------------------------------
-- Interpolations
-- ---------------------------------------------------------------------------

/-- A literal begins and ends with a quote mark, so trimming leaves it alone. -/
theorem trim_quoted (text : String) : trim (quoted text) = quoted text := by
  have hMark : isWhiteSpace '"' = false := by decide
  rw [quoted, trim, trimStart_cons hMark, ← List.cons_append, trimEnd_append_singleton _ hMark]

/-- A search runs through a default unless it looks for the mark that begins one. -/
theorem SpellsFallback.crosses {sep : Char} (hSep : isPathChar sep = false)
    (hMark : isQuoteMark sep = false) (hBang : sep ≠ '!') {fallback : Fallback} {s : List Char}
    (h : SpellsFallback fallback s) : Crosses sep s := by
  cases h with
  | required => exact .nil sep
  | empty hBlanks => exact .cons hBang.symm (by decide) (crosses_of_isBlank hSep hBlanks)
  | @literal text before after hBefore hAfter =>
    have hQuoted : Crosses sep (quoted text) := by
      -- within the literal the mark counts only if it were the quote mark itself
      refine .literal (by decide) ?_ _
      rintro rfl
      exact absurd hMark (by decide)
    exact .cons hBang.symm (by decide)
      (((crosses_of_isBlank hSep hBefore).append hQuoted).append (crosses_of_isBlank hSep hAfter))

/-- Trimming at the end reaches into the path only if nothing follows it. -/
theorem SpellsFallback.exists_trimEnd {path : Path} {fallback : Fallback} {p f : List Char}
    (hf : SpellsFallback fallback f) (hp : SpellsPath path p) (hWords : path.IsWords) :
    ∃ p' f', SpellsPath path p' ∧ SpellsFallback fallback f' ∧ trimEnd (p ++ f) = p' ++ f' := by
  have hBang : isWhiteSpace '!' = false := by decide
  have hNotBlank (r : List Char) : isBlank ('!' :: r) = false := by simp [isBlank, hBang]
  cases hf with
  | required => exact ⟨_, [], hp.trimEnd hWords, .required, by simp⟩
  | @empty blanks hBlanks =>
    -- trimming eats the blanks up to the mark, and stops there
    refine ⟨p, ['!'], hp, .empty rfl, ?_⟩
    rw [trimEnd_append _ (hNotBlank _), trimEnd_cons hBang, trimEnd_of_isBlank hBlanks]
  | @literal text before after hBefore hAfter =>
    have hNil : isBlank [] = true := rfl
    have hMark : isWhiteSpace '"' = false := by decide
    refine ⟨p, _, hp, .literal hBefore hNil, ?_⟩
    rw [trimEnd_append _ (hNotBlank _), trimEnd_cons hBang, trimEnd_append_of_isBlank _ hAfter,
      quoted, ← List.cons_append, ← List.append_assoc, trimEnd_append_singleton _ hMark,
      List.append_nil]

namespace SpellsInterpolation

variable {i : Interpolation} {s : List Char}

/-- The brace that closes an interpolation is not met earlier. -/
theorem crosses (h : SpellsInterpolation i s) (hWords : i.path.IsWords) : Crosses '}' s := by
  obtain ⟨path, fallback, hp, hf, rfl⟩ := h
  exact (hp.crosses (by decide) hWords).append (hf.crosses (by decide) (by decide) (by decide))

protected theorem trim (h : SpellsInterpolation i s) (hWords : i.path.IsWords) :
    SpellsInterpolation i (trim s) := by
  obtain ⟨path, fallback, hp, hf, rfl⟩ := h
  obtain ⟨p, f, hp', hf', hEnd⟩ := hf.exists_trimEnd (hp.trimStart hWords) hWords
  refine ⟨p, f, hp', hf', ?_⟩
  rw [Text.trim, trimStart_append (hp.isBlank_eq_false hWords), hEnd]

end SpellsInterpolation

theorem readFallback_of_isBlank {s : List Char} (hs : isBlank s = true) :
    readFallback s = .ok .empty := by
  simp [readFallback, trim_of_isBlank hs]

/-- A literal is read back with its escapes undone. -/
theorem readFallback_quoted {before after : List Char} (hBefore : isBlank before = true)
    (text : String) (hAfter : isBlank after = true) :
    readFallback (before ++ quoted text ++ after) = .ok (.literal text) := by
  have hMark : isQuoteMark '"' = true := by decide
  have hEnclosed : enclosed? (quoted text) = some (escape '"' text.toList) :=
    enclosed?_of_isQuoteMark hMark _
  have hNe : (quoted text).isEmpty = false := rfl
  simp only [readFallback, trim_surround hBefore _ hAfter, trim_quoted, hNe, hEnclosed,
    unescape_escape hMark, String.ofList_toList]
  rfl

/-- **Interpolations.** What stands between `${` and `}` is read back. -/
theorem readInterpolation_of_spells {i : Interpolation} {s : List Char}
    (h : SpellsInterpolation i s) (hPath : i.path.isValid = true) :
    readInterpolation s = .ok i := by
  have hWords := Path.isWords_of_isValid hPath
  obtain ⟨p, f, hp, hf, hTrim⟩ := h.trim hWords
  -- a question mark would have to stand outside quotes, and none does
  have hBuiltins : refuseBuiltins (p ++ f) = .ok () :=
    refuseBuiltins_of_crosses <|
      (hp.crosses (by decide) hWords).append (hf.crosses (by decide) (by decide) (by decide))
  -- the cut falls at the mark of the default: the path cannot hold one
  have hBang : Crosses '!' p := hp.crosses (by decide) hWords
  have hRead := readPath_of_spells hp hPath
  obtain ⟨path, fallback⟩ := i
  simp only [readInterpolation, hTrim, hBuiltins]
  cases hf with
  | required =>
    simp only [List.append_nil, hBang.cutUnquoted_eq_none, hRead]
    rfl
  | empty hBlanks =>
    simp only [hBang.cutUnquoted_append, readFallback_of_isBlank hBlanks, hRead]
    rfl
  | literal hBefore hAfter =>
    simp only [hBang.cutUnquoted_append, readFallback_quoted hBefore _ hAfter, hRead]
    rfl

-- ---------------------------------------------------------------------------
-- Conditions
-- ---------------------------------------------------------------------------

/-- What is left of the negation once the blanks before it are trimmed. -/
def negationMark (negated : Bool) : List Char :=
  if negated then ['!'] else []

/-- What is left of the presence test once the blanks after it are trimmed. -/
def presenceMark (existsOnly : Bool) : List Char :=
  if existsOnly then ['?', '?'] else []

theorem SpellsNegation.crosses {negated : Bool} {n : List Char}
    (hn : SpellsNegation negated n) : Crosses '>' n := by
  cases hn with
  | absent => exact .nil '>'
  | present hBefore =>
    exact (crosses_of_isBlank (by decide) hBefore).append (.cons (by decide) (by decide) (.nil '>'))

theorem SpellsPresenceTest.crosses {existsOnly : Bool} {t : List Char}
    (ht : SpellsPresenceTest existsOnly t) : Crosses '>' t := by
  cases ht with
  | absent => exact .nil '>'
  | present hAfter =>
    exact .cons (by decide) (by decide)
      (.cons (by decide) (by decide) (crosses_of_isBlank (by decide) hAfter))

section Condition

variable {path : Path} {p : List Char} (hp : SpellsPath path p) (hWords : path.IsWords)

include hp hWords

/-- Trimming at the start leaves the negation, if any, at the very front. -/
theorem SpellsNegation.exists_trimStart {negated : Bool} {n : List Char}
    (hn : SpellsNegation negated n) (t : List Char) :
    ∃ p', SpellsPath path p' ∧ trimStart (n ++ p ++ t) = negationMark negated ++ p' ++ t := by
  cases hn with
  | absent =>
    refine ⟨_, hp.trimStart hWords, ?_⟩
    exact trimStart_append (hp.isBlank_eq_false hWords) t
  | @present before hBefore =>
    refine ⟨p, hp, ?_⟩
    have hBang : isWhiteSpace '!' = false := by decide
    rw [List.append_assoc, List.append_assoc, trimStart_append_of_isBlank hBefore,
      List.singleton_append, trimStart_cons hBang]
    rfl

/-- Trimming at the end leaves the test for presence, if any, at the very end. -/
theorem SpellsPresenceTest.exists_trimEnd {existsOnly : Bool} {t : List Char}
    (ht : SpellsPresenceTest existsOnly t) (n : List Char) :
    ∃ p', SpellsPath path p' ∧ trimEnd (n ++ p ++ t) = n ++ p' ++ presenceMark existsOnly := by
  cases ht with
  | absent =>
    refine ⟨_, hp.trimEnd hWords, ?_⟩
    rw [List.append_nil, trimEnd_append n (hp.isBlank_eq_false hWords), presenceMark,
      if_neg Bool.false_ne_true, List.append_nil]
  | @present after hAfter =>
    refine ⟨p, hp, ?_⟩
    have hMark : isWhiteSpace '?' = false := by decide
    have hNotBlank : isBlank ('?' :: '?' :: after) = false := by simp [isBlank, hMark]
    rw [trimEnd_append _ hNotBlank, trimEnd_cons hMark, trimEnd_cons hMark,
      trimEnd_of_isBlank hAfter]
    rfl

/-- A path is not mistaken for a negated one. -/
theorem exists_cutNegation (negated : Bool) (t : List Char) :
    ∃ p', SpellsPath path p' ∧ cutNegation (negationMark negated ++ p ++ t) = (negated, p' ++ t) := by
  cases negated with
  | true =>
    refine ⟨_, hp.trimStart hWords, ?_⟩
    exact congrArg (Prod.mk true) (trimStart_append (hp.isBlank_eq_false hWords) t)
  | false =>
    refine ⟨p, hp, ?_⟩
    cases p with
    | nil => exact absurd (hp.isBlank_eq_false hWords) (by decide)
    | cons c r =>
      have hBang : c ≠ '!' := by
        rintro rfl
        exact absurd (hp.isPathChar_of_mem hWords _ List.mem_cons_self) (by decide)
      simp [negationMark, cutNegation, hBang]

/-- A path is not mistaken for one whose presence is asked for. -/
theorem exists_cutPresenceTest (existsOnly : Bool) :
    ∃ p', SpellsPath path p' ∧ cutPresenceTest (p ++ presenceMark existsOnly) = (existsOnly, p') := by
  cases existsOnly with
  | true =>
    refine ⟨_, hp.trimEnd hWords, ?_⟩
    simp only [cutPresenceTest, presenceMark, if_pos, dropEnding?_append]
  | false =>
    refine ⟨p, hp, ?_⟩
    have hMark : '?' ∉ p := by
      intro hMem
      exact absurd (hp.isPathChar_of_mem hWords _ hMem) (by decide)
    have hNone : dropEnding? ['?', '?'] p = none := dropEnding?_eq_none List.mem_cons_self hMark
    simp [cutPresenceTest, presenceMark, hNone]

end Condition

namespace SpellsCondition

variable {c : Condition} {s : List Char}

/-- A condition is never blank, as its path is not. -/
theorem isBlank_eq_false (h : SpellsCondition c s) (hWords : c.path.IsWords) :
    isBlank s = false := by
  obtain ⟨negation, path, test, -, hp, -, rfl⟩ := h
  have hBlank := hp.isBlank_eq_false hWords
  simp only [isBlank] at hBlank ⊢
  simp [hBlank]

/-- No tag ends within a condition. -/
theorem crosses (h : SpellsCondition c s) (hWords : c.path.IsWords) : Crosses '>' s := by
  obtain ⟨negation, path, test, hn, hp, ht, rfl⟩ := h
  exact (hn.crosses.append (hp.crosses (by decide) hWords)).append ht.crosses

/-- Trimmed, a condition is its path between the two marks it has. -/
theorem exists_trim (h : SpellsCondition c s) (hWords : c.path.IsWords) :
    ∃ p, SpellsPath c.path p ∧
      trim s = negationMark c.negated ++ p ++ presenceMark c.existsOnly := by
  obtain ⟨negation, path, test, hn, hp, ht, rfl⟩ := h
  obtain ⟨p, hp', hStart⟩ := hn.exists_trimStart hp hWords test
  obtain ⟨p', hp'', hEnd⟩ := ht.exists_trimEnd hp' hWords (negationMark c.negated)
  exact ⟨p', hp'', by rw [trim, hStart, hEnd]⟩

end SpellsCondition

/-- **Conditions.** What follows the word of an opening tag is read back. -/
theorem readCondition_of_spells {c : Condition} {s : List Char} (h : SpellsCondition c s)
    (hPath : c.path.isValid = true) : readCondition s = .ok c := by
  have hWords := Path.isWords_of_isValid hPath
  obtain ⟨p, hp, hTrim⟩ := h.exists_trim hWords
  obtain ⟨p₁, hp₁, hNegation⟩ :=
    exists_cutNegation hp hWords c.negated (presenceMark c.existsOnly)
  obtain ⟨p₂, hp₂, hTest⟩ := exists_cutPresenceTest hp₁ hWords c.existsOnly
  have hBuiltins := refuseBuiltins_of_crosses (hp₂.crosses (by decide) hWords)
  have hNe : (negationMark c.negated ++ p ++ presenceMark c.existsOnly).isEmpty = false := by
    have hBlank := hp.isBlank_eq_false hWords
    cases p with
    | nil => exact absurd hBlank (by decide)
    | cons => simp
  simp only [readCondition, hTrim, hNe, hNegation, hTest, hBuiltins, readPath_of_spells hp₂ hPath]
  rfl

-- ---------------------------------------------------------------------------
-- Tags
-- ---------------------------------------------------------------------------

theorem isWordChar_if : ∀ c ∈ "if".toList, isWordChar c = true :=
  List.all_eq_true.mp (by decide)

theorem isWordChar_else : ∀ c ∈ "else".toList, isWordChar c = true :=
  List.all_eq_true.mp (by decide)

/-- Blanks in front do not turn a tag into a comment. -/
theorem head?_ne_dash {before s : List Char} (hBefore : isBlank before = true)
    (hs : s.head? ≠ some '-') : (before ++ s).head? ≠ some '-' := by
  cases before with
  | nil => exact hs
  | cons b r =>
    have hBlank : isWhiteSpace b = true := List.all_eq_true.mp hBefore b List.mem_cons_self
    intro hHead
    obtain rfl : b = '-' := by simpa using hHead
    exact absurd hBlank (by decide)

/-- The mark that ends an opening tag is not met earlier. -/
theorem SpellsOpening.crosses {c : Condition} {s : List Char} (h : SpellsOpening c s)
    (hWords : c.path.IsWords) : Crosses '>' s := by
  have hSep : isPathChar '>' = false := by decide
  obtain ⟨before, blank, condition, hBefore, hBlank, hCondition, rfl⟩ := h
  have hOne : Crosses '>' [blank] := crosses_of_isBlank hSep (by simp [isBlank, hBlank])
  have hWord : Crosses '>' ['i', 'f'] :=
    crosses_of_isPathChar hSep fun c hc => by simp [isPathChar, isWordChar_if c hc]
  have hInner := ((crosses_of_isBlank hSep hBefore).append hWord).append
    (hOne.append (hCondition.crosses hWords))
  simpa using hInner

/-- An opening tag is not taken for a comment. -/
theorem SpellsOpening.head?_ne {c : Condition} {s : List Char} (h : SpellsOpening c s) :
    s.head? ≠ some '-' := by
  obtain ⟨before, blank, condition, hBefore, -, -, rfl⟩ := h
  exact head?_ne_dash hBefore (by simp)

namespace SpellsTag

variable {word : String} {s : List Char}

/-- Trimmed, a tag without an argument is its name. -/
theorem trim_eq (h : SpellsTag word s) (hWord : ∀ c ∈ word.toList, isWordChar c = true) :
    trim s = word.toList := by
  obtain ⟨before, after, hBefore, hAfter, rfl⟩ := h
  exact trim_segment hWord hBefore hAfter

/-- The mark that ends such a tag is not met earlier. -/
theorem crosses (h : SpellsTag word s) (hWord : ∀ c ∈ word.toList, isWordChar c = true) :
    Crosses '>' s := by
  have hSep : isPathChar '>' = false := by decide
  obtain ⟨before, after, hBefore, hAfter, rfl⟩ := h
  have hInner : Crosses '>' word.toList :=
    crosses_of_isPathChar (by decide) fun c hc => by simp [isPathChar, hWord c hc]
  exact ((crosses_of_isBlank hSep hBefore).append hInner).append
    (crosses_of_isBlank hSep hAfter)

/-- Such a tag is not taken for a comment. -/
theorem head?_ne (h : SpellsTag word s) (hWord : ∀ c ∈ word.toList, isWordChar c = true)
    (hNe : word.toList ≠ []) : s.head? ≠ some '-' := by
  obtain ⟨before, after, hBefore, -, rfl⟩ := h
  obtain ⟨c, r, hCons⟩ := List.exists_cons_of_ne_nil hNe
  rw [List.append_assoc]
  refine head?_ne_dash hBefore ?_
  intro hHead
  obtain rfl : c = '-' := by simpa [hCons] using hHead
  have hMem : '-' ∈ word.toList := by simp [hCons]
  exact absurd (hWord _ hMem) (by decide)

end SpellsTag

/-- **Opening tags.** The tag opens a conditional on the line of the tag, unless too many are open
already. -/
theorem openTag_of_opening {c : Condition} {s : List Char} (h : SpellsOpening c s)
    (hPath : c.path.isValid = true) {d : Draft} (hDepth : d.opened.length < maxNesting)
    (line : Nat) :
    d.openTag line s = .ok { d with opened :=
      { condition := c, line, thenNodes := [], elseNodes := none } :: d.opened } := by
  have hWords := Path.isWords_of_isValid hPath
  obtain ⟨before, blank, condition, hBefore, hBlank, hCondition, rfl⟩ := h
  have hTrim : trim (before ++ 'i' :: 'f' :: blank :: condition)
      = ['i', 'f'] ++ blank :: trimEnd condition := by
    have hi : isWhiteSpace 'i' = false := by decide
    rw [trim, trimStart_append_of_isBlank hBefore, trimStart_cons hi]
    exact trimEnd_append ['i', 'f', blank] (hCondition.isBlank_eq_false hWords)
  have hSplit : splitFirst isWhiteSpace (['i', 'f'] ++ blank :: trimEnd condition)
      = some (['i', 'f'], trimEnd condition) :=
    splitFirst_append_cons (isWhiteSpace_of_mem_word isWordChar_if) hBlank _
  have hRead : readCondition (trim condition) = .ok c := by
    rw [readCondition_trim, readCondition_of_spells hCondition hPath]
  simp only [Draft.openTag, hTrim, hSplit, trim_trimEnd, if_pos]
  simp only [Draft.openConditional, if_neg (Nat.not_le.mpr hDepth), hRead]
  rfl

/-- **Else tags.** The tag turns to the else branch of a conditional that has none yet. -/
theorem openTag_of_turning {s : List Char} (h : SpellsTag "else" s) {d : Draft}
    {o : OpenConditional} {outer : List OpenConditional} (hOpened : d.opened = o :: outer)
    (hElse : o.elseNodes = none) (line : Nat) :
    d.openTag line s = .ok { d with opened := { o with elseNodes := some [] } :: outer } := by
  have hTrim : trim s = ['e', 'l', 's', 'e'] := h.trim_eq isWordChar_else
  have hSplit : splitFirst isWhiteSpace ['e', 'l', 's', 'e'] = none :=
    splitFirst_eq_none (isWhiteSpace_of_mem_word isWordChar_else)
  simp [Draft.openTag, hTrim, hSplit, Draft.startElse, hOpened, hElse]

/-- **Closing tags.** The innermost conditional becomes a node of the branch around it. -/
theorem closeTag_of_closing {s : List Char} (h : SpellsTag "if" s) {d : Draft}
    {o : OpenConditional} {outer : List OpenConditional} (hOpened : d.opened = o :: outer) :
    d.closeTag s = .ok ({ d with opened := outer }.add o.node) := by
  have hTrim : trim s = ['i', 'f'] := h.trim_eq isWordChar_if
  simp [Draft.closeTag, hTrim, hOpened]

end RuleBlocks.Template
