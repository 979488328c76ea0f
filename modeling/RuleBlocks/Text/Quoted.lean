/-!
# Quoted text

Inside expressions a pair of `"` or of `'` encloses literal text, in which a backslash takes the
next character as it is. Two readers need to know which characters stand outside quotes: the one
that looks for the end of a construct, and the one that splits an expression at an operator. Both
are `cutUnquoted`, so they cannot disagree about where a literal ends.

Main definitions:

* `Quoting.next` — how one character changes the position relative to quotes;
* `cutUnquoted` — cut at the first separator outside quotes;
* `Crosses` — the texts that a cut runs through, whatever follows them;
* `unescape`, `escape` — the content of a literal and its spelling.
-/

namespace RuleBlocks.Text

-- ---------------------------------------------------------------------------
-- Position relative to quotes
-- ---------------------------------------------------------------------------

/-- Where a reader stands: outside quotes, inside a pair of the given mark, or inside and just
after a backslash. -/
inductive Quoting
  | outside
  | inside (mark : Char)
  | escaping (mark : Char)
deriving DecidableEq, Repr

def isQuoteMark (c : Char) : Bool :=
  c == '"' || c == '\''

/-- A backslash counts only inside quotes. -/
def Quoting.next : Quoting → Char → Quoting
  | outside, c => if isQuoteMark c then inside c else outside
  | inside mark, c =>
    if c = '\\' then escaping mark else if c = mark then outside else inside mark
  | escaping mark, _ => inside mark

/-- What stands before and after the first `sep` that is outside quotes, for a reader that starts
at the given position. -/
def cutFrom (sep : Char) : Quoting → List Char → Option (List Char × List Char)
  | _, [] => none
  | q, c :: r =>
    if q = .outside ∧ c = sep then some ([], r)
    else (cutFrom sep (q.next c) r).map fun (before, after) => (c :: before, after)

def cutUnquoted (sep : Char) (s : List Char) : Option (List Char × List Char) :=
  cutFrom sep .outside s

/-- A cut loses nothing but the separator. -/
theorem eq_append_of_cutFrom {sep : Char} {q : Quoting} {s before after : List Char}
    (h : cutFrom sep q s = some (before, after)) : s = before ++ sep :: after := by
  induction s generalizing q before with
  | nil => simp [cutFrom] at h
  | cons c r ih =>
    rw [cutFrom] at h
    split at h
    · simp_all
    · obtain ⟨⟨b, a⟩, hr, heq⟩ := Option.map_eq_some_iff.1 h
      simp only [Prod.mk.injEq] at heq
      obtain ⟨rfl, rfl⟩ := heq
      simp [ih hr]

/-- The two parts and the separator make up the text. -/
theorem eq_append_of_cutUnquoted {sep : Char} {s before after : List Char}
    (h : cutUnquoted sep s = some (before, after)) : s = before ++ sep :: after :=
  eq_append_of_cutFrom h

-- ---------------------------------------------------------------------------
-- Stretches that a cut crosses
-- ---------------------------------------------------------------------------

/-- The text stands in front of a separator without ending the search for it: it holds none outside
quotes, and it closes the quotes that it opens. -/
def Crosses (sep : Char) (s : List Char) : Prop :=
  ∀ r, cutUnquoted sep (s ++ r) = (cutUnquoted sep r).map fun (before, after) =>
    (s ++ before, after)

/-- Nothing is crossed by any search. -/
theorem Crosses.nil (sep : Char) : Crosses sep [] := by
  intro r
  cases h : cutUnquoted sep r <;> simp [h]

/-- What is crossed piece by piece is crossed. -/
theorem Crosses.append {sep : Char} {s t : List Char} (hs : Crosses sep s) (ht : Crosses sep t) :
    Crosses sep (s ++ t) := by
  intro r
  rw [List.append_assoc, hs, ht, Option.map_map]
  congr 1
  funext ⟨before, after⟩
  simp

/-- A character that is neither the separator nor a quote mark. -/
theorem Crosses.cons {sep c : Char} {s : List Char} (hc : c ≠ sep) (hq : isQuoteMark c = false)
    (hs : Crosses sep s) : Crosses sep (c :: s) := by
  intro r
  have hstep (t : List Char) : cutUnquoted sep (c :: t)
      = (cutUnquoted sep t).map fun (before, after) => (c :: before, after) := by
    simp [cutUnquoted, cutFrom, Quoting.next, hc, hq]
  rw [List.cons_append, hstep, hs, Option.map_map]
  rfl

/-- A text without quotes and without the separator is crossed. -/
theorem Crosses.of_forall {sep : Char} {s : List Char}
    (hs : ∀ c ∈ s, c ≠ sep ∧ isQuoteMark c = false) : Crosses sep s := by
  induction s with
  | nil => exact .nil sep
  | cons c r ih =>
    obtain ⟨hc, hq⟩ := hs c List.mem_cons_self
    exact .cons hc hq (ih fun d hd => hs d (List.mem_cons_of_mem _ hd))

/-- **The cut is behind what is crossed**, if the separator follows. -/
theorem Crosses.cutUnquoted_append {sep : Char} {s : List Char} (hs : Crosses sep s)
    (r : List Char) : cutUnquoted sep (s ++ sep :: r) = some (s, r) := by
  rw [hs]
  simp [cutUnquoted, cutFrom]

/-- In what is crossed there is nothing to cut at. -/
theorem Crosses.cutUnquoted_eq_none {sep : Char} {s : List Char} (hs : Crosses sep s) :
    cutUnquoted sep s = none := by
  simpa [cutUnquoted, cutFrom] using hs []

-- ---------------------------------------------------------------------------
-- Literals
-- ---------------------------------------------------------------------------

/-- The content of a literal: `\n` is a line feed, `\t` a tab, any other character after a
backslash is itself, and a backslash at the very end stays. -/
def unescape : List Char → List Char
  | [] => []
  | ['\\'] => ['\\']
  | '\\' :: 'n' :: r => '\n' :: unescape r
  | '\\' :: 't' :: r => '\t' :: unescape r
  | '\\' :: c :: r => c :: unescape r
  | c :: r => c :: unescape r

/-- The spelling of a text between quotes of the given mark. -/
def escape (mark : Char) : List Char → List Char
  | [] => []
  | c :: r => if c = '\\' ∨ c = mark then '\\' :: c :: escape mark r else c :: escape mark r

/-- A character that is no backslash stands for itself. -/
theorem unescape_cons {c : Char} (hc : c ≠ '\\') (r : List Char) :
    unescape (c :: r) = c :: unescape r := by
  rw [unescape.eq_def]
  split <;> simp_all

/-- After a backslash a character stands for itself, but for the two that have a meaning. -/
theorem unescape_escaped {c : Char} (hn : c ≠ 'n') (ht : c ≠ 't') (r : List Char) :
    unescape ('\\' :: c :: r) = c :: unescape r := by
  rw [unescape] <;> simp [hn, ht]

/-- A literal is read back, whatever stands in it. -/
theorem unescape_escape {mark : Char} (hm : isQuoteMark mark = true) (s : List Char) :
    unescape (escape mark s) = s := by
  induction s with
  | nil => rfl
  | cons c r ih =>
    rw [escape]
    split
    case isTrue hc =>
      have hplain : c ≠ 'n' ∧ c ≠ 't' := by
        rcases hc with rfl | rfl
        · decide
        · constructor <;> rintro rfl <;> exact absurd hm (by decide)
      rw [unescape_escaped hplain.1 hplain.2, ih]
    case isFalse hc =>
      rw [unescape_cons fun h => hc (.inl h), ih]

/-- The inside of a literal ends at the mark that its spelling leaves bare. -/
theorem cutFrom_escape {sep mark : Char} (hm : isQuoteMark mark = true) (s r : List Char) :
    cutFrom sep (.inside mark) (escape mark s ++ mark :: r)
      = (cutUnquoted sep r).map fun (before, after) => (escape mark s ++ mark :: before, after) := by
  have hslash : mark ≠ '\\' := by
    rintro rfl
    exact absurd hm (by decide)
  induction s with
  | nil => simp [escape, cutFrom, Quoting.next, hslash, cutUnquoted]
  | cons c t ih =>
    rw [escape]
    split
    case isTrue hc => simp [cutFrom, Quoting.next, ih, Function.comp_def]
    case isFalse hc =>
      rw [not_or] at hc
      simp [cutFrom, Quoting.next, hc.1, hc.2, ih, Function.comp_def]

/-- A literal is crossed on the way to any separator, wherever that character stands in it. -/
theorem Crosses.literal {sep mark : Char} (hm : isQuoteMark mark = true) (hsep : mark ≠ sep)
    (s : List Char) : Crosses sep (mark :: (escape mark s ++ [mark])) := by
  intro r
  have h := @cutFrom_escape sep mark hm s r
  simp [cutUnquoted, cutFrom, Quoting.next, hm, hsep, h, Function.comp_def]

/-- The text between two equal quote marks at its ends, if it has them. What stands between is
taken as it is, further quote marks included. -/
def enclosed? (s : List Char) : Option (List Char) :=
  match s with
  | [] => none
  | mark :: r =>
    if isQuoteMark mark ∧ r.getLast? = some mark then some r.dropLast else none

/-- What stands between two equal quotes is enclosed. -/
theorem enclosed?_of_isQuoteMark {mark : Char} (hm : isQuoteMark mark = true) (s : List Char) :
    enclosed? (mark :: (s ++ [mark])) = some s := by
  simp [enclosed?, hm]

/-- A text is enclosed exactly if it begins and ends with the same quote. -/
theorem enclosed?_eq_some_iff {s content : List Char} :
    enclosed? s = some content ↔
      ∃ mark, isQuoteMark mark = true ∧ s = mark :: (content ++ [mark]) := by
  constructor
  · intro h
    unfold enclosed? at h
    split at h
    · simp at h
    · next mark r =>
      split at h
      case isFalse => simp at h
      -- The last character is the mark, and what is before it is the content.
      case isTrue hMark =>
        obtain ⟨content, rfl⟩ := List.getLast?_eq_some_iff.mp hMark.2
        rw [List.dropLast_concat] at h
        exact ⟨mark, hMark.1, by rw [Option.some.inj h]⟩
  · rintro ⟨mark, hMark, rfl⟩
    exact enclosed?_of_isQuoteMark hMark content

end RuleBlocks.Text
