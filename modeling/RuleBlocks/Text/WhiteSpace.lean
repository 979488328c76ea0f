/-!
# White space

The characters with the Unicode property `White_Space`, and what trimming means for them. Every
part of the library that trims text, splits it at blanks or asks whether a name holds a blank uses
this one class; there is no ASCII-only variant.

Main definitions:

* `isWhiteSpace` — membership in the property;
* `trimStart`, `trimEnd`, `trim` — drop blanks at either end of a list of characters;
* `splitFirst` — cut at the first character of a class.
-/

namespace RuleBlocks.Text

-- ---------------------------------------------------------------------------
-- The property
-- ---------------------------------------------------------------------------

/-- The code points with the property `White_Space`, as closed ranges in increasing order. -/
def whiteSpaceRanges : List (Nat × Nat) :=
  [(0x09, 0x0D), (0x20, 0x20), (0x85, 0x85), (0xA0, 0xA0), (0x1680, 0x1680), (0x2000, 0x200A),
   (0x2028, 0x2029), (0x202F, 0x202F), (0x205F, 0x205F), (0x3000, 0x3000)]

def isWhiteSpace (c : Char) : Bool :=
  whiteSpaceRanges.any fun (lo, hi) => lo ≤ c.toNat && c.toNat ≤ hi

/-- Twenty-five code points have the property. -/
example : (whiteSpaceRanges.map fun (lo, hi) => hi + 1 - lo).sum = 25 := by decide

/-- Letters and digits are not white space. -/
theorem isWhiteSpace_eq_false_of_isAlphanum {c : Char} (h : c.isAlphanum = true) :
    isWhiteSpace c = false := by
  change (decide ('A'.val ≤ c.val ∧ c.val ≤ 'Z'.val) ||
    decide ('a'.val ≤ c.val) && decide (c.val ≤ 'z'.val) ||
    decide ('0'.val ≤ c.val) && decide (c.val ≤ '9'.val)) = true at h
  simp only [Bool.or_eq_true, Bool.and_eq_true, decide_eq_true_eq, UInt32.le_iff_toNat_le] at h
  change ((65 ≤ c.toNat ∧ c.toNat ≤ 90) ∨ (97 ≤ c.toNat ∧ c.toNat ≤ 122)) ∨
    (48 ≤ c.toNat ∧ c.toNat ≤ 57) at h
  simp only [isWhiteSpace, whiteSpaceRanges, List.any_cons, List.any_nil, Bool.or_false,
    Bool.or_eq_false_iff, Bool.and_eq_false_iff, decide_eq_false_iff_not]
  omega

-- ---------------------------------------------------------------------------
-- Trimming
-- ---------------------------------------------------------------------------

def trimStart (s : List Char) : List Char :=
  s.dropWhile isWhiteSpace

def trimEnd (s : List Char) : List Char :=
  (s.reverse.dropWhile isWhiteSpace).reverse

def trim (s : List Char) : List Char :=
  trimEnd (trimStart s)

/-- Whether the text is empty or holds blanks only. -/
def isBlank (s : List Char) : Bool :=
  s.all isWhiteSpace

/-- A blank text holds no other characters. -/
theorem not_mem_of_isBlank {b : List Char} (hb : isBlank b = true) {c : Char}
    (hc : isWhiteSpace c = false) : c ∉ b := by
  intro hMem
  rw [List.all_eq_true.mp hb c hMem] at hc
  cases hc

/-- Blanks at the start go. -/
theorem trimStart_append_of_isBlank {b : List Char} (hb : isBlank b = true) (s : List Char) :
    trimStart (b ++ s) = trimStart s :=
  List.dropWhile_append_of_pos (List.all_eq_true.1 hb)

/-- A single blank at the start goes. -/
theorem trimStart_cons_of_isWhiteSpace {c : Char} (hc : isWhiteSpace c = true) (s : List Char) :
    trimStart (c :: s) = trimStart s :=
  List.dropWhile_cons_of_pos hc

/-- A character that is not blank stops the trimming at the start. -/
theorem trimStart_cons {c : Char} (hc : isWhiteSpace c = false) (s : List Char) :
    trimStart (c :: s) = c :: s :=
  List.dropWhile_cons_of_neg (by simp [hc])

/-- Nothing is left of a blank text, and of no other. -/
theorem trimStart_eq_nil_iff {s : List Char} : trimStart s = [] ↔ isBlank s = true := by
  induction s with
  | nil => simp [trimStart, isBlank]
  | cons c r ih =>
    cases hc : isWhiteSpace c with
    | true =>
      have hall : isBlank (c :: r) = isBlank r := by simp [isBlank, hc]
      rw [trimStart_cons_of_isWhiteSpace hc, hall, ih]
    | false => simp [trimStart_cons hc, isBlank, hc]

/-- What was trimmed at the start is trimmed at the start. -/
theorem trimStart_trimStart (s : List Char) : trimStart (trimStart s) = trimStart s := by
  induction s with
  | nil => rfl
  | cons c r ih =>
    cases hc : isWhiteSpace c with
    | true => rw [trimStart_cons_of_isWhiteSpace hc, ih]
    | false => rw [trimStart_cons hc, trimStart_cons hc]

/-- Trimming at the start stays within a text that is not blank. -/
theorem trimStart_append {s : List Char} (hs : isBlank s = false) (t : List Char) :
    trimStart (s ++ t) = trimStart s ++ t := by
  have hne : trimStart s ≠ [] := by simp [trimStart_eq_nil_iff, hs]
  simp only [trimStart] at hne ⊢
  simp [List.dropWhile_append, hne]

theorem isBlank_reverse (s : List Char) : isBlank s.reverse = isBlank s := by
  simp [isBlank]

/-- Blanks at the end go. -/
theorem trimEnd_append_of_isBlank (s : List Char) {b : List Char} (hb : isBlank b = true) :
    trimEnd (s ++ b) = trimEnd s := by
  -- The end of a text is the start of its reverse.
  have h := trimStart_append_of_isBlank ((isBlank_reverse b).trans hb) s.reverse
  simp only [trimStart] at h
  simp [trimEnd, h]

/-- Trimming at the end stays within a text that is not blank. -/
theorem trimEnd_append (s : List Char) {t : List Char} (ht : isBlank t = false) :
    trimEnd (s ++ t) = s ++ trimEnd t := by
  have h := trimStart_append ((isBlank_reverse t).trans ht) s.reverse
  simp only [trimStart] at h
  simp [trimEnd, h]

/-- A character that is not blank stops the trimming at the end. -/
theorem trimEnd_append_singleton (s : List Char) {c : Char} (hc : isWhiteSpace c = false) :
    trimEnd (s ++ [c]) = s ++ [c] := by
  simp [trimEnd, hc]

/-- What was trimmed at the end is trimmed at the end. -/
theorem trimEnd_trimEnd (s : List Char) : trimEnd (trimEnd s) = trimEnd s := by
  have h := trimStart_trimStart s.reverse
  simp only [trimStart] at h
  simp [trimEnd, h]

theorem trimEnd_of_isBlank {s : List Char} (hs : isBlank s = true) : trimEnd s = [] := by
  simpa [trimEnd] using trimEnd_append_of_isBlank [] hs

/-- Trimming at the end leaves a first character that is not blank where it stands. -/
theorem trimEnd_cons {c : Char} (hc : isWhiteSpace c = false) (s : List Char) :
    trimEnd (c :: s) = c :: trimEnd s := by
  cases hs : isBlank s with
  | true =>
    -- The rest is blank and goes, up to the character.
    rw [trimEnd_of_isBlank hs]
    exact (trimEnd_append_of_isBlank [c] hs).trans (trimEnd_append_singleton [] hc)
  | false => exact trimEnd_append [c] hs

/-- The order in which the two ends are trimmed does not matter. -/
theorem trimStart_trimEnd (s : List Char) : trimStart (trimEnd s) = trim s := by
  rw [trim]
  induction s with
  | nil => rfl
  | cons c r ih =>
    cases hc : isWhiteSpace c with
    | false => rw [trimStart_cons hc, trimEnd_cons hc, trimStart_cons hc]
    | true =>
      -- A blank in front goes either way, but if the rest is blank, too, there is nothing left of
      -- it.
      have hstart := trimStart_cons_of_isWhiteSpace hc
      cases hr : isBlank r with
      | true =>
        have hall : isBlank (c :: r) = true := by simpa [isBlank, hc] using hr
        rw [hstart, trimStart_eq_nil_iff.2 hr, trimEnd_of_isBlank hall]
        rfl
      | false =>
        have hend : trimEnd (c :: r) = c :: trimEnd r := trimEnd_append [c] hr
        rw [hend, hstart, hstart, ih]

/-- To trim at the end first makes no difference. -/
theorem trim_trimEnd (s : List Char) : trim (trimEnd s) = trim s := by
  rw [trim, trimStart_trimEnd, trim, trimEnd_trimEnd]

/-- **Trimming once is enough.** -/
theorem trim_trim (s : List Char) : trim (trim s) = trim s := by
  rw [trim, trim, trimStart_trimEnd, trim, trimStart_trimStart, trimEnd_trimEnd]

theorem trim_trimStart (s : List Char) : trim (trimStart s) = trim s := by
  rw [trim, trimStart_trimStart, trim]

theorem trim_of_isBlank {s : List Char} (hs : isBlank s = true) : trim s = [] := by
  rw [trim, trimStart_eq_nil_iff.2 hs]
  rfl

/-- Blanks at the two ends do not change what trimming leaves. -/
theorem trim_surround {b a : List Char} (hb : isBlank b = true) (s : List Char)
    (ha : isBlank a = true) : trim (b ++ s ++ a) = trim s := by
  rw [← trimStart_trimEnd, trimEnd_append_of_isBlank _ ha, trimStart_trimEnd, trim,
    trimStart_append_of_isBlank hb, trim]

/-- Where there are no blanks, none are trimmed at the start. -/
theorem trimStart_of_forall {s : List Char} (hs : ∀ c ∈ s, isWhiteSpace c = false) :
    trimStart s = s := by
  cases s with
  | nil => rfl
  | cons c r => exact trimStart_cons (hs c List.mem_cons_self) r

/-- Where there are no blanks, none are trimmed at the end. -/
theorem trimEnd_of_forall {s : List Char} (hs : ∀ c ∈ s, isWhiteSpace c = false) :
    trimEnd s = s := by
  have h : trimStart s.reverse = s.reverse := trimStart_of_forall (by simpa using hs)
  simp only [trimStart] at h
  simp [trimEnd, h]

/-- Where there are no blanks, trimming changes nothing. -/
theorem trim_of_forall {s : List Char} (hs : ∀ c ∈ s, isWhiteSpace c = false) : trim s = s := by
  rw [trim, trimStart_of_forall hs, trimEnd_of_forall hs]

/-- Trimming takes blanks away, and nothing else. -/
theorem exists_surround_trimStart (s : List Char) :
    ∃ b, isBlank b = true ∧ s = b ++ trimStart s :=
  ⟨s.takeWhile isWhiteSpace, by simp [isBlank], List.takeWhile_append_dropWhile.symm⟩

/-- The same at the end. -/
theorem exists_surround_trimEnd (s : List Char) : ∃ a, isBlank a = true ∧ s = trimEnd s ++ a := by
  obtain ⟨b, hb, hSplit⟩ := exists_surround_trimStart s.reverse
  refine ⟨b.reverse, by rwa [isBlank_reverse], ?_⟩
  calc s = s.reverse.reverse := s.reverse_reverse.symm
    _ = (b ++ trimStart s.reverse).reverse := congrArg List.reverse hSplit
    _ = trimEnd s ++ b.reverse := by rw [List.reverse_append]; rfl

/-- Every text is what trimming leaves of it, between blanks. -/
theorem exists_surround_trim (s : List Char) :
    ∃ b a, isBlank b = true ∧ isBlank a = true ∧ s = b ++ trim s ++ a := by
  obtain ⟨b, hb, hStart⟩ := exists_surround_trimStart s
  obtain ⟨a, ha, hEnd⟩ := exists_surround_trimEnd (trimStart s)
  exact ⟨b, a, hb, ha, by rw [List.append_assoc, trim, ← hEnd, ← hStart]⟩

/-- Blanks after blanks are blank. -/
theorem isBlank_append {b a : List Char} (hb : isBlank b = true) (ha : isBlank a = true) :
    isBlank (b ++ a) = true := by
  rw [isBlank, List.all_append, Bool.and_eq_true]
  exact ⟨hb, ha⟩

/-- Trimming leaves nothing of a blank text, and of no other. -/
theorem trim_eq_nil_iff {s : List Char} : trim s = [] ↔ isBlank s = true := by
  constructor
  · intro h
    obtain ⟨b, a, hb, ha, hSurround⟩ := exists_surround_trim s
    rw [hSurround, h, List.append_nil]
    exact isBlank_append hb ha
  · exact trim_of_isBlank

/-- A character that is not blank keeps apart what is trimmed on its two sides. -/
theorem trim_append_cons {c : Char} (hc : isWhiteSpace c = false) (s t : List Char) :
    trim (s ++ c :: t) = trimStart s ++ c :: trimEnd t := by
  have hStart : trimStart (s ++ c :: t) = trimStart s ++ c :: t := by
    cases hs : isBlank s with
    | true =>
      rw [trimStart_append_of_isBlank hs, trimStart_cons hc, trimStart_eq_nil_iff.mpr hs,
        List.nil_append]
    | false => exact trimStart_append hs _
  have hBlank : isBlank (c :: t) = false := by simp [isBlank, hc]
  rw [trim, hStart, trimEnd_append _ hBlank, trimEnd_cons hc]

/-- Trimming at the start brings no character in. -/
theorem not_mem_trimStart {c : Char} {s : List Char} (h : c ∉ s) : c ∉ trimStart s :=
  fun hMem => h ((List.dropWhile_suffix _).subset hMem)

/-- Trimming brings no character in. -/
theorem not_mem_trim {c : Char} {s : List Char} (h : c ∉ s) : c ∉ trim s := by
  obtain ⟨b, a, -, -, hSurround⟩ := exists_surround_trim s
  rw [hSurround] at h
  exact fun hMem => h (List.mem_append_left _ (List.mem_append_right _ hMem))

-- ---------------------------------------------------------------------------
-- Cutting
-- ---------------------------------------------------------------------------

/-- What stands before and after the first character of the class `p`; `none` if there is none. -/
def splitFirst (p : Char → Bool) : List Char → Option (List Char × List Char)
  | [] => none
  | c :: r =>
    if p c then some ([], r)
    else (splitFirst p r).map fun (before, after) => (c :: before, after)

/-- The cut is at the first character of the class. -/
theorem splitFirst_append_cons {p : Char → Bool} {s : List Char} {c : Char}
    (hs : ∀ d ∈ s, p d = false) (hc : p c = true) (r : List Char) :
    splitFirst p (s ++ c :: r) = some (s, r) := by
  induction s with
  | nil => simp [splitFirst, hc]
  | cons d t ih =>
    have hd : p d = false := hs d List.mem_cons_self
    simp [splitFirst, hd, ih fun e he => hs e (List.mem_cons_of_mem _ he)]

/-- Without a character of the class there is no cut. -/
theorem splitFirst_eq_none {p : Char → Bool} {s : List Char} (hs : ∀ d ∈ s, p d = false) :
    splitFirst p s = none := by
  induction s with
  | nil => rfl
  | cons d t ih =>
    have hd : p d = false := hs d List.mem_cons_self
    simp [splitFirst, hd, ih fun e he => hs e (List.mem_cons_of_mem _ he)]

/-- Without the character there is no cut at it. -/
theorem splitFirst_eq_none_of_not_mem {c : Char} {s : List Char} (h : c ∉ s) :
    splitFirst (· == c) s = none :=
  splitFirst_eq_none fun _ hd => beq_eq_false_iff_ne.mpr (ne_of_mem_of_not_mem hd h)

/-- The cut is at the first place of the character. -/
theorem splitFirst_append_cons_of_not_mem {c : Char} {s : List Char} (h : c ∉ s) (r : List Char) :
    splitFirst (· == c) (s ++ c :: r) = some (s, r) :=
  splitFirst_append_cons (fun _ hd => beq_eq_false_iff_ne.mpr (ne_of_mem_of_not_mem hd h))
    (beq_self_eq_true c) r

/-- The two parts and the character between them make up the text. -/
theorem eq_append_of_splitFirst {p : Char → Bool} {s before after : List Char}
    (h : splitFirst p s = some (before, after)) :
    ∃ c, p c = true ∧ s = before ++ c :: after := by
  induction s generalizing before with
  | nil => simp [splitFirst] at h
  | cons c r ih =>
    rw [splitFirst] at h
    split at h
    case isTrue hc =>
      obtain ⟨rfl, rfl⟩ := by simpa using h
      exact ⟨c, hc, rfl⟩
    case isFalse hc =>
      obtain ⟨⟨b, a⟩, hSplit, hPair⟩ := Option.map_eq_some_iff.mp h
      obtain ⟨rfl, rfl⟩ := by simpa using hPair
      obtain ⟨d, hd, rfl⟩ := ih hSplit
      exact ⟨d, hd, rfl⟩

/-- What stands before the ending `suf`, if the text has that ending. -/
def dropEnding? (suf s : List Char) : Option (List Char) :=
  if suf.isSuffixOf s then some (s.take (s.length - suf.length)) else none

/-- An ending that is there is dropped. -/
theorem dropEnding?_append (s suf : List Char) : dropEnding? suf (s ++ suf) = some s := by
  simp [dropEnding?]

/-- An ending of which a character is missing is not there. -/
theorem dropEnding?_eq_none {suf s : List Char} {c : Char} (hc : c ∈ suf) (hs : c ∉ s) :
    dropEnding? suf s = none := by
  have hnot : ¬ suf <:+ s := fun h => hs (h.subset hc)
  simp [dropEnding?, hnot]

/-- What is left and the ending make up the text. -/
theorem eq_append_of_dropEnding? {suf s rest : List Char} (h : dropEnding? suf s = some rest) :
    s = rest ++ suf := by
  rw [dropEnding?] at h
  split at h
  case isFalse => simp at h
  case isTrue hSuffix =>
    obtain ⟨before, rfl⟩ := List.isSuffixOf_iff_suffix.mp hSuffix
    obtain rfl := by simpa using h
    rfl

/-- An ending of one character is the last character. -/
theorem dropEnding?_singleton (c : Char) (s : List Char) :
    dropEnding? [c] s = if s.getLast? == some c then some s.dropLast else none := by
  by_cases hLast : s.getLast? = some c
  · obtain ⟨r, rfl⟩ := List.getLast?_eq_some_iff.mp hLast
    simp [dropEnding?_append]
  · rw [if_neg (by simpa using hLast), dropEnding?, if_neg]
    intro hSuffix
    obtain ⟨r, rfl⟩ := List.isSuffixOf_iff_suffix.mp hSuffix
    simp at hLast

end RuleBlocks.Text
