import RuleBlocks.Text.Quoted

/-!
# Slices of a text

A text is kept as the bytes of its UTF-8 encoding, and a place in it is an offset, which counts
bytes. Not every number is a place. A slice between two offsets is a text only if they are in order,
lie within the text, and stand where characters start or the text ends; any other slice does not
exist. Searches yield offsets by adding up the widths of the characters that they pass.

Main definitions:

* `width` — how many bytes some characters take;
* `isBoundary`, `slice?` — which offsets are places, and the slice between two of them;
* `findFrom`, `findText` — the offset of a mark outside quotes, and of a text;
* `splitUnquoted?` — the two slices around the first mark outside quotes.
-/

namespace RuleBlocks.Text

-- ---------------------------------------------------------------------------
-- Widths
-- ---------------------------------------------------------------------------

/-- How many bytes the characters take. -/
def width : List Char → Nat
  | [] => 0
  | c :: r => c.utf8Size + width r

@[simp] theorem width_nil : width [] = 0 := rfl

@[simp] theorem width_cons (c : Char) (s : List Char) : width (c :: s) = c.utf8Size + width s := rfl

/-- The bytes of two texts add up. -/
@[simp] theorem width_append (s t : List Char) : width (s ++ t) = width s + width t := by
  induction s with
  | nil => simp
  | cons c r ih => simp [ih, Nat.add_assoc]

/-- A string takes as many bytes as its characters. -/
theorem utf8ByteSize_ofList (s : List Char) : (String.ofList s).utf8ByteSize = width s := by
  induction s with
  | nil => simp
  | cons c r ih =>
    have hSplit : String.ofList (c :: r) = String.singleton c ++ String.ofList r := by
      rw [String.singleton_eq_ofList, ← String.ofList_append, List.singleton_append]
    rw [hSplit, String.utf8ByteSize_append, String.utf8ByteSize_singleton, ih, width_cons]

/-- The characters of a string take as many bytes as the string. -/
theorem width_toList (s : String) : width s.toList = s.utf8ByteSize := by
  rw [← utf8ByteSize_ofList, String.ofList_toList]

-- ---------------------------------------------------------------------------
-- Slices
-- ---------------------------------------------------------------------------

/-- The text ends at the offset, or the byte there is the first one of a character. -/
def isBoundary (s : String) (offset : Nat) : Bool :=
  offset == s.utf8ByteSize || s.toByteArray[offset]?.any fun b => decide b.IsUTF8FirstByte

/-- The text between two offsets. -/
def slice? (s : String) (start stop : Nat) : Option String :=
  if start ≤ stop && stop ≤ s.utf8ByteSize && isBoundary s start && isBoundary s stop then
    String.fromUTF8? (s.toByteArray.extract start stop)
  else none

/-- The test on bytes is the one for positions in a string. -/
theorem isBoundary_iff_isValid {s : String} {offset : Nat} :
    isBoundary s offset = true ↔ String.Pos.Raw.IsValid s ⟨offset⟩ := by
  rw [String.Pos.Raw.isValid_iff_isUTF8FirstByte, isBoundary, Bool.or_eq_true, beq_iff_eq,
    String.Pos.Raw.ext_iff]
  refine or_congr Iff.rfl ?_
  -- Inside the text the first bit pattern of the byte decides; behind it there is no byte.
  by_cases hIn : offset < s.toByteArray.size
  · rw [getElem?_pos s.toByteArray offset hIn, Option.any_some, decide_eq_true_eq]
    exact ⟨fun hFirst => ⟨hIn, hFirst⟩, fun ⟨_, hFirst⟩ => hFirst⟩
  · rw [getElem?_neg s.toByteArray offset hIn]
    exact iff_of_false Bool.false_ne_true fun ⟨hLt, _⟩ => hIn hLt

/-- A text can be cut in two at its places, and nowhere else. -/
theorem isBoundary_iff {s : String} {offset : Nat} :
    isBoundary s offset = true ↔
      ∃ before after, s = before ++ after ∧ offset = before.utf8ByteSize := by
  rw [isBoundary_iff_isValid, String.Pos.Raw.isValid_iff_exists_append]
  simp only [String.Pos.Raw.ext_iff, String.rawEndPos]

/-- Where one text ends and another begins is a boundary. -/
theorem isBoundary_append (before after : String) :
    isBoundary (before ++ after) before.utf8ByteSize = true :=
  isBoundary_iff.mpr ⟨before, after, rfl, rfl⟩

/-- The bytes of a string are read as this string. -/
theorem fromUTF8?_toByteArray (s : String) : String.fromUTF8? s.toByteArray = some s := by
  rw [String.fromUTF8?, dif_pos s.isValidUTF8]
  rfl

/-- Nothing is asked of a slice but that its ends are places, in their order. -/
theorem isSome_slice? (s : String) (start stop : Nat) :
    (slice? s start stop).isSome =
      (start ≤ stop && stop ≤ s.utf8ByteSize && isBoundary s start && isBoundary s stop) := by
  rw [slice?]
  split
  case isFalse hOutside => exact (Bool.eq_false_iff.mpr hOutside).symm
  case isTrue hInside =>
    obtain ⟨hRest, hStop⟩ := Bool.and_eq_true_iff.mp hInside
    obtain ⟨-, hStart⟩ := Bool.and_eq_true_iff.mp hRest
    have hExtract := @String.toByteArray_extract s ⟨⟨start⟩, isBoundary_iff_isValid.mp hStart⟩
      ⟨⟨stop⟩, isBoundary_iff_isValid.mp hStop⟩
    rw [← hExtract, fromUTF8?_toByteArray, hInside]
    rfl

/-- The offset 2 lies within the second character. -/
example : slice? "aé" 0 2 = none := by decide

/-- **A piece between two others** is cut out as it is. -/
theorem slice?_append (before s after : String) :
    slice? (before ++ s ++ after) before.utf8ByteSize (before ++ s).utf8ByteSize = some s := by
  have hStart : isBoundary (before ++ s ++ after) before.utf8ByteSize = true := by
    rw [String.append_assoc]
    exact isBoundary_append before (s ++ after)
  have hStop := isBoundary_append (before ++ s) after
  -- The bytes of the piece are those behind the first one, as many as it has itself.
  have hExtract : (before ++ s ++ after).toByteArray.extract before.utf8ByteSize
      (before ++ s).utf8ByteSize = s.toByteArray := by
    have hSkip := @ByteArray.extract_append_size_add before.toByteArray
      (s ++ after).toByteArray 0 s.toByteArray.size
    rw [String.append_assoc, String.toByteArray_append, String.utf8ByteSize_append,
      ← String.size_toByteArray, ← String.size_toByteArray, ← Nat.add_zero before.toByteArray.size,
      Nat.add_assoc, Nat.zero_add, hSkip, String.toByteArray_append,
      ByteArray.extract_append_eq_left rfl]
  rw [slice?, hExtract, fromUTF8?_toByteArray, hStart, hStop]
  simp

section List

variable {s : String} {before inner after : List Char}

/-- What stands at some characters of a text is a slice of it. -/
theorem slice?_of_toList (h : s.toList = before ++ (inner ++ after)) :
    slice? s (width before) (width before + width inner) = some (String.ofList inner) := by
  have hSlice := slice?_append (String.ofList before) (String.ofList inner) (String.ofList after)
  rw [String.utf8ByteSize_append, utf8ByteSize_ofList, utf8ByteSize_ofList, String.append_assoc,
    ← String.ofList_append, ← String.ofList_append, ← h, String.ofList_toList] at hSlice
  exact hSlice

/-- What is behind a beginning is cut out up to the end. -/
theorem slice?_to_end (h : s.toList = before ++ after) :
    slice? s (width before) s.utf8ByteSize = some (String.ofList after) := by
  have hSlice := slice?_of_toList (by simpa using h : s.toList = before ++ (after ++ []))
  rwa [← width_append, ← h, width_toList] at hSlice

/-- A beginning is cut out from the start. -/
theorem slice?_from_start (h : s.toList = before ++ after) :
    slice? s 0 (width before) = some (String.ofList before) := by
  have hSlice := slice?_of_toList (by simpa using h : s.toList = [] ++ (before ++ after))
  rwa [width_nil, Nat.zero_add] at hSlice

end List

-- ---------------------------------------------------------------------------
-- Searches
-- ---------------------------------------------------------------------------

/-- The offset of the first `sep` outside quotes, for a reader that stands at the given position
relative to quotes and has come to the given offset. -/
def findFrom (sep : Char) : Quoting → Nat → List Char → Option Nat
  | _, _, [] => none
  | q, offset, c :: r =>
    if q = .outside ∧ c = sep then some offset else findFrom sep (q.next c) (offset + c.utf8Size) r

/-- The place at which the search stops is where the text would be cut. -/
theorem findFrom_eq (sep : Char) (q : Quoting) (offset : Nat) (s : List Char) :
    findFrom sep q offset s = (cutFrom sep q s).map fun cut => offset + width cut.1 := by
  induction s generalizing q offset with
  | nil => rfl
  | cons c r ih =>
    rw [findFrom, cutFrom]
    split
    · rfl
    · rw [ih, Option.map_map]
      congr 1
      funext cut
      simp [Nat.add_assoc]

/-- The offset at which the pattern starts, for a reader that has come to the given offset. -/
def findText (pattern : List Char) (offset : Nat) (s : List Char) : Option Nat :=
  if pattern.isPrefixOf s then some offset
  else
    match s with
    | [] => none
    | c :: r => findText pattern (offset + c.utf8Size) r

/-- What stands before and after the first `sep` outside quotes, as slices. Either may fail to
exist; without a `sep` there is nothing to slice. -/
def splitUnquoted? (sep : Char) (s : String) : Option (Option (String × String)) :=
  match findFrom sep .outside 0 s.toList with
  | none => some none
  | some offset => do
    let before ← slice? s 0 offset
    let after ← slice? s (offset + sep.utf8Size) s.utf8ByteSize
    return some (before, after)

/-- The slices around a mark exist, and are the two sides of a cut. -/
theorem splitUnquoted?_eq (sep : Char) (s : String) :
    splitUnquoted? sep s = some ((cutUnquoted sep s.toList).map fun cut =>
      (String.ofList cut.1, String.ofList cut.2)) := by
  rw [splitUnquoted?, findFrom_eq]
  cases hCut : cutFrom sep .outside s.toList with
  | none => simp [cutUnquoted, hCut]
  | some cut =>
    obtain ⟨before, after⟩ := cut
    have hSplit := eq_append_of_cutFrom hCut
    have hMark : s.toList = (before ++ [sep]) ++ after := by simpa using hSplit
    have hBehind := slice?_to_end hMark
    rw [width_append, width_cons, width_nil, Nat.add_zero] at hBehind
    simp [slice?_from_start hSplit, hBehind, cutUnquoted, hCut]

end RuleBlocks.Text
