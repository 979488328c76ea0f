import RuleBlocks.Proofs.Template.Grammar
import RuleBlocks.Proofs.Template.Reading

/-!
# What the readers accept

Each reader of a part of the syntax accepts exactly what the grammar admits there, and gives what
the grammar says it spells. That spellings are read is known from `Reading`; here the readers are
taken apart in the other direction. They all trim what they are given, and split it at the first
mark; what they trimmed away is blank, and goes back to the path or default next to it.

* `readPath_eq_ok_iff`, `readInterpolation_eq_ok_iff`, `readCondition_eq_ok_iff` — the readers of
  expressions;
* `openTag_eq_ok_iff`, `closeTag_eq_ok_iff` — the tags that a draft accepts;
* `Lexeme.cut_eq_some_iff` — the first item of a source.
-/

namespace RuleBlocks.Template

open Text

-- ---------------------------------------------------------------------------
-- Paths
-- ---------------------------------------------------------------------------

namespace SpellsPath

variable {path : Path} {s b : List Char}

/-- Blanks in front of a path belong to its first segment. -/
theorem append_left (h : SpellsPath path s) (hb : isBlank b = true) : SpellsPath path (b ++ s) := by
  cases h with
  | last hBefore hAfter =>
    rw [← List.append_assoc, ← List.append_assoc]
    exact .last (isBlank_append hb hBefore) hAfter
  | dot hBefore hAfter hPath =>
    rw [← List.append_assoc, ← List.append_assoc, ← List.append_assoc]
    exact .dot (isBlank_append hb hBefore) hAfter hPath

/-- Blanks behind a spelling belong to its last segment. -/
theorem append_right (h : SpellsPath path s) (hb : isBlank b = true) :
    SpellsPath path (s ++ b) := by
  induction h with
  | last hBefore hAfter =>
    rw [List.append_assoc]
    exact .last hBefore (isBlank_append hAfter hb)
  | dot hBefore hAfter hPath ih =>
    rw [List.append_assoc, List.cons_append]
    exact .dot hBefore hAfter ih

/-- Whatever stands in front of a dot, without the blanks around it, is a segment. -/
theorem last_trim (part : List Char) : SpellsPath [String.ofList (trim part)] part := by
  obtain ⟨b, a, hb, ha, hPart⟩ := exists_surround_trim part
  have h := @last (String.ofList (trim part)) b a hb ha
  rwa [String.toList_ofList, ← hPart] at h

/-- One more part in front is one more segment. -/
theorem dot_trim (part : List Char) (hPath : SpellsPath path s) :
    SpellsPath (String.ofList (trim part) :: path) (part ++ '.' :: s) := by
  obtain ⟨b, a, hb, ha, hPart⟩ := exists_surround_trim part
  have h := @dot (String.ofList (trim part)) path b a s hb ha hPath
  rwa [String.toList_ofList, ← hPart] at h

/-- Parts with dots between them spell the path of the trimmed parts. -/
theorem intercalate {parts : List (List Char)} (hParts : parts ≠ []) :
    SpellsPath ((parts.map trim).map String.ofList) (['.'].intercalate parts) := by
  induction parts with
  | nil => exact absurd rfl hParts
  | cons part rest ih =>
    cases rest with
    | nil =>
      rw [List.intercalate_singleton]
      exact last_trim part
    | cons next more =>
      rw [List.intercalate_cons_cons, List.append_assoc, List.singleton_append]
      exact dot_trim part (ih (List.cons_ne_nil next more))

end SpellsPath

/-- **A path is read exactly from its spellings**, if it is one. -/
theorem readPath_eq_ok_iff {path : Path} {s : List Char} :
    readPath s = .ok path ↔ path.isValid = true ∧ SpellsPath path s := by
  constructor
  · intro h
    obtain ⟨b, a, hb, ha, hSurround⟩ := exists_surround_trim s
    simp only [readPath] at h
    split at h
    case isTrue => simp at h
    case isFalse =>
      split at h
      case isFalse => simp at h
      case isTrue hValid =>
        obtain rfl := Except.ok.inj h
        -- the parts between the dots are the segments, and joining them gives back what was split
        have hSpells := SpellsPath.intercalate (List.splitOn_ne_nil '.' (trim s))
        rw [List.intercalate_splitOn] at hSpells
        have hWhole := (hSpells.append_left hb).append_right ha
        rw [← hSurround] at hWhole
        refine ⟨?_, hWhole⟩
        rw [Path.isValid, List.map_map]
        simpa [Function.comp_def] using hValid
  · rintro ⟨hPath, hSpells⟩
    exact readPath_of_spells hSpells hPath

-- ---------------------------------------------------------------------------
-- Interpolations
-- ---------------------------------------------------------------------------

/-- A builtin is used exactly if a question mark stands outside quotes. -/
theorem refuseBuiltins_eq_ok_iff {s : List Char} {u : Unit} :
    refuseBuiltins s = .ok u ↔ ¬ StandsUnquoted '?' s := by
  rw [← cutUnquoted_eq_none_iff, refuseBuiltins]
  cases cutUnquoted '?' s <;> simp

/-- Trimming leaves a literal alone, in quotes of either kind. -/
theorem trim_enclosed {mark : Char} (hMark : isQuoteMark mark = true) (content : List Char) :
    trim (mark :: (content ++ [mark])) = mark :: (content ++ [mark]) := by
  have hPlain : isWhiteSpace mark = false := by
    simp only [isQuoteMark, Bool.or_eq_true, beq_iff_eq] at hMark
    rcases hMark with rfl | rfl <;> decide
  rw [trim, trimStart_cons hPlain, ← List.cons_append, trimEnd_append_singleton _ hPlain]

/-- **A default is read exactly from its spellings.** -/
theorem readFallback_eq_ok_iff {fallback : Fallback} {s : List Char} :
    readFallback s = .ok fallback ↔ SpellsDefault fallback ('!' :: s) := by
  constructor
  · intro h
    obtain ⟨b, a, hb, ha, hSurround⟩ := exists_surround_trim s
    simp only [readFallback] at h
    split at h
    case isTrue hEmpty =>
      obtain rfl := Except.ok.inj h
      rw [hSurround, List.isEmpty_iff.mp hEmpty, List.append_nil]
      exact .empty (isBlank_append hb ha)
    case isFalse =>
      cases hEnclosed : enclosed? (trim s) with
      | none => simp [hEnclosed] at h
      | some content =>
        rw [hEnclosed] at h
        obtain rfl := Except.ok.inj h
        obtain ⟨mark, hMark, hLiteral⟩ := enclosed?_eq_some_iff.mp hEnclosed
        rw [hSurround, hLiteral]
        exact .literal hMark hb ha
  · intro h
    cases h with
    | empty hBlanks => exact readFallback_of_isBlank hBlanks
    | @literal mark content before after hMark hBefore hAfter =>
      have hTrim : trim (before ++ mark :: (content ++ [mark]) ++ after) =
          mark :: (content ++ [mark]) := by
        rw [trim_surround hBefore _ hAfter, trim_enclosed hMark]
      simp [readFallback, hTrim, enclosed?_of_isQuoteMark hMark, -List.append_assoc]

theorem readPath_surround {b a : List Char} (hb : isBlank b = true) (s : List Char)
    (ha : isBlank a = true) : readPath (b ++ s ++ a) = readPath s := by
  rw [readPath, readPath, trim_surround hb _ ha]

theorem readFallback_surround {b a : List Char} (hb : isBlank b = true) (s : List Char)
    (ha : isBlank a = true) : readFallback (b ++ s ++ a) = readFallback s := by
  rw [readFallback, readFallback, trim_surround hb _ ha]

theorem bind_eq_ok_iff {ε α β : Type} {x : Except ε α} {f : α → Except ε β} {y : β} :
    x >>= f = .ok y ↔ ∃ a, x = .ok a ∧ f a = .ok y := by
  cases x <;> simp [bind, Except.bind]

/-- The blanks that are trimmed first make no difference, so the inside may be cut as it stands. -/
theorem readInterpolation_eq_ok_iff_cut {i : Interpolation} {s : List Char} :
    readInterpolation s = .ok i ↔ ¬ StandsUnquoted '?' s ∧
      ((cutUnquoted '!' s = none ∧ readPath s = .ok i.path ∧ i.fallback = .required) ∨
        ∃ p r, cutUnquoted '!' s = some (p, r) ∧ readPath p = .ok i.path ∧
          readFallback r = .ok i.fallback) := by
  obtain ⟨b, a, hb, ha, hSurround⟩ := exists_surround_trim s
  have hSame : StandsUnquoted '?' (b ++ trim s ++ a) ↔ StandsUnquoted '?' (trim s) :=
    standsUnquoted_surround (by decide) hb ha
  have hCut : cutUnquoted '!' (b ++ trim s ++ a) = _ := cutUnquoted_surround (by decide) hb ha
  have hPath := readPath_surround hb (trim s) ha
  rw [← hSurround] at hSame hCut hPath
  obtain ⟨path, fallback⟩ := i
  rw [readInterpolation, hSame, hCut, hPath]
  cases cutUnquoted '!' (trim s) with
  | none =>
    simp only [bind_eq_ok_iff, refuseBuiltins_eq_ok_iff, exists_const]
    cases readPath (trim s) <;> simp [pure, Except.pure, eq_comm]
  | some cut =>
    obtain ⟨x, y⟩ := cut
    -- the readers trim both parts, so the blanks that were trimmed off before do not matter
    have hParts : (∃ p r, some (b ++ x, y ++ a) = some (p, r) ∧ readPath p = .ok path ∧
        readFallback r = .ok fallback) ↔ readPath x = .ok path ∧ readFallback y = .ok fallback := by
      rw [← readPath_surround hb x (a := []) rfl, ← readFallback_surround (b := []) rfl y ha,
        List.append_nil, List.nil_append]
      constructor
      · rintro ⟨p, r, ⟨⟩, hParts⟩
        exact hParts
      · intro hParts
        exact ⟨_, _, rfl, hParts⟩
    simp only [bind_eq_ok_iff, refuseBuiltins_eq_ok_iff, exists_const, Option.map_some, hParts]
    cases readPath x <;> cases readFallback y <;> simp [pure, Except.pure, and_comm]

/-- **Interpolations.** -/
theorem readInterpolation_eq_ok_iff {i : Interpolation} {s : List Char} :
    readInterpolation s = .ok i ↔ AdmitsInterpolation i s := by
  rw [readInterpolation_eq_ok_iff_cut]
  constructor
  · rintro ⟨hBare, ⟨-, hPath, hFallback⟩ | ⟨p, r, hCut, hPath, hFallback⟩⟩
    · obtain ⟨hValid, hp⟩ := readPath_eq_ok_iff.mp hPath
      exact ⟨hValid, hBare, s, [], hp, hFallback ▸ .required, (List.append_nil s).symm⟩
    · obtain ⟨hValid, hp⟩ := readPath_eq_ok_iff.mp hPath
      exact ⟨hValid, hBare, p, '!' :: r, hp, readFallback_eq_ok_iff.mp hFallback,
        (cutUnquoted_eq_some_iff.mp hCut).1⟩
  · rintro ⟨hValid, hBare, p, d, hp, hd, rfl⟩
    have hBang : Crosses '!' p := hp.crosses (by decide) (Path.isWords_of_isValid hValid)
    have hPath := readPath_eq_ok_iff.mpr ⟨hValid, hp⟩
    refine ⟨hBare, ?_⟩
    cases d with
    | nil =>
      rw [List.append_nil]
      refine .inl ⟨hBang.cutUnquoted_eq_none, hPath, ?_⟩
      generalize i.fallback = fallback at hd
      cases hd
      rfl
    | cons bang r =>
      obtain rfl : bang = '!' := by
        generalize i.fallback = fallback at hd
        cases hd <;> rfl
      exact .inr ⟨p, r, hBang.cutUnquoted_append r, hPath, readFallback_eq_ok_iff.mpr hd⟩

-- ---------------------------------------------------------------------------
-- Conditions
-- ---------------------------------------------------------------------------

/-- What is left behind a negation, and the blanks in between. -/
theorem exists_of_cutNegation {s e : List Char} {negated : Bool}
    (h : cutNegation s = (negated, e)) :
    ∃ b, isBlank b = true ∧ s = negationMark negated ++ (b ++ e) := by
  unfold cutNegation at h
  split at h
  · obtain ⟨rfl, rfl⟩ := Prod.mk.inj h
    obtain ⟨b, hb, hStart⟩ := exists_surround_trimStart _
    exact ⟨b, hb, congrArg (List.cons '!') hStart⟩
  · obtain ⟨rfl, rfl⟩ := Prod.mk.inj h
    exact ⟨[], rfl, rfl⟩

/-- What is left in front of a test for presence, and the blanks in between. -/
theorem exists_of_cutPresenceTest {s e : List Char} {existsOnly : Bool}
    (h : cutPresenceTest s = (existsOnly, e)) :
    ∃ a, isBlank a = true ∧ s = e ++ a ++ presenceMark existsOnly := by
  unfold cutPresenceTest at h
  split at h
  · next rest hDrop =>
    obtain ⟨rfl, rfl⟩ := Prod.mk.inj h
    obtain ⟨a, ha, hEnd⟩ := exists_surround_trimEnd rest
    exact ⟨a, ha, by rw [← hEnd, eq_append_of_dropEnding? hDrop]; rfl⟩
  · obtain ⟨rfl, rfl⟩ := Prod.mk.inj h
    exact ⟨[], rfl, by simp [presenceMark]⟩

section Marks

variable {path : Path} {p : List Char} (hp : SpellsPath path p)

include hp

/-- Blanks in front of a condition stand before its mark, or belong to the path. -/
theorem SpellsPath.exists_negation {b : List Char} (hb : isBlank b = true) (negated : Bool) :
    ∃ n p', SpellsNegation negated n ∧ SpellsPath path p' ∧
      b ++ (negationMark negated ++ p) = n ++ p' := by
  cases negated with
  | true => exact ⟨b ++ ['!'], p, .present hb, hp, by simp [negationMark]⟩
  | false => exact ⟨[], b ++ p, .absent, hp.append_left hb, rfl⟩

/-- The blanks in front of the test belong to the path, those behind it to the test. -/
theorem SpellsPath.exists_presenceTest {a : List Char} (ha : isBlank a = true)
    (existsOnly : Bool) :
    ∃ p' t, SpellsPath path p' ∧ SpellsPresenceTest existsOnly t ∧
      p ++ presenceMark existsOnly ++ a = p' ++ t := by
  cases existsOnly with
  | true => exact ⟨p, '?' :: '?' :: a, hp, .present ha, by simp [presenceMark]⟩
  | false => exact ⟨p ++ a, [], hp.append_right ha, .absent, by simp [presenceMark]⟩

end Marks

/-- **Conditions.** -/
theorem readCondition_eq_ok_iff {c : Condition} {s : List Char} :
    readCondition s = .ok c ↔ c.path.isValid = true ∧ SpellsCondition c s := by
  constructor
  · intro h
    obtain ⟨b, a, hb, ha, hSurround⟩ := exists_surround_trim s
    obtain ⟨negated, e, hNegation⟩ : ∃ negated e, cutNegation (trim s) = (negated, e) := ⟨_, _, rfl⟩
    obtain ⟨existsOnly, e', hTest⟩ : ∃ existsOnly e', cutPresenceTest e = (existsOnly, e') :=
      ⟨_, _, rfl⟩
    simp only [readCondition, hNegation, hTest] at h
    split at h
    case isTrue => simp [bind, Except.bind, throw, throwThe, MonadExceptOf.throw] at h
    case isFalse =>
      obtain ⟨⟨⟩, -, h⟩ := bind_eq_ok_iff.mp h
      obtain ⟨path, hPath, h⟩ := bind_eq_ok_iff.mp h
      obtain rfl := Except.ok.inj h
      obtain ⟨hValid, hp⟩ := readPath_eq_ok_iff.mp hPath
      obtain ⟨b', hb', hLeft⟩ := exists_of_cutNegation hNegation
      obtain ⟨a', ha', hRight⟩ := exists_of_cutPresenceTest hTest
      -- what was cut off goes back, outermost last: the blanks, the negation, and the test
      have hInner : SpellsPath path (b' ++ (e' ++ a')) := (hp.append_right ha').append_left hb'
      obtain ⟨n, p, hn, hp', hFront⟩ := hInner.exists_negation hb negated
      obtain ⟨p', t, hp'', ht, hBack⟩ := hp'.exists_presenceTest ha existsOnly
      refine ⟨hValid, n, p', t, hn, hp'', ht, ?_⟩
      calc
        s = b ++ (negationMark negated ++ (b' ++ (e' ++ a' ++ presenceMark existsOnly))) ++ a := by
            rw [← hRight, ← hLeft, ← hSurround]
        _ = b ++ (negationMark negated ++ (b' ++ (e' ++ a'))) ++ presenceMark existsOnly ++ a := by
            simp
        _ = n ++ (p ++ presenceMark existsOnly ++ a) := by rw [hFront]; simp
        _ = n ++ p' ++ t := by rw [hBack, List.append_assoc]
  · rintro ⟨hValid, hSpells⟩
    exact readCondition_of_spells hSpells hValid

-- ---------------------------------------------------------------------------
-- Tags
-- ---------------------------------------------------------------------------

/-- **Closing tags.** -/
theorem closeTag_eq_ok_iff {d d' : Draft} {inner : List Char} :
    d.closeTag inner = .ok d' ↔ SpellsTag "if" inner ∧ ∃ o outer, d.opened = o :: outer ∧
      d' = { d with opened := outer }.add o.node := by
  constructor
  · intro h
    obtain ⟨b, a, hb, ha, hSurround⟩ := exists_surround_trim inner
    simp only [Draft.closeTag] at h
    split at h
    case isTrue => simp at h
    case isFalse hWord =>
      rw [Decidable.not_not.mp hWord] at hSurround
      have hTag : SpellsTag "if" inner := ⟨b, a, hb, ha, hSurround⟩
      cases hOpened : d.opened with
      | nil => simp [hOpened] at h
      | cons o outer =>
        rw [hOpened] at h
        exact ⟨hTag, o, outer, rfl, (Except.ok.inj h).symm⟩
  · rintro ⟨hTag, o, outer, hOpened, rfl⟩
    exact closeTag_of_closing hTag hOpened

/-- Who enters a conditional has read a condition, and is not too deep. -/
theorem of_openConditional {d d' : Draft} {line : Nat} {arguments : List Char}
    (h : d.openConditional line arguments = .ok d') :
    ∃ c, readCondition arguments = .ok c ∧ d.opened.length < maxNesting ∧
      d' = { d with opened :=
        { condition := c, line, thenNodes := [], elseNodes := none } :: d.opened } := by
  simp only [Draft.openConditional] at h
  split at h
  case isTrue => simp [bind, Except.bind, throw, throwThe, MonadExceptOf.throw] at h
  case isFalse hDepth =>
    obtain ⟨c, hRead, h⟩ := bind_eq_ok_iff.mp h
    exact ⟨c, hRead, Nat.not_le.mp hDepth, (Except.ok.inj h).symm⟩

/-- Who turns is in a conditional, on the first branch. -/
theorem of_startElse {d d' : Draft} {arguments : List Char}
    (h : d.startElse arguments = .ok d') :
    arguments = [] ∧ ∃ o outer, d.opened = o :: outer ∧ o.elseNodes = none ∧
      d' = { d with opened := { o with elseNodes := some [] } :: outer } := by
  simp only [Draft.startElse] at h
  split at h
  case isTrue => simp at h
  case isFalse hEmpty =>
    refine ⟨by simpa using hEmpty, ?_⟩
    cases hOpened : d.opened with
    | nil => simp [hOpened] at h
    | cons o outer =>
      cases hElse : o.elseNodes with
      | some nodes => simp [hOpened, hElse] at h
      | none =>
        simp only [hOpened, hElse] at h
        exact ⟨o, outer, rfl, hElse, (Except.ok.inj h).symm⟩

section Arguments

variable {b a arguments : List Char} {blank : Char} (hb : isBlank b = true)
  (ha : isBlank a = true) (hBlank : isWhiteSpace blank = true)

include hb ha hBlank

/-- Blanks behind a condition belong to it. -/
theorem admitsOpening_of_readCondition {c : Condition}
    (hRead : readCondition (trim arguments) = .ok c) :
    AdmitsOpening c (b ++ (['i', 'f'] ++ blank :: arguments) ++ a) := by
  have hTrim : trim (arguments ++ a) = trim arguments := trim_surround (b := []) rfl arguments ha
  rw [← hTrim, readCondition_trim] at hRead
  obtain ⟨hValid, hSpells⟩ := readCondition_eq_ok_iff.mp hRead
  exact ⟨hValid, b, blank, arguments ++ a, hb, hBlank, hSpells, by simp⟩

/-- Arguments that are blank belong to the blanks behind the word. -/
theorem spellsTag_of_trim_eq_nil (word : String) (hEmpty : trim arguments = []) :
    SpellsTag word (b ++ (word.toList ++ blank :: arguments) ++ a) := by
  obtain ⟨b', a', hb', ha', hArguments⟩ := exists_surround_trim arguments
  rw [hEmpty, List.append_nil] at hArguments
  have hFirst : isBlank [blank] = true := by simp [isBlank, hBlank]
  have hBehind : isBlank ([blank] ++ arguments ++ a) = true := by
    rw [hArguments]
    exact isBlank_append (isBlank_append hFirst (isBlank_append hb' ha')) ha
  exact ⟨b, _, hb, hBehind, by simp⟩

end Arguments

/-- **Opening tags.** -/
theorem openTag_eq_ok_iff {d d' : Draft} {line : Nat} {inner : List Char} :
    d.openTag line inner = .ok d' ↔
      (∃ c, AdmitsOpening c inner ∧ d.opened.length < maxNesting ∧
        d' = { d with opened :=
          { condition := c, line, thenNodes := [], elseNodes := none } :: d.opened }) ∨
      (SpellsTag "else" inner ∧ ∃ o outer, d.opened = o :: outer ∧ o.elseNodes = none ∧
        d' = { d with opened := { o with elseNodes := some [] } :: outer }) := by
  constructor
  · intro h
    obtain ⟨b, a, hb, ha, hSurround⟩ := exists_surround_trim inner
    simp only [Draft.openTag] at h
    cases hSplit : splitFirst isWhiteSpace (trim inner) with
    | none =>
      simp only [hSplit] at h
      split at h
      case isTrue =>
        -- no blank behind the word, hence no condition: nothing is read from nothing
        obtain ⟨c, hRead, -⟩ := of_openConditional h
        obtain ⟨hValid, hSpells⟩ := readCondition_eq_ok_iff.mp hRead
        exact absurd (hSpells.isBlank_eq_false (Path.isWords_of_isValid hValid)) (by decide)
      case isFalse =>
        split at h
        case isFalse => simp at h
        case isTrue hWord =>
          rw [hWord] at hSurround
          exact .inr ⟨⟨b, a, hb, ha, hSurround⟩, (of_startElse h).2⟩
    | some cut =>
      obtain ⟨word, arguments⟩ := cut
      obtain ⟨blank, hBlank, hBody⟩ := eq_append_of_splitFirst hSplit
      simp only [hSplit] at h
      rw [hBody] at hSurround
      split at h
      case isTrue hWord =>
        subst hSurround hWord
        obtain ⟨c, hRead, hOpen⟩ := of_openConditional h
        exact .inl ⟨c, admitsOpening_of_readCondition hb ha hBlank hRead, hOpen⟩
      case isFalse =>
        split at h
        case isFalse => simp at h
        case isTrue hWord =>
          subst hSurround hWord
          obtain ⟨hEmpty, hElse⟩ := of_startElse h
          exact .inr ⟨spellsTag_of_trim_eq_nil hb ha hBlank "else" hEmpty, hElse⟩
  · rintro (⟨c, ⟨hValid, hSpells⟩, hDepth, rfl⟩ | ⟨hTag, o, outer, hOpened, hElse, rfl⟩)
    · exact openTag_of_opening hSpells hValid hDepth line
    · exact openTag_of_turning hTag hOpened hElse line

-- ---------------------------------------------------------------------------
-- Items
-- ---------------------------------------------------------------------------

/-- A comment is cut at its first end mark. -/
theorem cutComment_eq_some_iff {s before after : List Char} :
    cutComment s = some (before, after) ↔
      s = before ++ '-' :: '-' :: '>' :: after ∧ ¬ ['-', '-', '>'] <:+: before ++ ['-', '-'] := by
  fun_induction cutComment s generalizing before with
  | case1 => simp
  | case2 r =>
    constructor
    · intro h
      obtain ⟨rfl, rfl⟩ := by simpa using h
      exact ⟨rfl, by decide⟩
    · rintro ⟨hSplit, hFirst⟩
      -- a body that is not empty would hold this end mark, or start with a part of it
      rcases before with _ | ⟨x, _ | ⟨y, _ | ⟨z, rest⟩⟩⟩
      case nil => simpa using hSplit
      case cons.nil => simp at hSplit
      case cons.cons.nil => simp at hSplit
      case cons.cons.cons =>
        obtain ⟨rfl, rfl, rfl, -⟩ := by simpa using hSplit
        exact absurd (List.prefix_append _ _).isInfix hFirst
  | case3 c r hOther ih =>
    -- no end mark begins here, so it is looked for further on
    have hNoEnd : ¬ ['-', '-', '>'] <+: c :: r := by
      rintro ⟨rest, hRest⟩
      obtain ⟨rfl, rfl⟩ := by simpa using hRest
      exact hOther rest rfl rfl
    rw [Option.map_eq_some_iff]
    constructor
    · rintro ⟨⟨b, a⟩, hCut, hPair⟩
      obtain ⟨rfl, rfl⟩ := Prod.mk.inj hPair
      obtain ⟨rfl, hFirst⟩ := ih.mp hCut
      refine ⟨rfl, ?_⟩
      rw [List.cons_append, List.infix_cons_iff, not_or]
      refine ⟨fun hPrefix => hNoEnd (hPrefix.trans ⟨'>' :: a, by simp⟩), hFirst⟩
    · rintro ⟨hSplit, hFirst⟩
      cases before with
      | nil => exact absurd ⟨after, hSplit.symm⟩ hNoEnd
      | cons x b =>
        obtain ⟨rfl, rfl⟩ := List.cons.inj hSplit
        rw [List.cons_append, List.infix_cons_iff, not_or] at hFirst
        exact ⟨(b, after), ih.mpr ⟨rfl, hFirst.2⟩, rfl⟩

/-- The dashes that start a comment are found in its body, or in front of its end. -/
theorem dashes_prefix_iff {body rest : List Char} :
    ['-', '-'] <+: body ++ '-' :: '-' :: '>' :: rest ↔ ['-', '-'] <+: body ++ ['-', '-'] := by
  have hPart : body ++ ['-', '-'] <+: body ++ '-' :: '-' :: '>' :: rest := ⟨'>' :: rest, by simp⟩
  exact ⟨fun h => List.prefix_of_prefix_length_le h hPart (by simp), fun h => h.trans hPart⟩

namespace Lexeme

/-- A comment is cut off at its own end mark. -/
theorem cut_comment {body rest : List Char} (h : (comment body).StandsBefore rest) :
    cut ((comment body).source ++ rest) = .ok (some (comment body, rest)) := by
  obtain ⟨hDashes, hFirst⟩ := h
  obtain ⟨t, ht⟩ := dashes_prefix_iff.mpr hDashes
  have hCut : cutComment ('-' :: '-' :: t) = some (body, rest) :=
    cutComment_eq_some_iff.mpr ⟨ht, hFirst⟩
  have hSource : (comment body).source ++ rest = '<' :: '#' :: '-' :: '-' :: t := by
    simpa [source] using ht.symm
  rw [hSource, cut, hCut]

/-- A tag is cut off at the mark that its inside encloses. -/
theorem cut_opening_of_standsBefore {inner rest : List Char}
    (h : (opening inner).StandsBefore rest) :
    cut ((opening inner).source ++ rest) = .ok (some (opening inner, rest)) := by
  obtain ⟨hDashes, hEncloses⟩ := h
  have hCut := (crosses_iff.mpr hEncloses).cutUnquoted_append rest
  have hSource : (opening inner).source ++ rest = '<' :: '#' :: (inner ++ '>' :: rest) := by
    simp [source]
  have hNoComment : ∀ t, inner ++ '>' :: rest = '-' :: '-' :: t → False := by
    intro t ht
    rcases inner with _ | ⟨x, _ | ⟨y, inner⟩⟩
    case nil => simp at ht
    case cons.nil => simp at ht
    case cons.cons =>
      obtain ⟨rfl, rfl, -⟩ := by simpa using ht
      exact hDashes (List.prefix_append ['-', '-'] inner)
  rw [hSource, cut, hCut]
  exact hNoComment

theorem cut_eq_none_iff {s : List Char} : cut s = .ok none ↔ s = [] := by
  fun_cases cut s <;> simp_all

/-- **Items.** The first item of a source is the one that stands in front of the rest. -/
theorem cut_eq_some_iff {l : Lexeme} {s rest : List Char} :
    cut s = .ok (some (l, rest)) ↔ s = l.source ++ rest ∧ l.StandsBefore rest := by
  constructor
  · intro h
    refine ⟨eq_append_of_cut h, ?_⟩
    fun_cases cut s <;> simp_all [cut]
    case case2 hCut =>
      obtain ⟨rfl, rfl⟩ := h
      exact (cutUnquoted_eq_some_iff.mp hCut).2
    case case4 hCut =>
      obtain ⟨rfl, rfl⟩ := h
      obtain ⟨hSplit, hFirst⟩ := cutComment_eq_some_iff.mp hCut
      exact ⟨dashes_prefix_iff.mp ⟨_, hSplit⟩, hFirst⟩
    case case6 hCut =>
      obtain ⟨rfl, rfl⟩ := h
      exact (cutUnquoted_eq_some_iff.mp hCut).2
    case case8 hDashes hCut =>
      obtain ⟨rfl, rfl⟩ := h
      obtain ⟨rfl, hEncloses⟩ := cutUnquoted_eq_some_iff.mp hCut
      refine ⟨?_, hEncloses⟩
      rintro ⟨t, rfl⟩
      exact hDashes _ rfl
    case case10 hDollar hSlash hHash =>
      obtain ⟨rfl, rfl⟩ := h
      change opens _ = false
      rw [← Bool.not_eq_true, opens_cons_iff]
      rintro (⟨hc, t, rfl⟩ | ⟨hc, t, rfl⟩ | ⟨hc, t, rfl⟩)
      · exact hDollar t hc rfl
      · exact hHash t hc rfl
      · exact hSlash t hc rfl
  · rintro ⟨rfl, hStands⟩
    cases l with
    | char c => exact cut_char hStands
    | comment body => exact cut_comment hStands
    | interpolation inner => exact cut_interpolation (crosses_iff.mpr hStands) rest
    | closing inner => exact cut_closing (crosses_iff.mpr hStands) rest
    | opening inner => exact cut_opening_of_standsBefore hStands

end Lexeme

end RuleBlocks.Template
