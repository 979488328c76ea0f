import RuleBlocks.Proofs.Template.Place

/-!
# Defaults

The default of an interpolation is to be one string literal. Three readers look at its quotes. The
one that finds the brace behind the interpolation and the one that finds the `!` in front of the
default both leave off outside quotes, so a default that gets through to the third closes all quotes
that it opens. The third takes the quotes off, and looks at the first and the last character only.
If these are the same mark, then either they belong together and the default is one literal, or the
mark ends a literal at the start of the default and begins another one at its end.

* `IsContent`, `IsLiteral`, `JoinsLiterals` — one literal, and text between two of them;
* `isLiteral_or_joinsLiterals` — which texts between two equal marks close all quotes;
* `HasDefault`, `exists_content_of_default`, `readInterpolation_of_default` — which defaults are
  taken, for what, and which are refused;
* `Assembles.interpolations` — the interpolations of a tree are those of its source, in order;
* `default_is_literal` — **defaults are literals**, or begin with one and end with another;
* `joined_literals_are_a_default` — and such a default is taken for one literal.
-/

namespace RuleBlocks.Text

-- ---------------------------------------------------------------------------
-- Literals
-- ---------------------------------------------------------------------------

/-- What can stand between the marks of a literal: a backslash takes the next character with it, and
no other character is the mark. -/
inductive IsContent (mark : Char) : List Char → Prop
  | nil : IsContent mark []
  | plain {c : Char} {s : List Char} (hSlash : c ≠ '\\') (hMark : c ≠ mark)
      (hRest : IsContent mark s) : IsContent mark (c :: s)
  | escaped (c : Char) {s : List Char} (hRest : IsContent mark s) : IsContent mark ('\\' :: c :: s)

/-- The text is one literal with that content. -/
def IsLiteral (content s : List Char) : Prop :=
  ∃ mark, isQuoteMark mark = true ∧ IsContent mark content ∧ s = mark :: (content ++ [mark])

/-- The text begins with one literal and ends with another one of the same mark, and all quotes in
between are closed. The content is what stands between the outermost marks. -/
def JoinsLiterals (content s : List Char) : Prop :=
  ∃ mark first between last, isQuoteMark mark = true ∧ IsContent mark first ∧
    quotingAfter between = .outside ∧ IsContent mark last ∧
    content = first ++ mark :: (between ++ mark :: last) ∧ s = mark :: (content ++ [mark])

section Literals

variable {mark : Char} {s : List Char}

/-- Where a reader ends inside quotes, it has started there and read content, or the last mark that
it has met outside quotes has content behind it. -/
theorem content_of_foldl_next {q : Quoting} (h : s.foldl Quoting.next q = .inside mark) :
    (q = .inside mark ∧ IsContent mark s) ∨
      (q = .escaping mark ∧ ∃ c t, s = c :: t ∧ IsContent mark t) ∨
        ∃ before last, s = before ++ mark :: last ∧ before.foldl Quoting.next q = .outside ∧
          IsContent mark last := by
  induction s generalizing q with
  | nil => exact .inl ⟨h, .nil⟩
  | cons c r ih =>
    -- what the rest says of the state behind this character tells which character it is
    obtain ⟨hNext, hRest⟩ | ⟨hNext, d, t, rfl, hRest⟩ | ⟨before, last, rfl, hBefore, hLast⟩ := ih h
    · cases q with
      | outside =>
        obtain rfl : c = mark := by
          rw [Quoting.next] at hNext
          split at hNext
          · exact Quoting.inside.inj hNext
          · simp at hNext
        exact .inr (.inr ⟨[], r, rfl, rfl, hRest⟩)
      | inside m =>
        simp only [Quoting.next] at hNext
        split at hNext
        case isTrue => simp at hNext
        case isFalse hSlash =>
          split at hNext
          case isTrue => simp at hNext
          case isFalse hMark =>
            obtain rfl := Quoting.inside.inj hNext
            exact .inl ⟨rfl, .plain hSlash hMark hRest⟩
      | escaping m =>
        obtain rfl := Quoting.inside.inj hNext
        exact .inr (.inl ⟨rfl, c, r, rfl, hRest⟩)
    · cases q with
      | outside =>
        rw [Quoting.next] at hNext
        split at hNext <;> simp at hNext
      | inside m =>
        simp only [Quoting.next] at hNext
        split at hNext
        case isTrue hSlash =>
          obtain rfl := Quoting.escaping.inj hNext
          obtain rfl := hSlash
          exact .inl ⟨rfl, .escaped d hRest⟩
        case isFalse => split at hNext <;> simp at hNext
      | escaping m => simp [Quoting.next] at hNext
    · exact .inr (.inr ⟨c :: before, last, rfl, hBefore, hLast⟩)

/-- Where a reader that has started inside quotes, or just after a backslash, ends outside of them,
it has met the mark behind content. -/
theorem content_before_mark :
    (s.foldl Quoting.next (.inside mark) = .outside →
      ∃ first rest, s = first ++ mark :: rest ∧ IsContent mark first ∧
        quotingAfter rest = .outside) ∧
    (s.foldl Quoting.next (.escaping mark) = .outside →
      ∃ c first rest, s = c :: (first ++ mark :: rest) ∧ IsContent mark first ∧
        quotingAfter rest = .outside) := by
  induction s with
  | nil => exact ⟨fun h => by simp at h, fun h => by simp at h⟩
  | cons c r ih =>
    -- a backslash leads from the first case to the second, any character behind it back
    refine ⟨fun h => ?_, fun h => ?_⟩
    · rw [List.foldl_cons] at h
      by_cases hSlash : c = '\\'
      · subst hSlash
        obtain ⟨d, first, rest, rfl, hFirst, hRest⟩ := ih.2 h
        exact ⟨'\\' :: d :: first, rest, rfl, .escaped d hFirst, hRest⟩
      · by_cases hMark : c = mark
        · subst hMark
          rw [Quoting.next, if_neg hSlash, if_pos rfl] at h
          exact ⟨[], r, rfl, .nil, h⟩
        · rw [Quoting.next, if_neg hSlash, if_neg hMark] at h
          obtain ⟨first, rest, rfl, hFirst, hRest⟩ := ih.1 h
          exact ⟨c :: first, rest, rfl, .plain hSlash hMark hFirst, hRest⟩
    · obtain ⟨first, rest, rfl, hFirst, hRest⟩ := ih.1 h
      exact ⟨c, first, rest, rfl, hFirst, hRest⟩

/-- A mark after which a reader stands outside quotes was the end of some. -/
theorem eq_inside_of_next_mark (hMark : isQuoteMark mark = true) {q : Quoting}
    (h : q.next mark = .outside) : q = .inside mark := by
  cases q with
  | outside => simp [Quoting.next, hMark] at h
  | inside m =>
    simp only [Quoting.next] at h
    split at h
    case isTrue => simp at h
    case isFalse =>
      split at h
      case isTrue hSame => rw [hSame]
      case isFalse => simp at h
  | escaping m => simp [Quoting.next] at h

/-- **Between two equal marks.** A text that closes all quotes and stands between two equal marks is
one literal, or there is one at each of its ends. -/
theorem isLiteral_or_joinsLiterals {content : List Char} (hMark : isQuoteMark mark = true)
    (h : quotingAfter (mark :: (content ++ [mark])) = .outside) :
    IsLiteral content (mark :: (content ++ [mark])) ∨
      JoinsLiterals content (mark :: (content ++ [mark])) := by
  have hOpen : Quoting.next .outside mark = .inside mark := by simp [Quoting.next, hMark]
  rw [quotingAfter, List.foldl_cons, hOpen, List.foldl_append] at h
  have hInside : content.foldl Quoting.next (.inside mark) = .inside mark :=
    eq_inside_of_next_mark hMark h
  obtain ⟨-, hContent⟩ | ⟨hEscaping, -⟩ | ⟨before, last, rfl, hBefore, hLast⟩ :=
    content_of_foldl_next hInside
  · exact .inl ⟨mark, hMark, hContent, rfl⟩
  · simp at hEscaping
  -- the quote was closed in between: one literal, what follows it, and another one
  · obtain ⟨first, between, rfl, hFirst, hBetween⟩ := content_before_mark.1 hBefore
    exact .inr ⟨mark, first, between, last, hMark, hFirst, hBetween, hLast, by simp, rfl⟩

end Literals

-- ---------------------------------------------------------------------------
-- Blanks behind a text
-- ---------------------------------------------------------------------------

/-- The quotes that the reader is inside of, if any, are quotes. -/
def Quoting.HasQuoteMark : Quoting → Prop
  | outside => True
  | inside mark => isQuoteMark mark = true
  | escaping mark => isQuoteMark mark = true

/-- Only a quote mark opens a literal. -/
theorem Quoting.HasQuoteMark.next {q : Quoting} (h : q.HasQuoteMark) (c : Char) :
    (q.next c).HasQuoteMark := by
  cases q with
  | outside =>
    by_cases hMark : isQuoteMark c = true
    · simp [Quoting.next, hMark, HasQuoteMark]
    · simp [Quoting.next, hMark, HasQuoteMark]
  | inside mark =>
    rw [Quoting.next]
    split
    · exact h
    · split
      · trivial
      · exact h
  | escaping mark => exact h

/-- So whatever is open at the end was opened by one. -/
theorem hasQuoteMark_quotingAfter (s : List Char) : (quotingAfter s).HasQuoteMark := by
  rw [quotingAfter]
  exact List.foldlRecOn s Quoting.next trivial fun _ h c _ => h.next c

/-- Blanks close no quotes. -/
theorem outside_of_foldl_blank {a : List Char} (ha : isBlank a = true) {q : Quoting}
    (hq : q.HasQuoteMark) (h : a.foldl Quoting.next q = .outside) : q = .outside := by
  induction a generalizing q with
  | nil => exact h
  | cons c r ih =>
    rw [isBlank, List.all_cons, Bool.and_eq_true] at ha
    have hNext := ih ha.2 (hq.next c) h
    cases q with
    | outside => rfl
    | inside mark =>
      -- a blank is no quote mark, so it closes nothing
      have hMark : c ≠ mark := by
        rintro rfl
        simp only [Quoting.HasQuoteMark, isQuoteMark, Bool.or_eq_true, beq_iff_eq] at hq
        rcases hq with rfl | rfl <;> exact absurd ha.1 (by decide)
      simp only [Quoting.next, if_neg hMark] at hNext
      split at hNext <;> simp at hNext
    | escaping mark => simp [Quoting.next] at hNext

/-- A text closes its quotes without the blanks around it if it does so with them. -/
theorem quotingAfter_trim {s : List Char} (h : quotingAfter s = .outside) :
    quotingAfter (trim s) = .outside := by
  obtain ⟨b, a, hb, ha, hSurround⟩ := exists_surround_trim s
  rw [hSurround, quotingAfter, List.append_assoc, List.foldl_append, ← quotingAfter,
    quotingAfter_of_isBlank hb, List.foldl_append, ← quotingAfter] at h
  exact outside_of_foldl_blank ha (hasQuoteMark_quotingAfter _) h

end RuleBlocks.Text

namespace RuleBlocks.Template

open Text

-- ---------------------------------------------------------------------------
-- Defaults
-- ---------------------------------------------------------------------------

/-- The default of an interpolation: the text after the first `!` outside quotes, without the blanks
around it. An interpolation that calls a built-in is refused before anybody asks for a default. -/
def HasDefault (inner default : List Char) : Prop :=
  ¬ StandsUnquoted '?' inner ∧
    ∃ path rest, inner = path ++ '!' :: rest ∧ Encloses '!' path ∧ default = trim rest

section Default

variable {inner default : List Char}

/-- A default in front of a brace that is outside quotes closes all quotes that it opens. -/
theorem HasDefault.quotingAfter (h : HasDefault inner default) (hInner : Encloses '\x7d' inner) :
    quotingAfter default = .outside := by
  obtain ⟨-, path, rest, rfl, hPath, rfl⟩ := h
  have hRest := hInner.1
  rw [Text.quotingAfter, List.foldl_append, ← Text.quotingAfter, hPath.1] at hRest
  exact quotingAfter_trim hRest

/-- A default that is not empty and is taken is one literal, or begins with one and ends with
another; it stands for what is between its two ends. -/
theorem exists_content_of_default {i : Interpolation} (h : HasDefault inner default)
    (hInner : Encloses '\x7d' inner) (hNonempty : default ≠ [])
    (hRead : readInterpolation inner = .ok i) :
    ∃ content, (IsLiteral content default ∨ JoinsLiterals content default) ∧
      i.fallback = .literal (String.ofList (unescape content)) := by
  have hQuoting := h.quotingAfter hInner
  obtain ⟨-, path, rest, hSplit, hPath, rfl⟩ := h
  have hCut : cutUnquoted '!' inner = some (path, rest) :=
    cutUnquoted_eq_some_iff.mpr ⟨hSplit, hPath⟩
  obtain ⟨-, ⟨hNone, -⟩ | ⟨p, r, hSome, -, hFallback⟩⟩ := readInterpolation_eq_ok_iff_cut.mp hRead
  · simp [hCut] at hNone
  · obtain ⟨rfl, rfl⟩ := Prod.mk.inj (Option.some.inj (hCut.symm.trans hSome))
    simp only [readFallback] at hFallback
    split at hFallback
    case isTrue hEmpty => exact absurd (List.isEmpty_iff.mp hEmpty) hNonempty
    case isFalse =>
      cases hEnclosed : enclosed? (trim rest) with
      | none => simp [hEnclosed] at hFallback
      | some content =>
        obtain ⟨mark, hMark, hLiteral⟩ := enclosed?_eq_some_iff.mp hEnclosed
        rw [hEnclosed] at hFallback
        rw [hLiteral] at hQuoting ⊢
        exact ⟨content, isLiteral_or_joinsLiterals hMark hQuoting, (Except.ok.inj hFallback).symm⟩

/-- Any other default is refused, whatever the path is. -/
theorem readInterpolation_of_default (h : HasDefault inner default) (hInner : Encloses '\x7d' inner)
    (hNonempty : default ≠ [])
    (hOther : ∀ content, ¬ IsLiteral content default ∧ ¬ JoinsLiterals content default) :
    readInterpolation inner = .error (.fault (.notALiteral (String.ofList default))) := by
  have hQuoting := h.quotingAfter hInner
  have hEnclosed : enclosed? default = none := by
    rw [Option.eq_none_iff_forall_not_mem]
    intro content hContent
    obtain ⟨mark, hMark, rfl⟩ := enclosed?_eq_some_iff.mp hContent
    rcases isLiteral_or_joinsLiterals hMark hQuoting with hOne | hTwo
    · exact (hOther content).1 hOne
    · exact (hOther content).2 hTwo
  obtain ⟨hBare, path, rest, hSplit, hPath, rfl⟩ := h
  -- the reader trims first, which leaves the blanks of the default aside
  obtain ⟨b, a, hb, ha, hSurround⟩ := exists_surround_trim inner
  have hCut := cutUnquoted_eq_some_iff.mpr ⟨hSplit, hPath⟩
  rw [hSurround, cutUnquoted_surround (by decide) hb ha] at hCut
  obtain ⟨⟨p, r⟩, hInside, hPair⟩ := Option.map_eq_some_iff.mp hCut
  obtain ⟨-, rfl⟩ := Prod.mk.inj hPair
  have hTrim : trim (r ++ a) = trim r := by
    rw [← List.nil_append (r ++ a), ← List.append_assoc, trim_surround rfl r ha]
  have hNoBuiltin : refuseBuiltins (trim inner) = .ok () := by
    rw [refuseBuiltins_eq_ok_iff, ← standsUnquoted_surround (by decide) hb ha, ← hSurround]
    exact hBare
  rw [hTrim] at hEnclosed hNonempty ⊢
  have hFallback : readFallback r = .error (.fault (.notALiteral (String.ofList (trim r)))) := by
    simp [readFallback, hEnclosed, hNonempty]
  rw [readInterpolation, hNoBuiltin, hInside]
  simp [bind, Except.bind, hFallback]

end Default

-- ---------------------------------------------------------------------------
-- The interpolations of a source
-- ---------------------------------------------------------------------------

/-- The inside of an item that is an interpolation. -/
def Lexeme.interpolated? : Lexeme → Option (List Char)
  | interpolation inner => some inner
  | _ => none

mutual

/-- The interpolations of a node, on all branches, from left to right. -/
def Node.interpolations : Node → List Interpolation
  | .text _ => []
  | .interpolation i => [i]
  | .conditional _ thenNodes elseNodes =>
    Node.interpolationsOfList thenNodes ++ Node.interpolationsOfList elseNodes

def Node.interpolationsOfList : List Node → List Interpolation
  | [] => []
  | n :: rest => n.interpolations ++ Node.interpolationsOfList rest

end

theorem interpolationsOfList_prependChar (c : Char) (nodes : List Node) :
    Node.interpolationsOfList (prependChar c nodes) = Node.interpolationsOfList nodes := by
  cases nodes with
  | nil => rfl
  | cons n rest => cases n <;> rfl

/-- **The interpolations of a tree** are read from those of its source, in their order. -/
theorem Assembles.interpolations {opened : Nat} {items : List Lexeme} {nodes : List Node}
    (h : Assembles opened items nodes) :
    List.Forall₂ (fun inner i => readInterpolation inner = .ok i)
      (items.filterMap Lexeme.interpolated?) (Node.interpolationsOfList nodes) := by
  induction h with
  | nil => exact .nil
  | char _ ih => rwa [interpolationsOfList_prependChar]
  | comment _ ih => exact ih
  | interpolation hInner _ ih => exact .cons (readInterpolation_eq_ok_iff.mpr hInner) ih
  | conditional _ _ _ _ _ ihThen ih =>
    have hBoth := List.rel_append ihThen ih
    simpa [Lexeme.interpolated?, Node.interpolationsOfList, Node.interpolations,
      List.filterMap_cons] using hBoth
  | branching _ _ _ _ _ _ _ ihThen ihElse ih =>
    have hAll := List.rel_append ihThen (List.rel_append ihElse ih)
    simpa [Lexeme.interpolated?, Node.interpolationsOfList, Node.interpolations,
      List.filterMap_cons] using hAll

/-- What is inside an interpolation that was scanned can stand in front of its brace. -/
theorem Scans.encloses {items : List Lexeme} {rest : List Char} (h : Scans items rest) :
    ∀ inner ∈ items.filterMap Lexeme.interpolated?, Encloses '\x7d' inner := by
  induction items with
  | nil => simp
  | cons l ls ih =>
    cases l with
    | interpolation inner => exact List.forall_mem_cons.mpr ⟨h.1, ih h.2⟩
    | _ => exact ih h.2

-- ---------------------------------------------------------------------------
-- Defaults are literals
-- ---------------------------------------------------------------------------

/--
**Defaults are literals.** The interpolations of a tree are those of its source, one by one. If one
has a default that is not empty then the whole default is one literal, or it begins with a literal
and ends with another one of the same mark, and what is rendered in the place of a missing variable
is the text between its ends, unescaped. Where a reader comes to an interpolation with any other
default that is not empty, the source has a syntax error on its line, which quotes the default.
-/
theorem default_is_literal (name source : String) :
    (∀ nodes, parse name source = .ok nodes →
      ∃ items, source.toList = items.flatMap Lexeme.source ∧ Scans items [] ∧
        List.Forall₂
          (fun inner i => ∀ default, HasDefault inner default → default ≠ [] →
            ∃ content, (IsLiteral content default ∨ JoinsLiterals content default) ∧
              i.fallback = .literal (String.ofList (unescape content)))
          (items.filterMap Lexeme.interpolated?) (Node.interpolationsOfList nodes)) ∧
    (∀ before inner rest d default,
      source.toList =
        before.flatMap Lexeme.source ++ ((Lexeme.interpolation inner).source ++ rest) →
      Scans before ((Lexeme.interpolation inner).source ++ rest) → Encloses '\x7d' inner →
      Draft.blank.feedAll 1 before = .ok d → HasDefault inner default → default ≠ [] →
      (∀ content, ¬ IsLiteral content default ∧ ¬ JoinsLiterals content default) →
      parse name source =
        .error (.malformed name (lineAt source.toList (before.flatMap Lexeme.source).length)
          (.notALiteral (String.ofList default)))) := by
  refine ⟨fun nodes hParse => ?_, ?_⟩
  · obtain ⟨items, hSource, hScans, hAssembles⟩ :=
      readFrom_blank_eq_ok_iff.mp (parse_eq_ok_iff.mp hParse)
    refine ⟨items, hSource, hScans, ?_⟩
    have hBoth := (List.forall₂_and_left _ _).mpr ⟨hScans.encloses, hAssembles.interpolations⟩
    exact hBoth.imp fun inner i ⟨hInner, hRead⟩ default hDefault hNonempty =>
      exists_content_of_default hDefault hInner hNonempty hRead
  · intro before inner rest d default hSource hScans hInner hFed hDefault hNonempty hOther
    have hRefused := readInterpolation_of_default hDefault hInner hNonempty hOther
    refine parse_eq_error_iff.mpr ⟨_, .fault (.notALiteral (String.ofList default)), ?_, rfl⟩
    rw [hSource, lineAt, List.take_left]
    obtain ⟨e, hError, -⟩ | ⟨d', hOk, hRead⟩ := readFrom_of_scans hScans .blank 1
    · simp [hFed] at hError
    · rw [hRead]
      refine readFrom_cut_error (Lexeme.cut_interpolation (crosses_iff.mpr hInner) rest) ?_
      rw [Draft.feed, hRefused]
      rfl

/-- A default with its own mark escaped in it is one literal. One that does not end with a quote
mark is refused, on the second line. -/
theorem default_is_literal_escaped :
    (parse "note" "$\x7ba!'\\'?'\x7d" =
        .ok [.interpolation { path := ["a"], fallback := .literal "'?" }] ∧
      HasDefault "a!'\\'?'".toList "'\\'?'".toList ∧
      ∃ content, (IsLiteral content "'\\'?'".toList ∨ JoinsLiterals content "'\\'?'".toList) ∧
        Fallback.literal "'?" = .literal (String.ofList (unescape content))) ∧
    parse "note" "\n$\x7ba! \"x\" + y \x7d" =
      .error (.malformed "note" 2 (.notALiteral "\"x\" + y")) := by
  constructor
  · have hParse : parse "note" "$\x7ba!'\\'?'\x7d" =
        .ok [.interpolation { path := ["a"], fallback := .literal "'?" }] := by
      with_unfolding_all rfl
    have hPath : cutUnquoted '!' "a!'\\'?'".toList = some (['a'], "'\\'?'".toList) := by decide
    have hDefault : HasDefault "a!'\\'?'".toList "'\\'?'".toList :=
      ⟨cutUnquoted_eq_none_iff.mp (by decide), _, _, rfl, (cutUnquoted_eq_some_iff.mp hPath).2, rfl⟩
    refine ⟨hParse, hDefault, ?_⟩
    have hCut : cutUnquoted '\x7d' "a!'\\'?'\x7d".toList = some ("a!'\\'?'".toList, []) := by decide
    have hOnly : Scans [.interpolation "a!'\\'?'".toList] [] :=
      ⟨(cutUnquoted_eq_some_iff.mp hCut).2, trivial⟩
    obtain ⟨items, hSource, hScans, hAll⟩ := (default_is_literal "note" _).1 _ hParse
    obtain rfl := hOnly.unique hScans hSource
    cases hAll with
    | cons hOne _ => exact hOne _ hDefault (by decide)
  · have hPath : cutUnquoted '!' "a! \"x\" + y ".toList = some (['a'], " \"x\" + y ".toList) := by
      decide
    have hCut : cutUnquoted '\x7d' "a! \"x\" + y \x7d".toList =
        some ("a! \"x\" + y ".toList, []) := by
      decide
    have hDefault : HasDefault "a! \"x\" + y ".toList "\"x\" + y".toList :=
      ⟨cutUnquoted_eq_none_iff.mp (by decide), _, _, rfl, (cutUnquoted_eq_some_iff.mp hPath).2,
        by decide⟩
    have hEnds (mark : Char) (content : List Char) :
        "\"x\" + y".toList ≠ mark :: (content ++ [mark]) := by
      intro hSplit
      obtain ⟨rfl, hInside⟩ := List.cons.inj hSplit
      have hLast := congrArg List.getLast? hInside
      rw [List.getLast?_concat] at hLast
      exact absurd hLast (by decide)
    refine (default_is_literal "note" _).2 [.char '\n'] _ [] _ _ (by decide) ⟨rfl, trivial⟩
      (cutUnquoted_eq_some_iff.mp hCut).2 rfl hDefault (by decide) fun content => ⟨?_, ?_⟩
    · rintro ⟨mark, -, -, hSplit⟩
      exact hEnds mark content hSplit
    · rintro ⟨mark, _, _, _, -, -, -, -, -, hSplit⟩
      exact hEnds mark content hSplit

/-- Two literals joined by an operator are taken for one, with their inner marks in its content. -/
theorem joined_literals_are_a_default :
    parse "note" "$\x7ba!\"x\" + \"y\"\x7d" =
        .ok [.interpolation { path := ["a"], fallback := .literal "x\" + \"y" }] ∧
      HasDefault "a!\"x\" + \"y\"".toList "\"x\" + \"y\"".toList ∧
      ∀ content, ¬ IsLiteral content "\"x\" + \"y\"".toList := by
  have hPath : cutUnquoted '!' "a!\"x\" + \"y\"".toList = some (['a'], "\"x\" + \"y\"".toList) := by
    decide
  refine ⟨by with_unfolding_all rfl, ?_, ?_⟩
  · exact ⟨cutUnquoted_eq_none_iff.mp (by decide), _, _, rfl, (cutUnquoted_eq_some_iff.mp hPath).2,
      by decide⟩
  · rintro content ⟨mark, -, hContent, hSplit⟩
    obtain ⟨rfl, hInside⟩ := List.cons.inj hSplit
    obtain rfl : "x\" + \"y".toList = content := List.append_cancel_right hInside
    cases hContent with
    | plain _ _ hRest =>
      cases hRest with
      | plain _ hMark _ => exact hMark rfl

end RuleBlocks.Template
