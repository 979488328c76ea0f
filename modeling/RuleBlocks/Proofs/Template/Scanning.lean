import RuleBlocks.Template.Scanner
import RuleBlocks.Proofs.Template.Place

/-!
# Scanning never fails

A scanner that holds offsets can ask for a slice that does not exist: one whose ends are out of
order, or beyond the text, or within a character. It gets its offsets from searches that count from
four different places: the start of the source, the offset where it stands, the text behind an
opener, and a part that has been trimmed. A comment is even searched from its own opener on, two
characters further left than where its body starts.

Every one of these offsets is the width of some characters that stand in front of it. So every slice
is a part between two lists of characters, and slicing is cutting. Hence a step does what a reader
does who cuts off a lexeme, and goes on by the width of that lexeme. A scanner that notes offsets
where the reader notes lines reads alike, and at each offset that it notes a line can be counted.

* `Sliced.readInterpolation_eq`, `Sliced.openTag_eq` — the inside of a construct is read without
  failing;
* `Scanner.construct_eq`, `Scanner.advance_eq` — one construct, and one step;
* `answer?_eq` — a reader that counts bytes gives the answer of one that counts lines;
* `Scanner.StandsBetween`, `Scanner.StandsBetween.turn` — what turns keep up, and one turn;
* `scan_never_fails` — every turn that comes about.
-/

namespace RuleBlocks.Template

open Text

namespace Sliced

variable {α β : Type}

-- ---------------------------------------------------------------------------
-- Steps without slices
-- ---------------------------------------------------------------------------

theorem liftM_some (a : α) : (liftM (some a) : Sliced α) = ofExcept (.ok a) := rfl

theorem pure_eq (a : α) : (pure a : Sliced α) = ofExcept (.ok a) := rfl

theorem throw_eq (refusal : Refusal) : (throw refusal : Sliced α) = ofExcept (.error refusal) := rfl

theorem run_ofExcept (answer : Except Refusal α) : (ofExcept answer).run = some answer := rfl

/-- What is done behind an answer is done with it, or not at all. -/
theorem ofExcept_bind (x : Except Refusal α) (f : α → Sliced β) :
    ofExcept x >>= f = match x with
      | .ok a => f a
      | .error refusal => ofExcept (.error refusal) := by
  cases x <;> rfl

-- ---------------------------------------------------------------------------
-- Inside a construct
-- ---------------------------------------------------------------------------

/-- Trimming a text trims its characters. -/
theorem toList_trimmed (s : String) : (trimmed s).toList = trim s.toList :=
  String.toList_ofList

/-- The search for a builtin slices where the reader cuts. -/
theorem refuseBuiltins_eq (expression : String) :
    refuseBuiltins expression = ofExcept (Template.refuseBuiltins expression.toList) := by
  rw [refuseBuiltins, splitUnquoted?_eq, Template.refuseBuiltins]
  cases cutUnquoted '?' expression.toList with
  | none => rfl
  | some cut =>
    simp only [Option.map_some, liftM_some, ofExcept_bind, throw_eq, String.toList_ofList]

/-- A quote mark takes one byte. -/
theorem utf8Size_of_isQuoteMark {mark : Char} (h : isQuoteMark mark = true) :
    mark.utf8Size = 1 := by
  simp only [isQuoteMark, Bool.or_eq_true, beq_iff_eq] at h
  rcases h with rfl | rfl <;> rfl

/-- A text that starts and ends with the same mark, which are two marks. -/
theorem isQuoted_iff {s : String} :
    isQuoted s = true ↔ ∃ content, enclosed? s.toList = some content := by
  simp only [isQuoted, enclosed?_eq_some_iff, ← width_toList]
  generalize s.toList = t
  constructor
  · intro h
    obtain ⟨hSize, hMarks⟩ := Bool.and_eq_true_iff.mp h
    obtain ⟨mark, hMark, hEnds⟩ := List.any_eq_true.mp hMarks
    obtain ⟨hHead, hLast⟩ := Bool.and_eq_true_iff.mp hEnds
    rw [beq_iff_eq] at hHead hLast
    have hQuote : isQuoteMark mark = true := by
      simp only [List.mem_cons, List.not_mem_nil, or_false] at hMark
      rcases hMark with rfl | rfl <;> rfl
    obtain ⟨r, rfl⟩ : ∃ r, t = mark :: r := by
      cases t with
      | nil => simp at hHead
      | cons c r => exact ⟨r, by simpa using hHead⟩
    rcases List.eq_nil_or_concat r with rfl | ⟨content, last, rfl⟩
    · -- one mark alone takes one byte only
      simp [utf8Size_of_isQuoteMark hQuote] at hSize
    · rw [List.concat_eq_append, ← List.cons_append, List.getLast?_concat,
        Option.some.injEq] at hLast
      exact ⟨content, mark, hQuote, by rw [hLast, List.concat_eq_append]⟩
  · rintro ⟨content, mark, hMark, rfl⟩
    have hQuote : mark = '"' ∨ mark = '\'' := by simpa [isQuoteMark] using hMark
    have hLast : (mark :: (content ++ [mark])).getLast? = some mark := by
      rw [← List.cons_append, List.getLast?_concat]
    have hSize : 2 ≤ width (mark :: (content ++ [mark])) := by
      simp [utf8Size_of_isQuoteMark hMark]
      omega
    rw [hLast, decide_eq_true hSize]
    rcases hQuote with rfl | rfl <;> rfl

/-- One byte off at both ends of a quoted text leaves its content. -/
theorem slice?_enclosed {s : String} {content : List Char}
    (h : enclosed? s.toList = some content) :
    slice? s 1 (s.utf8ByteSize - 1) = some (String.ofList content) := by
  -- the marks at both ends take one byte each, so the slice stops where the content does
  obtain ⟨mark, hMark, hSplit⟩ := enclosed?_eq_some_iff.mp h
  have hSize := utf8Size_of_isQuoteMark hMark
  have hInside : s.toList = [mark] ++ (content ++ [mark]) := hSplit
  have hSlice := slice?_of_toList hInside
  have hStop : s.utf8ByteSize - 1 = 1 + width content := by
    rw [← width_toList, hSplit]
    simp [hSize, Nat.add_comm]
  rw [hStop]
  simpa [hSize] using hSlice

/-- A default is read without failing. -/
theorem readFallback_eq (default : String) :
    readFallback default = ofExcept (Template.readFallback default.toList) := by
  rw [readFallback, Template.readFallback, ← toList_trimmed]
  generalize trimmed default = t
  have hEmpty : t.toList.isEmpty = t.isEmpty := by
    rw [Bool.eq_iff_iff, List.isEmpty_iff, String.isEmpty_iff, String.toList_eq_nil_iff]
  simp only [hEmpty]
  cases hNone : t.isEmpty with
  | true => rfl
  | false =>
    cases hEnclosed : enclosed? t.toList with
    | none =>
      have hQuoted : isQuoted t = false := by
        rw [Bool.eq_false_iff, Ne, isQuoted_iff, hEnclosed]
        simp
      simp [hQuoted, throw_eq]
    | some content =>
      have hQuoted : isQuoted t = true := isQuoted_iff.mpr ⟨content, hEnclosed⟩
      simp [hQuoted, slice?_enclosed hEnclosed, liftM_some, ofExcept_bind, pure_eq]

/-- **The inside of an interpolation is read without failing**, as the reader reads it. -/
theorem readInterpolation_eq (inner : String) :
    readInterpolation inner = ofExcept (Template.readInterpolation inner.toList) := by
  rw [readInterpolation, Template.readInterpolation]
  simp only [refuseBuiltins_eq, splitUnquoted?_eq, toList_trimmed]
  cases Template.refuseBuiltins (trim inner.toList) with
  | error refusal => rfl
  | ok u =>
    cases cutUnquoted '!' (trim inner.toList) with
    | none => cases readPath (trim inner.toList) <;> rfl
    | some cut =>
      obtain ⟨path, default⟩ := cut
      simp only [Option.map_some, liftM_some, ofExcept_bind, readFallback_eq, String.toList_ofList]
      cases Template.readFallback default <;> cases readPath path <;> rfl

theorem addInterpolation_eq (d : Draft) (inner : String) :
    addInterpolation d inner = ofExcept
      ((Template.readInterpolation inner.toList).map fun i => d.add (.interpolation i)) := by
  rw [addInterpolation, readInterpolation_eq]
  cases Template.readInterpolation inner.toList <;> rfl

theorem readCondition_eq (arguments : String) :
    readCondition arguments = ofExcept (Template.readCondition arguments.toList) := by
  rw [readCondition, Template.readCondition]
  split
  · rfl
  · simp only [refuseBuiltins_eq, String.toList_ofList]
    generalize (cutPresenceTest (cutNegation (trim arguments.toList)).2).2 = expression
    cases Template.refuseBuiltins expression <;> cases readPath expression <;> rfl

/-- Entering a conditional notes the offset where the reader notes the line. -/
theorem openConditional_eq (d : Draft) (offset : Nat) (arguments : String) :
    openConditional d offset arguments = ofExcept (d.openConditional offset arguments.toList) := by
  rw [openConditional, Draft.openConditional]
  split
  · rfl
  · rw [readCondition_eq]
    cases Template.readCondition arguments.toList <;> rfl

/-- A tag is read without failing slices if the line where it starts can be counted. -/
theorem openTag_eq {source : String} {offset line : Nat} (hLine : lineAt? source offset = some line)
    (d : Draft) (inner : String) :
    openTag source d offset inner = ofExcept (d.openTag offset inner.toList) := by
  have hDirective (directive arguments : List Char) :
      (if directive = ['i', 'f'] then openConditional d offset (String.ofList arguments)
        else if directive = ['e', 'l', 's', 'e'] then do
          let _line ← (lineAt? source offset : Option Nat)
          ofExcept (d.startElse arguments)
        else throw (.directive (String.ofList directive))) =
      ofExcept (if directive = ['i', 'f'] then d.openConditional offset arguments
        else if directive = ['e', 'l', 's', 'e'] then d.startElse arguments
        else .error (.directive (String.ofList directive))) := by
    split
    · rw [openConditional_eq, String.toList_ofList]
    · split
      · rw [hLine]
        rfl
      · rfl
  rw [openTag, Draft.openTag]
  cases splitFirst isWhiteSpace (trim inner.toList) <;> exact hDirective _ _

/-- The search for the end of a construct starts behind its opener. -/
theorem closing_eq {rest : String} {opener r : List Char} (h : rest.toList = opener ++ r)
    (close : Char) (missing : SyntaxFault) :
    closing rest (width opener) close missing =
      ofExcept (match cutUnquoted close r with
        | some (inner, _) => .ok (width opener + width inner)
        | none => .error (.fault missing)) := by
  rw [closing, slice?_to_end h, liftM_some, ofExcept_bind]
  simp only [String.toList_ofList, findFrom_eq]
  rw [cutUnquoted]
  cases cutFrom close .outside r with
  | none => rfl
  | some cut => simp only [Option.map_some, Nat.zero_add, pure_eq]

end Sliced

-- ---------------------------------------------------------------------------
-- What stands at an offset
-- ---------------------------------------------------------------------------

/-- Searching for the end of a comment is cutting it off. -/
theorem findText_eq (offset : Nat) (s : List Char) :
    findText ['-', '-', '>'] offset s = (cutComment s).map fun cut => offset + width cut.1 := by
  -- the two searches go on alike: the offset grows by what is passed
  fun_induction cutComment s generalizing offset with
  | case1 => rfl
  | case2 r => simp [findText]
  | case3 c r hOther ih =>
    have hPrefix : ¬ ['-', '-', '>'].isPrefixOf (c :: r) := by
      intro hPrefix
      obtain ⟨after, hSplit⟩ := List.isPrefixOf_iff_prefix.mp hPrefix
      obtain ⟨rfl, rfl⟩ := List.cons.inj hSplit
      exact hOther after rfl rfl
    rw [findText, if_neg hPrefix, ih, Option.map_map]
    congr 1
    funext cut
    simp [Nat.add_assoc]

def Lexeme.width (l : Lexeme) : Nat :=
  Text.width l.source

namespace Scanner

/-- The scanner behind a lexeme, with the draft that it leaves. -/
def behind (s : Scanner) (l : Lexeme) (d : Draft) : Scanner :=
  { pos := s.pos + l.width, draft := d }

/-- No lexeme is empty, so a step goes on. -/
theorem pos_lt_behind (s : Scanner) (l : Lexeme) (d : Draft) : s.pos < (s.behind l d).pos := by
  refine Nat.lt_add_of_pos_right ?_
  obtain ⟨c, r, hSource⟩ := List.exists_cons_of_ne_nil l.source_ne_nil
  rw [Lexeme.width, hSource, width_cons]
  exact Nat.add_pos_left c.utf8Size_pos _

/-- What a reader of lexemes makes of the lexeme that was cut off, if any. -/
def follow (s : Scanner) : Except SyntaxFault (Option (Lexeme × List Char)) → Except Refusal Scanner
  | .error what => .error (.fault what)
  | .ok none => .ok s
  | .ok (some (l, _)) => (s.draft.feed s.pos l).map (s.behind l)

variable {source : String} {s : Scanner} {first : Char} {rest : String} {r : List Char}

/-- **One construct.** Its end is looked for behind its opener, and its inside is what stands
between the two. The end mark takes one byte. -/
theorem construct_eq (opener : List Char) {close : Char} {missing : SyntaxFault}
    {lexeme : List Char → Lexeme} {read : String → Sliced Draft}
    (hRest : rest.toList = opener ++ r)
    (hCut : Lexeme.cut rest.toList =
      (cutUnquoted close r).elim (.error missing) fun cut => .ok (some (lexeme cut.1, cut.2)))
    (hSource : ∀ inner, (lexeme inner).source = opener ++ (inner ++ [close]))
    (hClose : close.utf8Size = 1)
    (hRead : ∀ inner, read inner = Sliced.ofExcept (s.draft.feed s.pos (lexeme inner.toList))) :
    s.construct rest (width opener) close missing read =
      Sliced.ofExcept (s.follow (Lexeme.cut rest.toList)) := by
  rw [construct, Sliced.closing_eq hRest, hCut, Sliced.ofExcept_bind]
  cases hInner : cutUnquoted close r with
  | none => rfl
  | some cut =>
    obtain ⟨inner, after⟩ := cut
    have hInside : rest.toList = opener ++ (inner ++ close :: after) := by
      rw [hRest, eq_append_of_cutUnquoted hInner]
    -- the opener, the inside and the closing mark make up the lexeme that was cut off
    have hBehind (d : Draft) : s.behind (lexeme inner) d =
        { pos := s.pos + (width opener + width inner) + 1, draft := d } := by
      rw [behind, Lexeme.width, hSource]
      simp [hClose, Nat.add_assoc]
    simp only [slice?_of_toList hInside, Sliced.liftM_some, Sliced.ofExcept_bind, hRead,
      String.toList_ofList, Option.elim_some, follow]
    cases s.draft.feed s.pos (lexeme inner) with
    | error refusal => rfl
    | ok d =>
      simp only [Except.map, hBehind]
      rfl

/-- A step that meets an interpolation. -/
theorem advance_interpolation (hRest : rest.toList = '$' :: '{' :: r) :
    s.advance source first rest = Sliced.ofExcept (s.follow (Lexeme.cut rest.toList)) := by
  have hOpens : ['$', '{'].isPrefixOf rest.toList := by rw [hRest]; rfl
  have hCut : Lexeme.cut rest.toList =
      (cutUnquoted '}' r).elim (.error .unterminatedInterpolation) fun cut =>
        .ok (some (.interpolation cut.1, cut.2)) := by
    rw [hRest, Lexeme.cut]
    cases cutUnquoted '}' r <;> rfl
  rw [advance, if_pos hOpens]
  exact construct_eq ['$', '{'] hRest hCut (fun _ => rfl) rfl fun inner =>
    Sliced.addInterpolation_eq s.draft.flush inner

/-- No end mark starts in the first two characters of a comment, so a search from there on finds
what a search behind them finds. -/
theorem cutComment_opener (r : List Char) :
    cutComment ('<' :: '#' :: r) = (cutComment r).map fun cut => ('<' :: '#' :: cut.1, cut.2) := by
  simp [cutComment, Function.comp_def]

/-- A step that meets a comment: the search starts at the opener itself. -/
theorem advance_comment (hRest : rest.toList = '<' :: '#' :: '-' :: '-' :: r) :
    s.advance source first rest = Sliced.ofExcept (s.follow (Lexeme.cut rest.toList)) := by
  have hOther : ¬ ['$', '{'].isPrefixOf rest.toList := by rw [hRest]; simp
  have hOpens : ['<', '#', '-', '-'].isPrefixOf rest.toList := by rw [hRest]; rfl
  rw [advance, if_neg hOther, if_pos hOpens, findText_eq, hRest, cutComment_opener, Lexeme.cut]
  cases cutComment ('-' :: '-' :: r) with
  | none => rfl
  | some cut =>
    -- three bytes for the end mark: with the two of the opener the whole lexeme is passed
    have hStop : s.pos + (0 + width ('<' :: '#' :: cut.1)) + 3 =
        s.pos + (Lexeme.comment cut.1).width := by
      rw [Nat.zero_add, Nat.add_assoc, Lexeme.width, Lexeme.source, ← List.cons_append,
        ← List.cons_append, width_append]
      rfl
    simp only [Option.map_some, hStop]
    rfl

/-- A step that meets a closing tag. -/
theorem advance_closing (hRest : rest.toList = '<' :: '/' :: '#' :: r) :
    s.advance source first rest = Sliced.ofExcept (s.follow (Lexeme.cut rest.toList)) := by
  have hOther : ¬ ['$', '{'].isPrefixOf rest.toList := by rw [hRest]; simp
  have hComment : ¬ ['<', '#', '-', '-'].isPrefixOf rest.toList := by rw [hRest]; simp
  have hOpens : ['<', '/', '#'].isPrefixOf rest.toList := by rw [hRest]; rfl
  have hCut : Lexeme.cut rest.toList =
      (cutUnquoted '>' r).elim (.error .unterminatedClosing) fun cut =>
        .ok (some (.closing cut.1, cut.2)) := by
    rw [hRest, Lexeme.cut]
    cases cutUnquoted '>' r <;> rfl
  rw [advance, if_neg hOther, if_neg hComment, if_pos hOpens]
  exact construct_eq ['<', '/', '#'] hRest hCut (fun _ => rfl) rfl fun _ => rfl

/-- A step that meets an opening or a turning tag. -/
theorem advance_opening {line : Nat} (hLine : lineAt? source s.pos = some line)
    (hRest : rest.toList = '<' :: '#' :: r) (hDashes : ¬ ['-', '-'] <+: r) :
    s.advance source first rest = Sliced.ofExcept (s.follow (Lexeme.cut rest.toList)) := by
  have hOther : ¬ ['$', '{'].isPrefixOf rest.toList := by rw [hRest]; simp
  have hComment : ¬ ['<', '#', '-', '-'].isPrefixOf rest.toList := by
    rwa [hRest, List.isPrefixOf_iff_prefix, List.prefix_cons_inj, List.prefix_cons_inj]
  have hClosing : ¬ ['<', '/', '#'].isPrefixOf rest.toList := by rw [hRest]; simp
  have hOpens : ['<', '#'].isPrefixOf rest.toList := by rw [hRest]; rfl
  have hCut : Lexeme.cut rest.toList =
      (cutUnquoted '>' r).elim (.error .unterminatedDirective) fun cut =>
        .ok (some (.opening cut.1, cut.2)) := by
    rw [hRest, Lexeme.cut]
    · cases cutUnquoted '>' r <;> rfl
    · rintro t rfl
      exact hDashes (List.prefix_append ['-', '-'] t)
  rw [advance, if_neg hOther, if_neg hComment, if_neg hClosing, if_pos hOpens]
  exact construct_eq ['<', '#'] hRest hCut (fun _ => rfl) rfl fun inner =>
    Sliced.openTag_eq hLine s.draft.flush inner

/-- A step that meets neither. -/
theorem advance_char (hRest : rest.toList = first :: r) (hText : opens rest.toList = false) :
    s.advance source first rest = Sliced.ofExcept (s.follow (Lexeme.cut rest.toList)) := by
  have hCut : Lexeme.cut rest.toList = .ok (some (.char first, r)) := by
    rw [hRest] at hText ⊢
    exact Lexeme.cut_char hText
  simp only [opens, Bool.or_eq_false_iff] at hText
  simp only [Bool.eq_false_iff] at hText
  -- no opener of a tag means no opener of a comment: the former begins the latter
  obtain ⟨⟨hInterpolation, hOpening⟩, hClosing⟩ := hText
  have hComment : ¬ ['<', '#', '-', '-'].isPrefixOf rest.toList := by
    rw [Ne, List.isPrefixOf_iff_prefix] at hOpening
    rw [List.isPrefixOf_iff_prefix]
    exact fun hPrefix => hOpening ((List.prefix_append ['<', '#'] ['-', '-']).trans hPrefix)
  rw [advance, if_neg hInterpolation, if_neg hComment, if_neg hClosing, if_neg hOpening, hCut]
  rfl

/-- **One step.** Where the line of its offset can be counted, the scanner asks for no slice that
does not exist, and does what a reader does who cuts the rest into lexemes. -/
theorem advance_eq {line : Nat} (hLine : lineAt? source s.pos = some line)
    (hRest : rest.toList = first :: r) :
    s.advance source first rest = Sliced.ofExcept (s.follow (Lexeme.cut rest.toList)) := by
  cases hOpens : opens rest.toList with
  | false => exact advance_char hRest hOpens
  | true =>
    rw [hRest, opens_cons_iff] at hOpens
    rcases hOpens with ⟨rfl, t, rfl⟩ | ⟨rfl, t, rfl⟩ | ⟨rfl, t, rfl⟩
    case inl => exact advance_interpolation hRest
    case inr.inr => exact advance_closing hRest
    case inr.inl =>
      by_cases hDashes : ['-', '-'] <+: t
      · obtain ⟨body, rfl⟩ := hDashes
        exact advance_comment hRest
      · exact advance_opening hLine hRest hDashes

end Scanner

-- ---------------------------------------------------------------------------
-- Counting bytes
-- ---------------------------------------------------------------------------

theorem lineAt?_of_toList {source : String} {before rest : List Char}
    (h : source.toList = before ++ rest) :
    lineAt? source (width before) = some (before.count '\n' + 1) := by
  rw [lineAt?, slice?_from_start h, Option.map_some, String.toList_ofList]

/-- A line can be counted at every offset at which characters end. -/
theorem lineAt?_width_take (source : String) (n : Nat) :
    lineAt? source (width (source.toList.take n)) = some (lineAt source.toList n) := by
  rw [lineAt?_of_toList (List.take_append_drop n source.toList).symm, lineAt, Nat.add_comm]

/-- A refusal at such an offset has a line, and is reported with it. -/
theorem at?_width_take (name source : String) (n : Nat) (refusal : Refusal) :
    refusal.at? name source (width (source.toList.take n)) =
      some (refusal.toError name (lineAt source.toList n)) := by
  cases refusal with
  | fault what => rw [Refusal.at?, lineAt?_width_take]; rfl
  | directive word => rfl
  | builtin word => rfl

/-- Counting bytes keeps step with counting characters. -/
theorem follows_width (source : List Char) :
    Follows (fun n => width (source.take n)) Lexeme.width 0 source := by
  rintro before l after rfl
  have hTo : before.length + l.source.length = (before ++ l.source).length := by simp
  simp only [Nat.zero_add, Lexeme.length, hTo]
  rw [List.take_left, ← List.append_assoc, List.take_left, width_append, Lexeme.width]

/-- A reader that counts bytes reads what one reads that counts characters. -/
theorem readMeasured_width (source : List Char) :
    readMeasured Lexeme.width .blank 0 source =
      (readMeasured Lexeme.length .blank 0 source).mapError
        (Prod.map (fun n => width (source.take n)) id) := by
  rw [← readMeasured_map .blank (follows_width source)]
  rfl

/-- The answer to a reader that has counted bytes. -/
def answer? (name source : String) :
    Except (Nat × Refusal) (List Node) → Option (Except TemplateError (List Node))
  | .ok nodes => some (.ok nodes)
  | .error place => (place.2.at? name source place.1).map .error

theorem answer?_finish (name source : String) (d : Draft) :
    answer? name source d.finish = d.finish? name source := by
  rw [Draft.finish, Draft.finish?]
  cases d.opened <;> rfl

/-- **A reader that counts bytes gives the answer of one that counts lines.** -/
theorem answer?_eq (name source : String) :
    answer? name source (readMeasured Lexeme.width .blank 0 source.toList) =
      some (parse name source) := by
  rw [readMeasured_width]
  cases hRead : readMeasured Lexeme.length .blank 0 source.toList with
  | ok nodes => rw [parse_eq_ok_iff_measured.mpr hRead]; rfl
  | error place =>
    obtain ⟨offset, refusal⟩ := place
    have hError : parse name source =
        .error (refusal.toError name (lineAt source.toList offset)) :=
      parse_eq_error_iff_failsAt.mpr ⟨offset, refusal, hRead, rfl⟩
    rw [hError]
    exact congrArg (Option.map Except.error) (at?_width_take name source offset refusal)

-- ---------------------------------------------------------------------------
-- Turns
-- ---------------------------------------------------------------------------

namespace Scanner

/-- The scanner stands between two parts of its source, with a draft from which the second part
reads as the whole source does from the start. -/
structure StandsBetween (source : String) (before rest : List Char) (s : Scanner) : Prop where
  split : source.toList = before ++ rest
  pos_eq : s.pos = width before
  reads : readMeasured Lexeme.width s.draft s.pos rest =
    readMeasured Lexeme.width .blank 0 source.toList

variable {name source : String} {s : Scanner} {before rest : List Char}

/-- A turn is a step, with the answer if the step is refused. -/
theorem turn?_of_cons (name : String) {first : Char} {r : List Char} {line : Nat}
    (hSlice : slice? source s.pos source.utf8ByteSize = some (String.ofList (first :: r)))
    (hLine : lineAt? source s.pos = some line) :
    s.turn? name source = match s.follow (Lexeme.cut (first :: r)) with
      | .ok next => some (.again next)
      | .error refusal => (answer? name source (.error (s.pos, refusal))).map .ended := by
  have hRest : (String.ofList (first :: r)).toList = first :: r := String.toList_ofList
  have hAdvance := advance_eq hLine hRest
  rw [hRest] at hAdvance
  rw [turn?, hSlice]
  simp only [Option.bind_eq_bind, Option.bind_some, hRest, hAdvance, Sliced.run_ofExcept]
  cases s.follow (Lexeme.cut (first :: r)) with
  | ok next => rfl
  | error refusal =>
    simp only [answer?, Option.map_map]
    cases refusal.at? name source s.pos <;> rfl

namespace StandsBetween

theorem start (source : String) : Scanner.start.StandsBetween source [] source.toList :=
  ⟨rfl, rfl, rfl⟩

theorem pos_le (h : s.StandsBetween source before rest) : s.pos ≤ source.utf8ByteSize := by
  rw [h.pos_eq, ← width_toList, h.split, width_append]
  exact Nat.le_add_right _ _

/-- A step leaves the lexeme behind, and the rest still reads alike. -/
theorem behind (h : s.StandsBetween source before rest) {l : Lexeme} {after : List Char}
    {d : Draft} (hCut : Lexeme.cut rest = .ok (some (l, after)))
    (hFeed : s.draft.feed s.pos l = .ok d) :
    (s.behind l d).StandsBetween source (before ++ l.source) after where
  split := by rw [h.split, Lexeme.eq_append_of_cut hCut, List.append_assoc]
  pos_eq := by rw [width_append, ← h.pos_eq]; rfl
  reads := by rw [← h.reads, readMeasured_of_cut hCut, hFeed]; rfl

/-- **One turn** gives the answer of the reader, or goes on behind a lexeme. -/
theorem turn (h : s.StandsBetween source before rest) (name : String) :
    s.turn? name source = some (.ended (parse name source)) ∨
      ∃ l after d, s.turn? name source = some (.again (s.behind l d)) ∧
        rest = l.source ++ after ∧
        (s.behind l d).StandsBetween source (before ++ l.source) after := by
  have hSlice : slice? source s.pos source.utf8ByteSize = some (String.ofList rest) := by
    rw [h.pos_eq]
    exact slice?_to_end h.split
  have hEnded (hTurn : s.turn? name source =
      (answer? name source (readMeasured Lexeme.width s.draft s.pos rest)).map .ended) :
      s.turn? name source = some (.ended (parse name source)) := by
    rw [hTurn, h.reads, answer?_eq]
    rfl
  cases rest with
  | nil =>
    refine .inl (hEnded ?_)
    -- nothing is left: the draft is finished, or a tag is still open
    rw [readMeasured_nil, answer?_finish, turn?, hSlice]
    cases s.draft.finish? name source <;> rfl
  | cons first r =>
    have hLine : lineAt? source s.pos = some (before.count '\n' + 1) := by
      rw [h.pos_eq]
      exact lineAt?_of_toList h.split
    have hTurn := turn?_of_cons name hSlice hLine
    cases hCut : Lexeme.cut (first :: r) with
    | error what =>
      refine .inl (hEnded ?_)
      rw [hTurn, hCut, readMeasured_of_cut_error hCut]
      rfl
    | ok cut =>
      cases cut with
      -- something is left, so a lexeme is cut off or refused
      | none => exact absurd (Lexeme.cut_eq_none_iff.mp hCut) (List.cons_ne_nil first r)
      | some pair =>
        obtain ⟨l, after⟩ := pair
        cases hFeed : s.draft.feed s.pos l with
        | error refusal =>
          refine .inl (hEnded ?_)
          rw [hTurn, hCut, readMeasured_of_cut hCut, follow, hFeed]
          rfl
        | ok d =>
          refine .inr ⟨l, after, d, ?_, Lexeme.eq_append_of_cut hCut, h.behind hCut hFeed⟩
          rw [hTurn, hCut, follow, hFeed]
          rfl

end StandsBetween

-- ---------------------------------------------------------------------------
-- The scan
-- ---------------------------------------------------------------------------

/-- Every state that comes about stands between what it has read and what it has not. -/
theorem Reached.standsBetween (h : Reached name source s) :
    ∃ before rest, s.StandsBetween source before rest := by
  induction h with
  | start => exact ⟨[], source.toList, .start source⟩
  | @turn s next hReached hTurn ih =>
    obtain ⟨before, rest, hStands⟩ := ih
    rcases hStands.turn name with hEnded | ⟨l, after, d, hAgain, -, hBehind⟩
    · simp [hEnded] at hTurn
    -- the turn goes on, so the next state is the one behind the lexeme
    · obtain rfl : s.behind l d = next := by simpa [hAgain] using hTurn
      exact ⟨before ++ l.source, after, hBehind⟩

/-- The rest gets shorter with every turn, so there is a last one. -/
theorem exists_ended {s : Scanner} {before rest : List Char} (hReached : Reached name source s)
    (hStands : s.StandsBetween source before rest) :
    ∃ last, Reached name source last ∧
      last.turn? name source = some (.ended (parse name source)) := by
  rcases hStands.turn name with hEnded | ⟨l, after, d, hAgain, hSplit, hBehind⟩
  · exact ⟨s, hReached, hEnded⟩
  · have hShorter : after.length < rest.length := by
      have hLength := List.length_pos_iff.mpr l.source_ne_nil
      rw [hSplit, List.length_append]
      omega
    exact exists_ended (hReached.turn hAgain) hBehind
termination_by rest.length

end Scanner

/-- **The scan never fails, and it ends.** Whatever a source holds, no turn that comes about asks
for a slice that does not exist; a turn that goes on moves forward, and not past the end of the
source; and the only answer, which comes in the end, is the one that the source is parsed to. -/
theorem scan_never_fails (name source : String) :
    (∀ s, Scanner.Reached name source s →
      (∃ turn, s.turn? name source = some turn) ∧
      (∀ next, s.turn? name source = some (.again next) →
        s.pos < next.pos ∧ next.pos ≤ source.utf8ByteSize) ∧
      ∀ answer, s.turn? name source = some (.ended answer) → answer = parse name source) ∧
    ∃ s, Scanner.Reached name source s ∧
      s.turn? name source = some (.ended (parse name source)) := by
  refine ⟨fun s hReached => ?_, Scanner.exists_ended .start (.start source)⟩
  obtain ⟨before, rest, hStands⟩ := hReached.standsBetween
  rcases hStands.turn name with hEnded | ⟨l, after, d, hAgain, -, hBehind⟩
  · rw [hEnded]
    refine ⟨⟨_, rfl⟩, ?_, ?_⟩
    · intro next hNext
      simp at hNext
    · intro answer hAnswer
      simpa using hAnswer.symm
  · rw [hAgain]
    refine ⟨⟨_, rfl⟩, ?_, ?_⟩
    · intro next hNext
      obtain rfl : s.behind l d = next := by simpa using hNext
      exact ⟨Scanner.pos_lt_behind s l d, hBehind.pos_le⟩
    · intro answer hAnswer
      simp at hAnswer

end RuleBlocks.Template
