import RuleBlocks.Proofs.Template.Place

/-!
# Comments are invisible

A comment that is put between two items of a source changes nothing: not the tree, in which texts on
its two sides are still one node, and not the error, whose place moves by the comment if it lies
behind it.

The reader looks for the end of a comment from its opener on. So the last two dashes of `<#--` can
serve as the first two of `-->`, and a body that starts with `>` or `->` is text, for the comment
has ended before it. Every other body without an end mark in it is passed over as a whole.

* `MeetBetweenItems` — two texts that meet where a reader has done with one item;
* `standsBefore_comment` — which bodies are passed over;
* `readMeasured_insert` — what is passed over between two items moves the place of an error;
* `comments_are_invisible` — **comments are invisible**;
* `comment_ends_in_its_opener` — but not if the body starts with the rest of an end mark.
-/

namespace RuleBlocks.Template

open Text

-- ---------------------------------------------------------------------------
-- Between two items
-- ---------------------------------------------------------------------------

/-- A reader of both texts has done with one item where the first text ends, and starts with the
next one there, unless it has refused the source before. -/
def MeetBetweenItems (p q : List Char) : Prop :=
  ∃ items, p = items.flatMap Lexeme.source ∧ Scans items q

/-- Where no construct starts none starts when less text follows. -/
theorem opens_of_append {c : Char} {r t : List Char} (h : opens (c :: (r ++ t)) = false) :
    opens (c :: r) = false := by
  have hLonger {s : List Char} (hs : s <+: r) : s <+: r ++ t := hs.trans (List.prefix_append r t)
  rw [← Bool.not_eq_true, opens_cons_iff] at h ⊢
  rintro (⟨hc, hStart⟩ | ⟨hc, hStart⟩ | ⟨hc, hStart⟩)
  · exact h (.inl ⟨hc, hLonger hStart⟩)
  · exact h (.inr (.inl ⟨hc, hLonger hStart⟩))
  · exact h (.inr (.inr ⟨hc, hLonger hStart⟩))

/-- Items in front of a text stay what they are without it. -/
theorem Scans.alone {items : List Lexeme} {rest : List Char} (h : Scans items rest) :
    Scans items [] := by
  induction items with
  | nil => trivial
  | cons l ls ih =>
    refine ⟨?_, ih h.2⟩
    rw [List.append_nil]
    cases l with
    | char c => exact opens_of_append h.1
    | _ => exact h.1

/-- A tag or comment never makes up an opener with what stands before it. -/
theorem not_straddles_tag (s t : List Char) : ¬ Straddles s ('<' :: t) := by
  simp [Straddles]

/-- So a comment may stand wherever two items meet. -/
theorem Scans.before_comment {items : List Lexeme} {rest : List Char} (h : Scans items rest)
    (body more : List Char) : Scans items ((Lexeme.comment body).source ++ more) :=
  h.alone.behind (not_straddles_tag _ _)

-- ---------------------------------------------------------------------------
-- Bodies
-- ---------------------------------------------------------------------------

/-- An end mark that stands in front of two dashes has none of them in it. -/
theorem infix_of_infix_append_dashes {body : List Char}
    (h : ['-', '-', '>'] <:+: body ++ ['-', '-']) : ['-', '-', '>'] <:+: body := by
  have hLast {s : List Char} (h : ['-', '-', '>'] <:+: s ++ ['-']) : ['-', '-', '>'] <:+: s := by
    refine (List.infix_concat_iff.mp h).resolve_left ?_
    rintro ⟨t, ht⟩
    have hEnd := congrArg List.getLast? ht
    simp at hEnd
  refine hLast (hLast ?_)
  rwa [List.append_assoc]

/-- A body is passed over if it has no end mark in it, and does not complete the one that the opener
has started. -/
theorem standsBefore_comment {body : List Char} (hBody : ¬ ['-', '-', '>'] <:+: body)
    (hStart : ¬ ['>'] <+: body ∧ ¬ ['-', '>'] <+: body) (rest : List Char) :
    (Lexeme.comment ('-' :: '-' :: body)).StandsBefore rest := by
  refine ⟨List.prefix_append ['-', '-'] _, ?_⟩
  rw [List.cons_append, List.cons_append, List.infix_cons_iff, List.infix_cons_iff, not_or, not_or]
  -- an end mark could begin with a dash of the opener, or stand in the body: neither happens
  refine ⟨?_, ?_, fun hInside => hBody (infix_of_infix_append_dashes hInside)⟩
  · rw [List.cons_prefix_cons, List.cons_prefix_cons]
    rintro ⟨-, -, hMark⟩
    cases body with
    | nil => simp at hMark
    | cons c r => exact hStart.1 (by simpa using hMark)
  · rw [List.cons_prefix_cons]
    rintro ⟨-, hMark⟩
    rcases body with _ | ⟨c, _ | ⟨d, r⟩⟩
    case nil => simp at hMark
    case cons.nil => simp at hMark
    case cons.cons => exact hStart.2 (by simpa using hMark)

-- ---------------------------------------------------------------------------
-- What is passed over
-- ---------------------------------------------------------------------------

/-- Where a place is after so many characters were put in at another. -/
def movedPlace (start count offset : Nat) : Nat :=
  if start ≤ offset then offset + count else offset

/-- What stands behind the comment is moved by its length, what stands in front is not. -/
theorem follows_movedPlace (start count : Nat) (s : List Char) :
    Follows (movedPlace start count) Lexeme.length start s := by
  intro before l after _
  rw [movedPlace, movedPlace, if_pos (by omega), if_pos (by omega)]
  omega

/-- Numbers that stay the same do so when an item is fed that starts at one of them. -/
theorem Draft.mapLines_of_feed {f : Nat → Nat} {d d' : Draft} {n : Nat} {l : Lexeme}
    (hDraft : d.mapLines f = d) (hHere : f n = n) (h : d.feed n l = .ok d') :
    d'.mapLines f = d' := by
  have hFeed := d.feed_mapLines f n l
  rw [hDraft, hHere, h] at hFeed
  exact (Except.ok.inj hFeed).symm

/-- **Putting in.** What a reader passes over between two items only moves the place of an error.
The induction is on the items before it; all conditionals that are open by then start before it. -/
theorem readMeasured_insert {items : List Lexeme} {added rest : List Char} {start : Nat}
    (hScans : Scans items rest) (hAdded : Scans items (added ++ rest))
    (hSkip : ∀ d n, readMeasured Lexeme.length d n (added ++ rest) =
      readMeasured Lexeme.length d (n + added.length) rest)
    {d : Draft} {n : Nat} (hStart : n + (items.flatMap Lexeme.source).length = start)
    (hDraft : d.mapLines (movedPlace start added.length) = d) :
    readMeasured Lexeme.length d n (items.flatMap Lexeme.source ++ (added ++ rest)) =
      (readMeasured Lexeme.length d n (items.flatMap Lexeme.source ++ rest)).mapError
        (Prod.map (movedPlace start added.length) id) := by
  -- one item after the other up to the comment, where both readers meet the same rest
  induction items generalizing d n with
  | nil =>
    -- here the comment is skipped, and everything behind it is moved
    have hHere : movedPlace n added.length n = n + added.length := if_pos (Nat.le_refl n)
    obtain rfl : n = start := hStart
    rw [List.flatMap_nil, List.nil_append, List.nil_append, hSkip,
      ← readMeasured_map d (follows_movedPlace n added.length rest), hDraft, hHere]
  | cons l ls ih =>
    have hLength := List.length_pos_iff.mpr l.source_ne_nil
    rw [List.flatMap_cons, List.length_append] at hStart
    have hBefore : movedPlace start added.length n = n := if_neg (by omega)
    have hCut := Lexeme.cut_eq_some_iff.mpr ⟨rfl, hScans.1⟩
    have hCutAdded := Lexeme.cut_eq_some_iff.mpr ⟨rfl, hAdded.1⟩
    rw [List.flatMap_cons, List.append_assoc, List.append_assoc, readMeasured_of_cut hCut,
      readMeasured_of_cut hCutAdded]
    cases hFeed : d.feed n l with
    | error refusal => simp [Except.mapError, hBefore]
    | ok next =>
      exact ih hScans.2 hAdded.2 (by rw [← hStart, Lexeme.length]; omega)
        (Draft.mapLines_of_feed hDraft hBefore hFeed)

/-- Lines count the line ends of what was put in, behind it. -/
theorem lineAt_movedPlace (p added q : List Char) (offset : Nat) :
    lineAt (p ++ (added ++ q)) (movedPlace p.length added.length offset) =
      lineAt (p ++ q) offset + if p.length ≤ offset then added.count '\n' else 0 := by
  rw [movedPlace, lineAt, lineAt]
  split
  case isTrue hBehind =>
    -- behind the comment all its lines are counted, and the ones in front as before
    obtain ⟨more, rfl⟩ := Nat.exists_eq_add_of_le hBehind
    rw [Nat.add_assoc, List.take_length_add_append, List.take_length_add_append, Nat.add_comm more,
      List.take_length_add_append]
    simp only [List.count_append]
    omega
  case isFalse hBefore =>
    rw [List.take_append_of_le_length (by omega), List.take_append_of_le_length (by omega)]
    rfl

-- ---------------------------------------------------------------------------
-- Comments
-- ---------------------------------------------------------------------------

section Comment

variable {p q body : List Char} (hMeet : MeetBetweenItems p q)
  (hComment : (Lexeme.comment body).StandsBefore q)

include hMeet hComment

/-- **A comment changes nothing but the places behind it.** -/
theorem readMeasured_comment :
    readMeasured Lexeme.length .blank 0 (p ++ ((Lexeme.comment body).source ++ q)) =
      (readMeasured Lexeme.length .blank 0 (p ++ q)).mapError
        (Prod.map (movedPlace p.length (Lexeme.comment body).source.length) id) := by
  obtain ⟨items, rfl, hScans⟩ := hMeet
  refine readMeasured_insert hScans (hScans.before_comment body q) (fun d n => ?_)
    (Nat.zero_add _) rfl
  rw [readMeasured_of_cut (Lexeme.cut_eq_some_iff.mpr ⟨rfl, hComment⟩)]
  rfl

/-- So a refusal stays the same, and is moved with what it is about. -/
theorem failsAt_comment {offset : Nat} {refusal : Refusal} (h : FailsAt (p ++ q) offset refusal) :
    FailsAt (p ++ ((Lexeme.comment body).source ++ q))
      (movedPlace p.length (Lexeme.comment body).source.length offset) refusal := by
  rw [FailsAt, readMeasured_comment hMeet hComment, h]
  rfl

end Comment

/-- The text of a comment is that of the item, whose body has the dashes of the opener in it. -/
theorem toList_comment (body : String) :
    ("<#--" ++ body ++ "-->").toList = (Lexeme.comment ('-' :: '-' :: body.toList)).source := by
  rw [String.toList_append, String.toList_append]
  rfl

/--
**Comments are invisible.** Wherever a reader of a source stands between two items, a comment can be
put in whose body has no end mark and does not start with the rest of one, `>` or `->`. The source
is a template if it was one before, and has the same tree. Otherwise it has the same error, where
the line of a syntax error moves by the line ends of the comment if what is at fault starts behind
it.
-/
theorem comments_are_invisible (name : String) {p q body : String}
    (hMeet : MeetBetweenItems p.toList q.toList) (hBody : ¬ ['-', '-', '>'] <:+: body.toList)
    (hStart : ¬ ['>'] <+: body.toList ∧ ¬ ['-', '>'] <+: body.toList) :
    let commented := p ++ ("<#--" ++ body ++ "-->") ++ q
    (∀ nodes, parse name commented = .ok nodes ↔ parse name (p ++ q) = .ok nodes) ∧
    (∀ line what, parse name (p ++ q) = .error (.malformed name line what) →
      ∃ offset, FailsAt (p ++ q).toList offset (.fault what) ∧
        line = lineAt (p ++ q).toList offset ∧
        parse name commented = .error (.malformed name
          (line + if p.length ≤ offset then body.toList.count '\n' else 0) what)) ∧
    (∀ e, parse name (p ++ q) = .error e → (∀ line what, e ≠ .malformed name line what) →
      parse name commented = .error e) := by
  intro commented
  have hComment := standsBefore_comment hBody hStart q.toList
  have hPlain : (p ++ q).toList = p.toList ++ q.toList := String.toList_append
  have hCommented : commented.toList =
      p.toList ++ ((Lexeme.comment ('-' :: '-' :: body.toList)).source ++ q.toList) := by
    rw [String.toList_append, String.toList_append, toList_comment, List.append_assoc]
  have hLines : (Lexeme.comment ('-' :: '-' :: body.toList)).source.count '\n' =
      body.toList.count '\n' := by
    simp [Lexeme.source, List.count_append]
  have hFails (offset : Nat) (refusal : Refusal) (h : FailsAt (p ++ q).toList offset refusal) :
      parse name commented = .error (refusal.toError name (lineAt (p ++ q).toList offset +
        if p.length ≤ offset then body.toList.count '\n' else 0)) := by
    rw [hPlain] at h ⊢
    have hMoved := failsAt_comment hMeet hComment h
    rw [← hCommented] at hMoved
    refine parse_eq_error_iff_failsAt.mpr ⟨_, refusal, hMoved, ?_⟩
    rw [hCommented, lineAt_movedPlace, hLines]
    rfl
  refine ⟨fun nodes => ?_, fun line what h => ?_, fun e h hOther => ?_⟩
  · rw [parse_eq_ok_iff_measured, parse_eq_ok_iff_measured, hPlain, hCommented,
      readMeasured_comment hMeet hComment]
    cases readMeasured Lexeme.length .blank 0 (p.toList ++ q.toList) <;> simp [Except.mapError]
  · obtain ⟨offset, refusal, hRefused, hError⟩ := parse_eq_error_iff_failsAt.mp h
    cases refusal with
    | fault what' =>
      obtain ⟨-, rfl, rfl⟩ := TemplateError.malformed.inj hError
      exact ⟨offset, hRefused, rfl, hFails offset _ hRefused⟩
    | directive directive => cases hError
    | builtin builtin => cases hError
  · obtain ⟨offset, refusal, hRefused, rfl⟩ := parse_eq_error_iff_failsAt.mp h
    rw [hFails offset refusal hRefused]
    cases refusal with
    | fault what => exact absurd rfl (hOther _ what)
    | directive directive => rfl
    | builtin builtin => rfl

/-- A body that looks like other constructs, between the two halves of a text; in front of a tag
that is at fault; and in a conditional that is never closed, which is at fault where it starts. -/
theorem comments_are_invisible_lines :
    let body := "-- $\x7b<#if \n\""
    (MeetBetweenItems "a".toList "b".toList ∧
      parse "note" ("a" ++ ("<#--" ++ body ++ "-->") ++ "b") = .ok [.text "ab"]) ∧
    (MeetBetweenItems "\n".toList "</#if>".toList ∧
      parse "note" ("\n" ++ ("<#--" ++ body ++ "-->") ++ "</#if>") =
        .error (.malformed "note" 3 .unmatchedClosing)) ∧
    MeetBetweenItems "<#if a>".toList "b".toList ∧
      parse "note" ("<#if a>" ++ ("<#--" ++ body ++ "-->") ++ "b") =
        .error (.malformed "note" 1 .neverClosed) := by
  intro body
  have hBody : ¬ ['-', '-', '>'] <:+: body.toList := by decide +kernel
  have hStart : ¬ ['>'] <+: body.toList ∧ ¬ ['-', '>'] <+: body.toList := by decide
  have hText : MeetBetweenItems "a".toList "b".toList := ⟨[.char 'a'], rfl, rfl, trivial⟩
  have hTag : MeetBetweenItems "\n".toList "</#if>".toList := ⟨[.char '\n'], rfl, rfl, trivial⟩
  have hOpen : MeetBetweenItems "<#if a>".toList "b".toList := by
    have hCut : cutUnquoted '>' "if a>".toList = some ("if a".toList, []) := by decide
    exact ⟨[.opening "if a".toList], rfl, ⟨by decide, (cutUnquoted_eq_some_iff.mp hCut).2⟩, trivial⟩
  refine ⟨⟨hText, ?_⟩, ⟨hTag, ?_⟩, hOpen, ?_⟩
  · have hPlain : parse "note" ("a" ++ "b") = .ok [.text "ab"] := by
      rw [show "a" ++ "b" = "ab" by decide]
      with_unfolding_all rfl
    exact ((comments_are_invisible "note" hText hBody hStart).1 _).mpr hPlain
  · have hAt : FailsAt ("\n" ++ "</#if>").toList 1 (.fault .unmatchedClosing) := by
      rw [show "\n" ++ "</#if>" = "\n</#if>" by decide]
      with_unfolding_all rfl
    have hPlain : parse "note" ("\n" ++ "</#if>") =
        .error (.malformed "note" 2 .unmatchedClosing) :=
      parse_eq_error_iff_failsAt.mpr ⟨1, _, hAt, rfl⟩
    obtain ⟨offset, hFails, -, hCommented⟩ :=
      (comments_are_invisible "note" hTag hBody hStart).2.1 _ _ hPlain
    obtain rfl : offset = 1 := (Prod.mk.inj (Except.error.inj (hFails.symm.trans hAt))).1
    rwa [if_pos (by decide), show body.toList.count '\n' = 1 by decide] at hCommented
  · have hAt : FailsAt ("<#if a>" ++ "b").toList 0 (.fault .neverClosed) := by
      rw [show "<#if a>" ++ "b" = "<#if a>b" by decide]
      with_unfolding_all rfl
    have hPlain : parse "note" ("<#if a>" ++ "b") = .error (.malformed "note" 1 .neverClosed) :=
      parse_eq_error_iff_failsAt.mpr ⟨0, _, hAt, rfl⟩
    obtain ⟨offset, hFails, -, hCommented⟩ :=
      (comments_are_invisible "note" hOpen hBody hStart).2.1 _ _ hPlain
    obtain rfl : offset = 0 := (Prod.mk.inj (Except.error.inj (hFails.symm.trans hAt))).1
    exact hCommented

/-- The dashes of an opener serve as the first of the end mark, so what was to be the body is text.
-/
theorem comment_ends_in_its_opener :
    MeetBetweenItems "a".toList "b".toList ∧ ¬ ['-', '-', '>'] <:+: ">x".toList ∧
      parse "note" ("a" ++ "b") = .ok [.text "ab"] ∧
      parse "note" ("a" ++ ("<#--" ++ ">x" ++ "-->") ++ "b") = .ok [.text "ax-->b"] := by
  rw [show "a" ++ "b" = "ab" by decide,
    show "a" ++ ("<#--" ++ ">x" ++ "-->") ++ "b" = "a<#-->x-->b" by decide]
  refine ⟨⟨[.char 'a'], rfl, rfl, trivial⟩, by decide, ?_, ?_⟩
  · with_unfolding_all rfl
  · with_unfolding_all rfl

end RuleBlocks.Template
