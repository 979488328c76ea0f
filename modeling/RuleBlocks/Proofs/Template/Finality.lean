import RuleBlocks.Proofs.Template.Comments

/-!
# Rejections are final

A source that ends too early may be mended by more text: a construct can still be ended, and a
conditional closed. Any other error is there to stay. It is about one item of the source that stands
there in full, and which item that is cannot change behind it: what ends an interpolation, a comment
or a tag is the first mark that can, and a character in front of the item was not the start of an
opener, since the first character of the item does not continue one.

So a reader of the longer source comes by the same items, holds the same draft on the same line when
it gets to the one that is at fault, and refuses it for the same reason.

* `SyntaxFault.awaitsMore`, `TemplateError.isFinal` — the errors that more text may undo, and the
  others;
* `Scans.before_item` — items in front of a construct stay what they are;
* `exists_refused_item` — a final error is about an item, in front of which everything is in order;
* `rejection_is_final` — **no continuation undoes or changes such an error**.
-/

namespace RuleBlocks

namespace Template

-- ---------------------------------------------------------------------------
-- Errors that more text may undo
-- ---------------------------------------------------------------------------

/-- The faults of a source that has ended before something in it has. -/
def SyntaxFault.awaitsMore : SyntaxFault → Bool
  | unterminatedInterpolation => true
  | unterminatedComment => true
  | unterminatedClosing => true
  | unterminatedDirective => true
  | neverClosed => true
  | _ => false

def Refusal.isFinal : Refusal → Bool
  | fault what => !what.awaitsMore
  | directive _ => true
  | builtin _ => true

end Template

open Template in
/-- The errors that are not those of a source that has ended too early. -/
def TemplateError.isFinal : TemplateError → Bool
  | malformed _ _ fault => !fault.awaitsMore
  | _ => true

namespace Template

/-- Whether a refusal is final does not depend on the place or the name. -/
theorem Refusal.isFinal_toError (name : String) (line : Nat) (refusal : Refusal) :
    (refusal.toError name line).isFinal = refusal.isFinal := by
  cases refusal <;> rfl

/-- What cannot be cut has not ended. -/
theorem awaitsMore_of_cut_error {s : List Char} {what : SyntaxFault}
    (h : Lexeme.cut s = .error what) : what.awaitsMore = true := by
  fun_cases Lexeme.cut s <;> simp_all [Lexeme.cut]
  all_goals subst h; rfl

/-- The end of a source is only at fault for a conditional that is open there. -/
theorem not_isFinal_of_finish {d : Draft} {n : Nat} {refusal : Refusal}
    (h : d.finish = .error (n, refusal)) : refusal.isFinal = false := by
  rw [Draft.finish] at h
  split at h
  · obtain ⟨-, rfl⟩ := Prod.mk.inj (Except.error.inj h)
    rfl
  · simp at h

-- ---------------------------------------------------------------------------
-- Items in front of a construct
-- ---------------------------------------------------------------------------

/-- Nothing straddles a seam behind which a text ends. -/
theorem not_straddles_of_endsText {t : List Char} (h : EndsText t) (s : List Char) :
    ¬ Straddles s t := by
  cases t with
  | nil => simp [Straddles]
  | cons c r => rcases h c rfl with rfl | rfl <;> simp [Straddles]

section Item

variable {l : Lexeme} (hl : ∀ c, l ≠ .char c)

include hl

/-- Items in front of some text stay what they are in front of a construct. -/
theorem Scans.before_item {items : List Lexeme} {rest : List Char} (h : Scans items rest)
    (more : List Char) : Scans items (l.source ++ more) :=
  h.alone.behind (not_straddles_of_endsText (endsText_source hl more) _)

/-- A construct ends where it ends, whatever follows. -/
theorem Lexeme.StandsBefore.whatever {rest : List Char} (h : l.StandsBefore rest)
    (more : List Char) : l.StandsBefore more := by
  cases l with
  | char c => exact absurd rfl (hl c)
  | _ => exact h

end Item

/-- A character is never refused. -/
theorem Draft.ne_char_of_feed_error {d : Draft} {n : Nat} {l : Lexeme} {refusal : Refusal}
    (h : d.feed n l = .error refusal) : ∀ c, l ≠ .char c := by
  rintro c rfl
  simp [Draft.feed] at h

-- ---------------------------------------------------------------------------
-- The item at fault
-- ---------------------------------------------------------------------------

/-- **The item at fault.** A reader that refuses a source for good has come to an item that it
refuses, and has fed all items before it. -/
theorem exists_refused_item {d : Draft} {line n : Nat} {s : List Char} {refusal : Refusal}
    (h : readFrom d line s = .error (n, refusal)) (hFinal : refusal.isFinal = true) :
    ∃ before l rest d', s = before.flatMap Lexeme.source ++ (l.source ++ rest) ∧
      Scans before (l.source ++ rest) ∧ l.StandsBefore rest ∧
      d.feedAll line before = .ok d' ∧ n = line + (before.flatMap Lexeme.source).count '\n' ∧
      d'.feed n l = .error refusal := by
  fun_induction readFrom d line s with
  | case1 d line s what hCut =>
    obtain ⟨-, rfl⟩ := Prod.mk.inj (Except.error.inj h)
    -- an unterminated item could still be terminated
    rw [Refusal.isFinal, awaitsMore_of_cut_error hCut] at hFinal
    cases hFinal
  | case2 d line s hCut =>
    -- a conditional left open could still be closed
    rw [not_isFinal_of_finish h] at hFinal
    cases hFinal
  | case3 d line s l rest hCut refused hFeed =>
    obtain ⟨rfl, rfl⟩ := Prod.mk.inj (Except.error.inj h)
    obtain ⟨hSource, hStands⟩ := Lexeme.cut_eq_some_iff.mp hCut
    exact ⟨[], l, rest, d, hSource, trivial, hStands, rfl, rfl, hFeed⟩
  | case4 d line s l rest hCut next hFeed ih =>
    obtain ⟨hSource, hStands⟩ := Lexeme.cut_eq_some_iff.mp hCut
    obtain ⟨before, l', rest', d', rfl, hScans, hStands', hAll, hLine, hRefused⟩ := ih h
    refine ⟨l :: before, l', rest', d', ?_, ⟨hStands, hScans⟩, hStands', ?_, ?_, hRefused⟩
    · rw [hSource, List.flatMap_cons, List.append_assoc]
    · rw [Draft.feedAll_cons_of_ok hFeed, hAll]
    · rw [hLine, List.flatMap_cons, List.count_append, Lexeme.lines]
      omega

/-- The same item is at fault when more text follows. -/
theorem readFrom_append_of_isFinal {d : Draft} {line n : Nat} {s : List Char} {refusal : Refusal}
    (h : readFrom d line s = .error (n, refusal)) (hFinal : refusal.isFinal = true)
    (t : List Char) : readFrom d line (s ++ t) = .error (n, refusal) := by
  obtain ⟨before, l, rest, d', rfl, hScans, hStands, hAll, rfl, hRefused⟩ :=
    exists_refused_item h hFinal
  have hItem := Draft.ne_char_of_feed_error hRefused
  have hCut : Lexeme.cut (l.source ++ (rest ++ t)) = .ok (some (l, rest ++ t)) :=
    Lexeme.cut_eq_some_iff.mpr ⟨rfl, hStands.whatever hItem _⟩
  rw [List.append_assoc, List.append_assoc]
  obtain ⟨e, hError, -⟩ | ⟨next, hOk, hRead⟩ :=
    readFrom_of_scans (hScans.before_item hItem (rest ++ t)) d line
  · simp [hAll] at hError
  · obtain rfl := Except.ok.inj (hAll.symm.trans hOk)
    rw [hRead, readFrom_cut_error hCut hRefused]

/--
**Rejections are final.** A source that is refused for a directive or a built-in that templates may
not use, or for a syntax error other than that something in it has not ended, is refused with the
same error whatever is appended to it: the same directive, built-in or fault, and on the same line.
-/
theorem rejection_is_final (name s t : String) {e : TemplateError}
    (hRejected : parse name s = .error e) (hFinal : e.isFinal = true) :
    parse name (s ++ t) = .error e := by
  obtain ⟨line, refusal, hRead, rfl⟩ := parse_eq_error_iff.mp hRejected
  rw [Refusal.isFinal_toError] at hFinal
  refine parse_eq_error_iff.mpr ⟨line, refusal, ?_, rfl⟩
  rw [String.toList_append]
  exact readFrom_append_of_isFinal hRead hFinal t.toList

/-- The text behind a tag out of place begins an opener, and the continuation completes it. A tag of
another directive gets the tag that would end it. And a conditional that is open when a built-in is
called gets closed. -/
theorem rejection_is_final_continued :
    (parse "note" "$\n</#if>$" = .error (.malformed "note" 2 .unmatchedClosing) ∧
      parse "note" ("$\n</#if>$" ++ "\x7ba\x7d") = .error (.malformed "note" 2 .unmatchedClosing)) ∧
    (parse "note" "<#list a>" = .error (.forbiddenDirective "note" "list") ∧
      parse "note" ("<#list a>" ++ "</#list>") = .error (.forbiddenDirective "note" "list")) ∧
    parse "note" "<#if a>$\x7bb?eval\x7d" = .error (.forbiddenBuiltin "note" "eval") ∧
      parse "note" ("<#if a>$\x7bb?eval\x7d" ++ "</#if>") =
        .error (.forbiddenBuiltin "note" "eval") := by
  have hTag : parse "note" "$\n</#if>$" = .error (.malformed "note" 2 .unmatchedClosing) := by
    with_unfolding_all rfl
  have hDirective : parse "note" "<#list a>" = .error (.forbiddenDirective "note" "list") := by
    with_unfolding_all rfl
  have hBuiltin : parse "note" "<#if a>$\x7bb?eval\x7d" =
      .error (.forbiddenBuiltin "note" "eval") := by
    with_unfolding_all rfl
  exact ⟨⟨hTag, rejection_is_final "note" _ _ hTag rfl⟩,
    ⟨hDirective, rejection_is_final "note" _ _ hDirective rfl⟩,
    hBuiltin, rejection_is_final "note" _ _ hBuiltin rfl⟩

end Template

end RuleBlocks
