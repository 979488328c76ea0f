import RuleBlocks.Proofs.Template.Sandbox
import RuleBlocks.Template.Basic
import Mathlib.Data.List.Forall2

/-!
# Templates one after the other

If a source is a template, then what follows it is read as if it stood alone: the tree of both
together is the one tree followed by the other, and an error of the second source is the same error,
so many lines further down. The only thing to take care of is the seam, where the last characters of
the one source and the first of the other may make up an opener that neither of them has.

That the trees compose is seen on the grammar, where the items of both sources assemble to both
trees. For errors there is no grammar, so the two readings of the second source are compared step by
step. They hold different nodes and stand on different lines, but what a reader refuses does not
depend on nodes: only on which conditionals are open, and on which branch each of them is
(`Draft.Below`).

* `Straddles` — the seam makes up an opener;
* `Scans.behind`, `Scans.append` — items are told apart as before if it does not;
* `joinNodes`, `Assembles.append` — the tree of both sources;
* `Draft.Below`, `readFrom_below` — the same refusal further down;
* `renderNodes_joinNodes` — the text of both trees;
* `parse_append` — **templates compose**.
-/

namespace RuleBlocks.Template

-- ---------------------------------------------------------------------------
-- The seam
-- ---------------------------------------------------------------------------

/-- The end of the one text and the start of the other make up an opener. -/
def Straddles (s t : List Char) : Prop :=
  (['$'] <:+ s ∧ ['{'] <+: t) ∨ (['<'] <:+ s ∧ (['#'] <+: t ∨ ['/', '#'] <+: t)) ∨
    (['<', '/'] <:+ s ∧ ['#'] <+: t)

instance (s t : List Char) : Decidable (Straddles s t) :=
  inferInstanceAs (Decidable (_ ∨ _))

/-- What straddles the seam of a suffix straddles that of the whole. -/
theorem Straddles.of_suffix {s' s t : List Char} (hSuffix : s' <:+ s) (h : Straddles s' t) :
    Straddles s t := by
  rcases h with ⟨hEnd, hStart⟩ | ⟨hEnd, hStart⟩ | ⟨hEnd, hStart⟩
  · exact .inl ⟨hEnd.trans hSuffix, hStart⟩
  · exact .inr (.inl ⟨hEnd.trans hSuffix, hStart⟩)
  · exact .inr (.inr ⟨hEnd.trans hSuffix, hStart⟩)

/-- Where no construct starts none starts when more text follows. An opener has at most three
characters, so only a text of one or two characters leaves anything open. -/
theorem opens_append {c : Char} {r t : List Char} (h : opens (c :: r) = false)
    (hSeam : ¬ Straddles (c :: r) t) : opens (c :: (r ++ t)) = false := by
  rw [← Bool.not_eq_true, opens_cons_iff] at h ⊢
  match r with
  | [] =>
    -- the last character: an opener would have to begin with it
    rintro (⟨rfl, hStart⟩ | ⟨rfl, hStart⟩ | ⟨rfl, hStart⟩)
    · exact hSeam (.inl ⟨List.suffix_rfl, hStart⟩)
    · exact hSeam (.inr (.inl ⟨List.suffix_rfl, .inl hStart⟩))
    · exact hSeam (.inr (.inl ⟨List.suffix_rfl, .inr hStart⟩))
  | [d] =>
    simp only [List.cons_append, List.nil_append, List.cons_prefix_cons, List.nil_prefix,
      and_true] at h ⊢
    -- two characters are left: only the opener of three lies across the seam
    rintro (⟨rfl, rfl⟩ | ⟨rfl, rfl⟩ | ⟨rfl, rfl, hStart⟩)
    · exact h (.inl ⟨rfl, rfl⟩)
    · exact h (.inr (.inl ⟨rfl, rfl⟩))
    · exact hSeam (.inr (.inr ⟨List.suffix_rfl, hStart⟩))
  | d :: e :: r =>
    simpa only [List.cons_append, List.cons_prefix_cons, List.nil_prefix, and_true] using h

/-- A lexeme stands as before when more follows. -/
theorem Lexeme.StandsBefore.append {l : Lexeme} {rest t : List Char} (h : l.StandsBefore rest)
    (hSeam : ¬ Straddles (l.source ++ rest) t) : l.StandsBefore (rest ++ t) := by
  cases l with
  | char c => exact opens_append h hSeam
  | _ => exact h

/-- Items in front of a text stay what they are when more text follows. -/
theorem Scans.behind {items : List Lexeme} {rest t : List Char} (h : Scans items rest)
    (hSeam : ¬ Straddles (items.flatMap Lexeme.source ++ rest) t) : Scans items (rest ++ t) := by
  induction items with
  | nil => trivial
  | cons l ls ih =>
    rw [List.flatMap_cons, List.append_assoc] at hSeam
    refine ⟨?_, ih h.2 fun hTail => hSeam (hTail.of_suffix (List.suffix_append _ _))⟩
    rw [← List.append_assoc]
    exact h.1.append hSeam

/-- The scans of two texts are a scan of both. -/
theorem Scans.append {xs ys : List Lexeme} {rest : List Char}
    (hxs : Scans xs (ys.flatMap Lexeme.source ++ rest)) (hys : Scans ys rest) :
    Scans (xs ++ ys) rest := by
  induction xs with
  | nil => exact hys
  | cons l ls ih =>
    refine ⟨?_, ih hxs.2⟩
    show l.StandsBefore ((ls ++ ys).flatMap Lexeme.source ++ rest)
    rw [List.flatMap_append, List.append_assoc]
    exact hxs.1

-- ---------------------------------------------------------------------------
-- The tree
-- ---------------------------------------------------------------------------

/-- Nodes one after the other. Two texts that meet become one. -/
def joinNodes : List Node → List Node → List Node
  | [.text a], .text b :: nodes => .text (a ++ b) :: nodes
  | [], nodes => nodes
  | n :: rest, nodes => n :: joinNodes rest nodes

/-- Only the last node meets the others, and only if it is text. -/
theorem joinNodes_cons_of_not_isText {n : Node} (h : n.isText = false) (rest nodes : List Node) :
    joinNodes (n :: rest) nodes = n :: joinNodes rest nodes := by
  cases n with
  | text content => simp [Node.isText] at h
  | interpolation i => rw [joinNodes]; simp
  | conditional c thenNodes elseNodes => rw [joinNodes]; simp

/-- A character in front stays in front. -/
theorem joinNodes_prependChar (c : Char) (xs ys : List Node) :
    joinNodes (prependChar c xs) ys = prependChar c (joinNodes xs ys) := by
  cases xs with
  | nil =>
    cases ys with
    | nil => rfl
    | cons n rest => cases n <;> rfl
  | cons n rest =>
    cases n with
    | text a =>
      cases rest with
      | nil =>
        cases ys with
        | nil => rfl
        | cons m more =>
          cases m with
          | text b => simp only [prependChar, joinNodes, String.append_assoc]
          | interpolation i => rfl
          | conditional o thenNodes elseNodes => rfl
      | cons m more => rfl
    | interpolation i => simp [prependChar, joinNodes]
    | conditional o thenNodes elseNodes => simp [prependChar, joinNodes]

/-- Items one after the other assemble to the trees of both. -/
theorem Assembles.append {opened : Nat} {xs ys : List Lexeme} {first second : List Node}
    (hxs : Assembles opened xs first) (hys : Assembles opened ys second) :
    Assembles opened (xs ++ ys) (joinNodes first second) := by
  induction hxs with
  | nil => exact hys
  | char _ ih =>
    rw [joinNodes_prependChar]
    exact .char (ih hys)
  | comment _ ih => exact .comment (ih hys)
  | interpolation hInner _ ih =>
    rw [joinNodes_cons_of_not_isText rfl]
    exact .interpolation hInner (ih hys)
  | conditional hDepth hOpening hThen hClosing _ _ ih =>
    rw [joinNodes_cons_of_not_isText rfl, List.cons_append, List.append_assoc, List.cons_append]
    exact .conditional hDepth hOpening hThen hClosing (ih hys)
  | branching hDepth hOpening hThen hTurning hElse hClosing _ _ _ ih =>
    rw [joinNodes_cons_of_not_isText rfl, List.cons_append, List.append_assoc, List.cons_append,
      List.append_assoc, List.cons_append]
    exact .branching hDepth hOpening hThen hTurning hElse hClosing (ih hys)

-- ---------------------------------------------------------------------------
-- The same refusal further down
-- ---------------------------------------------------------------------------

/-- The second conditional starts so many lines below the first, and both are on the same branch. -/
structure OpenConditional.Below (lines : Nat) (c c' : OpenConditional) : Prop where
  line : c'.line = c.line + lines
  branch : c'.elseNodes.isSome = c.elseNodes.isSome

/-- The drafts of two readers, the second of which stands so many lines below the first. What they
have read may differ, but the same conditionals are open. -/
def Draft.Below (lines : Nat) (d e : Draft) : Prop :=
  List.Forall₂ (OpenConditional.Below lines) d.opened e.opened

/-- Two readers fare alike: both are refused for the same reason, or both go on. -/
inductive FareAlike (lines : Nat) : Except Refusal Draft → Except Refusal Draft → Prop
  | error (refusal : Refusal) : FareAlike lines (.error refusal) (.error refusal)
  | ok {d e : Draft} (h : d.Below lines e) : FareAlike lines (.ok d) (.ok e)

namespace OpenConditional

variable {lines : Nat} {c c' : OpenConditional}

theorem line_add (c : OpenConditional) (n : Node) : (c.add n).line = c.line := by
  rw [add]
  split <;> rfl

theorem isSome_elseNodes_add (c : OpenConditional) (n : Node) :
    (c.add n).elseNodes.isSome = c.elseNodes.isSome := by
  rw [add]
  split <;> simp_all

/-- Either of the two conditionals may grow. -/
theorem Below.add_left (h : c.Below lines c') (n : Node) : (c.add n).Below lines c' :=
  ⟨h.line.trans (by rw [line_add]), h.branch.trans (isSome_elseNodes_add c n).symm⟩

theorem Below.add_right (h : c.Below lines c') (n : Node) : c.Below lines (c'.add n) :=
  ⟨(line_add c' n).trans h.line, (isSome_elseNodes_add c' n).trans h.branch⟩

end OpenConditional

namespace Draft.Below

variable {lines line : Nat} {d e : Draft}

/-- Either of the two drafts may get one more node. -/
theorem add_left (h : d.Below lines e) (n : Node) : (d.add n).Below lines e := by
  obtain ⟨root, opened, text⟩ := d
  cases opened with
  | nil => exact h
  | cons c outer =>
    obtain ⟨c', outer', hInner, hOuter, hOpened⟩ := List.forall₂_cons_left_iff.mp h
    rw [Below, hOpened]
    exact .cons (hInner.add_left n) hOuter

theorem add_right (h : d.Below lines e) (n : Node) : d.Below lines (e.add n) := by
  obtain ⟨root, opened, text⟩ := e
  cases opened with
  | nil => exact h
  | cons c' outer' =>
    obtain ⟨c, outer, hInner, hOuter, hOpened⟩ := List.forall₂_cons_right_iff.mp h
    rw [Below, hOpened]
    exact .cons (hInner.add_right n) hOuter

/-- Both may grow by whatever they like. -/
theorem add (h : d.Below lines e) (n m : Node) : (d.add n).Below lines (e.add m) :=
  (h.add_left n).add_right m

theorem flush_left (h : d.Below lines e) : d.flush.Below lines e := by
  rw [Draft.flush]
  split
  · exact h
  · exact h.add_left _

theorem flush_right (h : d.Below lines e) : d.Below lines e.flush := by
  rw [Draft.flush]
  split
  · exact h
  · exact h.add_right _

/-- Whether there is pending text makes no difference. -/
theorem flush (h : d.Below lines e) : d.flush.Below lines e.flush :=
  h.flush_left.flush_right

/-- Both enter a conditional, or neither: they are equally deep. -/
theorem openConditional (h : d.Below lines e) (line : Nat) (arguments : List Char) :
    FareAlike lines (d.openConditional line arguments)
      (e.openConditional (line + lines) arguments) := by
  have hLength : d.opened.length = e.opened.length := List.Forall₂.length_eq h
  rw [Draft.openConditional, Draft.openConditional, ← hLength]
  by_cases hDeep : maxNesting ≤ d.opened.length
  · rw [if_pos hDeep, if_pos hDeep]
    exact .error _
  · rw [if_neg hDeep, if_neg hDeep]
    cases readCondition arguments with
    | error refusal => exact .error refusal
    | ok condition => exact .ok (.cons ⟨rfl, rfl⟩ h)

/-- Both turn, or are refused with the same words. -/
theorem startElse (h : d.Below lines e) (arguments : List Char) :
    FareAlike lines (d.startElse arguments) (e.startElse arguments) := by
  obtain ⟨root, opened, text⟩ := d
  obtain ⟨root', opened', text'⟩ := e
  rw [Draft.startElse, Draft.startElse]
  split
  · exact .error _
  · cases h with
    | nil => exact .error _
    | @cons c c' outer outer' hInner hOuter =>
      -- both have turned, or neither has
      have hBranch := hInner.branch
      cases hElse : c.elseNodes with
      | some nodes =>
        obtain ⟨nodes', hElse'⟩ := Option.isSome_iff_exists.mp (hBranch.trans (by rw [hElse]; rfl))
        simp only [hElse, hElse']
        exact .error _
      | none =>
        have hElse' : c'.elseNodes = none := by
          rw [← Option.not_isSome_iff_eq_none, hBranch, hElse]
          decide
        simp only [hElse, hElse']
        exact .ok (.cons ⟨hInner.line, rfl⟩ hOuter)

/-- Both leave a conditional, or are refused with the same words. -/
theorem closeTag (h : d.Below lines e) (inner : List Char) :
    FareAlike lines (d.closeTag inner) (e.closeTag inner) := by
  obtain ⟨root, opened, text⟩ := d
  obtain ⟨root', opened', text'⟩ := e
  simp only [Draft.closeTag]
  split
  · exact .error _
  · cases h with
    | nil => exact .error _
    | @cons c c' outer outer' _ hOuter =>
      have hRest : Below lines ⟨root, outer, text⟩ ⟨root', outer', text'⟩ := hOuter
      exact .ok (hRest.add _ _)

/-- The tags that open or turn fare alike, as their parts do. -/
theorem openTag (h : d.Below lines e) (line : Nat) (inner : List Char) :
    FareAlike lines (d.openTag line inner) (e.openTag (line + lines) inner) := by
  have hDirective (directive arguments : List Char) :
      FareAlike lines
        (if directive = ['i', 'f'] then d.openConditional line arguments
          else if directive = ['e', 'l', 's', 'e'] then d.startElse arguments
          else .error (.directive (String.ofList directive)))
        (if directive = ['i', 'f'] then e.openConditional (line + lines) arguments
          else if directive = ['e', 'l', 's', 'e'] then e.startElse arguments
          else .error (.directive (String.ofList directive))) := by
    split
    · exact h.openConditional line arguments
    · split
      · exact h.startElse arguments
      · exact .error _
  simp only [Draft.openTag]
  split
  · exact hDirective _ _
  · exact hDirective _ _

/-- **One lexeme.** Both readers refuse it, for the same reason, or both go on. -/
theorem feed (h : d.Below lines e) (line : Nat) (l : Lexeme) :
    FareAlike lines (d.feed line l) (e.feed (line + lines) l) := by
  cases l with
  | char c => exact .ok h
  | comment body => exact .ok h
  | interpolation inner =>
    rw [Draft.feed, Draft.feed]
    cases readInterpolation inner with
    | error refusal => exact .error refusal
    | ok i => exact .ok (h.flush.add _ _)
  | closing inner => exact h.flush.closeTag inner
  | opening inner => exact h.flush.openTag line inner

end Draft.Below

theorem readFrom_of_cut_error {s : List Char} {what : SyntaxFault} (h : Lexeme.cut s = .error what)
    (d : Draft) (line : Nat) : readFrom d line s = .error (line, .fault what) := by
  rw [readFrom]
  split
  case h_1 what' hError => rw [Except.error.inj (h.symm.trans hError)]
  case h_2 hNone => simp [h] at hNone
  case h_3 l rest hSome => simp [h] at hSome

/-- **A refused source is refused further down as well**, for the same reason. -/
theorem readFrom_below {d : Draft} {line n : Nat} {s : List Char} {refusal : Refusal}
    (h : readFrom d line s = .error (n, refusal)) {lines : Nat} {e : Draft}
    (hBelow : d.Below lines e) : readFrom e (line + lines) s = .error (n + lines, refusal) := by
  fun_induction readFrom d line s generalizing e with
  | case1 d line s what hCut =>
    obtain ⟨rfl, rfl⟩ := by simpa using h
    exact readFrom_of_cut_error hCut e _
  | case2 d line s hCut =>
    obtain rfl := Lexeme.cut_eq_none_iff.mp hCut
    obtain ⟨root, opened, text⟩ := d
    obtain ⟨root', opened', text'⟩ := e
    rw [readFrom_nil]
    cases hBelow with
    -- nothing is left open in the upper draft, so it is not refused at the end
    | nil => simp [Draft.finish] at h
    | cons hInner _ =>
      obtain ⟨rfl, rfl⟩ := by simpa [Draft.finish] using h
      simp only [Draft.finish, hInner.line]
  | case3 d line s l rest hCut refused hFeed =>
    obtain ⟨rfl, rfl⟩ := by simpa using h
    refine readFrom_cut_error hCut ?_
    generalize hSecond : e.feed (line + lines) l = second
    have hFare := hBelow.feed line l
    rw [hFeed, hSecond] at hFare
    cases hFare
    rfl
  | case4 d line s l rest hCut next hFeed ih =>
    generalize hSecond : e.feed (line + lines) l = second
    have hFare := hBelow.feed line l
    rw [hFeed, hSecond] at hFare
    cases hFare with
    | ok hNext =>
      rw [readFrom_cut hCut hSecond, Nat.add_right_comm]
      exact ih h hNext

-- ---------------------------------------------------------------------------
-- The text
-- ---------------------------------------------------------------------------

/-- The text of both trees, or the first variable that is missing. -/
theorem renderNodes_joinNodes (context : Json) (first second : List Node) :
    renderNodes context (joinNodes first second) = (do
      let before ← renderNodes context first
      let after ← renderNodes context second
      return before ++ after) := by
  rw [← renderNodes_append]
  fun_induction joinNodes first second with
  | case1 a b nodes =>
    have hText (content : String) : renderNode context (.text content) = pure content := rfl
    simp only [List.singleton_append, renderNodes_cons, hText, pure_bind, bind_assoc,
      String.append_assoc]
  | case2 nodes => rfl
  | case3 n rest nodes _ ih => rw [List.cons_append, renderNodes_cons, renderNodes_cons, ih]

-- ---------------------------------------------------------------------------
-- Templates compose
-- ---------------------------------------------------------------------------

/-- A source is refused where its reading is, under the name of the template. -/
theorem parse_eq_error_iff {name source : String} {e : TemplateError} :
    parse name source = .error e ↔
      ∃ line refusal, readFrom .blank 1 source.toList = .error (line, refusal) ∧
        e = refusal.toError name line := by
  rw [parse]
  cases readFrom .blank 1 source.toList with
  | ok nodes =>
    have hOk : Except.ok nodes ≠ Except.error e := by simp
    exact iff_of_false hOk (by simp)
  | error refused =>
    constructor
    · intro h
      exact ⟨refused.1, refused.2, rfl, (Except.error.inj h).symm⟩
    · rintro ⟨line, refusal, hRefused, rfl⟩
      obtain rfl := Except.error.inj hRefused
      rfl

/-- Reading comes from the first source to the second at top level, with no conditional open. -/
theorem exists_readFrom_append {first second : List Char} {line : Nat} {nodes : List Node}
    (hFirst : readFrom .blank line first = .ok nodes) (hSeam : ¬ Straddles first second) :
    ∃ d : Draft, d.opened = [] ∧
      readFrom .blank line (first ++ second) = readFrom d (line + first.count '\n') second := by
  obtain ⟨items, d, rfl, hScans, hAll, hFinish⟩ := exists_scans_of_readFrom hFirst
  have hBehind : Scans items second := hScans.behind (by rwa [List.append_nil])
  obtain ⟨e, hError, -⟩ | ⟨d', hOk, hRead⟩ := readFrom_of_scans hBehind .blank line
  · simp [hAll] at hError
  · obtain rfl := Except.ok.inj (hAll.symm.trans hOk)
    exact ⟨d, Draft.opened_of_finish hFinish, hRead⟩

/-- **Two sources that are read make one that is read**, unless something straddles the seam. -/
theorem readFrom_append_of_ok {first second : List Char} {line line' : Nat}
    {nodes more : List Node} (hFirst : readFrom .blank line first = .ok nodes)
    (hSecond : readFrom .blank line' second = .ok more) (hSeam : ¬ Straddles first second) :
    readFrom .blank line (first ++ second) = .ok (joinNodes nodes more) := by
  obtain ⟨xs, rfl, hxs, hNodes⟩ := readFrom_blank_eq_ok_iff.mp hFirst
  obtain ⟨ys, rfl, hys, hMore⟩ := readFrom_blank_eq_ok_iff.mp hSecond
  refine readFrom_blank_eq_ok_iff.mpr ⟨xs ++ ys, List.flatMap_append.symm, ?_, hNodes.append hMore⟩
  -- what is cut off first is cut off as before: nothing straddles the seam
  refine Scans.append ?_ hys
  rw [List.append_nil]
  exact hxs.behind (by rwa [List.append_nil])

/-- **A refusal in the second source is the refusal of both**, further down. -/
theorem readFrom_append_of_error {first second : List Char} {line n : Nat} {nodes : List Node}
    {refusal : Refusal} (hFirst : readFrom .blank line first = .ok nodes)
    (hSecond : readFrom .blank line second = .error (n, refusal))
    (hSeam : ¬ Straddles first second) :
    readFrom .blank line (first ++ second) = .error (n + first.count '\n', refusal) := by
  obtain ⟨d, hOpened, hRead⟩ := exists_readFrom_append hFirst hSeam
  have hBelow : Draft.blank.Below (first.count '\n') d := by
    rw [Draft.Below, hOpened]
    exact .nil
  rw [hRead]
  exact readFrom_below hSecond hBelow

/-- The text of both trees is that of one and then that of the other. -/
theorem render_joinNodes {one two : Template} (hName : two.name = one.name) (source : String)
    (context : Json) :
    Template.render ⟨one.name, source, joinNodes one.nodes two.nodes⟩ context = (do
      let before ← one.render context
      let after ← two.render context
      return before ++ after) := by
  rw [render, render, render, renderNodes_joinNodes, hName]
  cases renderNodes context one.nodes with
  | error path => rfl
  | ok before =>
    cases renderNodes context two.nodes with
    | error path => rfl
    | ok after => rfl

/--
**Templates compose.** A source that is a template can be continued by any other source that does
not make up an opener with its end. If the other is a template, the tree of both together is the one
tree followed by the other, with two texts that meet joined; and whatever the context, its text is
the two texts one after the other, or the first error of the two. If the other has a syntax error,
it is the same error as many lines further down as the template has line ends. Any other error of
the other source stays as it is.
-/
theorem parse_append (name first second : String) {nodes : List Node}
    (hFirst : parse name first = .ok nodes) (hSeam : ¬ Straddles first.toList second.toList) :
    (∀ more, parse name second = .ok more →
      parse name (first ++ second) = .ok (joinNodes nodes more)) ∧
    (∀ line what, parse name second = .error (.malformed name line what) →
      parse name (first ++ second) =
        .error (.malformed name (line + first.toList.count '\n') what)) ∧
    (∀ e, parse name second = .error e → (∀ line what, e ≠ .malformed name line what) →
      parse name (first ++ second) = .error e) ∧
    (∀ one two, compile name first = .ok one → compile name second = .ok two →
      ∃ both, compile name (first ++ second) = .ok both ∧
        ∀ context, both.render context = (do
          let before ← one.render context
          let after ← two.render context
          return before ++ after)) := by
  have hRead := parse_eq_ok_iff.mp hFirst
  have hTree (more : List Node) (hSecond : parse name second = .ok more) :
      parse name (first ++ second) = .ok (joinNodes nodes more) := by
    rw [parse_eq_ok_iff, String.toList_append]
    exact readFrom_append_of_ok hRead (parse_eq_ok_iff.mp hSecond) hSeam
  have hRefused (line : Nat) (refusal : Refusal)
      (hSecond : readFrom .blank 1 second.toList = .error (line, refusal)) :
      parse name (first ++ second) =
        .error (refusal.toError name (line + first.toList.count '\n')) := by
    refine parse_eq_error_iff.mpr ⟨_, refusal, ?_, rfl⟩
    rw [String.toList_append]
    exact readFrom_append_of_error hRead hSecond hSeam
  refine ⟨hTree, fun line what hSecond => ?_, fun e hSecond hOther => ?_,
    fun one two hOne hTwo => ?_⟩
  · obtain ⟨line', refusal, hRefusal, hError⟩ := parse_eq_error_iff.mp hSecond
    rw [hRefused line' refusal hRefusal]
    cases refusal with
    | fault what' =>
      obtain ⟨-, rfl, rfl⟩ := TemplateError.malformed.inj hError
      rfl
    | directive directive => cases hError
    | builtin builtin => cases hError
  · obtain ⟨line, refusal, hRefusal, rfl⟩ := parse_eq_error_iff.mp hSecond
    rw [hRefused line refusal hRefusal]
    cases refusal with
    | fault what => exact absurd rfl (hOther line what)
    | directive directive => rfl
    | builtin builtin => rfl
  · obtain ⟨hOne, rfl, -⟩ := compile_eq_ok_iff.mp hOne
    obtain ⟨hTwo, hName, -⟩ := compile_eq_ok_iff.mp hTwo
    obtain rfl := Except.ok.inj (hFirst.symm.trans hOne)
    exact ⟨⟨one.name, first ++ second, joinNodes one.nodes two.nodes⟩,
      compile_eq_ok_iff.mpr ⟨hTree _ hTwo, rfl, rfl⟩, render_joinNodes hName _⟩

/-- Two dollar signs meet and a brace follows: they are one text and an interpolation. A tag out of
place is found on the second line of the two sources, since the first has a line end in it. -/
theorem parse_append_dollars :
    let first := "<#if a>\nb</#if>$"
    let conditional : Node := .conditional ⟨["a"], false, false⟩ [.text "\nb"] []
    parse "note" first = .ok [conditional, .text "$"] ∧
    (¬ Straddles first.toList "$$\x7bc\x7d".toList ∧
      parse "note" (first ++ "$$\x7bc\x7d")
        = .ok [conditional, .text "$$", .interpolation ⟨["c"], .required⟩]) ∧
    (¬ Straddles first.toList "<#else>".toList ∧
      parse "note" (first ++ "<#else>") = .error (.malformed "note" 2 .elseOutside)) ∧
    ¬ Straddles first.toList "<#list c as d>".toList ∧
      parse "note" (first ++ "<#list c as d>") = .error (.forbiddenDirective "note" "list") := by
  -- the reader recurses on the length of what is left, which only a full unfolding computes
  have hFirst : parse "note" "<#if a>\nb</#if>$" =
      .ok [.conditional ⟨["a"], false, false⟩ [.text "\nb"] [], .text "$"] := by
    with_unfolding_all rfl
  intro first conditional
  have hText : ¬ Straddles first.toList "$$\x7bc\x7d".toList := by decide
  have hElse : ¬ Straddles first.toList "<#else>".toList := by decide
  have hList : ¬ Straddles first.toList "<#list c as d>".toList := by decide
  have hLines : first.toList.count '\n' = 1 := by decide
  refine ⟨hFirst, ⟨hText, ?_⟩, ⟨hElse, ?_⟩, hList, ?_⟩
  · have hMore : parse "note" "$$\x7bc\x7d" = .ok [.text "$", .interpolation ⟨["c"], .required⟩] := by
      with_unfolding_all rfl
    exact (parse_append "note" first _ hFirst hText).1 _ hMore
  · have hError : parse "note" "<#else>" = .error (.malformed "note" 1 .elseOutside) := by
      with_unfolding_all rfl
    have hBoth := (parse_append "note" first _ hFirst hElse).2.1 _ _ hError
    rwa [hLines] at hBoth
  · have hError : parse "note" "<#list c as d>" = .error (.forbiddenDirective "note" "list") := by
      with_unfolding_all rfl
    exact (parse_append "note" first _ hFirst hList).2.2.1 _ hError (by simp)

end RuleBlocks.Template
