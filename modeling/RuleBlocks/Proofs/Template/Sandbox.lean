import RuleBlocks.Proofs.Template.Acceptance
import RuleBlocks.Proofs.Template.RoundTrip

/-!
# Templates are confined to their grammar

A source is a template if and only if it scans as items that assemble to a tree, and that tree is
the one it is compiled to. So whatever a source hides in quotes, comments or other constructs,
nothing but the items of the grammar gets through: as soon as the scan comes to an item that
templates may not use, the source is refused, whatever stands before and behind.

The reader of the items does not see a tree but a draft with open conditionals. Items that assemble
hang their nodes into any draft. For the converse the items are split where the branch ends that the
reader is in: those before it assemble, and behind them stands the tag that ends the branch. At top
level there is no such tag, so all items assemble.

* `Draft.feedAll` — what a sequence of items does to a draft;
* `readFrom_of_scans`, `exists_scans_of_readFrom` — reading a source is feeding the items that it
  scans as, which are the only ones (`Scans.unique`);
* `Assembles.hangs` — items that assemble hang their nodes into the draft;
* `startsBranch_of_completes` — items that were fed assemble up to the end of the branch;
* `parse_confined` — **the sandbox**.
-/

namespace RuleBlocks.Template

open Text

-- ---------------------------------------------------------------------------
-- Feeding items
-- ---------------------------------------------------------------------------

/-- What items do to a draft, the first of which starts on the given line. -/
def Draft.feedAll (d : Draft) (line : Nat) : List Lexeme → Except (Nat × Refusal) Draft
  | [] => .ok d
  | l :: ls =>
    match d.feed line l with
    | .error refusal => .error (line, refusal)
    | .ok d => d.feedAll (line + l.lines) ls

namespace Draft

variable {d d' : Draft} {line : Nat}

theorem feedAll_cons_of_ok {l : Lexeme} (h : d.feed line l = .ok d') (ls : List Lexeme) :
    d.feedAll line (l :: ls) = d'.feedAll (line + l.lines) ls := by
  rw [feedAll, h]

theorem exists_of_feedAll_cons {l : Lexeme} {ls : List Lexeme}
    (h : d.feedAll line (l :: ls) = .ok d') :
    ∃ next, d.feed line l = .ok next ∧ next.feedAll (line + l.lines) ls = .ok d' := by
  rw [feedAll] at h
  cases hFeed : d.feed line l with
  | error refusal => simp [hFeed] at h
  | ok next =>
    rw [hFeed] at h
    exact ⟨next, rfl, h⟩

/-- Items are fed one part after the other. -/
theorem feedAll_append {xs : List Lexeme} (h : d.feedAll line xs = .ok d') :
    ∃ line', ∀ ys, d.feedAll line (xs ++ ys) = d'.feedAll line' ys := by
  induction xs generalizing d line with
  | nil =>
    obtain rfl := Except.ok.inj h
    exact ⟨line, fun _ => rfl⟩
  | cons l ls ih =>
    obtain ⟨next, hFeed, hRest⟩ := exists_of_feedAll_cons h
    obtain ⟨line', hAppend⟩ := ih hRest
    exact ⟨line', fun ys => (feedAll_cons_of_ok hFeed _).trans (hAppend ys)⟩

/-- An interpolation goes in exactly if it is admitted. -/
theorem feed_interpolation_eq_ok_iff {inner : List Char} :
    d.feed line (.interpolation inner) = .ok d' ↔
      ∃ i, AdmitsInterpolation i inner ∧ d.hang (.interpolation i) = d' := by
  simp only [← readInterpolation_eq_ok_iff, feed]
  cases readInterpolation inner <;> simp [Except.map, hang]

/-- Every item that is fed is one that templates may use. -/
theorem isAdmitted_of_feed {l : Lexeme} (h : d.feed line l = .ok d') : l.IsAdmitted := by
  cases l with
  | char c => trivial
  | comment body => trivial
  | interpolation inner =>
    obtain ⟨i, hInner, -⟩ := feed_interpolation_eq_ok_iff.mp h
    exact ⟨i, hInner⟩
  | closing inner => exact (closeTag_eq_ok_iff.mp h).1
  | opening inner =>
    obtain ⟨c, hOpening, -⟩ | ⟨hTag, -⟩ := openTag_eq_ok_iff.mp h
    · exact .inl ⟨c, hOpening⟩
    · exact .inr hTag

/-- What goes in is admitted, item by item. -/
theorem isAdmitted_of_feedAll {items : List Lexeme} (h : d.feedAll line items = .ok d') :
    ∀ l ∈ items, l.IsAdmitted := by
  induction items generalizing d line with
  | nil => simp
  | cons l rest ih =>
    obtain ⟨next, hFeed, hRest⟩ := exists_of_feedAll_cons h
    exact List.forall_mem_cons.mpr ⟨isAdmitted_of_feed hFeed, ih hRest⟩

end Draft

-- ---------------------------------------------------------------------------
-- Reading is feeding
-- ---------------------------------------------------------------------------

theorem readFrom_cut_error {d : Draft} {line : Nat} {s rest : List Char} {l : Lexeme}
    {refusal : Refusal} (hCut : Lexeme.cut s = .ok (some (l, rest)))
    (hFeed : d.feed line l = .error refusal) : readFrom d line s = .error (line, refusal) := by
  rw [readFrom]
  split
  case h_1 what hError => simp [hCut] at hError
  case h_2 hNone => simp [hCut] at hNone
  case h_3 l' rest' hSome =>
    obtain ⟨rfl, rfl⟩ : l = l' ∧ rest = rest' := by simpa [hCut] using hSome
    rw [hFeed]

/-- A source scans in only one way. -/
theorem Scans.unique {xs ys : List Lexeme} (hxs : Scans xs []) (hys : Scans ys [])
    (hSource : xs.flatMap Lexeme.source = ys.flatMap Lexeme.source) : xs = ys := by
  have hCut {l : Lexeme} {ls : List Lexeme} (h : Scans (l :: ls) []) :
      Lexeme.cut ((l :: ls).flatMap Lexeme.source)
        = .ok (some (l, ls.flatMap Lexeme.source ++ [])) :=
    Lexeme.cut_eq_some_iff.mpr ⟨by simp, h.1⟩
  induction xs generalizing ys with
  | nil =>
    cases ys with
    | nil => rfl
    | cons y ys => simp [y.source_ne_nil] at hSource
  | cons x xs ih =>
    cases ys with
    | nil => simp [x.source_ne_nil] at hSource
    | cons y ys =>
      -- the same text is cut at the same place
      have hSame := (hCut hxs).symm.trans ((congrArg Lexeme.cut hSource).trans (hCut hys))
      obtain ⟨rfl, hRest⟩ := by simpa using hSame
      rw [ih hxs.2 hys.2 hRest]

/-- Reading a source feeds the items that it scans as. If one of them is refused, so is the source,
whatever follows. -/
theorem readFrom_of_scans {items : List Lexeme} {rest : List Char} (hScans : Scans items rest)
    (d : Draft) (line : Nat) :
    (∃ e, d.feedAll line items = .error e ∧
      readFrom d line (items.flatMap Lexeme.source ++ rest) = .error e) ∨
    ∃ d', d.feedAll line items = .ok d' ∧
      readFrom d line (items.flatMap Lexeme.source ++ rest) =
        readFrom d' (line + (items.flatMap Lexeme.source).count '\n') rest := by
  induction items generalizing d line with
  | nil => exact .inr ⟨d, rfl, rfl⟩
  | cons l ls ih =>
    obtain ⟨hStands, hRest⟩ := hScans
    have hCut := Lexeme.cut_eq_some_iff.mpr ⟨rfl, hStands⟩
    rw [List.flatMap_cons, List.append_assoc]
    cases hFeed : d.feed line l with
    | error refusal =>
      exact .inl ⟨(line, refusal), by rw [Draft.feedAll, hFeed], readFrom_cut_error hCut hFeed⟩
    | ok next =>
      rw [Draft.feedAll_cons_of_ok hFeed, readFrom_cut hCut hFeed, List.count_append,
        ← Nat.add_assoc]
      exact ih hRest next (line + l.lines)

/-- A source that is read scans as items. -/
theorem exists_scans_of_readFrom {d : Draft} {line : Nat} {s : List Char} {nodes : List Node}
    (h : readFrom d line s = .ok nodes) :
    ∃ items d', s = items.flatMap Lexeme.source ∧ Scans items [] ∧
      d.feedAll line items = .ok d' ∧ d'.finish = .ok nodes := by
  fun_induction readFrom d line s with
  | case1 d line s what hCut => simp at h
  | case2 d line s hCut =>
    obtain rfl := Lexeme.cut_eq_none_iff.mp hCut
    exact ⟨[], d, rfl, trivial, rfl, h⟩
  | case3 d line s l rest hCut refusal hFeed => simp at h
  | case4 d line s l rest hCut next hFeed ih =>
    obtain ⟨hSource, hStands⟩ := Lexeme.cut_eq_some_iff.mp hCut
    obtain ⟨items, d', rfl, hScans, hAll, hFinish⟩ := ih h
    refine ⟨l :: items, d', hSource, ⟨?_, hScans⟩, ?_, hFinish⟩
    · rwa [List.append_nil]
    · rw [Draft.feedAll_cons_of_ok hFeed, hAll]

-- ---------------------------------------------------------------------------
-- Items that assemble
-- ---------------------------------------------------------------------------

/-- A character in front of nodes joins the pending text before them. -/
theorem foldl_hang_prependChar (c : Char) (nodes : List Node) (d : Draft) :
    (prependChar c nodes).foldl Draft.hang d =
      nodes.foldl Draft.hang { d with text := d.text.push c } := by
  have hNew : d.hang (.text (String.singleton c)) = { d with text := d.text.push c } := by
    rw [Draft.hang, String.append_singleton]
  cases nodes with
  | nil => exact hNew
  | cons n rest =>
    cases n with
    | text content =>
      -- the character joins the text behind it, and both join the pending text
      have hPush : d.text ++ (String.singleton c ++ content) = d.text.push c ++ content := by
        apply String.ext
        simp
      rw [prependChar, List.foldl_cons, List.foldl_cons, Draft.hang, Draft.hang, hPush]
    | interpolation i => rw [prependChar, List.foldl_cons, hNew]; simp
    | conditional condition thenNodes elseNodes => rw [prependChar, List.foldl_cons, hNew]; simp

/-- In any draft with that many open conditionals, feeding the items hangs the nodes into the
draft. -/
def Hangs (opened : Nat) (items : List Lexeme) (nodes : List Node) : Prop :=
  ∀ (d : Draft) (line : Nat), d.opened.length = opened →
    d.feedAll line items = .ok (nodes.foldl Draft.hang d)

namespace Hangs

variable {d : Draft} {inner : List Char} {items : List Lexeme} {nodes : List Node}

/-- From an opening tag to the tag that ends the then branch. -/
theorem thenBranch {c : Condition} (hOpening : AdmitsOpening c inner)
    (hDepth : d.opened.length < maxNesting) (hRegular : Node.areRegular nodes = true)
    (h : Hangs (d.opened.length + 1) items nodes) (line : Nat) :
    ∃ (d' : Draft) (line' : Nat),
      d'.flush = d.inside { condition := c, line, thenNodes := nodes, elseNodes := none } ∧
      ∀ later, d.feedAll line (.opening inner :: (items ++ later)) = d'.feedAll line' later := by
  have hOpen := Draft.feed_opening hOpening.2 hOpening.1 hDepth line
  obtain ⟨line', hLater⟩ := Draft.feedAll_append
    (h _ (line + (Lexeme.opening inner).lines) (d.length_opened_inside _))
  refine ⟨_, line', ?_, fun later => (Draft.feedAll_cons_of_ok hOpen _).trans (hLater later)⟩
  rw [Draft.flush_foldl_hang_inside hRegular, OpenConditional.foldl_add_then rfl, List.nil_append]

/-- From the tag that ends the then branch to the one that ends the else branch. -/
theorem elseBranch {outer : Draft} {o : OpenConditional} (hTurning : SpellsTag "else" inner)
    (hFlush : d.flush = outer.inside o) (hElse : o.elseNodes = none)
    (hRegular : Node.areRegular nodes = true) (h : Hangs (outer.opened.length + 1) items nodes)
    (line : Nat) :
    ∃ (d' : Draft) (line' : Nat), d'.flush = outer.inside { o with elseNodes := some nodes } ∧
      ∀ later, d.feedAll line (.opening inner :: (items ++ later)) = d'.feedAll line' later := by
  have hTurn := Draft.feed_turning hTurning hFlush hElse line
  obtain ⟨line', hLater⟩ := Draft.feedAll_append
    (h _ (line + (Lexeme.opening inner).lines) (outer.length_opened_inside _))
  refine ⟨_, line', ?_, fun later => (Draft.feedAll_cons_of_ok hTurn _).trans (hLater later)⟩
  rw [Draft.flush_foldl_hang_inside hRegular, OpenConditional.foldl_add_else rfl, List.nil_append]

end Hangs

/-- **Trees.** Items that assemble hang their nodes into the draft. -/
theorem Assembles.hangs {opened : Nat} {items : List Lexeme} {nodes : List Node}
    (h : Assembles opened items nodes) : Hangs opened items nodes := by
  induction h with
  | nil => exact fun _ _ _ => rfl
  | char _ ih =>
    intro d line hOpened
    rw [Draft.feedAll_cons_of_ok rfl, foldl_hang_prependChar]
    exact ih { d with text := d.text.push _ } _ hOpened
  | comment _ ih =>
    intro d line hOpened
    rw [Draft.feedAll_cons_of_ok rfl]
    exact ih d _ hOpened
  | interpolation hInner _ ih =>
    intro d line hOpened
    rw [Draft.feedAll_cons_of_ok (Draft.feed_interpolation_eq_ok_iff.mpr ⟨_, hInner, rfl⟩)]
    exact ih _ _ (by rw [Draft.length_opened_hang, hOpened])
  | conditional hDepth hOpening hThen hClosing _ ihThen ih =>
    rintro d line rfl
    obtain ⟨d', line', hFlush, hLater⟩ :=
      ihThen.thenBranch hOpening hDepth hThen.areRegular line
    rw [hLater, Draft.feedAll_cons_of_ok (Draft.feed_closing hClosing hFlush line')]
    exact ih _ _ (d.length_opened_hang _)
  | branching hDepth hOpening hThen hTurning hElse hClosing _ ihThen ihElse ih =>
    rintro d line rfl
    -- the first branch, up to the turning tag
    obtain ⟨d₁, line₁, hFlush₁, hLater₁⟩ :=
      ihThen.thenBranch hOpening hDepth hThen.areRegular line
    -- the second branch, up to the closing tag
    obtain ⟨d₂, line₂, hFlush₂, hLater₂⟩ :=
      ihElse.elseBranch hTurning hFlush₁ rfl hElse.areRegular line₁
    rw [hLater₁, hLater₂, Draft.feedAll_cons_of_ok (Draft.feed_closing hClosing hFlush₂ line₂)]
    exact ih _ _ (d.length_opened_hang _)

-- ---------------------------------------------------------------------------
-- Items that were fed
-- ---------------------------------------------------------------------------

/-- The items can be fed, and no conditional is open after them. -/
def Draft.Completes (d : Draft) (line : Nat) (items : List Lexeme) : Prop :=
  ∃ d', d.feedAll line items = .ok d' ∧ d'.opened = []

/-- Where a branch ends: at the end of the source, or at a tag of the conditional that the branch
belongs to. -/
inductive EndsBranch : List Lexeme → Prop
  | source : EndsBranch []
  | closing {inner : List Char} {items : List Lexeme} (hTag : SpellsTag "if" inner) :
      EndsBranch (.closing inner :: items)
  | turning {inner : List Char} {items : List Lexeme} (hTag : SpellsTag "else" inner) :
      EndsBranch (.opening inner :: items)

/-- The items start with some that assemble, up to where the branch ends. -/
def StartsBranch (opened : Nat) (items : List Lexeme) : Prop :=
  ∃ now later nodes, items = now ++ later ∧ Assembles opened now nodes ∧ EndsBranch later

theorem if_of_spellsOpening {c : Condition} {inner : List Char} (h : SpellsOpening c inner) :
    ['i', 'f'] <+: trimStart inner := by
  obtain ⟨b, blank, condition, hb, -, -, rfl⟩ := h
  rw [trimStart_append_of_isBlank hb, trimStart_cons (by decide)]
  exact List.prefix_append ['i', 'f'] _

theorem else_of_turning {inner : List Char} (h : SpellsTag "else" inner) :
    ['e', 'l', 's', 'e'] <+: trimStart inner := by
  obtain ⟨b, a, hb, -, rfl⟩ := h
  have hFirst : isWhiteSpace 'e' = false := by decide
  have hWord := trimStart_cons hFirst ('l' :: 's' :: 'e' :: a)
  rw [List.append_assoc, trimStart_append_of_isBlank hb]
  exact hWord ▸ List.prefix_append ['e', 'l', 's', 'e'] a

/-- A tag turns to the else branch only inside a conditional that has none yet. -/
theorem Draft.of_feed_turning {d d' : Draft} {line : Nat} {inner : List Char}
    (hFeed : d.feed line (.opening inner) = .ok d') (hTurning : SpellsTag "else" inner) :
    ∃ o outer, d.flush.opened = o :: outer ∧ o.elseNodes = none := by
  obtain ⟨c, hOpening, -⟩ | ⟨-, o, outer, hOpened, hElse, -⟩ := openTag_eq_ok_iff.mp hFeed
  · obtain ⟨r, hIf⟩ := if_of_spellsOpening hOpening.2
    have hElse := else_of_turning hTurning
    simp [← hIf, List.cons_prefix_cons] at hElse
  · exact ⟨o, outer, hOpened, hElse⟩

namespace Draft.Completes

variable {d : Draft} {line : Nat} {items : List Lexeme}

/-- If all items complete the draft, those behind the first complete what the first leaves. -/
theorem cons {l : Lexeme} (h : d.Completes line (l :: items)) :
    ∃ next, d.feed line l = .ok next ∧ next.Completes (line + l.lines) items := by
  obtain ⟨d', hAll, hEnd⟩ := h
  obtain ⟨next, hFeed, hRest⟩ := exists_of_feedAll_cons hAll
  exact ⟨next, hFeed, d', hRest, hEnd⟩

theorem of_eq {d' : Draft} {line' : Nat} {later : List Lexeme} (h : d.Completes line items)
    (hLater : d.feedAll line items = d'.feedAll line' later) : d'.Completes line' later := by
  obtain ⟨last, hAll, hEnd⟩ := h
  exact ⟨last, hLater ▸ hAll, hEnd⟩

/-- At top level there is no branch to end, but the source can. -/
theorem eq_nil_of_endsBranch (h : d.Completes line items) (hOpened : d.opened = [])
    (hEnds : EndsBranch items) : items = [] := by
  have hFlush : d.flush.opened = [] := by
    rw [← List.length_eq_zero_iff, length_opened_flush, hOpened, List.length_nil]
  cases hEnds with
  | source => rfl
  | closing hTag =>
    obtain ⟨_, hFeed, -⟩ := h.cons
    obtain ⟨-, o, outer, hSome, -⟩ := closeTag_eq_ok_iff.mp hFeed
    simp [hFlush] at hSome
  | turning hTag =>
    obtain ⟨_, hFeed, -⟩ := h.cons
    obtain ⟨o, outer, hSome, -⟩ := of_feed_turning hFeed hTag
    simp [hFlush] at hSome

section Inside

variable {outer : Draft} {o : OpenConditional} (hFlush : d.flush = outer.inside o)

include hFlush

/-- Inside a conditional the source may not end. -/
theorem ne_nil (h : d.Completes line items) : items ≠ [] := by
  rintro rfl
  obtain ⟨d', hAll, hEnd⟩ := h
  obtain rfl := Except.ok.inj hAll
  have hLength := length_opened_flush d
  rw [hFlush, length_opened_inside, hEnd] at hLength
  exact absurd hLength (by simp)

/-- Behind a branch the conditional is completed, and hangs where it was opened. -/
theorem behind {inner : List Char} (hClosing : SpellsTag "if" inner)
    (h : d.Completes line (.closing inner :: items)) :
    (outer.hang o.node).Completes (line + (Lexeme.closing inner).lines) items :=
  h.of_eq (feedAll_cons_of_ok (feed_closing hClosing hFlush line) items)

/-- An else branch ends at the closing tag of its conditional. -/
theorem elseBranch {inner : List Char} (hElse : o.elseNodes = none)
    (hTurning : SpellsTag "else" inner) (h : d.Completes line (.opening inner :: items))
    (hStarts : ∀ {d line}, Completes d line items → StartsBranch d.opened.length items) :
    ∃ now closing later nodes line', items = now ++ .closing closing :: later ∧
      Assembles (outer.opened.length + 1) now nodes ∧ SpellsTag "if" closing ∧
      (outer.hang (.conditional o.condition o.thenNodes nodes)).Completes line' later := by
  have hInside := h.of_eq (feedAll_cons_of_ok (feed_turning hTurning hFlush hElse line) _)
  obtain ⟨now, later, nodes, rfl, hNow, hEnds⟩ := hStarts hInside
  rw [length_opened_inside] at hNow
  obtain ⟨d', line', hFlush', hLater⟩ :=
    hNow.hangs.elseBranch hTurning hFlush hElse hNow.areRegular line
  have hRest := h.of_eq (hLater later)
  cases hEnds with
  -- the source cannot end here, as the conditional is still open
  | source => exact absurd rfl (hRest.ne_nil hFlush')
  | closing hClosing =>
    exact ⟨now, _, _, nodes, _, rfl, hNow, hClosing, hRest.behind hFlush' hClosing⟩
  | turning hAgain =>
    obtain ⟨_, hFeed, -⟩ := hRest.cons
    obtain ⟨o', tail, hOpened, hNone⟩ := of_feed_turning hFeed hAgain
    rw [hFlush'] at hOpened
    obtain ⟨rfl, -⟩ := List.cons.inj hOpened
    -- a second turning tag would be refused: the branch is turned already
    simp at hNone

end Inside

end Draft.Completes

/-- **Branches.** Items that can be fed assemble up to the end of the branch. The induction is on
their number, since the items behind a conditional are not the tail of the list. -/
theorem startsBranch_of_completes {items : List Lexeme} {d : Draft} {line : Nat}
    (h : d.Completes line items) : StartsBranch d.opened.length items := by
  induction hn : items.length using Nat.strongRecOn generalizing items d line with
  | ind n ih =>
  cases items with
  | nil => exact ⟨[], [], [], rfl, .nil, .source⟩
  | cons l rest =>
    obtain ⟨next, hFeed, hRest⟩ := h.cons
    subst hn
    -- a tag that ends the branch leaves `now` unused
    obtain ⟨now, later, nodes, rfl, hNow, hEnds⟩ := ih rest.length (by simp) hRest rfl
    cases l with
    | char c =>
      obtain rfl := Except.ok.inj hFeed
      exact ⟨_, later, _, rfl, .char hNow, hEnds⟩
    | comment body =>
      obtain rfl := Except.ok.inj hFeed
      exact ⟨_, later, _, rfl, .comment hNow, hEnds⟩
    | interpolation inner =>
      obtain ⟨i, hInner, rfl⟩ := Draft.feed_interpolation_eq_ok_iff.mp hFeed
      rw [Draft.length_opened_hang] at hNow
      exact ⟨_, later, _, rfl, .interpolation hInner hNow, hEnds⟩
    | closing inner =>
      exact ⟨[], _, [], rfl, .nil, .closing (closeTag_eq_ok_iff.mp hFeed).1⟩
    | opening inner =>
      obtain ⟨c, hOpening, hDepth, hNext⟩ | ⟨hTurning, -⟩ := openTag_eq_ok_iff.mp hFeed
      · -- `now` is the then branch of this conditional, so its end decides what comes next
        rw [Draft.length_opened_flush] at hDepth
        change next = d.inside _ at hNext
        rw [hNext, Draft.length_opened_inside] at hNow
        obtain ⟨d', line', hFlush, hLater⟩ :=
          hNow.hangs.thenBranch hOpening hDepth hNow.areRegular line
        have hThen := h.of_eq (hLater later)
        cases hEnds with
        | source => exact absurd rfl (hThen.ne_nil hFlush)
        | closing hClosing =>
          have hBehind := hThen.behind hFlush hClosing
          obtain ⟨now', later', nodes', rfl, hNow', hEnds'⟩ := ih _ (by simp; omega) hBehind rfl
          rw [Draft.length_opened_hang] at hNow'
          exact ⟨_, later', _, by simp, .conditional hDepth hOpening hNow hClosing hNow', hEnds'⟩
        | turning hTurning =>
          obtain ⟨nowElse, closing, rest, nodesElse, line', rfl, hElse, hClosing, hBehind⟩ :=
            hThen.elseBranch hFlush rfl hTurning fun hInside => ih _ (by simp; omega) hInside rfl
          obtain ⟨now', later', nodes', rfl, hNow', hEnds'⟩ := ih _ (by simp; omega) hBehind rfl
          rw [Draft.length_opened_hang] at hNow'
          exact ⟨_, later', _, by simp,
            .branching hDepth hOpening hNow hTurning hElse hClosing hNow', hEnds'⟩
      · exact ⟨[], _, [], rfl, .nil, .turning hTurning⟩

/-- At top level all items assemble. -/
theorem exists_assembles {items : List Lexeme} {d : Draft} {line : Nat}
    (h : d.Completes line items) (hOpened : d.opened = []) : ∃ nodes, Assembles 0 items nodes := by
  obtain ⟨now, later, nodes, rfl, hNow, hEnds⟩ := startsBranch_of_completes h
  obtain ⟨line', hLater⟩ := Draft.feedAll_append (hNow.hangs d line rfl)
  have hEnd : (nodes.foldl Draft.hang d).opened = [] := by
    rw [← List.length_eq_zero_iff, Draft.length_opened_foldl_hang, hOpened, List.length_nil]
  obtain rfl := (h.of_eq (hLater later)).eq_nil_of_endsBranch hEnd hEnds
  rw [hOpened] at hNow
  exact ⟨nodes, by rwa [List.append_nil]⟩

-- ---------------------------------------------------------------------------
-- The sandbox
-- ---------------------------------------------------------------------------

/-- A finished draft has nothing open. -/
theorem Draft.opened_of_finish {d : Draft} {nodes : List Node} (h : d.finish = .ok nodes) :
    d.opened = [] := by
  rw [finish] at h
  split at h
  · simp at h
  · assumption

/-- **A source is read exactly if it scans as items that assemble.** -/
theorem readFrom_blank_eq_ok_iff {line : Nat} {s : List Char} {nodes : List Node} :
    readFrom .blank line s = .ok nodes ↔
      ∃ items, s = items.flatMap Lexeme.source ∧ Scans items [] ∧ Assembles 0 items nodes := by
  constructor
  · intro h
    obtain ⟨items, d', hSource, hScans, hAll, hFinish⟩ := exists_scans_of_readFrom h
    obtain ⟨spelled, hAssembles⟩ := exists_assembles ⟨d', hAll, Draft.opened_of_finish hFinish⟩ rfl
    -- the items assemble, so the draft is known, and with it what is read
    have hHangs : d' = spelled.foldl Draft.hang .blank :=
      Except.ok.inj (hAll.symm.trans (hAssembles.hangs .blank line rfl))
    rw [hHangs, Draft.finish_foldl_hang hAssembles.areRegular] at hFinish
    obtain rfl := Except.ok.inj hFinish
    exact ⟨items, hSource, hScans, hAssembles⟩
  · rintro ⟨items, rfl, hScans, hAssembles⟩
    have hAll := hAssembles.hangs .blank line rfl
    obtain ⟨e, hError, -⟩ | ⟨d', hOk, hRead⟩ := readFrom_of_scans hScans .blank line
    · simp [hAll] at hError
    · obtain rfl := Except.ok.inj (hAll.symm.trans hOk)
      rw [List.append_nil, readFrom_nil, Draft.finish_foldl_hang hAssembles.areRegular] at hRead
      exact hRead

/-- As soon as the scan comes to an item that templates may not use the source is refused. -/
theorem readFrom_of_not_isAdmitted {before : List Lexeme} {item : Lexeme} {rest : List Char}
    (hScans : Scans (before ++ [item]) rest) (hItem : ¬ item.IsAdmitted) (d : Draft) (line : Nat) :
    ∃ e, readFrom d line ((before ++ [item]).flatMap Lexeme.source ++ rest) = .error e := by
  obtain ⟨e, -, hRead⟩ | ⟨d', hAll, -⟩ := readFrom_of_scans hScans d line
  · exact ⟨e, hRead⟩
  · exact absurd (Draft.isAdmitted_of_feedAll hAll item (by simp)) hItem

/-- A source is read under any name. -/
theorem parse_eq_ok_iff {name source : String} {nodes : List Node} :
    parse name source = .ok nodes ↔ readFrom .blank 1 source.toList = .ok nodes := by
  rw [parse]
  cases readFrom .blank 1 source.toList with
  | error e =>
    have hError (e' : TemplateError) : Except.error e' ≠ Except.ok nodes := by simp
    exact iff_of_false (hError _) (by simp)
  | ok read => exact ⟨fun h => congrArg _ (Except.ok.inj h), fun h => congrArg _ (Except.ok.inj h)⟩

/-- **The sandbox.** The sources that are templates are those that scan as items which assemble to a
tree, the one that is returned. And a source whose scan comes to an item that templates may not use,
such as a tag of another directive or an interpolation that calls a built-in, is refused, whatever
stands before and behind. -/
theorem parse_confined (name source : String) :
    (∀ nodes, parse name source = .ok nodes ↔
      ∃ items, source.toList = items.flatMap Lexeme.source ∧ Scans items [] ∧
        Assembles 0 items nodes) ∧
    (∀ before item rest,
      source.toList = (before ++ [item]).flatMap Lexeme.source ++ rest →
      Scans (before ++ [item]) rest → ¬ item.IsAdmitted → ∃ e, parse name source = .error e) := by
  refine ⟨fun nodes => parse_eq_ok_iff.trans readFrom_blank_eq_ok_iff, ?_⟩
  intro before item rest hSource hScans hItem
  obtain ⟨e, hRead⟩ := readFrom_of_not_isAdmitted hScans hItem .blank 1
  exact ⟨_, by rw [parse, hSource, hRead]; rfl⟩

/-- A directive in a comment and a question mark in a default are harmless. A built-in behind a
default that holds the end mark is found, and so is a directive whose tag holds the end mark. -/
theorem parse_confined_hidden :
    parse "note" "<#-- <#list -->$\x7ba!\"?\"\x7d"
      = .ok [.interpolation { path := ["a"], fallback := .literal "?" }] ∧
    (∃ e, parse "note" "<#-- $\x7b -->$\x7ba!\"\x7d\"?upper\x7d<" = .error e) ∧
    ∃ e, parse "note" "a<#list b as \"c>d\">e" = .error e := by
  refine ⟨?_, ?_, ?_⟩
  · have hNil : isBlank [] = true := rfl
    have hInner : AdmitsInterpolation { path := ["a"], fallback := .literal "?" }
        "a!\"?\"".toList :=
      ⟨by decide, cutUnquoted_eq_none_iff.mp (by decide), _, _, .last hNil hNil,
        @SpellsDefault.literal '"' ['?'] [] [] rfl hNil hNil, rfl⟩
    have hComment : cutComment "-- <#list -->".toList = some ("-- <#list ".toList, []) := by decide
    have hCut : cutUnquoted '\x7d' "a!\"?\"\x7d".toList = some ("a!\"?\"".toList, []) := by decide
    have hScans : Scans [.comment "-- <#list ".toList, .interpolation "a!\"?\"".toList] [] :=
      ⟨⟨by decide, (cutComment_eq_some_iff.mp hComment).2⟩, (cutUnquoted_eq_some_iff.mp hCut).2,
        trivial⟩
    exact ((parse_confined _ _).1 _).mpr
      ⟨_, by decide, hScans, .comment (.interpolation hInner .nil)⟩
  · have hComment : cutComment "-- $\x7b -->".toList = some ("-- $\x7b ".toList, []) := by decide
    have hCut : cutUnquoted '\x7d' "a!\"\x7d\"?upper\x7d".toList
        = some ("a!\"\x7d\"?upper".toList, []) := by decide
    have hScans : Scans
        ([.comment "-- $\x7b ".toList] ++ [.interpolation "a!\"\x7d\"?upper".toList]) ['<'] :=
      ⟨⟨by decide, (cutComment_eq_some_iff.mp hComment).2⟩, (cutUnquoted_eq_some_iff.mp hCut).2,
        trivial⟩
    refine (parse_confined _ _).2 _ _ _ (by decide) hScans ?_
    rintro ⟨i, -, hBuiltin, -⟩
    exact hBuiltin ⟨"a!\"\x7d\"".toList, "upper".toList, by decide, by decide⟩
  · have hCut : cutUnquoted '>' "list b as \"c>d\">".toList
        = some ("list b as \"c>d\"".toList, []) := by decide
    have hScans : Scans ([.char 'a'] ++ [.opening "list b as \"c>d\"".toList]) ['e'] :=
      ⟨rfl, ⟨by decide, (cutUnquoted_eq_some_iff.mp hCut).2⟩, trivial⟩
    refine (parse_confined _ _).2 _ _ _ (by decide) hScans ?_
    rintro (⟨c, hOpening⟩ | hTurning)
    · exact absurd (if_of_spellsOpening hOpening.2) (by decide)
    · exact absurd (else_of_turning hTurning) (by decide)

end RuleBlocks.Template
