import RuleBlocks.Template.Parser
import RuleBlocks.Proofs.Template.Reading

/-!
# The round trip

Whatever way a normal tree is written, reading gives the tree back. The reader keeps what it has
seen so far in a draft: finished nodes, open conditionals and pending text. Reading a spelling of
some nodes hangs these nodes into the draft and leaves the reader where the spelling ends, so the
statement is about any draft and any rest of the source, and the induction is on how the nodes are
spelled.

Two things make this less than obvious. Text is not delimited, so what follows it must not complete
an opener that its last characters have begun (`EndsText`); this is where the tree must not have two
texts side by side. And text becomes a node only when something else follows it, so reading the
nodes of a branch leaves the draft one step behind them (`Draft.hang`, `Draft.flush_foldl_hang`).

* `readFrom_spellText` — text, with its openers taken apart, is read as it was;
* `Reads` — a source hangs nodes into the draft, with one lemma for each way to spell a node;
* `reads_of_spells` — every spelling of regular nodes does so;
* `parse_spells` — **the round trip**.
-/

namespace RuleBlocks.Template

open Text

-- ---------------------------------------------------------------------------
-- Hanging nodes into a draft
-- ---------------------------------------------------------------------------

/-- What reading a spelling of the node does: text joins the pending text, and any other node makes
a node of the pending text first. -/
def Draft.hang (d : Draft) : Node → Draft
  | .text content => { d with text := d.text ++ content }
  | n => d.flush.add n

namespace Draft

/-- What is not text ends the text in front of it. -/
theorem hang_of_not_isText {n : Node} (h : n.isText = false) (d : Draft) :
    d.hang n = d.flush.add n := by
  cases n with
  | text => simp [Node.isText] at h
  | interpolation => rfl
  | conditional => rfl

theorem length_opened_hang (d : Draft) (n : Node) :
    (d.hang n).opened.length = d.opened.length := by
  cases hn : n.isText with
  | true =>
    cases n with
    | text => rfl
    | _ => simp [Node.isText] at hn
  | false => rw [hang_of_not_isText hn, length_opened_add, length_opened_flush]

theorem length_opened_foldl_hang (d : Draft) (nodes : List Node) :
    (nodes.foldl hang d).opened.length = d.opened.length := by
  induction nodes generalizing d with
  | nil => rfl
  | cons n rest ih => rw [List.foldl_cons, ih, length_opened_hang]

/-- Pending text becomes a node by being flushed. -/
theorem flush_hang_text {d : Draft} (hText : d.text = "") {content : String}
    (hContent : content.isEmpty = false) :
    (d.hang (.text content)).flush = d.add (.text content) := by
  obtain ⟨root, opened, text⟩ := d
  obtain rfl : text = "" := hText
  cases opened <;> simp [hang, flush, add, hContent]

/-- **Reading is one text behind.** Once the pending text has become a node, the nodes that were
read hang where they belong. -/
theorem flush_foldl_hang {nodes : List Node} (hRegular : Node.areRegular nodes = true) {d : Draft}
    (hText : d.text ≠ "" → startsWithText nodes = false) :
    (nodes.foldl hang d).flush = nodes.foldl add d.flush := by
  induction nodes generalizing d with
  | nil => rfl
  | cons n rest ih =>
    obtain ⟨hNode, hNext, hRest⟩ := Node.areRegular_cons.1 hRegular
    cases hn : n.isText with
    | true =>
      obtain ⟨content, rfl⟩ : ∃ content, n = .text content := by
        cases n with
        | text content => exact ⟨content, rfl⟩
        | _ => simp [Node.isText] at hn
      -- a text follows no text, so nothing is pending
      have hEmpty : d.text = "" := by
        refine Decidable.byContradiction fun hPending => ?_
        have hStarts := hText hPending
        simp [startsWithText, Node.isText] at hStarts
      have hContent : content.isEmpty = false := by simpa [Node.isRegular] using hNode
      rw [List.foldl_cons, ih hRest fun _ => hNext rfl, flush_hang_text hEmpty hContent,
        flush_of_text hEmpty, List.foldl_cons]
    | false =>
      have hFlushed : (d.flush.add n).text = "" := by rw [text_add, text_flush]
      rw [List.foldl_cons, hang_of_not_isText hn, ih hRest fun h => absurd hFlushed h,
        flush_of_text hFlushed, List.foldl_cons]

/-- The draft inside a conditional that opens after the pending text. -/
def inside (d : Draft) (o : OpenConditional) : Draft :=
  { d.flush with opened := o :: d.flush.opened }

theorem text_inside (d : Draft) (o : OpenConditional) : (d.inside o).text = "" :=
  d.text_flush

theorem length_opened_inside (d : Draft) (o : OpenConditional) :
    (d.inside o).opened.length = d.opened.length + 1 := by
  rw [inside, List.length_cons, length_opened_flush]

/-- Nodes added within a branch go to the innermost conditional. -/
theorem foldl_add_inside (d : Draft) (o : OpenConditional) (nodes : List Node) :
    nodes.foldl add (d.inside o) = d.inside (nodes.foldl OpenConditional.add o) := by
  induction nodes generalizing o with
  | nil => rfl
  | cons n rest ih => exact ih (o.add n)

/-- Nodes that are read inside a conditional go to the branch that it is in. -/
theorem flush_foldl_hang_inside {nodes : List Node} (hRegular : Node.areRegular nodes = true)
    (d : Draft) (o : OpenConditional) :
    (nodes.foldl hang (d.inside o)).flush = d.inside (nodes.foldl OpenConditional.add o) := by
  have hText := d.text_inside o
  rw [flush_foldl_hang hRegular fun h => absurd hText h, flush_of_text hText, foldl_add_inside]

/-- Nodes added where nothing is open go to the end of the template. -/
theorem foldl_add_root {d : Draft} (hOpened : d.opened = []) (nodes : List Node) :
    nodes.foldl add d = { d with root := d.root ++ nodes } := by
  induction nodes generalizing d with
  | nil => simp
  | cons n rest ih =>
    have hAdd : (d.add n) = { d with root := d.root ++ [n] } := by simp [add, hOpened]
    rw [List.foldl_cons, hAdd, ih (d := { d with root := d.root ++ [n] }) hOpened]
    simp

/-- At the end of a source at top level the tree is what was hung. -/
theorem finish_foldl_hang {nodes : List Node} (hRegular : Node.areRegular nodes = true) :
    (nodes.foldl hang blank).finish = .ok nodes := by
  have hOpened : (nodes.foldl hang blank).opened = [] := by
    rw [← List.length_eq_zero_iff, length_opened_foldl_hang]
    rfl
  have hFlush := flush_foldl_hang hRegular (d := blank) fun h => absurd rfl h
  rw [finish, hOpened, hFlush, flush_of_text rfl, foldl_add_root rfl]
  rfl

end Draft

namespace OpenConditional

theorem foldl_add_then {o : OpenConditional} (hElse : o.elseNodes = none) (nodes : List Node) :
    nodes.foldl add o = { o with thenNodes := o.thenNodes ++ nodes } := by
  induction nodes generalizing o with
  | nil => simp
  | cons n rest ih =>
    have hAdd : o.add n = { o with thenNodes := o.thenNodes ++ [n] } := by simp [add, hElse]
    rw [List.foldl_cons, hAdd, ih (o := { o with thenNodes := o.thenNodes ++ [n] }) hElse]
    simp

/-- Behind the turning tag, nodes go to the second branch. -/
theorem foldl_add_else {o : OpenConditional} {before : List Node}
    (hElse : o.elseNodes = some before) (nodes : List Node) :
    nodes.foldl add o = { o with elseNodes := some (before ++ nodes) } := by
  induction nodes generalizing o before with
  | nil => simp [← hElse]
  | cons n rest ih =>
    have hAdd : o.add n = { o with elseNodes := some (before ++ [n]) } := by simp [add, hElse]
    rw [List.foldl_cons, hAdd, ih rfl]
    simp

end OpenConditional

-- ---------------------------------------------------------------------------
-- One construct
-- ---------------------------------------------------------------------------

/-- An interpolation is read in front of any continuation. -/
theorem readFrom_interpolation {i : Interpolation} {inner : List Char}
    (hInner : SpellsInterpolation i inner) (hPath : i.path.isValid = true) (d : Draft)
    (line : Nat) (rest : List Char) :
    readFrom d line ((Lexeme.interpolation inner).source ++ rest)
      = readFrom (d.flush.add (.interpolation i)) (line + (Lexeme.interpolation inner).lines)
          rest := by
  have hCrosses := hInner.crosses (Path.isWords_of_isValid hPath)
  refine readFrom_cut (Lexeme.cut_interpolation hCrosses rest) ?_
  rw [Draft.feed, readInterpolation_of_spells hInner hPath]
  rfl

namespace Draft

variable {d outer : Draft} {o : OpenConditional} {inner : List Char}

/-- An opening tag enters a branch. -/
theorem feed_opening {c : Condition} (hInner : SpellsOpening c inner)
    (hPath : c.path.isValid = true) (hDepth : d.opened.length < maxNesting) (line : Nat) :
    d.feed line (.opening inner)
      = .ok (d.inside { condition := c, line, thenNodes := [], elseNodes := none }) := by
  have hFlush : d.flush.opened.length < maxNesting := by rwa [length_opened_flush]
  exact openTag_of_opening hInner hPath hFlush line

/-- A turning tag turns to the second branch. -/
theorem feed_turning (hInner : SpellsTag "else" inner) (hFlush : d.flush = outer.inside o)
    (hElse : o.elseNodes = none) (line : Nat) :
    d.feed line (.opening inner) = .ok (outer.inside { o with elseNodes := some [] }) := by
  rw [feed, hFlush]
  exact openTag_of_turning hInner rfl hElse line

/-- A closing tag hangs the conditional where it was opened. -/
theorem feed_closing (hInner : SpellsTag "if" inner) (hFlush : d.flush = outer.inside o)
    (line : Nat) : d.feed line (.closing inner) = .ok (outer.hang o.node) := by
  rw [feed, hFlush]
  exact closeTag_of_closing hInner rfl

end Draft

/-- An opening tag is read in front of any continuation. -/
theorem readFrom_opening {c : Condition} {inner : List Char} (hInner : SpellsOpening c inner)
    (hPath : c.path.isValid = true) {d : Draft} (hDepth : d.opened.length < maxNesting)
    (line : Nat) (rest : List Char) :
    readFrom d line ((Lexeme.opening inner).source ++ rest)
      = readFrom (d.inside { condition := c, line, thenNodes := [], elseNodes := none })
          (line + (Lexeme.opening inner).lines) rest := by
  have hCrosses := hInner.crosses (Path.isWords_of_isValid hPath)
  exact readFrom_cut (Lexeme.cut_opening hInner.head?_ne hCrosses rest)
    (Draft.feed_opening hInner hPath hDepth line)

theorem readFrom_turning {inner : List Char} (hInner : SpellsTag "else" inner) {d outer : Draft}
    {o : OpenConditional} (hFlush : d.flush = outer.inside o) (hElse : o.elseNodes = none)
    (line : Nat) (rest : List Char) :
    readFrom d line ((Lexeme.opening inner).source ++ rest)
      = readFrom (outer.inside { o with elseNodes := some [] })
          (line + (Lexeme.opening inner).lines) rest := by
  have hCrosses := hInner.crosses isWordChar_else
  have hDash := hInner.head?_ne isWordChar_else (by decide)
  exact readFrom_cut (Lexeme.cut_opening hDash hCrosses rest)
    (Draft.feed_turning hInner hFlush hElse line)

/-- A closing tag is read in front of any continuation. -/
theorem readFrom_closing {inner : List Char} (hInner : SpellsTag "if" inner) {d outer : Draft}
    {o : OpenConditional} (hFlush : d.flush = outer.inside o) (line : Nat) (rest : List Char) :
    readFrom d line ((Lexeme.closing inner).source ++ rest)
      = readFrom (outer.hang o.node) (line + (Lexeme.closing inner).lines) rest := by
  have hCrosses := hInner.crosses isWordChar_if
  exact readFrom_cut (Lexeme.cut_closing hCrosses rest) (Draft.feed_closing hInner hFlush line)

-- ---------------------------------------------------------------------------
-- Text
-- ---------------------------------------------------------------------------

/-- Text ends here: nothing follows, or the first character of a construct. Neither continues an
opener that the text has begun. -/
def EndsText (rest : List Char) : Prop :=
  ∀ c ∈ rest.head?, c = '$' ∨ c = '<'

theorem endsText_nil : EndsText [] := by
  simp [EndsText]

theorem endsText_cons {c : Char} (hc : c = '$' ∨ c = '<') (r : List Char) : EndsText (c :: r) := by
  simpa [EndsText] using hc

/-- The last character of a text begins no construct with what ends the text. -/
theorem opens_of_endsText {rest : List Char} (hRest : EndsText rest) (c : Char) :
    opens (c :: rest) = false := by
  rw [← Bool.not_eq_true, opens_cons_iff]
  cases rest with
  | nil => simp
  | cons d r => rcases hRest d rfl with rfl | rfl <;> simp [List.cons_prefix_cons]

/-- What follows a character of the text in its spelling starts with a hash only if the same
character of the text is followed by one. -/
theorem hash_prefix_of_spellText {rest : List Char} (hRest : EndsText rest) {t : List Char}
    (h : ['#'] <+: spellText t ++ rest) : ['#'] <+: t := by
  cases t with
  | nil =>
    cases rest with
    | nil => simp [spellText] at h
    | cons d r => rcases hRest d rfl with rfl | rfl <;> simp [spellText, List.cons_prefix_cons] at h
  | cons c r =>
    rw [spellText] at h
    split at h <;> simpa [List.cons_prefix_cons] using h

/-- Where no construct starts in the text none starts in its spelling, and what follows the text
does not complete an opener either. -/
theorem opens_cons_spellText {rest : List Char} (hRest : EndsText rest) {c : Char}
    {t : List Char} (h : opens (c :: t) = false) : opens (c :: (spellText t ++ rest)) = false := by
  cases t with
  | nil => exact opens_of_endsText hRest c
  | cons d r =>
    -- the second character is that of the text, and the third can only be a hash if the text's is
    obtain ⟨x, hx, hHash⟩ :
        ∃ x, spellText (d :: r) ++ rest = d :: x ∧ (['#'] <+: x → ['#'] <+: r) := by
      rw [spellText]
      split
      case isTrue =>
        refine ⟨_, rfl, ?_⟩
        simp [Lexeme.emptyComment, Lexeme.source, List.cons_prefix_cons]
      case isFalse => exact ⟨_, rfl, hash_prefix_of_spellText hRest⟩
    rw [hx]
    rw [← Bool.not_eq_true, opens_cons_iff] at h ⊢
    simp only [List.cons_prefix_cons, List.nil_prefix, and_true] at h ⊢
    refine mt ?_ h
    rintro (hDollar | hTag | ⟨hc, hd, hPrefix⟩)
    · exact .inl hDollar
    · exact .inr (.inl hTag)
    · exact .inr (.inr ⟨hc, hd, hHash hPrefix⟩)

/-- A character that begins no construct is text. -/
theorem readFrom_char {c : Char} {r : List Char} (hText : opens (c :: r) = false) (d : Draft)
    (line : Nat) :
    readFrom d line (c :: r)
      = readFrom { d with text := d.text.push c } (line + (Lexeme.char c).lines) r :=
  readFrom_cut (Lexeme.cut_char hText) rfl

theorem readFrom_emptyComment (d : Draft) (line : Nat) (r : List Char) :
    readFrom d line (Lexeme.emptyComment.source ++ r)
      = readFrom d (line + Lexeme.emptyComment.lines) r :=
  readFrom_cut (Lexeme.cut_emptyComment r) rfl

/-- **Text.** The spelling of a text adds the text to what is pending. -/
theorem readFrom_spellText {rest : List Char} (hRest : EndsText rest) (t : List Char) (d : Draft)
    (line : Nat) :
    readFrom d line (spellText t ++ rest)
      = readFrom { d with text := d.text ++ String.ofList t }
          (line + (spellText t).count '\n') rest := by
  induction t generalizing d line with
  | nil => simp [spellText]
  | cons c r ih =>
    have hText : d.text.push c ++ String.ofList r = d.text ++ String.ofList (c :: r) := by
      apply String.ext
      simp
    rw [spellText]
    split
    case isTrue =>
      -- a comment is put behind the character, and parts it from what it would have opened
      have hSplit : opens (c :: (Lexeme.emptyComment.source ++ (spellText r ++ rest))) = false :=
        opens_of_endsText (endsText_cons (.inr rfl) _) c
      rw [List.cons_append, List.append_assoc, readFrom_char hSplit, readFrom_emptyComment, ih,
        hText]
      congr 1
      simp [Lexeme.lines, Lexeme.source, List.count_cons]
      omega
    -- nothing to part: the character opens nothing, with the spelling behind it as with the text
    case isFalse hOpens =>
      have hPlain := opens_cons_spellText hRest ((Bool.not_eq_true _).mp hOpens)
      rw [List.cons_append, readFrom_char hPlain, ih, hText]
      congr 1
      simp [Lexeme.lines, Lexeme.source, List.count_cons]
      omega

-- ---------------------------------------------------------------------------
-- Nodes
-- ---------------------------------------------------------------------------

/-- A list of nodes that does not start with text is spelled with a construct first. -/
theorem endsText_of_spells {nodes : List Node} {s : List Char} (h : Spells nodes s)
    (hNodes : startsWithText nodes = false) {rest : List Char} (hRest : EndsText rest) :
    EndsText (s ++ rest) := by
  cases h with
  | nil => exact hRest
  | text => simp [startsWithText, Node.isText] at hNodes
  | interpolation => exact endsText_cons (.inl rfl) _
  | conditional => exact endsText_cons (.inr rfl) _
  | branching => exact endsText_cons (.inr rfl) _

/-- Everything but a character ends the text in front of it. -/
theorem endsText_source {l : Lexeme} (hl : ∀ c, l ≠ .char c) (rest : List Char) :
    EndsText (l.source ++ rest) := by
  cases l with
  | char c => exact absurd rfl (hl c)
  | interpolation => exact endsText_cons (.inl rfl) _
  | comment => exact endsText_cons (.inr rfl) _
  | closing => exact endsText_cons (.inr rfl) _
  | opening => exact endsText_cons (.inr rfl) _

/-- In any draft with that many open conditionals, reading the source hangs the nodes into the draft
and goes on where the source ends. -/
def Reads (opened : Nat) (nodes : List Node) (s : List Char) : Prop :=
  ∀ (d : Draft) (line : Nat) (rest : List Char), d.opened.length = opened → EndsText rest →
    readFrom d line (s ++ rest) = readFrom (nodes.foldl Draft.hang d) (line + s.count '\n') rest

namespace Reads

variable {opened : Nat}

theorem nil : Reads opened [] [] :=
  fun _ _ _ _ _ => rfl

/-- One node and then the others. -/
theorem cons {n : Node} {nodes : List Node} {x s : List Char}
    (hNode : ∀ (d : Draft) (line : Nat) (rest : List Char), d.opened.length = opened →
      EndsText rest → readFrom d line (x ++ (s ++ rest))
        = readFrom (d.hang n) (line + x.count '\n') (s ++ rest))
    (hNodes : Reads opened nodes s) : Reads opened (n :: nodes) (x ++ s) := by
  intro d line rest hOpened hRest
  have hHang : (d.hang n).opened.length = opened := by rw [Draft.length_opened_hang, hOpened]
  rw [List.append_assoc, hNode d line rest hOpened hRest, hNodes _ _ rest hHang hRest,
    List.count_append, Nat.add_assoc, List.foldl_cons]

/-- A text is read, if what follows ends it. -/
theorem text {content : String} {nodes : List Node} {s : List Char}
    (hEnds : ∀ rest, EndsText rest → EndsText (s ++ rest)) (hNodes : Reads opened nodes s) :
    Reads opened (.text content :: nodes) (spellText content.toList ++ s) := by
  refine cons ?_ hNodes
  intro d line rest _ hRest
  rw [readFrom_spellText (hEnds rest hRest), String.ofList_toList]
  rfl

/-- An interpolation is read. -/
theorem interpolation {i : Interpolation} {nodes : List Node} {inner s : List Char}
    (hInner : SpellsInterpolation i inner) (hPath : i.path.isValid = true)
    (hNodes : Reads opened nodes s) :
    Reads opened (.interpolation i :: nodes) ((Lexeme.interpolation inner).source ++ s) := by
  refine cons ?_ hNodes
  intro d line rest _ _
  exact readFrom_interpolation hInner hPath d line (s ++ rest)

section Conditional

variable {c : Condition} {thenNodes : List Node} {opening thenSource : List Char}
  (hOpening : SpellsOpening c opening) (hPath : c.path.isValid = true)
  (hDepth : opened < maxNesting) (hRegular : Node.areRegular thenNodes = true)
  (hThen : Reads (opened + 1) thenNodes thenSource)

include hOpening hPath hDepth hRegular hThen

/-- From an opening tag to the tag that ends the then branch. -/
theorem branch (d : Draft) (hOpened : d.opened.length = opened) (line : Nat) {rest : List Char}
    (hRest : EndsText rest) :
    ∃ d' : Draft,
      readFrom d line ((Lexeme.opening opening).source ++ (thenSource ++ rest))
        = readFrom d' (line + (Lexeme.opening opening).lines + thenSource.count '\n') rest ∧
      d'.flush = d.inside { condition := c, line, thenNodes, elseNodes := none } := by
  let o : OpenConditional := { condition := c, line, thenNodes := [], elseNodes := none }
  have hInside : (d.inside o).opened.length = opened + 1 := by
    rw [Draft.length_opened_inside, hOpened]
  refine ⟨thenNodes.foldl Draft.hang (d.inside o), ?_, ?_⟩
  · rw [readFrom_opening hOpening hPath (by omega), hThen _ _ rest hInside hRest]
  · rw [Draft.flush_foldl_hang_inside hRegular, OpenConditional.foldl_add_then rfl]
    rfl

/-- A conditional without a second branch is read. -/
theorem conditional {closing : List Char} (hClosing : SpellsTag "if" closing) {nodes : List Node}
    {s : List Char} (hNodes : Reads opened nodes s) :
    Reads opened (.conditional c thenNodes [] :: nodes)
      ((Lexeme.opening opening).source ++ thenSource ++ (Lexeme.closing closing).source ++ s) := by
  refine cons ?_ hNodes
  intro d line rest hOpened _
  have hEnds := endsText_source (l := .closing closing) (by simp) (s ++ rest)
  obtain ⟨d', hRead, hFlush⟩ :=
    branch hOpening hPath hDepth hRegular hThen d hOpened line hEnds
  rw [List.append_assoc, List.append_assoc, hRead, readFrom_closing hClosing hFlush]
  congr 1
  simp only [Lexeme.lines, List.count_append]
  omega

/-- A conditional with two branches is read. -/
theorem branching {turning closing elseSource : List Char} {elseNodes : List Node}
    (hTurning : SpellsTag "else" turning) (hRegularElse : Node.areRegular elseNodes = true)
    (hElse : Reads (opened + 1) elseNodes elseSource) (hClosing : SpellsTag "if" closing)
    {nodes : List Node} {s : List Char} (hNodes : Reads opened nodes s) :
    Reads opened (.conditional c thenNodes elseNodes :: nodes)
      ((Lexeme.opening opening).source ++ thenSource ++ (Lexeme.opening turning).source ++
        elseSource ++ (Lexeme.closing closing).source ++ s) := by
  refine cons ?_ hNodes
  intro d line rest hOpened _
  let o : OpenConditional := { condition := c, line, thenNodes, elseNodes := some [] }
  have hInside : (d.inside o).opened.length = opened + 1 := by
    rw [Draft.length_opened_inside, hOpened]
  have hEndsElse := endsText_source (l := .closing closing) (by simp) (s ++ rest)
  have hEndsThen := endsText_source (l := .opening turning) (by simp)
    (elseSource ++ ((Lexeme.closing closing).source ++ (s ++ rest)))
  obtain ⟨d', hRead, hFlush⟩ :=
    branch hOpening hPath hDepth hRegular hThen d hOpened line hEndsThen
  -- the second branch is complete when its pending text is added
  have hFlushElse : (elseNodes.foldl Draft.hang (d.inside o)).flush
      = d.inside { o with elseNodes := some elseNodes } := by
    rw [Draft.flush_foldl_hang_inside hRegularElse, OpenConditional.foldl_add_else rfl]
    rfl
  rw [List.append_assoc, List.append_assoc, List.append_assoc, List.append_assoc, hRead,
    readFrom_turning hTurning hFlush rfl, hElse _ _ _ hInside hEndsElse,
    readFrom_closing hClosing hFlushElse]
  congr 1
  simp only [Lexeme.lines, List.count_append]
  omega

end Conditional

end Reads

/-- **Nodes.** Every spelling of regular nodes is read as these nodes, where the nesting that is
left allows it. -/
theorem reads_of_spells {nodes : List Node} {s : List Char} (h : Spells nodes s)
    (hRegular : Node.areRegular nodes = true) {opened : Nat}
    (hDepth : opened + Node.depthOfList nodes ≤ maxNesting) : Reads opened nodes s := by
  -- one case per construct, each of which is read in front of any continuation
  induction h generalizing opened with
  | nil => exact .nil
  | text hSpells ih =>
    obtain ⟨-, hNext, hNodes⟩ := Node.areRegular_cons.1 hRegular
    simp only [Node.depthOfList] at hDepth
    -- regular: no text behind a text, so the next node ends it
    exact .text (fun _ => endsText_of_spells hSpells (hNext rfl)) (ih hNodes (by omega))
  | interpolation hInner _ ih =>
    obtain ⟨hPath, -, hNodes⟩ := Node.areRegular_cons.1 hRegular
    simp only [Node.depthOfList] at hDepth
    exact .interpolation hInner hPath (ih hNodes (by omega))
  | conditional hOpening _ hClosing _ ihThen ih =>
    obtain ⟨hNode, -, hNodes⟩ := Node.areRegular_cons.1 hRegular
    obtain ⟨hPath, hThen, -⟩ := Node.isRegular_conditional.1 hNode
    simp only [Node.depthOfList, Node.depth] at hDepth
    exact .conditional hOpening hPath (by omega) hThen (ihThen hThen (by omega)) hClosing
      (ih hNodes (by omega))
  | branching hOpening _ hTurning _ hClosing _ ihThen ihElse ih =>
    obtain ⟨hNode, -, hNodes⟩ := Node.areRegular_cons.1 hRegular
    obtain ⟨hPath, hThen, hElse⟩ := Node.isRegular_conditional.1 hNode
    simp only [Node.depthOfList, Node.depth] at hDepth
    exact .branching hOpening hPath (by omega) hThen (ihThen hThen (by omega)) hTurning hElse
      (ihElse hElse (by omega)) hClosing (ih hNodes (by omega))

/-- **The round trip.** A normal tree that is written in any way is read back. -/
theorem parse_spells (name : String) {nodes : List Node} {source : String}
    (hNormal : isNormal nodes = true) (hSpells : Spells nodes source.toList) :
    parse name source = .ok nodes := by
  obtain ⟨hRegular, hDepth⟩ := isNormal_iff.1 hNormal
  have hReads : Reads 0 nodes source.toList := reads_of_spells hSpells hRegular (by omega)
  have hRead := hReads .blank 1 [] rfl endsText_nil
  rw [List.append_nil, readFrom_nil, Draft.finish_foldl_hang hRegular] at hRead
  rw [parse, hRead]
  rfl

/-- Blanks where they are allowed, an opener inside text, a literal that holds the mark of its own
end, and an else branch with a conditional of its own. -/
theorem parse_spells_layout :
    parse "greeting"
        "$<#---->\x7b<$\x7bb .0! \"\x7d\\\"\"\x7d<#if\u2003! c ?? >$<# else ><#if d></#if ></#if>"
      = .ok [.text "$\x7b<",
          .interpolation { path := ["b", "0"], fallback := .literal "\x7d\"" },
          .conditional { path := ["c"], negated := true, existsOnly := true } [.text "$"]
            [.conditional { path := ["d"], negated := false, existsOnly := false } [] []]] := by
  have hNil : isBlank [] = true := rfl
  have hOne : isBlank [' '] = true := rfl
  have hInterpolation : SpellsInterpolation
      { path := ["b", "0"], fallback := .literal "\x7d\"" } _ :=
    ⟨_, _, .dot hNil hOne (.last hNil hNil), .literal hOne hNil, rfl⟩
  have hInner : Spells
      [.conditional { path := ["d"], negated := false, existsOnly := false } [] []] _ :=
    .conditional ⟨[], ' ', _, hNil, rfl, ⟨_, _, _, .absent, .last hNil hNil, .absent, rfl⟩, rfl⟩
      .nil ⟨[], [' '], hNil, hOne, rfl⟩ .nil
  have hOuter : Spells
      [.conditional { path := ["c"], negated := true, existsOnly := true } [.text "$"]
        [.conditional { path := ["d"], negated := false, existsOnly := false } [] []]] _ :=
    .branching
      ⟨[], '\u2003', _, hNil, by decide,
        ⟨_, _, _, .present hNil, .last hOne hOne, .present hOne, rfl⟩, rfl⟩
      (.text .nil) ⟨[' '], [' '], hOne, hOne, rfl⟩ hInner ⟨[], [], hNil, hNil, rfl⟩ .nil
  exact parse_spells "greeting" (by decide) (.text (.interpolation hInterpolation hOuter))

end RuleBlocks.Template
