import RuleBlocks.Proofs.Template.Dependence
import RuleBlocks.Proofs.Template.Literal

/-!
# When rendering fails

Rendering goes through a template from left to right and takes, at each conditional, the branch that
its condition selects. So what it comes by is a plain sequence of texts and interpolations, the tree
with the branches left out that are not taken, and it could as well be rendered in place of the
template. In a plain sequence it is clear where rendering stops: at the first interpolation that
needs its variable and does not find it.

* `Node.takenOfList`, `renderNodes_takenOfList` — what is left of a tree for a context;
* `Node.visited` — the interpolations that rendering comes by, one after the other;
* `Interpolation.Misses` — an interpolation without a default, and no value for it;
* `renderNodes_eq_error_iff` — nodes fail at the first interpolation that misses its variable;
* `render_stops_at_first_missing` — **when rendering fails**.
-/

namespace RuleBlocks

namespace Template

-- ---------------------------------------------------------------------------
-- The branches that are taken
-- ---------------------------------------------------------------------------

mutual

/-- The texts and interpolations of a node, on the branches that the conditions select. -/
def Node.taken (context : Json) : Node → List Node
  | .text content => [.text content]
  | .interpolation i => [.interpolation i]
  | .conditional c thenNodes elseNodes =>
    if c.holds context then Node.takenOfList context thenNodes
    else Node.takenOfList context elseNodes

def Node.takenOfList (context : Json) : List Node → List Node
  | [] => []
  | n :: rest => n.taken context ++ Node.takenOfList context rest

end

/-- The interpolations on the branches that the conditions select, from left to right. -/
def Node.visited (context : Json) (nodes : List Node) : List Interpolation :=
  Node.interpolationsOfList (Node.takenOfList context nodes)

theorem interpolationsOfList_append (first second : List Node) :
    Node.interpolationsOfList (first ++ second) =
      Node.interpolationsOfList first ++ Node.interpolationsOfList second := by
  induction first with
  | nil => rfl
  | cons n rest ih => simp only [List.cons_append, Node.interpolationsOfList, ih, List.append_assoc]

/-- Those of the first node are visited first. -/
theorem visited_cons (context : Json) (n : Node) (rest : List Node) :
    Node.visited context (n :: rest) =
      Node.interpolationsOfList (n.taken context) ++ Node.visited context rest := by
  rw [Node.visited, Node.takenOfList, interpolationsOfList_append, Node.visited]

mutual

/-- Every interpolation that rendering comes by is one of the template. -/
theorem taken_subset (context : Json) (n : Node) :
    Node.interpolationsOfList (n.taken context) ⊆ n.interpolations := by
  cases n with
  | text content => simp [Node.taken, Node.interpolationsOfList, Node.interpolations]
  | interpolation i => simp [Node.taken, Node.interpolationsOfList, Node.interpolations]
  | conditional c thenNodes elseNodes =>
    rw [Node.taken, Node.interpolations]
    split
    · exact List.subset_append_of_subset_left _ (visited_subset context thenNodes)
    · exact List.subset_append_of_subset_right _ (visited_subset context elseNodes)

/-- Every interpolation that is visited is in the template. -/
theorem visited_subset (context : Json) (nodes : List Node) :
    Node.visited context nodes ⊆ Node.interpolationsOfList nodes := by
  cases nodes with
  | nil => exact List.Subset.refl _
  | cons n rest =>
    rw [visited_cons, Node.interpolationsOfList]
    exact List.append_subset.mpr
      ⟨List.subset_append_of_subset_left _ (taken_subset context n),
        List.subset_append_of_subset_right _ (visited_subset context rest)⟩

end

-- ---------------------------------------------------------------------------
-- Rendering what is taken
-- ---------------------------------------------------------------------------

mutual

/-- A node is rendered as the nodes on the branches that are taken. -/
theorem renderNodes_taken (context : Json) (n : Node) :
    renderNodes context (n.taken context) = renderNode context n := by
  cases n with
  | text content => exact renderNodes_singleton context _
  | interpolation i => exact renderNodes_singleton context _
  | conditional c thenNodes elseNodes =>
    rw [Node.taken, renderNode]
    split
    · exact renderNodes_takenOfList context thenNodes
    · exact renderNodes_takenOfList context elseNodes

/-- **The branches that are taken** are all that matters. -/
theorem renderNodes_takenOfList (context : Json) (nodes : List Node) :
    renderNodes context (Node.takenOfList context nodes) = renderNodes context nodes := by
  cases nodes with
  | nil => rfl
  | cons n rest =>
    rw [Node.takenOfList, renderNodes_append, renderNodes_taken context n,
      renderNodes_takenOfList context rest, renderNodes_cons]

end

-- ---------------------------------------------------------------------------
-- The first variable that is missing
-- ---------------------------------------------------------------------------

/-- The interpolation has no default, and there is no value for it, or null. -/
def Interpolation.Misses (i : Interpolation) (context : Json) : Prop :=
  i.fallback = .required ∧ IsAbsent context i.path

/-- The same, as a check. -/
def Interpolation.misses (i : Interpolation) (context : Json) : Bool :=
  i.fallback == .required && (present? context i.path).isNone

/-- Nothing is found at a path exactly if it is absent, or null. -/
theorem present?_eq_none_iff {context : Json} {path : Path} :
    present? context path = none ↔ IsAbsent context path := by
  refine ⟨fun h => ?_, present?_of_isAbsent⟩
  rw [present?, Option.filter_eq_none_iff] at h
  cases hValue : lookUp context path with
  | none => exact .inl hValue
  | some v =>
    refine .inr (hValue.trans ?_)
    cases v with
    | null => rfl
    | _ => exact absurd rfl (h _ hValue)

/-- An interpolation misses its value if it finds none and has no default. -/
theorem Interpolation.misses_iff {i : Interpolation} {context : Json} :
    i.misses context = true ↔ i.Misses context := by
  rw [misses, Bool.and_eq_true, beq_iff_eq, Option.isNone_iff_eq_none, present?_eq_none_iff, Misses]

/-- Then, and only then, it fails, and names its path. -/
theorem Interpolation.render_eq_error_iff {i : Interpolation} {context : Json} {path : Path} :
    i.render context = .error path ↔ i.misses context = true ∧ i.path = path := by
  rw [Interpolation.render, misses]
  cases present? context i.path with
  | some v => simp
  | none => cases i.fallback <;> simp

/-- The path of the first interpolation that misses its variable. -/
def firstMissing? (context : Json) (interpolations : List Interpolation) : Option Path :=
  (interpolations.find? fun i => i.misses context).map (·.path)

/-- The first that misses its value is among the first ones, if any of them does. -/
theorem firstMissing?_append (context : Json) (first second : List Interpolation) :
    firstMissing? context (first ++ second) =
      (firstMissing? context first).or (firstMissing? context second) := by
  rw [firstMissing?, List.find?_append, Option.map_or]
  rfl

mutual

/-- A node fails at the first interpolation that misses its value. -/
theorem renderNode_eq_error_iff {context : Json} (n : Node) {path : Path} :
    renderNode context n = .error path ↔
      firstMissing? context (Node.interpolationsOfList (n.taken context)) = some path := by
  cases n with
  | text content =>
    simp [renderNode, Node.taken, Node.interpolationsOfList, Node.interpolations, firstMissing?]
  | interpolation i =>
    rw [renderNode, Interpolation.render_eq_error_iff]
    cases hMisses : i.misses context <;>
      simp [Node.taken, Node.interpolationsOfList, Node.interpolations, firstMissing?, hMisses]
  | conditional c thenNodes elseNodes =>
    rw [renderNode, Node.taken]
    split
    · exact renderNodes_eq_error_iff thenNodes
    · exact renderNodes_eq_error_iff elseNodes

/-- **The first one.** Nodes fail with the path of the first interpolation, among those that
rendering comes by, that misses its variable. -/
theorem renderNodes_eq_error_iff {context : Json} (nodes : List Node) {path : Path} :
    renderNodes context nodes = .error path ↔
      firstMissing? context (Node.visited context nodes) = some path := by
  cases nodes with
  | nil =>
    simp [renderNodes, Node.visited, Node.takenOfList, Node.interpolationsOfList, firstMissing?]
  | cons n rest =>
    rw [visited_cons, firstMissing?_append, renderNodes]
    cases hFirst : renderNode context n with
    | error p => simp [(renderNode_eq_error_iff n).mp hFirst]
    | ok text =>
      -- the first node is rendered, so nothing is missing there
      have hNone : firstMissing? context (Node.interpolationsOfList (n.taken context)) = none := by
        refine Option.eq_none_iff_forall_ne_some.mpr fun p hMissing => ?_
        rw [(renderNode_eq_error_iff n).mpr hMissing] at hFirst
        cases hFirst
      rw [hNone, Option.none_or, ← renderNodes_eq_error_iff rest]
      cases renderNodes context rest <;> simp

end

/-- All in front of the first that misses its value have theirs. -/
theorem firstMissing?_eq_some_iff {context : Json} {interpolations : List Interpolation}
    {path : Path} :
    firstMissing? context interpolations = some path ↔
      ∃ before i after, interpolations = before ++ i :: after ∧ i.Misses context ∧
        (∀ j ∈ before, ¬ j.Misses context) ∧ i.path = path := by
  rw [firstMissing?, Option.map_eq_some_iff]
  simp only [List.find?_eq_some_iff_append, Bool.not_eq_true', ← Bool.not_eq_true,
    Interpolation.misses_iff]
  constructor
  · rintro ⟨i, ⟨hMisses, before, after, hSplit, hBefore⟩, hPath⟩
    exact ⟨before, i, after, hSplit, hMisses, hBefore, hPath⟩
  · rintro ⟨before, i, after, hSplit, hMisses, hBefore, hPath⟩
    exact ⟨i, ⟨hMisses, before, after, hSplit, hBefore⟩, hPath⟩

end Template

open Template

section Template

variable (t : Template) (context : Json)

/-- A template fails with the path of that interpolation, under its own name. -/
theorem render_eq_error_iff_firstMissing {e : TemplateError} :
    t.render context = .error e ↔
      ∃ path, firstMissing? context (Node.visited context t.nodes) = some path ∧
        e = .missingVariable t.name (Path.dotted path) := by
  simp only [← renderNodes_eq_error_iff]
  rw [Template.render]
  cases renderNodes context t.nodes <;> simp [Except.mapError, eq_comm]

/--
**When rendering fails.** Rendering a template goes through the interpolations on the branches that
the conditions select, from left to right. It fails exactly if one of them has no default and finds
nothing in the context or null; and then the error is that the variable of the first of them is
missing, with the names of the template and of the variable. So a template whose interpolations all
have defaults is rendered for every context. And what stands on the other branches does not matter:
a template of the same name that has the same text and interpolations left is rendered to the same
text, or fails with the same error.
-/
theorem render_stops_at_first_missing :
    (∀ e, t.render context = .error e ↔
      ∃ before i after, Node.visited context t.nodes = before ++ i :: after ∧
        i.Misses context ∧ (∀ j ∈ before, ¬ j.Misses context) ∧
        e = .missingVariable t.name (Path.dotted i.path)) ∧
    ((∀ i ∈ Node.interpolationsOfList t.nodes, i.fallback ≠ .required) →
      ∃ text, t.render context = .ok text) ∧
    ∀ other : Template, other.name = t.name →
      Node.takenOfList context other.nodes = Node.takenOfList context t.nodes →
      other.render context = t.render context := by
  have hFails (e : TemplateError) : t.render context = .error e ↔
      ∃ before i after, Node.visited context t.nodes = before ++ i :: after ∧
        i.Misses context ∧ (∀ j ∈ before, ¬ j.Misses context) ∧
        e = .missingVariable t.name (Path.dotted i.path) := by
    simp only [render_eq_error_iff_firstMissing, firstMissing?_eq_some_iff]
    constructor
    · rintro ⟨path, ⟨before, i, after, hSplit, hMisses, hBefore, rfl⟩, rfl⟩
      exact ⟨before, i, after, hSplit, hMisses, hBefore, rfl⟩
    · rintro ⟨before, i, after, hSplit, hMisses, hBefore, rfl⟩
      exact ⟨i.path, ⟨before, i, after, hSplit, hMisses, hBefore, rfl⟩, rfl⟩
  -- what is visited has a default; and rendering sees nothing but what is visited
  refine ⟨hFails, fun hDefaults => ?_, fun other hName hTaken => ?_⟩
  · cases hRender : t.render context with
    | ok text => exact ⟨text, rfl⟩
    | error e =>
      obtain ⟨before, i, after, hSplit, hMisses, -⟩ := (hFails e).mp hRender
      have hMem : i ∈ Node.visited context t.nodes := by simp [hSplit]
      exact absurd hMisses.1 (hDefaults i (visited_subset context t.nodes hMem))
  · rw [Template.render, Template.render, ← renderNodes_takenOfList, hTaken,
      renderNodes_takenOfList, hName]

/-- The variables `b` and `f` are missing too, but the one stands on the branch that is not taken
and the other comes later; what is null in a list is missing. What is left of the template are the
interpolations of the other branch and the last one, and they fail alike. The same variables with
defaults do not fail. -/
theorem render_stops_at_first_missing_nested :
    let c : Interpolation := { path := ["c"], fallback := .required }
    let d : Interpolation := { path := ["d"], fallback := .empty }
    let e : Interpolation := { path := ["e", "0"], fallback := .required }
    let f : Interpolation := { path := ["f"], fallback := .required }
    let t : Template :=
      { name := "note"
        source := "<#if a>$\x7bb\x7d<#else>$\x7bc\x7d$\x7bd!\x7d$\x7be.0\x7d</#if>$\x7bf\x7d"
        nodes :=
          [.conditional { path := ["a"], negated := false, existsOnly := false }
            [.interpolation { path := ["b"], fallback := .required }]
            [.interpolation c, .interpolation d, .interpolation e],
          .interpolation f] }
    let left : Template :=
      { name := "note"
        source := "$\x7bc\x7d$\x7bd!\x7d$\x7be.0\x7d$\x7bf\x7d"
        nodes := [.interpolation c, .interpolation d, .interpolation e, .interpolation f] }
    let withDefaults : Template :=
      { name := "note"
        source := "$\x7be.0!\x7d$\x7bf!\"-\"\x7d"
        nodes :=
          [.interpolation { e with fallback := .empty },
            .interpolation { f with fallback := .literal "-" }] }
    let context := Json.object [("c", .nat 1), ("e", .array [.null])]
    t.render context = .error (.missingVariable "note" "e.0") ∧
      (left.name = t.name ∧
        Node.takenOfList context left.nodes = Node.takenOfList context t.nodes ∧
        left.render context = t.render context) ∧
      (∀ i ∈ Node.interpolationsOfList withDefaults.nodes, i.fallback ≠ .required) ∧
      ∃ text, withDefaults.render context = .ok text := by
  intro c d e f t left withDefaults context
  have hBefore : ∀ i ∈ [c, d], ¬ i.Misses context := by
    simp only [← Interpolation.misses_iff]
    decide
  have hFirst : t.render context = .error (.missingVariable "note" "e.0") :=
    ((render_stops_at_first_missing t context).1 _).mpr
      ⟨[c, d], e, [f], rfl, ⟨rfl, .inr rfl⟩, hBefore, rfl⟩
  have hDefaults : ∀ i ∈ Node.interpolationsOfList withDefaults.nodes, i.fallback ≠ .required := by
    decide
  exact ⟨hFirst, ⟨rfl, rfl, (render_stops_at_first_missing t context).2.2 left rfl rfl⟩, hDefaults,
    (render_stops_at_first_missing withDefaults context).2.1 hDefaults⟩

end Template

end RuleBlocks
