import RuleBlocks.Template.Basic

/-!
# What a rendering depends on

A template can look at its context only through the paths that it names, and whether a value is null
or missing makes no difference anywhere: to the default of an interpolation, to a presence test, to
the truth of a condition or its negation. So two contexts that agree at the paths of a template are
the same to it, whatever else they hold, and however far apart they are in shape.

That null and a missing value look the same is settled once, for a look-up (`AgreeAt.present?_eq`).
Everything that rendering does is then a function of what `present?` finds.

* `IsAbsent`, `AgreeAt` — when two contexts look the same at a path;
* `AgreeAt.holds_eq`, `AgreeAt.render_eq` — conditions and interpolations look at nothing else;
* `renderNodes_eq_of_agreeAt` — nor do nodes, on any branch;
* `render_eq_of_agreeAt` — **a template reads only the variables that it names**.
-/

namespace RuleBlocks

namespace Template

-- ---------------------------------------------------------------------------
-- Contexts that look the same
-- ---------------------------------------------------------------------------

/-- Nothing stands at the path, or null. -/
def IsAbsent (context : Json) (path : Path) : Prop :=
  lookUp context path = none ∨ lookUp context path = some .null

/-- The two contexts have equal values at the path, or none but null. Values are equal if they are
written the same way, so the order of keys and the sign of a zero count. -/
def AgreeAt (a b : Json) (path : Path) : Prop :=
  lookUp a path = lookUp b path ∨ (IsAbsent a path ∧ IsAbsent b path)

/-- Objects with the same keys in another order are other values, and are written in another way. -/
example :
    let a := Json.object [("v", .object [("x", .nat 1), ("y", .nat 2)])]
    let b := Json.object [("v", .object [("y", .nat 2), ("x", .nat 1)])]
    let v : Interpolation := { path := ["v"], fallback := .required }
    v.render a = .ok "\x7b\"x\":1,\"y\":2\x7d" ∧ v.render b = .ok "\x7b\"y\":2,\"x\":1\x7d" :=
  ⟨rfl, rfl⟩

/-- A null is found as little as nothing. -/
theorem present?_of_isAbsent {context : Json} {path : Path} (h : IsAbsent context path) :
    present? context path = none := by
  rcases h with h | h
  · rw [present?, h, Option.filter_none]
  · rw [present?, h]
    rfl

/-- Null is not true, so a condition sees no value that is not present. -/
theorem any_isTruthy_lookUp (context : Json) (path : Path) :
    (lookUp context path).any isTruthy = (present? context path).any isTruthy := by
  rw [present?]
  cases lookUp context path with
  | none => rfl
  | some v => cases v <;> rfl

variable {a b : Json}

namespace AgreeAt

/-- **In contexts that agree at a path the same value is found**, or none. -/
theorem present?_eq {path : Path} (h : AgreeAt a b path) : present? a path = present? b path := by
  rcases h with hSame | ⟨ha, hb⟩
  · rw [present?, present?, hSame]
  · rw [present?_of_isAbsent ha, present?_of_isAbsent hb]

theorem holds_eq {c : Condition} (h : AgreeAt a b c.path) : c.holds a = c.holds b := by
  rw [Condition.holds, Condition.holds, any_isTruthy_lookUp, any_isTruthy_lookUp, h.present?_eq]

/-- An interpolation looks at its path only. -/
theorem render_eq {i : Interpolation} (h : AgreeAt a b i.path) : i.render a = i.render b := by
  rw [Interpolation.render, Interpolation.render, h.present?_eq]

end AgreeAt

-- ---------------------------------------------------------------------------
-- Nodes
-- ---------------------------------------------------------------------------

mutual

/-- A node is rendered alike where the contexts agree at its paths. -/
theorem renderNode_eq_of_agreeAt (n : Node) (h : ∀ path ∈ n.paths, AgreeAt a b path) :
    renderNode a n = renderNode b n := by
  cases n with
  | text content => rfl
  | interpolation i =>
    rw [renderNode, renderNode]
    exact (h i.path (by simp [Node.paths])).render_eq
  | conditional c thenNodes elseNodes =>
    rw [Node.paths, List.forall_mem_cons, List.forall_mem_append] at h
    obtain ⟨hCondition, hThen, hElse⟩ := h
    -- the branch that is taken is the same, and which one it is does not matter
    rw [renderNode, renderNode, hCondition.holds_eq, renderNodes_eq_of_agreeAt thenNodes hThen,
      renderNodes_eq_of_agreeAt elseNodes hElse]

/-- So are nodes that follow each other. -/
theorem renderNodes_eq_of_agreeAt (nodes : List Node)
    (h : ∀ path ∈ Node.pathsOfList nodes, AgreeAt a b path) :
    renderNodes a nodes = renderNodes b nodes := by
  cases nodes with
  | nil => rfl
  | cons n rest =>
    rw [Node.pathsOfList, List.forall_mem_append] at h
    rw [renderNodes, renderNodes, renderNode_eq_of_agreeAt n h.1,
      renderNodes_eq_of_agreeAt rest h.2]

end

end Template

open Template

/-- **A template reads only the variables that it names.** Two contexts that agree at every path of
a template, in interpolations and in conditions and on any branch, are rendered alike: to the same
text, or to the same error. -/
theorem render_eq_of_agreeAt (t : Template) {a b : Json}
    (hAgree : ∀ path ∈ Node.pathsOfList t.nodes, AgreeAt a b path) : t.render a = t.render b := by
  rw [Template.render, Template.render, renderNodes_eq_of_agreeAt t.nodes hAgree]

/-- A null in one context and nothing in the other, a null in a list where the other has an object
without that key, and a key that the template does not name. -/
theorem render_eq_of_agreeAt_null :
    let t : Template :=
      { name := "note"
        source := "<#if !a>$\x7bb.0!\"-\"\x7d</#if>$\x7bc\x7d"
        nodes :=
          [.conditional { path := ["a"], negated := true, existsOnly := false }
            [.interpolation { path := ["b", "0"], fallback := .literal "-" }] [],
          .interpolation { path := ["c"], fallback := .required }] }
    let a := Json.object
      [("a", .null), ("b", .array [.null]), ("c", .nat 1), ("d", .bool true)]
    let b := Json.object [("b", .emptyObject), ("c", .nat 1)]
    (∀ path ∈ Node.pathsOfList t.nodes, AgreeAt a b path) ∧ t.render a = t.render b ∧
      t.render a = .ok "-1" := by
  intro t a b
  have hAgree : ∀ path ∈ Node.pathsOfList t.nodes, AgreeAt a b path := by
    change ∀ path ∈ [["a"], ["b", "0"], ["c"]], AgreeAt a b path
    simp only [List.forall_mem_cons]
    refine ⟨.inr ⟨.inr rfl, .inl rfl⟩, .inr ⟨.inr rfl, .inl rfl⟩, .inl rfl, ?_⟩
    exact fun _ h => absurd h List.not_mem_nil
  exact ⟨hAgree, render_eq_of_agreeAt t hAgree, rfl⟩

end RuleBlocks
