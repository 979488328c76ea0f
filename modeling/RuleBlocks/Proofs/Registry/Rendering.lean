import RuleBlocks.Proofs.Registry.Compilation

/-!
# What is rendered is what is listed

A snapshot renders from its compiled templates and looks blocks up in its views, which are kept
apart. They agree: whatever is rendered under a name is the source of the one block that is listed
under it. A fragment that another one has replaced, or that is not enabled, leaves no template
behind, and a block whose source does not compile does not fall back on an older one.

* `BuildingBlock.render` — what a listed block is to be rendered as, from its source alone;
* `block_build` — which block is listed under a name;
* `render_listed` — rendering by name is rendering the listed block.
-/

namespace RuleBlocks

/-- The text of the source of a block, compiled now. A block without a source, or with one that does
not compile, has no template. -/
def BuildingBlock.render (b : BuildingBlock) (name : String) (context : Json) :
    Except RegistryError String :=
  match b.source with
  | none => .error (.template (.notFound name))
  | some source =>
    match Template.compile name source with
    | .error _ => .error (.template (.notFound name))
    | .ok t => (t.render context).mapError .template

/-- To render a block is to render the template that its source compiles to. -/
theorem BuildingBlock.render_eq_of_template? (b : BuildingBlock) (name : String) (context : Json) :
    b.render name context =
      match b.template? name with
      | some t => (t.render context).mapError .template
      | none => .error (.template (.notFound name)) := by
  rw [BuildingBlock.render, BuildingBlock.template?]
  cases b.source with
  | none => rfl
  | some source => cases hCompile : Template.compile name source <;> simp [hCompile]

section Build

variable (catalog : FunctionCatalog) (fragments : List BuildingBlock) (generation : Nat)

/-- Under a name the last enabled block of that name is listed, of functions and fragments. -/
theorem block_build (name : String) :
    (Snapshot.build catalog fragments generation).block name =
      (lastNamed name (enabledBlocks catalog.allWithInternal fragments)).elim
        (.error (.unknownBlock name)) .ok := by
  have hFind : (Snapshot.build catalog fragments generation).complete.find? name =
      lastNamed name (enabledBlocks catalog.allWithInternal fragments) :=
    (Views.holds_classify _ _).find?_eq name
  rw [Snapshot.block, hFind]
  cases lastNamed name (enabledBlocks catalog.allWithInternal fragments) <;> rfl

/--
**Rendering.** The block that is listed under a name is the last enabled one of that name; there is
none exactly if the name stands on neither side of the views. A name that is not listed is unknown
to rendering, and for a listed block the text is that of its own source, as it compiles now.
-/
theorem render_listed (name : String) (context : Json) :
    let s := Snapshot.build catalog fragments generation
    (∀ b, s.block name = .ok b ↔
      lastNamed name (enabledBlocks catalog.allWithInternal fragments) = some b) ∧
    ((∃ e, s.block name = .error e) ↔
      name ∉ s.complete.conditions.names ∧ name ∉ s.complete.actions.names) ∧
    s.render name context =
      match s.block name with
      | .ok b => b.render name context
      | .error _ => .error (.unknownBlock name) := by
  intro s
  have hBlock := block_build catalog fragments generation name
  have hFind := find?_templates_build catalog fragments generation name
  have hViews := Views.holds_classify catalog.allWithInternal fragments
  have hAbsent := hViews.lastNamed_eq_none_iff name
  -- The block is the last one of its name, and so is its template, if there is one.
  cases hLast : lastNamed name (enabledBlocks catalog.allWithInternal fragments) with
  | none =>
    rw [hLast] at hBlock hFind
    rw [Option.elim_none] at hBlock
    refine ⟨fun b => ?_, ?_, ?_⟩
    · simp [s, hBlock]
    · exact iff_of_true ⟨_, hBlock⟩ (hAbsent.mp hLast)
    · rw [Snapshot.render, hFind, hBlock]
      rfl
  | some b =>
    rw [hLast] at hBlock hFind
    rw [Option.elim_some] at hBlock
    refine ⟨fun c => ?_, ?_, ?_⟩
    · simp [s, hBlock]
    · rw [hBlock]
      refine iff_of_false (by simp) fun hNames => ?_
      simp [hAbsent.mpr hNames] at hLast
    · rw [Snapshot.render, hFind, hBlock, Option.bind_some]
      change _ = b.render name context
      rw [b.render_eq_of_template? name context]
      cases b.template? name <;> rfl

end Build

end RuleBlocks
