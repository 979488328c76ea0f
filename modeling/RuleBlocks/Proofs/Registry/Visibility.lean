import RuleBlocks.Proofs.Function.Builtins
import RuleBlocks.Proofs.Registry.Compilation

/-!
# Internal functions are not seen

Internal functions share their names with everything else: a fragment may take the place of one, and
templates are compiled from the views that hold them too. Still nothing that users see depends on
them. The views for users are made of the public functions alone, and these are what was contributed
as public, in that order. And a template comes from a fragment, never from a function; the last
block of a name that is a fragment is the last fragment of the name, whatever functions stand before.

* `Contribution.publicDescriptors` — the functions that a contribution shows;
* `FunctionCatalog.all_of_collect` — they are the public functions of the catalog;
* `exists_lastNamed_iff` — which block has a source does not depend on the functions;
* `Snapshot.ShowsSame` — two snapshots that users cannot tell apart;
* `internal_functions_unseen` — snapshots with the same public functions are such.
-/

namespace RuleBlocks

-- ---------------------------------------------------------------------------
-- Public functions
-- ---------------------------------------------------------------------------

/-- The functions of a contribution that users may be shown. -/
def Contribution.publicDescriptors : Contribution → List FunctionDescriptor
  | declared d => if d.isInternal then [] else [d]
  | hidden _ => []
  | plugin ds => ds.filter (!·.isInternal)

/-- What is shown of a contribution are its public descriptors. -/
theorem Contribution.filter_descriptors (c : Contribution) :
    c.descriptors.filter (!·.isInternal) = c.publicDescriptors := by
  cases c with
  | declared d =>
    cases hInternal : d.isInternal <;> simp [descriptors, publicDescriptors, hInternal]
  | hidden d => rfl
  | plugin ds => rfl

theorem FunctionCatalog.all_of_collect {contributions : List Contribution} {c : FunctionCatalog}
    (h : collect contributions = .ok c) :
    c.all = contributions.flatMap Contribution.publicDescriptors := by
  rw [all_of_build h, List.filter_flatMap]
  exact congrArg (contributions.flatMap ·) (funext Contribution.filter_descriptors)

/-- A configuration shows none of the functions that it adds, whatever they say themselves. -/
theorem PluginSettings.filter_functions (s : PluginSettings) :
    s.functions.filter (!·.isInternal) = [] := by
  rw [List.filter_eq_nil_iff, functions, List.forall_mem_map]
  intro d _
  simp [FunctionDescriptor.makeInternal, FunctionDescriptor.isInternal]

-- ---------------------------------------------------------------------------
-- Blocks with a source
-- ---------------------------------------------------------------------------

/-- The last block of a name is among the later ones, if one of them has it. -/
theorem lastNamed_append (name : String) (before after : List BuildingBlock) :
    lastNamed name (before ++ after) = (lastNamed name after).or (lastNamed name before) := by
  rw [lastNamed, List.reverse_append, List.find?_append]
  rfl

/-- Whether the last block of a name has a property that only blocks with a source can have is
decided by the fragments. -/
theorem exists_lastNamed_iff {p : BuildingBlock → Prop} (hp : ∀ b, p b → b.source ≠ none)
    (name : String) (functions : List FunctionDescriptor) (fragments : List BuildingBlock) :
    (∃ b, lastNamed name (enabledBlocks functions fragments) = some b ∧ p b) ↔
      ∃ b, lastNamed name (fragments.filter (·.enabled)) = some b ∧ p b := by
  rw [enabledBlocks, List.filter_append, lastNamed_append]
  cases hLast : lastNamed name (fragments.filter (·.enabled)) with
  | some b => rfl
  | none =>
    refine iff_of_false ?_ (by simp)
    rintro ⟨b, hFunction, hb⟩
    rw [Option.none_or] at hFunction
    -- no fragment has the name, so it is a function: and functions have no source
    obtain ⟨d, -, rfl⟩ := List.mem_map.mp (List.mem_filter.mp (of_lastNamed hFunction).1).1
    exact hp _ hb rfl

/-- Only a block with a source has a template. -/
theorem BuildingBlock.source_ne_none_of_template? {b : BuildingBlock} {name : String} {t : Template}
    (h : b.template? name = some t) : b.source ≠ none := by
  intro hSource
  simp [template?, hSource] at h

theorem BuildingBlock.source_ne_none_of_templateError? {b : BuildingBlock} {name : String}
    {e : TemplateError} (h : b.templateError? name = some e) : b.source ≠ none := by
  intro hSource
  simp [templateError?, hSource] at h

-- ---------------------------------------------------------------------------
-- Snapshots
-- ---------------------------------------------------------------------------

/-- The names of the templates, with their sources. -/
def TemplateEngine.sources (e : TemplateEngine) : List (String × String) :=
  e.templates.values.map fun t => (t.name, t.source)

/-- Users cannot tell the snapshots apart: the views are the same, in the same order, and there are
the same templates and errors, perhaps in another order. -/
structure Snapshot.ShowsSame (s t : Snapshot) : Prop where
  conditions : s.conditions = t.conditions
  actions : s.actions = t.actions
  templates : ∀ template, template ∈ s.templates.sources ↔ template ∈ t.templates.sources
  errors : ∀ e, e ∈ s.fragmentErrors ↔ e ∈ t.fragmentErrors

/-- What is shown depends on a catalog only by its public functions. -/
theorem showsSame_of_all_eq {c d : FunctionCatalog} (h : c.all = d.all)
    (fragments : List BuildingBlock) (generation : Nat) :
    (Snapshot.build c fragments generation).ShowsSame (Snapshot.build d fragments generation) := by
  have hViews : Views.classify c.all fragments = Views.classify d.all fragments := by rw [h]
  -- templates and errors come from fragments, which are the same on both sides
  have hTemplate : ∀ name t,
      (name, t) ∈ (Snapshot.build c fragments generation).templates.templates.entries ↔
        (name, t) ∈ (Snapshot.build d fragments generation).templates.templates.entries := by
    intro name t
    have hSource : ∀ b : BuildingBlock, b.template? name = some t → b.source ≠ none :=
      fun _ => BuildingBlock.source_ne_none_of_template?
    rw [mem_templates_build, mem_templates_build, exists_lastNamed_iff hSource,
      exists_lastNamed_iff hSource]
  refine ⟨congrArg Views.conditions hViews, congrArg Views.actions hViews, ?_, ?_⟩
  · intro template
    simp only [TemplateEngine.sources, Named.values, List.mem_map, Prod.exists, hTemplate]
  · intro e
    have hSource : ∀ b : BuildingBlock, b.templateError? e.name = some e.error → b.source ≠ none :=
      fun _ => BuildingBlock.source_ne_none_of_templateError?
    rw [mem_fragmentErrors_build, mem_fragmentErrors_build, exists_lastNamed_iff hSource,
      exists_lastNamed_iff hSource]

/--
**Internal functions are not seen.** Snapshots of two catalogs show the same to users if the public
functions among what was contributed are the same, whatever internal functions were contributed, and
wherever they stood. In particular the functions that a configuration adds could as well be missing.
-/
theorem internal_functions_unseen :
    (∀ (first second : List Contribution) (c d : FunctionCatalog),
      FunctionCatalog.collect first = .ok c → FunctionCatalog.collect second = .ok d →
      first.flatMap Contribution.publicDescriptors =
        second.flatMap Contribution.publicDescriptors →
      ∀ fragments generation,
        (Snapshot.build c fragments generation).ShowsSame
          (Snapshot.build d fragments generation)) ∧
    (∀ (config : Config) (c : FunctionCatalog), config.catalog = .ok c →
      ∃ d, { config with plugins := .standard }.catalog = .ok d ∧
        ∀ fragments generation,
          (Snapshot.build c fragments generation).ShowsSame
            (Snapshot.build d fragments generation)) := by
  constructor
  · intro first second c d hFirst hSecond hPublic fragments generation
    refine showsSame_of_all_eq ?_ fragments generation
    rw [FunctionCatalog.all_of_collect hFirst, FunctionCatalog.all_of_collect hSecond, hPublic]
  · intro config c hCatalog
    obtain ⟨ds, hRead, -, -⟩ := Builtin.exists_descriptors
    rw [Config.catalog_eq_build hRead] at hCatalog
    obtain ⟨d, hBuild⟩ := FunctionCatalog.exists_build_of_append hCatalog
    refine ⟨d, ?_, fun fragments generation => showsSame_of_all_eq ?_ fragments generation⟩
    · rw [Config.catalog_eq_build hRead]
      exact (congrArg FunctionCatalog.build (List.append_nil ds)).trans hBuild
    · rw [FunctionCatalog.all_of_build hCatalog, FunctionCatalog.all_of_build hBuild,
        List.filter_append, PluginSettings.filter_functions, List.append_nil]

/-- An internal condition before a public one, and an internal action of a plugin after it; and a
configuration that adds a function which calls itself public. -/
theorem internal_functions_unseen_probe :
    let shown := (FunctionDescriptor.ofType "is_null" .boolean).enable
    let probe := (FunctionDescriptor.ofType "probe" .boolean).enable
    let first := [Contribution.hidden probe, .declared shown]
    let trace := (FunctionDescriptor.ofType "trace" .void).makeInternal
    let second := [Contribution.plugin [shown, trace]]
    let config := { Config.standard with plugins := { internalFunctions := [probe] } }
    (∃ c d, FunctionCatalog.collect first = .ok c ∧ FunctionCatalog.collect second = .ok d ∧
      first.flatMap Contribution.publicDescriptors =
        second.flatMap Contribution.publicDescriptors ∧
      ∀ fragments generation,
        (Snapshot.build c fragments generation).ShowsSame
          (Snapshot.build d fragments generation)) ∧
    (∃ c d, config.catalog = .ok c ∧ { config with plugins := .standard }.catalog = .ok d ∧
      ∀ fragments generation,
        (Snapshot.build c fragments generation).ShowsSame
          (Snapshot.build d fragments generation)) := by
  intro shown probe first trace second config
  constructor
  · obtain ⟨c, hFirst⟩ : ∃ c, FunctionCatalog.collect first = .ok c :=
      FunctionCatalog.exists_build_iff.mpr ⟨by decide +kernel, by decide⟩
    obtain ⟨d, hSecond⟩ : ∃ d, FunctionCatalog.collect second = .ok d :=
      FunctionCatalog.exists_build_iff.mpr ⟨by decide +kernel, by decide⟩
    have hPublic : first.flatMap Contribution.publicDescriptors =
        second.flatMap Contribution.publicDescriptors := by decide
    exact ⟨c, d, hFirst, hSecond, hPublic,
      internal_functions_unseen.1 first second c d hFirst hSecond hPublic⟩
  · obtain ⟨c, hCatalog⟩ : ∃ c, config.catalog = .ok c :=
      (Config.exists_catalog_iff config).mpr ⟨by decide +kernel, by decide, by decide +kernel⟩
    obtain ⟨d, hWithout, hSame⟩ := internal_functions_unseen.2 config c hCatalog
    exact ⟨c, d, hCatalog, hWithout, hSame⟩

end RuleBlocks
