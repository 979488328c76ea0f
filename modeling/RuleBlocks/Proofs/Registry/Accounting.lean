import RuleBlocks.Proofs.Registry.Visibility
import Mathlib.Data.List.Nodup

/-!
# Every source is accounted for

The blocks that are listed with a source are compiled one after the other, conditions before
actions. A source could get lost on the way if two blocks met under one name: the template of the
one would take the place of the other, or an error would stay of a block whose name has a template.
But no name is listed twice, so compiling splits the sources in two, those that compile and those
that do not, and each part keeps their order.

* `Snapshot.sources` — the sources that are listed, in the order of the views;
* `names_compiled`, `names_refused` — what compiling makes of them, by name;
* `Snapshot.AccountsForSources` — each source has its template or its error, and nothing else has;
* `accountsForSources_build` — every snapshot is of this kind;
* `mem_sources_of_listed` — which sources are listed does not depend on the functions.
-/

namespace RuleBlocks

-- ---------------------------------------------------------------------------
-- Sources
-- ---------------------------------------------------------------------------

/-- The source that is listed in an entry of a view, with the name that it stands under. -/
def entrySource? (e : String × BuildingBlock) : Option (String × String) :=
  e.2.source.map fun source => (e.1, source)

/-- The sources that are listed, internal functions or not: those of conditions, and then those of
actions. -/
def Snapshot.sources (s : Snapshot) : List (String × String) :=
  (s.complete.conditions.entries ++ s.complete.actions.entries).filterMap entrySource?

/-- The source compiles under its name. -/
def compiles (e : String × String) : Bool :=
  (Template.compile e.1 e.2).isOk

/-- The template of a source, under its name. -/
def templateOfSource? (e : String × String) : Option (String × Template) :=
  (Template.compile e.1 e.2).toOption.map fun t => (e.1, t)

/-- The error of a source, with its name. -/
def errorOfSource? (e : String × String) : Option FragmentError :=
  match Template.compile e.1 e.2 with
  | .ok _ => none
  | .error error => some { name := e.1, error }

/-- A source compiles if there is a template that it compiles to. -/
theorem compiles_iff {e : String × String} :
    compiles e = true ↔ ∃ t, Template.compile e.1 e.2 = .ok t := by
  rw [compiles]
  cases Template.compile e.1 e.2 <;> simp [Except.isOk, Except.toBool]

/-- A source gives the template that it compiles to, under its own name. -/
theorem templateOfSource?_eq_some_iff {e : String × String} {name : String} {t : Template} :
    templateOfSource? e = some (name, t) ↔ e.1 = name ∧ Template.compile e.1 e.2 = .ok t := by
  rw [templateOfSource?]
  cases Template.compile e.1 e.2 <;> simp [Except.toOption]

/-- A source gives the error that it does not compile for, under its own name. -/
theorem errorOfSource?_eq_some_iff {e : String × String} {error : FragmentError} :
    errorOfSource? e = some error ↔
      e.1 = error.name ∧ Template.compile e.1 e.2 = .error error.error := by
  obtain ⟨name, cause⟩ := error
  rw [errorOfSource?]
  cases Template.compile e.1 e.2 <;> simp

-- ---------------------------------------------------------------------------
-- Compiling splits the sources
-- ---------------------------------------------------------------------------

/-- What is kept of the members that belong to a class has their names, in their order. -/
theorem map_filterMap_eq_map_filter {α β : Type} {kept? : α → Option β} {belongs : α → Bool}
    {keptName : β → String} {name : α → String}
    (hKept : ∀ x y, kept? x = some y → belongs x = true ∧ keptName y = name x)
    (hNone : ∀ x, kept? x = none → belongs x = false) (xs : List α) :
    (xs.filterMap kept?).map keptName = (xs.filter belongs).map name := by
  induction xs with
  | nil => rfl
  | cons x rest ih =>
    cases hEntry : kept? x with
    | none =>
      have hOut : ¬ belongs x = true := by simp [hNone x hEntry]
      rw [List.filterMap_cons_none hEntry, List.filter_cons_of_neg hOut, ih]
    | some y =>
      obtain ⟨hIn, hName⟩ := hKept x y hEntry
      rw [List.filterMap_cons_some hEntry, List.filter_cons_of_pos hIn, List.map_cons,
        List.map_cons, hName, ih]

/-- The names of the templates are those of the sources that compile. -/
theorem names_compiled (sources : List (String × String)) :
    (sources.filterMap templateOfSource?).map (·.1) = (sources.filter compiles).map (·.1) := by
  refine map_filterMap_eq_map_filter (fun e entry hEntry => ?_) (fun e hNone => ?_) sources
  · obtain ⟨hName, hCompile⟩ := templateOfSource?_eq_some_iff.mp hEntry
    exact ⟨compiles_iff.mpr ⟨entry.2, hCompile⟩, hName.symm⟩
  · rw [← Bool.not_eq_true, compiles_iff]
    rintro ⟨t, hCompile⟩
    rw [templateOfSource?_eq_some_iff.mpr ⟨rfl, hCompile⟩] at hNone
    cases hNone

/-- The names of the errors are those of the sources that do not compile. -/
theorem names_refused (sources : List (String × String)) :
    (sources.filterMap errorOfSource?).map (·.name) =
      (sources.filter fun e => !compiles e).map (·.1) := by
  refine map_filterMap_eq_map_filter (fun e error hEntry => ?_) (fun e hNone => ?_) sources
  · obtain ⟨hName, hCompile⟩ := errorOfSource?_eq_some_iff.mp hEntry
    refine ⟨?_, hName.symm⟩
    rw [Bool.not_eq_true', ← Bool.not_eq_true, compiles_iff, hCompile]
    simp
  · cases hCompile : Template.compile e.1 e.2 with
    | ok t => rw [compiles_iff.mpr ⟨t, hCompile⟩, Bool.not_true]
    | error error =>
      have hEntry : errorOfSource? e = some ⟨e.1, error⟩ :=
        errorOfSource?_eq_some_iff.mpr ⟨rfl, hCompile⟩
      rw [hEntry] at hNone
      cases hNone

/-- An error names the template that it is about. -/
theorem Template.Refusal.template_toError (name : String) (line : Nat) (refusal : Refusal) :
    (refusal.toError name line).template = name := by
  cases refusal <;> rfl

/-- The error of a source names the template that it was to become. -/
theorem template_of_compile_error {name source : String} {e : TemplateError}
    (h : Template.compile name source = .error e) : e.template = name := by
  rw [Template.compile, Template.parse] at h
  cases hRead : Template.readFrom .blank 1 source.toList with
  | ok nodes => simp [hRead, Except.map, Except.mapError] at h
  | error refused =>
    obtain rfl : refused.2.toError name refused.1 = e := by
      simpa [hRead, Except.map, Except.mapError] using h
    exact refused.2.template_toError name refused.1

-- ---------------------------------------------------------------------------
-- The sources of a snapshot
-- ---------------------------------------------------------------------------

section Build

variable (catalog : FunctionCatalog) (fragments : List BuildingBlock) (generation : Nat)

/-- What is compiled of a block is its source, if it has one. -/
theorem compiled?_eq_bind (e : String × BuildingBlock) :
    Compilation.compiled? e = (entrySource? e).bind templateOfSource? := by
  rw [Compilation.compiled?, BuildingBlock.template?, entrySource?]
  cases e.2.source with
  | none => rfl
  | some source =>
    rw [Option.map_some, Option.bind_some, templateOfSource?]
    cases hCompile : Template.compile e.1 source <;> simp [hCompile, Except.toOption]

theorem fragmentError?_eq_bind (e : String × BuildingBlock) :
    Compilation.fragmentError? e = (entrySource? e).bind errorOfSource? := by
  rw [Compilation.fragmentError?, BuildingBlock.templateError?, entrySource?]
  cases e.2.source with
  | none => rfl
  | some source =>
    rw [Option.map_some, Option.bind_some, errorOfSource?]
    cases hCompile : Template.compile e.1 source <;> simp [hCompile]

/-- What a snapshot keeps of its sources. -/
theorem compiled_sources_build :
    let s := Snapshot.build catalog fragments generation
    s.templates.templates.entries = s.sources.filterMap templateOfSource? ∧
      s.fragmentErrors = s.sources.filterMap errorOfSource? := by
  intro s
  obtain ⟨hTemplates, hErrors⟩ := templates_build catalog fragments generation
  have hMerged : s.complete.merged.entries =
      s.complete.conditions.entries ++ s.complete.actions.entries :=
    (Views.holds_classify _ _).lastWins.entries_merged
  rw [hMerged] at hTemplates hErrors
  constructor
  · rw [hTemplates, Snapshot.sources, List.filterMap_filterMap]
    exact congrArg (List.filterMap · _) (funext compiled?_eq_bind)
  · rw [hErrors, Snapshot.sources, List.filterMap_filterMap]
    exact congrArg (List.filterMap · _) (funext fragmentError?_eq_bind)

/-- The sources are those of the fragments, under their names. -/
theorem names_filterMap_entrySource? (entries : List (String × BuildingBlock)) :
    (entries.filterMap entrySource?).map (·.1) =
      (entries.filter fun e => e.2.isFragment).map (·.1) := by
  refine map_filterMap_eq_map_filter (fun e entry hEntry => ?_) (fun e hNone => ?_) entries
  · obtain ⟨source, hSource, rfl⟩ := Option.map_eq_some_iff.mp hEntry
    exact ⟨by rw [BuildingBlock.isFragment, hSource, Option.isSome_some], rfl⟩
  · rw [BuildingBlock.isFragment, Option.map_eq_none_iff.mp hNone, Option.isSome_none]

/-- No name is listed twice, so no two sources stand under one name. -/
theorem nodup_names_sources :
    ((Snapshot.build catalog fragments generation).sources.map (·.1)).Nodup := by
  have hNames := (Views.holds_classify catalog.allWithInternal fragments).lastWins.nodup
  rw [Named.names, Named.names, ← List.map_append] at hNames
  rw [Snapshot.sources, names_filterMap_entrySource?]
  exact hNames.sublist (List.filter_sublist.map _)

end Build

-- ---------------------------------------------------------------------------
-- Accounts
-- ---------------------------------------------------------------------------

/-- Each source that is listed has come to a template or to an error, and there are no others. -/
structure Snapshot.AccountsForSources (s : Snapshot) : Prop where
  /-- No name has two sources. -/
  nodup : (s.sources.map (·.1)).Nodup
  /-- The names of the templates and those of the errors are together the names of the sources. So
  no name has a template and an error, none has two of them, and none goes without. -/
  perm : (s.templates.names ++ s.fragmentErrors.map (·.name)).Perm (s.sources.map (·.1))
  templatesInOrder : s.templates.names.Sublist (s.sources.map (·.1))
  errorsInOrder : (s.fragmentErrors.map (·.name)).Sublist (s.sources.map (·.1))
  /-- The sources that compile have a template. -/
  compiled : ∀ name source, (name, source) ∈ s.sources →
    (name ∈ s.templates.names ↔ ∃ t, Template.compile name source = .ok t)
  /-- The template is the one that the source compiles to. -/
  template : ∀ name source, (name, source) ∈ s.sources → ∀ t, s.templates.find? name = some t →
    Template.parse name source = .ok t.nodes ∧ t.name = name ∧ t.source = source
  /-- The error is the one that the source does not compile for, and names the template. -/
  error : ∀ name source, (name, source) ∈ s.sources → ∀ e,
    ({ name, error := e } ∈ s.fragmentErrors ↔ Template.compile name source = .error e) ∧
      (Template.compile name source = .error e → e.template = name)

/-- Where no name stands twice the source of a name is the only one. -/
theorem source_unique {sources : List (String × String)} (h : (sources.map (·.1)).Nodup)
    {name source other : String} (hSource : (name, source) ∈ sources)
    (hOther : (name, other) ∈ sources) : source = other :=
  (Prod.mk.inj (List.inj_on_of_nodup_map h hSource hOther rfl)).2

section Sources

variable {sources : List (String × String)} {name source : String}

/-- What comes of a source is what was made of the sources under its name. -/
theorem mem_filterMap_sources {α : Type} {made? : String × String → Option α} {x : α}
    (hNodup : (sources.map (·.1)).Nodup) (hSource : (name, source) ∈ sources)
    (hName : ∀ e, made? e = some x → e.1 = name) :
    x ∈ sources.filterMap made? ↔ made? (name, source) = some x := by
  rw [List.mem_filterMap]
  refine ⟨?_, fun hMade => ⟨_, hSource, hMade⟩⟩
  rintro ⟨⟨other, otherSource⟩, hOther, hMade⟩
  obtain rfl : other = name := hName _ hMade
  rwa [source_unique hNodup hSource hOther]

/-- Since no name is repeated, a template in the list is that of the one source of its name. -/
theorem mem_templates_of_sources (hNodup : (sources.map (·.1)).Nodup)
    (hSource : (name, source) ∈ sources) (t : Template) :
    (name, t) ∈ sources.filterMap templateOfSource? ↔ Template.compile name source = .ok t := by
  rw [mem_filterMap_sources hNodup hSource fun e h => (templateOfSource?_eq_some_iff.mp h).1,
    templateOfSource?_eq_some_iff, and_iff_right rfl]

/-- Since no name is repeated, an error in the list is that of the one source of its name. -/
theorem mem_errors_of_sources (hNodup : (sources.map (·.1)).Nodup)
    (hSource : (name, source) ∈ sources) (e : TemplateError) :
    { name, error := e } ∈ sources.filterMap errorOfSource? ↔
      Template.compile name source = .error e := by
  rw [mem_filterMap_sources hNodup hSource fun e h => (errorOfSource?_eq_some_iff.mp h).1,
    errorOfSource?_eq_some_iff, and_iff_right rfl]

end Sources

/-- **Every snapshot accounts for all its sources.** -/
theorem accountsForSources_build (catalog : FunctionCatalog) (fragments : List BuildingBlock)
    (generation : Nat) : (Snapshot.build catalog fragments generation).AccountsForSources := by
  obtain ⟨hTemplates, hErrors⟩ := compiled_sources_build catalog fragments generation
  have hNodup := nodup_names_sources catalog fragments generation
  have hNames : (Snapshot.build catalog fragments generation).templates.templates.names.Nodup :=
    nodup_names_templates_build
  -- from here on only the two lists matter, not how they were built
  generalize Snapshot.build catalog fragments generation = s at hTemplates hErrors hNodup hNames
  have hCompiled : s.templates.names = (s.sources.filter compiles).map (·.1) := by
    rw [TemplateEngine.names, Named.names, hTemplates, names_compiled]
  have hRefused : s.fragmentErrors.map (·.name) =
      (s.sources.filter fun e => !compiles e).map (·.1) := by
    rw [hErrors, names_refused]
  have hTemplate {name source : String} (hSource : (name, source) ∈ s.sources) (t : Template) :
      (name, t) ∈ s.templates.templates.entries ↔ Template.compile name source = .ok t := by
    rw [hTemplates, mem_templates_of_sources hNodup hSource]
  refine
    { nodup := hNodup, perm := ?perm, templatesInOrder := ?templatesInOrder,
      errorsInOrder := ?errorsInOrder, compiled := ?compiled, template := ?template,
      error := ?error }
  case perm =>
    rw [hCompiled, hRefused, ← List.map_append]
    exact (List.filter_append_perm compiles s.sources).map _
  case templatesInOrder =>
    rw [hCompiled]
    exact List.filter_sublist.map _
  case errorsInOrder =>
    rw [hRefused]
    exact List.filter_sublist.map _
  case compiled =>
    intro name source hSource
    rw [TemplateEngine.names, Named.names, List.mem_map]
    constructor
    · rintro ⟨⟨name, t⟩, hEntry, rfl⟩
      exact ⟨t, (hTemplate hSource t).mp hEntry⟩
    · rintro ⟨t, hCompile⟩
      exact ⟨(name, t), (hTemplate hSource t).mpr hCompile, rfl⟩
  case template =>
    intro name source hSource t hFind
    rw [TemplateEngine.find?, Named.find?_eq_some_iff hNames, hTemplate hSource] at hFind
    exact Template.compile_eq_ok_iff.mp hFind
  case error =>
    intro name source hSource e
    refine ⟨?_, template_of_compile_error⟩
    rw [hErrors, mem_errors_of_sources hNodup hSource]

namespace Snapshot.AccountsForSources

variable {s : Snapshot}

/-- There are no errors exactly if all sources compile. -/
theorem fragmentErrors_eq_nil_iff (h : s.AccountsForSources) :
    s.fragmentErrors = [] ↔
      ∀ name source, (name, source) ∈ s.sources → ∃ t, Template.compile name source = .ok t := by
  constructor
  · intro hNone name source hSource
    have hName : name ∈ s.sources.map (·.1) := List.mem_map.mpr ⟨_, hSource, rfl⟩
    rw [← h.perm.mem_iff, hNone, List.map_nil, List.append_nil] at hName
    exact (h.compiled name source hSource).mp hName
  · intro hAll
    rw [← List.map_eq_nil_iff, List.eq_nil_iff_forall_not_mem]
    intro name hError
    have hName : name ∈ s.sources.map (·.1) :=
      h.perm.mem_iff.mp (List.mem_append_right _ hError)
    obtain ⟨⟨name, source⟩, hSource, rfl⟩ := List.mem_map.mp hName
    -- a source that compiles has a template, and no name has both
    have hTemplate := (h.compiled name source hSource).mpr (hAll name source hSource)
    exact (List.nodup_append.mp (h.perm.nodup_iff.mpr h.nodup)).2.2 _ hTemplate _ hError rfl

/-- A source that compiles is rendered, or misses a variable. -/
theorem missing_of_render (h : s.AccountsForSources) {name source : String}
    (hSource : (name, source) ∈ s.sources) (hCompiles : ∃ t, Template.compile name source = .ok t)
    {context : Json} {e : RegistryError} (hRender : s.render name context = .error e) :
    ∃ path, e = .template (.missingVariable name (Template.Path.dotted path)) := by
  have hName := (h.compiled name source hSource).mpr hCompiles
  cases hFind : s.templates.find? name with
  | none => exact absurd hName (Named.find?_eq_none_iff.mp hFind)
  | some t =>
    obtain ⟨-, hTemplate, -⟩ := h.template name source hSource t hFind
    rw [Snapshot.render, hFind, ← hTemplate] at hRender
    simp only [Template.render] at hRender
    rw [← hTemplate]
    cases hNodes : Template.renderNodes context t.nodes with
    | ok text => simp [hNodes, Except.mapError] at hRender
    | error path =>
      refine ⟨path, ?_⟩
      simpa [hNodes, Except.mapError] using hRender.symm

end Snapshot.AccountsForSources

section Listed

variable {catalog : FunctionCatalog} {fragments : List BuildingBlock} {generation : Nat}
  {name source : String} {b : BuildingBlock}

/-- The source of a name is that of the last enabled fragment of the name. -/
theorem mem_sources_build_iff :
    (name, source) ∈ (Snapshot.build catalog fragments generation).sources ↔
      ∃ b, lastNamed name (fragments.filter (·.enabled)) = some b ∧ b.source = some source := by
  have hViews := Views.holds_classify catalog.allWithInternal fragments
  -- an entry on either side is the last enabled block of its name
  have hMember (name : String) (b : BuildingBlock) :
      (name, b) ∈ (Snapshot.build catalog fragments generation).complete.conditions.entries ++
          (Snapshot.build catalog fragments generation).complete.actions.entries ↔
        lastNamed name (enabledBlocks catalog.allWithInternal fragments) = some b := by
    rw [← hViews.mem_merged, hViews.lastWins.entries_merged]
    rfl
  rw [← exists_lastNamed_iff (fun b hSource => by simp [hSource]) name catalog.allWithInternal,
    Snapshot.sources, List.mem_filterMap]
  constructor
  · rintro ⟨⟨other, b⟩, hEntry, hKept⟩
    obtain ⟨text, hSource, hPair⟩ := Option.map_eq_some_iff.mp hKept
    obtain ⟨rfl, rfl⟩ := Prod.mk.inj hPair
    exact ⟨b, (hMember other b).mp hEntry, hSource⟩
  · rintro ⟨b, hLast, hSource⟩
    exact ⟨(name, b), (hMember name b).mpr hLast, Option.map_eq_some_iff.mpr ⟨source, hSource, rfl⟩⟩

/-- A block with a source is listed with it whether or not internal functions are. -/
theorem mem_sources_of_listed
    (hListed : (Snapshot.build catalog fragments generation).offered.find? name = some b ∨
      (Snapshot.build catalog fragments generation).complete.find? name = some b)
    (hSource : b.source = some source) :
    (name, source) ∈ (Snapshot.build catalog fragments generation).sources := by
  have hWith (c : BuildingBlock) (hc : c.source = some source) : c.source ≠ none := by simp [hc]
  rw [mem_sources_build_iff]
  rcases hListed with hOffered | hComplete
  · rw [← exists_lastNamed_iff hWith name catalog.all fragments]
    exact ⟨b, (Views.holds_classify _ _).find?_eq name ▸ hOffered, hSource⟩
  · rw [← exists_lastNamed_iff hWith name catalog.allWithInternal fragments]
    exact ⟨b, (Views.holds_classify _ _).find?_eq name ▸ hComplete, hSource⟩

end Listed

end RuleBlocks
