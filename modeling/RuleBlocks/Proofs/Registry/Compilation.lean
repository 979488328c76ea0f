import RuleBlocks.Proofs.Registry.Classification

/-!
# What is compiled

A snapshot compiles one source for each name that it lists: that of the last enabled block of the
name, if the block has one. Blocks are compiled one after the other, and each either adds a template
or an error. Since no name is listed twice, none of them can touch what another one has added, and
the outcome can be read off the list of blocks.

* `BuildingBlock.template?`, `BuildingBlock.templateError?` — what the source of one block comes to;
* `Views.Holds.mem_merged` — the blocks that are compiled are the last ones of their names;
* `Compilation.foldl_add` — compiling one block after the other;
* `mem_templates_build`, `mem_fragmentErrors_build` — the templates and the errors of a snapshot.
-/

namespace RuleBlocks

-- ---------------------------------------------------------------------------
-- One block
-- ---------------------------------------------------------------------------

/-- The template of a block under a name, if the block has a source and the source compiles. -/
def BuildingBlock.template? (b : BuildingBlock) (name : String) : Option Template :=
  match b.source with
  | none => none
  | some source =>
    match Template.compile name source with
    | .ok t => some t
    | .error _ => none

/-- The error of a block under a name, if the block has a source and the source does not compile. -/
def BuildingBlock.templateError? (b : BuildingBlock) (name : String) : Option TemplateError :=
  match b.source with
  | none => none
  | some source =>
    match Template.compile name source with
    | .ok _ => none
    | .error error => some error

namespace Compilation

/-- The entry of the engine that a listed block adds. -/
def compiled? (e : String × BuildingBlock) : Option (String × Template) :=
  (e.2.template? e.1).map fun t => (e.1, t)

/-- The error that a listed block adds. -/
def fragmentError? (e : String × BuildingBlock) : Option FragmentError :=
  (e.2.templateError? e.1).map fun error => { name := e.1, error }

/-- **Step.** A block under a new name adds its template at the end, or its error, or nothing. -/
theorem add_of_not_mem {c : Compilation} {e : String × BuildingBlock}
    (h : e.1 ∉ c.templates.names) :
    (c.add e.1 e.2).templates.templates.entries =
        c.templates.templates.entries ++ (compiled? e).toList ∧
      (c.add e.1 e.2).errors = c.errors ++ (fragmentError? e).toList := by
  obtain ⟨name, b⟩ := e
  cases hSource : b.source with
  | none =>
    simp [add, compiled?, fragmentError?, BuildingBlock.template?,
      BuildingBlock.templateError?, hSource]
  | some source =>
    cases hCompile : Template.compile name source with
    | error error =>
      simp [add, compiled?, fragmentError?, BuildingBlock.template?,
        BuildingBlock.templateError?, hSource, TemplateEngine.add, hCompile, Except.map]
    | ok t =>
      -- a new name comes last; one that is there would keep its place
      have hInsert := Named.entries_insert_of_not_mem t h
      simp [add, compiled?, fragmentError?, BuildingBlock.template?,
        BuildingBlock.templateError?, hSource, TemplateEngine.add, hCompile, Except.map, hInsert]

-- ---------------------------------------------------------------------------
-- All blocks
-- ---------------------------------------------------------------------------

theorem names_compiled? (e : String × BuildingBlock) :
    ((compiled? e).toList.map (·.1)).Sublist [e.1] := by
  cases hEntry : compiled? e with
  | none => simp
  | some entry =>
    obtain ⟨t, -, rfl⟩ := Option.map_eq_some_iff.mp hEntry
    simp

theorem names_filterMap_compiled? (entries : List (String × BuildingBlock)) :
    ((entries.filterMap compiled?).map (·.1)).Sublist (entries.map (·.1)) := by
  induction entries with
  | nil => exact .slnil
  | cons e rest ih =>
    have hFirst := names_compiled? e
    have hCons : (e :: rest).filterMap compiled? =
        (compiled? e).toList ++ rest.filterMap compiled? := by
      cases hEntry : compiled? e <;> simp [hEntry]
    rw [hCons, List.map_append, List.map_cons, ← List.singleton_append]
    exact hFirst.append ih

/-- **Run.** Blocks under names that are new, and differ from each other, add what each of them adds
alone. -/
theorem foldl_add {entries : List (String × BuildingBlock)} {c : Compilation}
    (h : (c.templates.names ++ entries.map (·.1)).Nodup) :
    (entries.foldl (fun c e => c.add e.1 e.2) c).templates.templates.entries =
        c.templates.templates.entries ++ entries.filterMap compiled? ∧
      (entries.foldl (fun c e => c.add e.1 e.2) c).errors =
        c.errors ++ entries.filterMap fragmentError? := by
  induction entries generalizing c with
  | nil => simp
  | cons e rest ih =>
    obtain ⟨hNames, -, hDisjoint⟩ := List.nodup_append.mp h
    have hNew : e.1 ∉ c.templates.names := fun hMem => hDisjoint _ hMem _ List.mem_cons_self rfl
    obtain ⟨hTemplates, hErrors⟩ := add_of_not_mem hNew
    -- what the first block adds is its own name at most, so the other names are still new
    have hRest : ((c.add e.1 e.2).templates.names ++ rest.map (·.1)).Nodup := by
      refine h.sublist ?_
      rw [TemplateEngine.names, Named.names, hTemplates, List.map_append, List.append_assoc]
      refine List.Sublist.append_left ?_ _
      rw [List.map_cons, ← List.singleton_append]
      exact (names_compiled? e).append_right _
    rw [List.foldl_cons, (ih hRest).1, (ih hRest).2, hTemplates, hErrors, List.append_assoc,
      List.append_assoc]
    cases hEntry : compiled? e <;> cases hError : fragmentError? e <;> simp [hEntry, hError]

end Compilation

-- ---------------------------------------------------------------------------
-- The blocks of a snapshot
-- ---------------------------------------------------------------------------

namespace Views

variable {v : Views} {blocks : List BuildingBlock}

/-- The sides have no name in common, so merging them puts one behind the other. -/
theorem LastWins.entries_merged (h : v.LastWins blocks) :
    v.merged.entries = v.conditions.entries ++ v.actions.entries :=
  Named.entries_foldl_insert h.nodup

/-- No name is repeated among the merged blocks. -/
theorem LastWins.nodup_merged (h : v.LastWins blocks) : (v.merged.entries.map (·.1)).Nodup := by
  rw [h.entries_merged, List.map_append]
  exact h.nodup

/-- What is compiled is, for each name, the last block of that name. -/
theorem Holds.mem_merged (h : v.Holds blocks) {name : String} {b : BuildingBlock} :
    (name, b) ∈ v.merged.entries ↔ lastNamed name blocks = some b := by
  rw [h.lastWins.entries_merged, List.mem_append, ← Named.find?_eq_some_iff h.nodupConditions,
    ← Named.find?_eq_some_iff h.nodupActions, h.conditions, h.actions]
  cases hLast : lastNamed name blocks with
  | none => simp
  | some last =>
    cases hSide : last.isCondition with
    | true => simp [Option.filter_some, hSide]
    | false => simp [Option.filter_some, hSide]

/-- Look-up goes through the sides one after the other, and finds the last block of the name. -/
theorem Holds.find?_eq (h : v.Holds blocks) (name : String) :
    v.find? name = lastNamed name blocks := by
  rw [Views.find?, h.conditions, h.actions]
  cases hLast : lastNamed name blocks with
  | none => rfl
  | some last => cases hSide : last.isCondition <;> simp [Option.filter_some, hSide]

/-- No block is found exactly if the name stands on neither side. -/
theorem Holds.lastNamed_eq_none_iff (h : v.Holds blocks) (name : String) :
    lastNamed name blocks = none ↔ name ∉ v.conditions.names ∧ name ∉ v.actions.names := by
  rw [← h.find?_eq, Views.find?, Option.or_eq_none_iff, Named.find?_eq_none_iff,
    Named.find?_eq_none_iff]

end Views

section Build

variable (catalog : FunctionCatalog) (fragments : List BuildingBlock) (generation : Nat)

/-- Templates and errors are read off the merged blocks, one by one. -/
theorem templates_build :
    (Snapshot.build catalog fragments generation).templates.templates.entries =
        (Snapshot.build catalog fragments generation).complete.merged.entries.filterMap
          Compilation.compiled? ∧
      (Snapshot.build catalog fragments generation).fragmentErrors =
        (Snapshot.build catalog fragments generation).complete.merged.entries.filterMap
          Compilation.fragmentError? :=
  Compilation.foldl_add (c := .empty) (Views.holds_classify _ _).lastWins.nodup_merged

variable {catalog fragments generation}

/-- **Templates.** A template is kept under a name exactly if it is that of the last enabled block
of the name. -/
theorem mem_templates_build {name : String} {t : Template} :
    (name, t) ∈ (Snapshot.build catalog fragments generation).templates.templates.entries ↔
      ∃ b, lastNamed name (enabledBlocks catalog.allWithInternal fragments) = some b ∧
        b.template? name = some t := by
  rw [(templates_build catalog fragments generation).1, List.mem_filterMap]
  constructor
  · rintro ⟨⟨other, b⟩, hMem, hEntry⟩
    obtain ⟨t', hTemplate, heq⟩ := Option.map_eq_some_iff.mp hEntry
    obtain ⟨rfl, rfl⟩ := Prod.mk.inj heq
    exact ⟨b, (Views.holds_classify _ _).mem_merged.mp hMem, hTemplate⟩
  · rintro ⟨b, hLast, hTemplate⟩
    exact ⟨(name, b), (Views.holds_classify _ _).mem_merged.mpr hLast,
      Option.map_eq_some_iff.mpr ⟨t, hTemplate, rfl⟩⟩

/-- **Errors.** An error is kept under a name exactly if it is that of the last enabled block of the
name. -/
theorem mem_fragmentErrors_build {e : FragmentError} :
    e ∈ (Snapshot.build catalog fragments generation).fragmentErrors ↔
      ∃ b, lastNamed e.name (enabledBlocks catalog.allWithInternal fragments) = some b ∧
        b.templateError? e.name = some e.error := by
  rw [(templates_build catalog fragments generation).2, List.mem_filterMap]
  constructor
  · rintro ⟨⟨other, b⟩, hMem, hEntry⟩
    obtain ⟨error, hError, rfl⟩ := Option.map_eq_some_iff.mp hEntry
    exact ⟨b, (Views.holds_classify _ _).mem_merged.mp hMem, hError⟩
  · rintro ⟨b, hLast, hError⟩
    exact ⟨(e.name, b), (Views.holds_classify _ _).mem_merged.mpr hLast,
      Option.map_eq_some_iff.mpr ⟨e.error, hError, rfl⟩⟩

/-- No two templates have the same name. -/
theorem nodup_names_templates_build :
    (Snapshot.build catalog fragments generation).templates.templates.names.Nodup := by
  rw [Named.names, (templates_build catalog fragments generation).1]
  exact (Views.holds_classify _ _).lastWins.nodup_merged.sublist
    (Compilation.names_filterMap_compiled? _)

variable (catalog fragments generation) in
/-- Looking for a template finds that of the last enabled block of the name. -/
theorem find?_templates_build (name : String) :
    (Snapshot.build catalog fragments generation).templates.find? name =
      (lastNamed name (enabledBlocks catalog.allWithInternal fragments)).bind
        (·.template? name) := by
  apply Option.ext
  intro t
  rw [TemplateEngine.find?, Named.find?_eq_some_iff nodup_names_templates_build,
    mem_templates_build, Option.bind_eq_some_iff]

end Build

end RuleBlocks
