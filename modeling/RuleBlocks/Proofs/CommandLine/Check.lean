import RuleBlocks.Proofs.Function.Builtins
import RuleBlocks.Proofs.Registry.Accounting
import RuleBlocks.CommandLine.Run

/-!
# What a check tells

A run that is to check loads the configuration, the catalog and the fragments, publishes the first
snapshot, and succeeds if no template of it is at fault. Since every source that is listed has come
to a template or to an error, the run succeeds exactly if all of them compile, and then nothing that
is listed can fail to render but for a variable that the context does not have.

Files are looked up one after the other in a world that may change in between, such as a disk that
others write to.

* `ChecksLoaded` — a run that is to check and has loaded what it needs;
* `checksLoaded_of_texts` — how it loads it where every file holds a text;
* `outcomeOf_of_ok` — a run, once its files were looked up;
* `exists_initialized` — the registry of a run;
* `exit_of_checksLoaded` — the exit code, from the errors of the snapshot;
* `sources_are_accounted_for` — **every source is accounted for**, and a check tells whether all
  are in order.
-/

namespace RuleBlocks

variable {σ : Type} {find : String → StateM σ FileState} {world : σ}

/-- The run is to check, and finds a configuration with that catalog; the fragments are those that
it finds once it has looked the configuration up. -/
def ChecksLoaded (find : String → StateM σ FileState) (world : σ) (arguments : List String)
    (catalog : FunctionCatalog) (fragments : List BuildingBlock) : Prop :=
  ∃ request config, Arguments.read arguments = .ok request ∧ request.command = .check ∧
    Config.load request.config (find request.config world).1 = .ok config ∧
    config.catalog = .ok catalog ∧
    (config.fragmentStore.read fun path => (find path (find request.config world).2).1).1 =
      .ok fragments

-- ---------------------------------------------------------------------------
-- Files
-- ---------------------------------------------------------------------------

/-- The files that a run looks up for its configuration, one after the other. -/
def filesLookedUp (find : String → StateM σ FileState) (world : σ) (config : Config) :
    String → FileState :=
  filesFound (((lookedUp config).mapM fun path => return (path, ← find path)) world).1

/-- The fragment file is the first to be looked up. -/
theorem read_filesLookedUp (config : Config) :
    (config.fragmentStore.read (filesLookedUp find world config)).1 =
      (config.fragmentStore.read fun path => (find path world).1).1 := by
  rw [Config.fragmentStore, filesLookedUp, lookedUp]
  cases config.fragments.path with
  | none => rfl
  | some path =>
    -- the file itself is looked up first, so what is found of its directory does not hide it
    have hFirst : filesFound (((path :: (parent? path).toList).mapM fun path =>
        return (path, ← find path)) world).1 path = (find path world).1 := by
      rw [List.mapM_cons]
      change (List.lookup path ((path, (find path world).1) :: _)).getD _ = _
      rw [List.lookup_cons_self, Option.getD_some]
    simp only [FragmentStore.read]
    rw [hFirst]

/-- The answer of two steps is that of the second, in the world that the first leaves. -/
theorem fst_bind {α β : Type} (x : StateM σ α) (f : α → StateM σ β) :
    ((x >>= f) world).1 = (f (x world).1 (x world).2).1 :=
  rfl

theorem fst_bind_of_pure {α β : Type} {x : StateM σ α} {f : α → StateM σ β} {b : β}
    (h : f (x world).1 = pure b) : ((x >>= f) world).1 = b := by
  rw [fst_bind, h]
  rfl

/-- What comes of a request once its files were looked up. -/
theorem outcomeOf_of_ok {request : Arguments} {config : Config} {outcome : Outcome}
    (hConfig : Config.load request.config (find request.config world).1 = .ok config)
    (hOutcome : ((initialized config
        (filesLookedUp find (find request.config world).2 config)).bind fun system =>
      carryOut (filesLookedUp find (find request.config world).2 config) config system
        request.command) = .ok outcome) :
    (outcomeOf find request world).1 = outcome := by
  rw [filesLookedUp] at hOutcome
  rw [outcomeOf, fst_bind, hConfig]
  refine fst_bind_of_pure ?_
  dsimp only
  rw [hOutcome]

/-- The text of a file that holds a text is that text. -/
theorem FileState.text_content (text : String) :
    (FileState.content text.toUTF8).text = .ok text := by
  have hText : String.fromUTF8? text.toUTF8 = some text := by
    simp only [String.fromUTF8?, Option.dite_none_right_eq_some]
    exact ⟨text.isValidUTF8, rfl⟩
  rw [FileState.text, hText]

/-- What has to be loaded for a check if every file holds a text. -/
theorem checksLoaded_of_texts {text : String → String} {arguments : List String}
    {request : Arguments} {config : Config} {catalog : FunctionCatalog} {path : String}
    {document : FragmentFile} (hArguments : Arguments.read arguments = .ok request)
    (hCommand : request.command = .check)
    (hConfig : Config.parse? request.config (text request.config) = some config)
    (hCatalog : config.catalog = .ok catalog) (hPath : config.fragments.path = some path)
    (hDocument : FragmentFile.parse? path (text path) = some document) :
    ChecksLoaded (fun path => (return .content (text path).toUTF8 : StateM σ FileState)) world
      arguments catalog document.fragments := by
  have hText (path : String) (world : σ) :
      ((return .content (text path).toUTF8 : StateM σ FileState) world).1.text =
        .ok (text path) :=
    FileState.text_content (text path)
  refine ⟨request, config, hArguments, hCommand, ?_, hCatalog, ?_⟩
  · rw [Config.load, hText]
    simp only [hConfig]
  · simp only [Config.fragmentStore, hPath, FragmentStore.read]
    rw [FragmentStore.load, hText]
    simp only [hDocument]

-- ---------------------------------------------------------------------------
-- The registry of a run
-- ---------------------------------------------------------------------------

section Registry

variable {files : String → FileState} {catalog : FunctionCatalog} {fragments : List BuildingBlock}

/-- Making a new registry ready takes all steps of a reload. -/
theorem ensureReady_new {store : FragmentStore} (catalog : FunctionCatalog)
    (h : (store.read files).1 = .ok fragments) :
    ((ReloadSystem.new (.new catalog) store).ensureReady files).1 = some (.ok (some 1)) ∧
      ((ReloadSystem.new (.new catalog) store).ensureReady files).2.registry =
        (Registry.new catalog).publish fragments := by
  simp [ReloadSystem.new, ReloadSystem.ensureReady, ReloadSystem.call, ReloadSystem.complete,
    ReloadSystem.begin, ReloadSystem.proceed, ReloadSystem.setStage, ReloadSystem.isLocked,
    ReloadSystem.result?, CallStage.holdsLock, Registry.new, Registry.state, Registry.afterRead,
    Except.map, h]

/-- Where the catalog and the fragments can be loaded the first snapshot is published. -/
theorem exists_initialized {config : Config} (hCatalog : config.catalog = .ok catalog)
    (hRead : (config.fragmentStore.read files).1 = .ok fragments) :
    ∃ system, initialized config files = .ok system ∧
      system.registry = (Registry.new catalog).publish fragments := by
  obtain ⟨hReady, hRegistry⟩ := ensureReady_new catalog hRead
  refine ⟨_, ?_, hRegistry⟩
  rw [initialized, hCatalog]
  simp only [Except.mapError, bind, Except.bind]
  rw [hReady]
  rfl

end Registry

-- ---------------------------------------------------------------------------
-- The exit code
-- ---------------------------------------------------------------------------

/-- The check succeeds exactly if no source has an error. -/
theorem exit_checkSnapshot (catalog : FunctionCatalog) (s : Snapshot) :
    (checkSnapshot catalog s).exit = 0 ↔ s.fragmentErrors = [] := by
  rw [checkSnapshot]
  cases s.fragmentErrors <;> simp [Outcome.success, Outcome.failure]

/-- A check that has loaded what it needs succeeds if the first snapshot has no errors. -/
theorem exit_of_checksLoaded {arguments : List String} {catalog : FunctionCatalog}
    {fragments : List BuildingBlock}
    (h : ChecksLoaded find world arguments catalog fragments) :
    (runProgram find arguments world).1.exit = 0 ↔
      (Snapshot.build catalog fragments 1).fragmentErrors = [] := by
  obtain ⟨request, config, hArguments, hCommand, hConfig, hCatalog, hRead⟩ := h
  rw [← read_filesLookedUp] at hRead
  -- the store is read once, and what it holds is published as the first snapshot
  obtain ⟨system, hSystem, hRegistry⟩ := exists_initialized hCatalog hRead
  have hRun : (runProgram find arguments world).1 =
      checkSnapshot catalog (Snapshot.build catalog fragments 1) := by
    rw [runProgram, hArguments]
    refine outcomeOf_of_ok hConfig ?_
    rw [hSystem, Except.bind, hCommand, carryOut, hRegistry]
    rfl
  rw [hRun, exit_checkSnapshot]

-- ---------------------------------------------------------------------------
-- Every source is accounted for
-- ---------------------------------------------------------------------------

/--
**Every source is accounted for.** The sources that a snapshot lists, under names that are all
different, come to its templates and its errors, each to exactly one of them, in the order in which
they are listed: a source that compiles to its template, and any other to the error that it does not
compile for. So a check that has loaded the configuration, the catalog and the fragments succeeds if
and only if all of them compile; and if it does, a block that is listed with a source, to users or
with internal functions, can fail to render only because a variable is missing.
-/
theorem sources_are_accounted_for (catalog : FunctionCatalog) (fragments : List BuildingBlock)
    (generation : Nat) :
    let s := Snapshot.build catalog fragments generation
    s.AccountsForSources ∧
    ∀ {σ : Type} (find : String → StateM σ FileState) (world : σ) (arguments : List String),
      ChecksLoaded find world arguments catalog fragments →
      ((runProgram find arguments world).1.exit = 0 ↔
        ∀ name source, (name, source) ∈ s.sources →
          ∃ t, Template.compile name source = .ok t) ∧
      ((runProgram find arguments world).1.exit = 0 →
        ∀ name b, (s.offered.find? name = some b ∨ s.complete.find? name = some b) →
          b.source ≠ none → ∀ context e, s.render name context = .error e →
            ∃ path, e = .template (.missingVariable name (Template.Path.dotted path))) := by
  intro s
  have hAccounts : s.AccountsForSources := accountsForSources_build catalog fragments generation
  refine ⟨hAccounts, fun {σ} find world arguments hLoaded => ?_⟩
  have hExit := (exit_of_checksLoaded hLoaded).trans hAccounts.fragmentErrors_eq_nil_iff
  refine ⟨hExit, fun hSuccess name b hListed hSource context e hRender => ?_⟩
  obtain ⟨source, hSource⟩ := Option.ne_none_iff_exists'.mp hSource
  have hMember : (name, source) ∈ s.sources := mem_sources_of_listed hListed hSource
  exact hAccounts.missing_of_render hMember (hExit.mp hSuccess name source hMember) hRender

/-- A fragment file of one fragment, before and after its template is repaired. -/
theorem sources_are_accounted_for_repaired :
    let text (source path : String) : String :=
      if path = "c.json" then "\x7b\"fragments\": \x7b\"path\": \"f.json\"\x7d\x7d"
      else
        "\x7b\"fragments\": [\x7b\"descriptor\": \x7b\"name\": \"a\", \"returnType\": \"boolean\", "
          ++ "\"ruleBuilderEnabled\": true\x7d, \"fragment\": \"" ++ source ++ "\"\x7d]\x7d"
    let find (source path : String) : StateM Unit FileState :=
      return .content (text source path).toUTF8
    let block := BuildingBlock.action (FunctionDescriptor.ofType "a" .boolean).enable
    let arguments := ["-cc.json", "check"]
    ∃ catalog,
      (ChecksLoaded (find "<#list b as c>") () arguments catalog [block "<#list b as c>"] ∧
        (runProgram (find "<#list b as c>") arguments ()).1.exit ≠ 0) ∧
      ChecksLoaded (find "$\x7bb\x7d") () arguments catalog [block "$\x7bb\x7d"] ∧
        (runProgram (find "$\x7bb\x7d") arguments ()).1.exit = 0 := by
  intro text find block arguments
  let config : Config :=
    { Config.standard with fragments := { path := some "f.json", watch := false } }
  obtain ⟨catalog, hCatalog⟩ := (Config.exists_catalog_iff config).mpr
    ⟨by decide +kernel, by decide, by decide +kernel⟩
  have hArguments : Arguments.read arguments =
      .ok { config := "c.json", verbose := false, command := .check } := by
    decide +kernel
  have hConfig (source : String) : Config.parse? "c.json" (text source "c.json") = some config := by
    change Config.parse? "c.json" "\x7b\"fragments\": \x7b\"path\": \"f.json\"\x7d\x7d" = _
    decide +kernel
  have hBroken : ChecksLoaded (find "<#list b as c>") () arguments catalog
      [block "<#list b as c>"] := by
    have hDocument : FragmentFile.parse? "f.json" (text "<#list b as c>" "f.json") =
        some { fragments := [block "<#list b as c>"] } := by
      decide +kernel
    exact checksLoaded_of_texts hArguments rfl (hConfig _) hCatalog rfl hDocument
  have hRepaired : ChecksLoaded (find "$\x7bb\x7d") () arguments catalog
      [block "$\x7bb\x7d"] := by
    have hDocument : FragmentFile.parse? "f.json" (text "$\x7bb\x7d" "f.json") =
        some { fragments := [block "$\x7bb\x7d"] } := by
      decide +kernel
    exact checksLoaded_of_texts hArguments rfl (hConfig _) hCatalog rfl hDocument
  have hSources (source name other : String) :
      (name, other) ∈ (Snapshot.build catalog [block source] 1).sources ↔
        name = "a" ∧ other = source := by
    rw [mem_sources_build_iff]
    by_cases hName : name = "a"
    · subst hName
      simp [block, lastNamed, BuildingBlock.action, BuildingBlock.name, BuildingBlock.enabled,
        FunctionDescriptor.ofType, FunctionDescriptor.enable, eq_comm]
    · have hOther : "a" ≠ name := fun h => hName h.symm
      simp [block, lastNamed, BuildingBlock.action, BuildingBlock.name, BuildingBlock.enabled,
        FunctionDescriptor.ofType, FunctionDescriptor.enable, hName, hOther]
  refine ⟨catalog, ⟨hBroken, fun hExit => ?_⟩, hRepaired, ?_⟩
  · obtain ⟨-, hChecked⟩ := sources_are_accounted_for catalog [block "<#list b as c>"] 1
    obtain ⟨t, hCompiles⟩ := (hChecked _ _ _ hBroken).1.mp hExit _ _
      ((hSources _ _ _).mpr ⟨rfl, rfl⟩)
    have hRefused : Template.compile "a" "<#list b as c>" =
        .error (.forbiddenDirective "a" "list") := by
      with_unfolding_all rfl
    simp [hRefused] at hCompiles
  · obtain ⟨-, hChecked⟩ := sources_are_accounted_for catalog [block "$\x7bb\x7d"] 1
    refine (hChecked _ _ _ hRepaired).1.mpr fun name source hListed => ?_
    obtain ⟨rfl, rfl⟩ := (hSources _ _ _).mp hListed
    have hCompiles : Template.compile "a" "$\x7bb\x7d" = .ok
        { name := "a"
          source := "$\x7bb\x7d"
          nodes := [.interpolation { path := ["b"], fallback := .required }] } := by
      with_unfolding_all rfl
    exact ⟨_, hCompiles⟩

end RuleBlocks
