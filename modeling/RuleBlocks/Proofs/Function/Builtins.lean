import RuleBlocks.Config
import RuleBlocks.Proofs.Function.Construction

/-!
# The built-in functions make a catalog

The table of built-in functions is data, and nothing in its type says that its signatures can be
read, that its names are fit and that no name is in it twice. All of this is so; hence whether a
configuration has a catalog depends only on the functions that it adds.

* `Builtin.isSound_of_mem` — every entry of the table has a descriptor, and it is fit;
* `Config.catalog_eq_build` — the catalog of a configuration is built from the table and what the
  configuration adds;
* `Config.exists_catalog_iff` — which configurations have a catalog.
-/

namespace RuleBlocks

-- ---------------------------------------------------------------------------
-- The table
-- ---------------------------------------------------------------------------

namespace Builtin

/-- The entry has a descriptor, and a catalog would admit it. -/
def isSound (b : Builtin) : Bool :=
  match b.descriptor with
  | .ok d => d.fault?.isNone
  | .error _ => false

/-- The same on the characters of name and signature, where it can be computed. -/
def isSoundSpelling (name signature : List Char) : Bool :=
  let parts := ((signature.splitOn ',').map Text.trim).filter fun part => !part.isEmpty
  match parts.mapM (Parameter.ofPart (String.ofList name)) with
  | .ok params =>
    !Text.isBlank name && !name.any Text.isWhiteSpace
      && (firstRepeat? [] (params.map (·.name))).isNone
  | .error _ => false

/-- Whether a built-in function is sound is decided by the characters of its name and signature. -/
theorem isSound_ofList (name signature : List Char) (returnType : ReturnType) (enabled : Bool) :
    isSound ⟨String.ofList name, returnType, enabled, String.ofList signature⟩ =
      isSoundSpelling name signature := by
  rw [isSound, descriptor, parseSignature, signatureParts, String.toList_ofList, isSoundSpelling]
  dsimp only
  generalize List.mapM (Parameter.ofPart (String.ofList name)) _ = answer
  cases answer with
  | error e => rfl
  | ok params =>
    simp only [Except.map, FunctionDescriptor.fault?, FunctionDescriptor.ofType,
      String.toList_ofList]
    -- The parameters are the same on both sides, so only the name is left to judge.
    cases Text.isBlank name <;> cases name.any Text.isWhiteSpace <;> simp

/-- Every entry of the table is sound. The characters of three signatures come in several pieces. -/
theorem isSound_of_mem : ∀ b ∈ all, b.isSound = true := by
  simp only [all, conversions, typeChecks, messageFields, messageHandling, patternMatching, strings,
    json, dates, hashing, encoding, ipHandling, nullSupport, urls, syslog, lookupTables, maps,
    debugging, arrays, List.forall_mem_append, List.forall_mem_cons, List.not_mem_nil,
    false_implies, implies_true, and_true]
  repeat' apply And.intro
  all_goals
    first
    | rw [isSound_ofList]; decide +kernel
    | rw [← String.ofList_append, isSound_ofList]; decide +kernel
    | rw [← String.ofList_append, ← String.ofList_append, isSound_ofList]; decide +kernel

/-- Sound entries have fit descriptors, under their own names. -/
theorem exists_mapM_descriptor {table : List Builtin} (h : ∀ b ∈ table, b.isSound = true) :
    ∃ ds, table.mapM descriptor = .ok ds ∧ (∀ d ∈ ds, d.fault? = none) ∧
      ds.map (·.name) = table.map (·.name) := by
  induction table with
  | nil => exact ⟨[], rfl, by simp, rfl⟩
  | cons b rest ih =>
    obtain ⟨hFirst, hRest⟩ := List.forall_mem_cons.mp h
    obtain ⟨ds, hRead, hFit, hNames⟩ := ih hRest
    rw [isSound] at hFirst
    cases hDescriptor : b.descriptor with
    | error e => simp [hDescriptor] at hFirst
    | ok d =>
      have hName : d.name = b.name := by
        rw [descriptor] at hDescriptor
        cases hParams : parseSignature b.name b.signature with
        | error e => simp [hParams, Except.map] at hDescriptor
        | ok params =>
          obtain rfl : _ = d := by simpa [hParams, Except.map] using hDescriptor
          rfl
      rw [hDescriptor] at hFirst
      -- The first one is described, and so are the others.
      refine ⟨d :: ds, ?_, ?_, by rw [List.map_cons, List.map_cons, hName, hNames]⟩
      · rw [List.mapM_cons, hDescriptor, hRead]
        rfl
      · exact List.forall_mem_cons.mpr ⟨Option.isNone_iff_eq_none.mp hFirst, hFit⟩

/-- **All built-in functions can be described**, and nothing is wrong with any of them. -/
theorem exists_descriptors :
    ∃ ds, descriptors = .ok ds ∧ (∀ d ∈ ds, d.fault? = none) ∧
      ds.map (·.name) = all.map (·.name) :=
  exists_mapM_descriptor isSound_of_mem

theorem nodup_names : (all.map (·.name)).Nodup := by
  decide +kernel

end Builtin

-- ---------------------------------------------------------------------------
-- Configurations
-- ---------------------------------------------------------------------------

namespace Config

/-- The catalog of a configuration is that of the table and of what the configuration adds. -/
theorem catalog_eq_build {ds : List FunctionDescriptor} (h : Builtin.descriptors = .ok ds)
    (config : Config) :
    config.catalog = FunctionCatalog.build (ds ++ config.plugins.functions) := by
  have hDeclared : (ds.map Contribution.declared).flatMap Contribution.descriptors = ds := by
    simp [List.flatMap_map, Contribution.descriptors]
  rw [catalog, h]
  change FunctionCatalog.collect _ = _
  rw [FunctionCatalog.collect, List.flatMap_append, hDeclared]
  simp [Contribution.descriptors]

/-- A configuration has a catalog exactly if the functions that it adds are fit, and have names that
differ from each other and from those of the table. -/
theorem exists_catalog_iff (config : Config) :
    (∃ c, config.catalog = .ok c) ↔
      (∀ d ∈ config.plugins.internalFunctions, d.fault? = none) ∧
        (config.plugins.internalFunctions.map (·.name)).Nodup ∧
        ∀ b ∈ Builtin.all, ∀ d ∈ config.plugins.internalFunctions, b.name ≠ d.name := by
  obtain ⟨ds, hRead, hFit, hNames⟩ := Builtin.exists_descriptors
  have hFunctions : config.plugins.functions.map (·.name) =
      config.plugins.internalFunctions.map (·.name) := by
    rw [PluginSettings.functions, List.map_map]
    rfl
  rw [catalog_eq_build hRead, FunctionCatalog.exists_build_iff, List.forall_mem_append,
    List.map_append, hNames, hFunctions, PluginSettings.functions, List.forall_mem_map,
    List.nodup_append, and_iff_right hFit, and_iff_right Builtin.nodup_names]
  simp only [List.forall_mem_map]
  rfl

end Config

end RuleBlocks
