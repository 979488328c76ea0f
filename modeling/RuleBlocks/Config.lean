import RuleBlocks.Document.Json
import RuleBlocks.Document.Yaml
import RuleBlocks.Document.Path
import RuleBlocks.Fragment.Store
import RuleBlocks.Function.Builtin
import RuleBlocks.Function.Catalog
import RuleBlocks.Search.Service

/-!
# Configuration

What a node is told when it starts. Every part of the document may be left out and then has its
default. Functions that the configuration adds to the catalog are internal, whatever they say
themselves. The file is JSON if its extension is exactly `json`, and YAML otherwise; where there is
no file everything has its default.

Main definitions:

* `Config` — the document, with `read?` and `json`;
* `Config.parse?`, `Config.load` — read it from a text, and from what stands at its path;
* `Config.catalog`, `Config.fragmentStore`, `Config.searchService` — what it configures.
-/

namespace RuleBlocks

open DocumentNode

-- ---------------------------------------------------------------------------
-- Parts
-- ---------------------------------------------------------------------------

/-- Where the fragments are. -/
structure FragmentSettings where
  path : Option String
  /-- Whether changes of the file are to be announced. -/
  watch : Bool
deriving DecidableEq, Repr

namespace FragmentSettings

def standard : FragmentSettings :=
  { path := none, watch := false }

def fieldNames : List String :=
  ["path", "watch"]

def read? {ν : Type} [DocumentNode ν] (node : ν) : Option FragmentSettings := do
  let fields : Fields ν ← fields? fieldNames node
  return {
    path := ← fields.optional "path" text?
    watch := ← fields.defaulted "watch" standard.watch flag? }

def json (s : FragmentSettings) : Json :=
  .object
    [("path", match s.path with
      | some path => .string path
      | none => .null),
     ("watch", .bool s.watch)]

end FragmentSettings

inductive LogFormat
  | text
  | json
deriving DecidableEq, Repr

namespace LogFormat

def name : LogFormat → String
  | text => "text"
  | json => "json"

def named : List (String × LogFormat) :=
  [text, json].map fun f => (f.name, f)

end LogFormat

structure LogSettings where
  level : String
  format : LogFormat
deriving DecidableEq, Repr

namespace LogSettings

def standard : LogSettings :=
  { level := "info", format := .text }

def fieldNames : List String :=
  ["level", "format"]

def read? {ν : Type} [DocumentNode ν] (node : ν) : Option LogSettings := do
  let fields : Fields ν ← fields? fieldNames node
  return {
    level := ← fields.defaulted "level" standard.level text?
    format := ← fields.defaulted "format" standard.format (named? LogFormat.named) }

def json (s : LogSettings) : Json :=
  .object [("level", .string s.level), ("format", .string s.format.name)]

end LogSettings

/-- What is added to the built-in functions. -/
structure PluginSettings where
  internalFunctions : List FunctionDescriptor
deriving DecidableEq, Repr

namespace PluginSettings

def standard : PluginSettings :=
  { internalFunctions := [] }

def fieldNames : List String :=
  ["internalFunctions"]

def read? {ν : Type} [DocumentNode ν] (node : ν) : Option PluginSettings := do
  let fields : Fields ν ← fields? fieldNames node
  return {
    internalFunctions :=
      ← fields.defaulted "internalFunctions" standard.internalFunctions
        (list? FunctionDescriptor.read?) }

def json (s : PluginSettings) : Json :=
  .object [("internalFunctions", .array (s.internalFunctions.map FunctionDescriptor.json))]

/-- The functions as they are registered. -/
def functions (s : PluginSettings) : List FunctionDescriptor :=
  s.internalFunctions.map (·.makeInternal)

end PluginSettings

-- ---------------------------------------------------------------------------
-- The document
-- ---------------------------------------------------------------------------

structure Config where
  fragments : FragmentSettings
  searchJobs : SearchJobSettings
  /-- The name of this node, which executes search jobs. -/
  nodeId : String
  logging : LogSettings
  plugins : PluginSettings
deriving DecidableEq, Repr

/-- Why there is no configuration. -/
inductive ConfigError
  | unreadable
  | malformed (path : String)
deriving DecidableEq, Repr

namespace Config

def standard : Config :=
  { fragments := .standard
    searchJobs := .standard
    nodeId := "local"
    logging := .standard
    plugins := .standard }

def fieldNames : List String :=
  ["fragments", "searchJobs", "nodeId", "logging", "plugins"]

def read? {ν : Type} [DocumentNode ν] (node : ν) : Option Config := do
  let fields : Fields ν ← fields? fieldNames node
  return {
    fragments := ← fields.defaulted "fragments" standard.fragments FragmentSettings.read?
    searchJobs := ← fields.defaulted "searchJobs" standard.searchJobs SearchJobSettings.read?
    nodeId := ← fields.defaulted "nodeId" standard.nodeId text?
    logging := ← fields.defaulted "logging" standard.logging LogSettings.read?
    plugins := ← fields.defaulted "plugins" standard.plugins PluginSettings.read? }

def json (c : Config) : Json :=
  .object
    [("fragments", c.fragments.json), ("searchJobs", c.searchJobs.json),
      ("nodeId", .string c.nodeId), ("logging", c.logging.json), ("plugins", c.plugins.json)]

def isJson (path : String) : Bool :=
  extension? path == some "json"

/-- Read the configuration from the text of a named file. -/
def parse? (path text : String) : Option Config :=
  if isJson path then readJson? read? text else readYaml? read? text

/-- The configuration of what stands at its path. -/
def load (path : String) (found : FileState) : Except ConfigError Config :=
  match found.text with
  | .error .missing => .ok standard
  | .error .unreadable => .error .unreadable
  | .ok text =>
    match parse? path text with
    | some config => .ok config
    | none => .error (.malformed path)

-- ---------------------------------------------------------------------------
-- What is configured
-- ---------------------------------------------------------------------------

/-- The built-in functions and those of the configuration. -/
def catalog (c : Config) : Except CatalogError FunctionCatalog := do
  let builtins := (← Builtin.descriptors).map Contribution.declared
  FunctionCatalog.collect (builtins ++ [.plugin c.plugins.functions])

def fragmentStore (c : Config) : FragmentStore :=
  match c.fragments.path with
  | some path => .file path
  | none => .empty

def searchService (c : Config) : SearchService :=
  .new c.nodeId c.searchJobs

end Config

end RuleBlocks
