import RuleBlocks.CommandLine.Arguments
import RuleBlocks.CommandLine.Failure

/-!
# Runs

What the program does with its arguments: it loads the configuration, builds the catalog, reads the
fragments, and then carries out the command. Files are looked up through a function that is passed
in, so a run can be followed without a disk.

Main definitions:

* `Outcome` — the exit code and what is written;
* `HelpTopic.text` — the help texts;
* `blockTable` — the list of building blocks as a table;
* `carryOut` — the outcome of a command on a registry;
* `runProgram` — the outcome of the arguments.
-/

namespace RuleBlocks

/-- What a run leaves behind. -/
structure Outcome where
  exit : Nat
  output : String
  errors : String
  /-- The registry that is to be kept up to date from now on. -/
  serving : Option LiveRegistry
deriving Repr

namespace Outcome

def success (output : String) : Outcome :=
  { exit := 0, output, errors := "", serving := none }

def failure (f : Failure) : Outcome :=
  { exit := 1, output := "", errors := f.report, serving := none }

def serve (live : LiveRegistry) : Outcome :=
  { exit := 0, output := "", errors := "", serving := some live }

end Outcome

-- ---------------------------------------------------------------------------
-- Help
-- ---------------------------------------------------------------------------

/-- Fill a text up with blanks to a number of characters. -/
def padded (width : Nat) (text : String) : String :=
  text ++ String.ofList (List.replicate (width - text.length) ' ')

/-- What a command does, in one line. -/
def CommandName.purpose : CommandName → String
  | conditions => "List condition building blocks"
  | actions => "List action building blocks"
  | render => "Render a fragment template"
  | check => "Build the catalog and fragments once and report broken templates"
  | watch => "Keep the registry up to date with the fragment file until Ctrl-C"

namespace HelpTopic

/-- What the topic is, in one line. -/
def purpose : HelpTopic → String
  | program => "Inspect rule builder building blocks and fragment templates"
  | command c => c.purpose
  | help => "Print this message or the help of the given subcommand(s)"

def usage : HelpTopic → String
  | program => "rulebuilder [OPTIONS] <COMMAND>"
  | command .conditions => "rulebuilder conditions [OPTIONS]"
  | command .actions => "rulebuilder actions [OPTIONS]"
  | command .render => "rulebuilder render [OPTIONS] <NAME>"
  | command .check => "rulebuilder check"
  | command .watch => "rulebuilder watch"
  | help => "rulebuilder help [COMMAND]..."

/-- The lists of a help text: each with its heading, and its entries with what they mean. -/
def lists : HelpTopic → List (String × List (String × String))
  | program =>
    [("Commands", CommandName.all.map (fun c => (c.name, c.purpose)) ++
        [("help", HelpTopic.help.purpose)]),
      ("Options",
        [("-c, --config <FILE>", "YAML or JSON config file [default: rulebuilder.yaml]"),
          ("-v, --verbose", "Verbose logging"), ("-h, --help", "Print help")])]
  | command .conditions => [("Options", [("    --json", ""), ("-h, --help", "Print help")])]
  | command .actions => [("Options", [("    --json", ""), ("-h, --help", "Print help")])]
  | command .render =>
    [("Arguments", [("<NAME>", "")]),
      ("Options",
        [("    --context <CONTEXT>", "Template context as a JSON object [default: {}]"),
          ("-h, --help", "Print help")])]
  | command .check => [("Options", [("-h, --help", "Print help")])]
  | command .watch => [("Options", [("-h, --help", "Print help")])]
  | help => [("Arguments", [("[COMMAND]...", "Print help for the subcommand(s)")])]

/-- A list under its heading, with the meanings below each other. -/
def listText (heading : String) (entries : List (String × String)) : String :=
  let width := (entries.map fun e => e.1.length).foldl max 0
  "\n" ++ heading ++ ":\n" ++
    String.join (entries.map fun e => "  " ++ padded width e.1 ++ "  " ++ e.2 ++ "\n")

def text (t : HelpTopic) : String :=
  t.purpose ++ "\n\nUsage: " ++ t.usage ++ "\n" ++
    String.join (t.lists.map fun l => listText l.1 l.2)

end HelpTopic

def NoRequest.outcome : NoRequest → Outcome
  | help topic => .success topic.text
  | misuse =>
    { exit := 2
      output := ""
      errors := "error: bad usage\n\n" ++ HelpTopic.program.text
      serving := none }

-- ---------------------------------------------------------------------------
-- Lists of building blocks
-- ---------------------------------------------------------------------------

/-- One line for each block. The column of the names is as wide as the longest name has bytes. -/
def blockTable (blocks : BuildingBlocks) : String :=
  let width := (blocks.names.map String.utf8ByteSize).foldl max 0
  let line (entry : String × BuildingBlock) : String :=
    let (name, b) := entry
    "  ".intercalate
      [padded width name, padded 10 b.descriptor.returnType.name,
        if b.isFragment then "fragment" else "function", b.descriptor.displayName] ++ "\n"
  String.join (blocks.entries.map line)

/-- The blocks as one JSON object, in their order. -/
def blockDocument (blocks : BuildingBlocks) : String :=
  (Json.object (blocks.entries.map fun (name, b) => (name, b.json))).pretty ++ "\n"

def blockList (json : Bool) (blocks : BuildingBlocks) : Outcome :=
  .success (if json then blockDocument blocks else blockTable blocks)

-- ---------------------------------------------------------------------------
-- Commands
-- ---------------------------------------------------------------------------

/-- Count what there is and tell which templates do not compile. -/
def checkSnapshot (catalog : FunctionCatalog) (s : Snapshot) : Outcome :=
  let output :=
    toString catalog.size ++ " functions, " ++ toString s.conditions.size ++ " conditions, "
      ++ toString s.actions.size ++ " actions, " ++ toString s.templates.size
      ++ " fragment templates\n"
  if s.fragmentErrors.isEmpty then .success output
  else
    let lines := s.fragmentErrors.map fun e => e.name ++ ": " ++ e.error.message ++ "\n"
    let failure := Outcome.failure (.templates s.fragmentErrors.length)
    { failure with output, errors := String.join lines ++ failure.errors }

/-- Render the template of a name. The context is read first. -/
def renderText (s : Snapshot) (name context : String) : Except Failure String :=
  match Json.parse? context with
  | none => .error .context
  | some context => (s.render name context).mapError .registry

/-- Start to keep the registry up to date. -/
def watchFragments (files : String → FileState) (config : Config) (system : ReloadSystem) :
    Except Failure LiveRegistry :=
  match config.fragments.path with
  | none => .error .nothingToWatch
  | some path =>
    match LiveRegistry.start files (if config.fragments.watch then some path else none)
        { system, tasks := [] } with
    | (.ok _, live) => .ok live
    | (.error e, _) => .error (.background e)

/-- Carry out a command on a registry that has been initialized. -/
def carryOut (files : String → FileState) (config : Config) (system : ReloadSystem)
    (command : Command) : Except Failure Outcome :=
  match command with
  | .conditions json => (system.registry.conditions.mapError .registry).map (blockList json)
  | .actions json => (system.registry.actions.mapError .registry).map (blockList json)
  | .render name context => do
    let s ← system.registry.snapshot.mapError .registry
    return .success ((← renderText s name context) ++ "\n")
  | .check =>
    (system.registry.snapshot.mapError .registry).map (checkSnapshot system.registry.catalog)
  | .watch => (watchFragments files config system).map .serve

-- ---------------------------------------------------------------------------
-- The whole run
-- ---------------------------------------------------------------------------

/-- The registry of a configuration, with the fragments that were found. -/
def initialized (config : Config) (files : String → FileState) : Except Failure ReloadSystem := do
  let catalog ← config.catalog.mapError .catalog
  let (result, system) := (ReloadSystem.new (.new catalog) config.fragmentStore).ensureReady files
  match result with
  | some (.error e) => throw (.fragments (config.fragments.path.getD "") e)
  | _ => return system

/-- What has to be looked up for a configuration: its fragment file and that file's directory. -/
def lookedUp (config : Config) : List String :=
  match config.fragments.path with
  | none => []
  | some path => path :: (parent? path).toList

/-- The files of some paths, as they were found. -/
def filesFound (found : List (String × FileState)) (path : String) : FileState :=
  (found.lookup path).getD .missing

/-- The run of a request, once it is known what stands at the path of the configuration. -/
def outcomeOf {m : Type → Type} [Monad m] (find : String → m FileState) (arguments : Arguments) :
    m Outcome := do
  match Config.load arguments.config (← find arguments.config) with
  | .error e => return .failure (.config arguments.config e)
  | .ok config =>
    let found ← (lookedUp config).mapM fun path => return (path, ← find path)
    let files := filesFound found
    match (initialized config files).bind fun system =>
        carryOut files config system arguments.command with
    | .ok outcome => return outcome
    | .error f => return .failure f

/-- Run the program with the given arguments. -/
def runProgram {m : Type → Type} [Monad m] (find : String → m FileState) (arguments : List String) :
    m Outcome :=
  match Arguments.read arguments with
  | .error reason => return reason.outcome
  | .ok arguments => outcomeOf find arguments

end RuleBlocks
