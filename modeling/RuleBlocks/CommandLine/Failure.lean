import RuleBlocks.Config
import RuleBlocks.Registry.Background

/-!
# Failures of a run

Why a run of the program fails, and how that is told. A failure is told with its causes, the
outermost first; several causes are numbered, and the further lines of a text are indented like its
first.

Main definitions:

* `Failure`, `Failure.messages` — the failure, and what is told about it;
* `Failure.report` — the text for the user.
-/

namespace RuleBlocks

inductive Failure
  | config (path : String) (error : ConfigError)
  | catalog (error : CatalogError)
  | fragments (path : String) (error : StoreError)
  /-- The context of a template is not a JSON text. -/
  | context
  | registry (error : RegistryError)
  /-- So many templates do not compile. -/
  | templates (count : Nat)
  /-- There is no fragment file to watch. -/
  | nothingToWatch
  | background (error : RegistryError)
deriving DecidableEq, Repr

namespace Failure

def configMessage (path : String) : ConfigError → String
  | .unreadable => "failed to read config: " ++ path ++ " cannot be read as text"
  | .malformed path => "failed to parse config " ++ path ++ ": not a configuration"

def storeMessage (path : String) : StoreError → String
  | .unavailable reason => "fragment store unavailable: " ++ reason
  | .unreadable => "failed to read fragments: " ++ path ++ " cannot be read as text"
  | .malformed => "failed to parse fragments from " ++ path ++ ": not a fragment file"

/-- What is told about an error of the registry: itself, and what is behind it. -/
def registryMessages : RegistryError → List String
  | .template e => ["template error: " ++ e.message, e.message]
  | .store e => ["fragment store error: " ++ storeMessage "" e, storeMessage "" e]
  | .watch => ["file watcher error: the directory cannot be watched"]
  | e => e.message?.toList

/-- The failure and its causes. -/
def messages : Failure → List String
  | config path e => ["failed to load config " ++ path, configMessage path e]
  | catalog e => ["failed to build function catalog", e.message]
  | fragments path e =>
    ["failed to load rule fragments", "fragment store error: " ++ storeMessage path e,
      storeMessage path e]
  | context => ["--context must be valid JSON", "not a JSON value"]
  | registry e => registryMessages e
  | templates count => [toString count ++ " fragment template(s) failed to compile"]
  | nothingToWatch => ["no fragment file configured (fragments.path)"]
  | background e => "failed to start background tasks" :: registryMessages e

/-- A text whose further lines start below its first. -/
def indented (first further text : String) : String :=
  first ++ ("\n" ++ further).intercalate (text.splitOn "\n")

/-- A number that is aligned to the right in five columns. -/
def aligned (n : Nat) : String :=
  String.ofList (List.replicate (5 - (toString n).length) ' ') ++ toString n

/-- The causes below a failure. -/
def causeLines : List String → List String
  | [] => []
  | [cause] => ["", "Caused by:", indented "    " "    " cause]
  | causes =>
    "" :: "Caused by:" :: causes.zipIdx.map fun (cause, n) =>
      indented (aligned n ++ ": ") "       " cause

/-- The text for the user. -/
def report (f : Failure) : String :=
  match f.messages with
  | [] => ""
  | message :: causes => "\n".intercalate (("Error: " ++ message) :: causeLines causes) ++ "\n"

end Failure

end RuleBlocks
