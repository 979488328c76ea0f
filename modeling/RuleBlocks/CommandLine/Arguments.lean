/-!
# Arguments

What the program is asked to do. Switches that hold for every command stand before the command, its
own switches and words after it. Arguments are read from left to right, and the first one that
does not fit, or that asks for help, decides.

Main definitions:

* `Command`, `Arguments` — the request;
* `ArgumentReader`, `ArgumentReader.step` — what has been read so far, and how one more argument is
  read;
* `Arguments.read` — the request of a list of arguments.
-/

namespace RuleBlocks

inductive Command
  /-- List conditions, as a table or as JSON. -/
  | conditions (json : Bool)
  | actions (json : Bool)
  /-- Render the template of a name in a context that is given as a JSON text. -/
  | render (name context : String)
  | check
  | watch
deriving DecidableEq, Repr

structure Arguments where
  config : String
  verbose : Bool
  command : Command
deriving DecidableEq, Repr

-- ---------------------------------------------------------------------------
-- Switches and commands
-- ---------------------------------------------------------------------------

inductive Switch
  | config
  | verbose
  | json
  | context
  | help
deriving DecidableEq, Repr

namespace Switch

def name : Switch → String
  | config => "config"
  | verbose => "verbose"
  | json => "json"
  | context => "context"
  | help => "help"

def letter? : Switch → Option Char
  | config => some 'c'
  | verbose => some 'v'
  | help => some 'h'
  | json => none
  | context => none

def takesValue : Switch → Bool
  | config => true
  | context => true
  | _ => false

end Switch

inductive CommandName
  | conditions
  | actions
  | render
  | check
  | watch
deriving DecidableEq, Repr

namespace CommandName

def name : CommandName → String
  | conditions => "conditions"
  | actions => "actions"
  | render => "render"
  | check => "check"
  | watch => "watch"

def all : List CommandName :=
  [conditions, actions, render, check, watch]

def ofName? (text : String) : Option CommandName :=
  all.find? fun c => c.name == text

def switches : CommandName → List Switch
  | conditions => [.json, .help]
  | actions => [.json, .help]
  | render => [.context, .help]
  | check => [.help]
  | watch => [.help]

/-- How many words follow the command. -/
def arity : CommandName → Nat
  | render => 1
  | _ => 0

end CommandName

/-- What a user may ask help for. -/
inductive HelpTopic
  | program
  | command (name : CommandName)
  | help
deriving DecidableEq, Repr

/-- Why there is no request. -/
inductive NoRequest
  | help (topic : HelpTopic)
  | misuse
deriving DecidableEq, Repr

-- ---------------------------------------------------------------------------
-- Reading
-- ---------------------------------------------------------------------------

/-- The arguments that have been read. -/
structure ArgumentReader where
  command : Option CommandName
  /-- Each switch with its value, which is empty for a switch without one. -/
  given : List (Switch × String)
  /-- The switch whose value comes next. -/
  awaiting : Option Switch
  words : List String
  /-- Whether only words follow. -/
  wordsOnly : Bool
deriving Repr

namespace ArgumentReader

def start : ArgumentReader :=
  { command := none, given := [], awaiting := none, words := [], wordsOnly := false }

/-- The switches that may stand here. -/
def switches (r : ArgumentReader) : List Switch :=
  match r.command with
  | none => [.config, .verbose, .help]
  | some c => c.switches

/-- What help is about that is asked for here. -/
def topic (r : ArgumentReader) : HelpTopic :=
  match r.command with
  | none => .program
  | some c => .command c

/-- Note a switch. None may be given twice, and a file has a name. -/
def give (r : ArgumentReader) (s : Switch) (value : String) : Except NoRequest ArgumentReader :=
  if s = .help then .error (.help r.topic)
  else if (r.given.lookup s).isSome then .error .misuse
  else if s = .config && value.isEmpty then .error .misuse
  else .ok { r with given := r.given ++ [(s, value)], awaiting := none }

/-- A switch after two dashes, with what follows the equals sign. -/
def longSwitch (r : ArgumentReader) (text : List Char) : Except NoRequest ArgumentReader :=
  let name := String.ofList (text.takeWhile (· != '='))
  match r.switches.find? (fun s => s.name == name), text.dropWhile (· != '=') with
  | none, _ => .error .misuse
  | some s, [] => if s.takesValue then .ok { r with awaiting := some s } else r.give s ""
  | some s, _ :: value =>
    if s.takesValue then r.give s (String.ofList value) else .error .misuse

/-- Letters after one dash. The rest of the letters after one that takes a value is the value. -/
def letterSwitches (r : ArgumentReader) : List Char → Except NoRequest ArgumentReader
  | [] => .ok r
  | c :: rest =>
    match r.switches.find? fun s => s.letter? == some c with
    | none => .error .misuse
    | some s =>
      if s.takesValue then
        match rest with
        | [] => .ok { r with awaiting := some s }
        | '=' :: value => r.give s (String.ofList value)
        | value => r.give s (String.ofList value)
      else (r.give s "").bind fun r => r.letterSwitches rest

def word (r : ArgumentReader) (text : String) : Except NoRequest ArgumentReader :=
  match r.command with
  | none =>
    match CommandName.ofName? text with
    | some c => if r.wordsOnly then .error .misuse else .ok { r with command := some c }
    | none => .error .misuse
  | some c =>
    if r.words.length < c.arity then .ok { r with words := r.words ++ [text] } else .error .misuse

/-- Read one more argument. -/
def step (r : ArgumentReader) (argument : String) : Except NoRequest ArgumentReader :=
  if r.wordsOnly then r.word argument
  else
    match r.awaiting, argument.toList with
    | some _, '-' :: _ :: _ => .error .misuse
    | some s, _ => r.give s argument
    | none, ['-', '-'] => .ok { r with wordsOnly := true }
    | none, '-' :: '-' :: text => r.longSwitch text
    | none, '-' :: c :: rest => r.letterSwitches (c :: rest)
    | none, _ => r.word argument

/-- The request, once all arguments have been read. -/
def finish (r : ArgumentReader) : Except NoRequest Arguments := do
  if r.awaiting.isSome then throw .misuse
  let isGiven (s : Switch) := (r.given.lookup s).isSome
  let command ← match r.command, r.words with
    | some .conditions, _ => .ok (.conditions (isGiven .json))
    | some .actions, _ => .ok (.actions (isGiven .json))
    | some .render, [name] => .ok (.render name ((r.given.lookup .context).getD "\x7b\x7d"))
    | some .render, _ => .error .misuse
    | some .check, _ => .ok .check
    | some .watch, _ => .ok .watch
    | none, _ => .error NoRequest.misuse
  return {
    config := (r.given.lookup .config).getD "rulebuilder.yaml"
    verbose := isGiven .verbose
    command }

/-- The answer to the word that asks for help, with what follows it. -/
def helpOn : List String → NoRequest
  | [] => .help .program
  | [name] =>
    if name == "help" then .help .help
    else
      match CommandName.ofName? name with
      | some c => .help (.command c)
      | none => .misuse
  | _ => .misuse

/-- Read arguments up to the end, or up to the word that asks for help. -/
def run (r : ArgumentReader) : List String → Except NoRequest Arguments
  | [] => r.finish
  | argument :: rest =>
    if argument == "help" && r.command.isNone && r.awaiting.isNone && !r.wordsOnly then
      .error (helpOn rest)
    else (r.step argument).bind fun r => r.run rest

end ArgumentReader

def Arguments.read (arguments : List String) : Except NoRequest Arguments :=
  ArgumentReader.start.run arguments

end RuleBlocks
