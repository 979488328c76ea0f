import RuleBlocks.Json.Basic

/-!
# Writing JSON

Two layouts: compact, without any blank, and spread over lines with two blanks for each level.
In strings only the quote, the backslash and the characters below U+0020 are escaped.

Main definitions:

* `Json.quoted` — a string between quotes;
* `Json.compact` — a value on one line;
* `Json.pretty` — a value spread over lines.
-/

namespace RuleBlocks.Json

-- ---------------------------------------------------------------------------
-- Strings
-- ---------------------------------------------------------------------------

/-- A code below 16 as a hexadecimal digit, in lower case. -/
def hexDigit (n : Nat) : Char :=
  if n < 10 then Char.ofNat ('0'.toNat + n) else Char.ofNat ('a'.toNat + (n - 10))

def escapeChar (c : Char) : List Char :=
  if c = '"' then ['\\', '"']
  else if c = '\\' then ['\\', '\\']
  else if 0x20 ≤ c.toNat then [c]
  else if c.toNat = 0x08 then ['\\', 'b']
  else if c.toNat = 0x09 then ['\\', 't']
  else if c.toNat = 0x0A then ['\\', 'n']
  else if c.toNat = 0x0C then ['\\', 'f']
  else if c.toNat = 0x0D then ['\\', 'r']
  else ['\\', 'u', '0', '0', hexDigit (c.toNat / 16), hexDigit (c.toNat % 16)]

def quoted (s : String) : String :=
  String.ofList ('"' :: (s.toList.flatMap escapeChar ++ ['"']))

-- ---------------------------------------------------------------------------
-- Compact layout
-- ---------------------------------------------------------------------------

mutual

def compact : Json → String
  | null => "null"
  | bool true => "true"
  | bool false => "false"
  | number n => n.text
  | string s => quoted s
  | array items => "[" ++ ",".intercalate (compactItems items) ++ "]"
  | object entries => "\x7b" ++ ",".intercalate (compactEntries entries) ++ "\x7d"

def compactItems : List Json → List String
  | [] => []
  | v :: rest => compact v :: compactItems rest

def compactEntries : List (String × Json) → List String
  | [] => []
  | (key, v) :: rest => (quoted key ++ ":" ++ compact v) :: compactEntries rest

end

-- ---------------------------------------------------------------------------
-- Layout over lines
-- ---------------------------------------------------------------------------

/-- A new line at the given level. -/
def newLine (level : Nat) : String :=
  "\n" ++ String.ofList (List.replicate (2 * level) ' ')

/-- Parts on lines of their own between brackets; brackets around nothing stay on one line. -/
def bracketed (opening closing : String) (level : Nat) (parts : List String) : String :=
  if parts.isEmpty then opening ++ closing
  else
    opening ++ newLine (level + 1) ++ ("," ++ newLine (level + 1)).intercalate parts
      ++ newLine level ++ closing

mutual

def prettyAt (level : Nat) : Json → String
  | null => "null"
  | bool true => "true"
  | bool false => "false"
  | number n => n.text
  | string s => quoted s
  | array items => bracketed "[" "]" level (prettyItems (level + 1) items)
  | object entries => bracketed "\x7b" "\x7d" level (prettyEntries (level + 1) entries)

def prettyItems (level : Nat) : List Json → List String
  | [] => []
  | v :: rest => prettyAt level v :: prettyItems level rest

def prettyEntries (level : Nat) : List (String × Json) → List String
  | [] => []
  | (key, v) :: rest => (quoted key ++ ": " ++ prettyAt level v) :: prettyEntries level rest

end

def pretty (v : Json) : String :=
  prettyAt 0 v

end RuleBlocks.Json
