import Verbatim.Dump.Data
import Verbatim.Number.Shortest

/-!
# Dumps in JSON

Members and elements stand on lines of their own, two spaces further in than what holds them. A
shape is an object whose only member is the shape's name.
-/

namespace Verbatim.Dump

/-- A character as it stands in a JSON string. -/
def escapeJson (c : Char) : List Char :=
  if c = '"' then ['\\', '"']
  else if c = '\\' then ['\\', '\\']
  else if c = '\x08' then ['\\', 'b']
  else if c = '\x0c' then ['\\', 'f']
  else if c = '\n' then ['\\', 'n']
  else if c = '\r' then ['\\', 'r']
  else if c = '\t' then ['\\', 't']
  else if c.toNat < 32 then
    ['\\', 'u', '0', '0', Nat.digitChar (c.toNat / 16), Nat.digitChar (c.toNat % 16)]
  else [c]

def quoteJson (s : String) : String :=
  String.ofList ('"' :: s.toList.flatMap escapeJson ++ ['"'])

/-- A number in JSON, which has none for infinities and not-a-number. -/
def numberJson : Binary64 → String
  | .finite negative m q => String.ofList (Binary64.compactText negative m q)
  | _ => "null"

/-- A line break and the indentation after it. -/
def newLine (depth : Nat) : String := "\n" ++ String.ofList (List.replicate (2 * depth) ' ')

/-- Parts between brackets, each on its own line one step further in. -/
def bracketed (left right : String) (depth : Nat) : List String → String
  | [] => left ++ right
  | parts =>
    left ++ newLine (depth + 1) ++ ("," ++ newLine (depth + 1)).intercalate parts ++
      newLine depth ++ right

mutual

def json (depth : Nat) : Data → String
  | .null => "null"
  | .boolean b => if b then "true" else "false"
  | .integer n => toString n
  | .float x => numberJson x
  | .text s => quoteJson s
  | .list items => bracketed "[" "]" depth (jsonItems (depth + 1) items)
  | .record fields => bracketed "\x7b" "\x7d" depth (jsonFields (depth + 1) fields)
  | .variant name payload =>
    bracketed "\x7b" "\x7d" depth [quoteJson name ++ ": " ++ json (depth + 1) payload]

/-- The elements of a list as JSON. -/
def jsonItems (depth : Nat) : List Data → List String
  | [] => []
  | d :: ds => json depth d :: jsonItems depth ds

/-- The members of a record as JSON. -/
def jsonFields (depth : Nat) : List (String × Data) → List String
  | [] => []
  | (name, d) :: fields => (quoteJson name ++ ": " ++ json depth d) :: jsonFields depth fields

end

end Verbatim.Dump
