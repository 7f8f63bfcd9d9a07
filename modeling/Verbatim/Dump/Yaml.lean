import Verbatim.Dump.Data
import Verbatim.Number.Shortest
import Verbatim.Yaml.Place
import Verbatim.Yaml.Plain

/-!
# Dumps in YAML

Everything is written in block style, two spaces further in than what holds it; a list stands as far
in as the field that holds it. The name of a shape is a tag. A text is written plainly where it
reads back as the same text, and in quotes or as a literal block otherwise.
-/

namespace Verbatim.Dump

namespace Scalar

open Yaml (isBreak isGap)

/-- The characters that need no escape. -/
def isPrintable (c : Char) : Bool :=
  c == '\n' || (' ' ≤ c && c ≤ '~') || ('\xa0' ≤ c && c.toNat < 0xD800) ||
    ('\ue000' ≤ c && c ≤ '\ufffd' && c != '\ufeff') || 0x10000 ≤ c.toNat

/-- Whether two neighbouring characters are of the given classes. -/
def hasPair (first second : Char → Bool) : List Char → Bool
  | a :: b :: s => (first a && second b) || hasPair first second (b :: s)
  | _ => false

/-- Whether the start of a text would be taken for something other than a text. -/
def opensNode : List Char → Bool
  | [] => false
  | c :: s =>
    "#,[]\x7b\x7d&*!|>'\"%@\x60".toList.contains c ||
      ((c == '?' || c == '-') && (s.head?.all isGap)) ||
      "---".toList.isPrefixOf (c :: s) || "...".toList.isPrefixOf (c :: s)

/-- Whether a text holds what would be taken for the end of a key or the start of a comment. -/
def hasIndicator (s : List Char) : Bool :=
  hasPair (· == ':') isGap s || s.getLast? == some ':' || hasPair isGap (· == '#') s

/-- How a text is written. -/
inductive Style where
  | plain | singleQuoted | doubleQuoted | literal
  deriving DecidableEq, Repr

/-- Whether a text keeps its breaks and spaces as a literal block. -/
def fitsLiteral (s : List Char) : Bool :=
  s.all isPrintable && s.getLast? != some ' ' && !hasPair (· == ' ') isBreak s

/-- Whether a text keeps its breaks and spaces between single quotes. -/
def fitsSingleQuotes (s : List Char) : Bool :=
  s.all isPrintable && !hasPair (· == ' ') isBreak s && !hasPair isBreak (· == ' ') s

/-- Whether a text without quotes is read as the same text. -/
def fitsPlain (s : List Char) : Bool :=
  s.all isPrintable && !s.any isBreak && s.head? != some ' ' && s.getLast? != some ' ' &&
    !opensNode s && !hasIndicator s

/-- Whether a text without quotes would not be read as a text, or looks like a number. -/
def isAmbiguous (s : List Char) : Bool := Yaml.Plain.ofText s != .text || Yaml.Plain.isPadded s

/-- The style of a text. -/
def style (s : List Char) : Style :=
  if s.contains '\n' then (if fitsLiteral s then .literal else .doubleQuoted)
  else if fitsPlain s ∧ ¬ isAmbiguous s then .plain
  else if fitsSingleQuotes s then .singleQuoted
  else .doubleQuoted

/-- The digits of a number in base 16, with zeros in front up to a width. -/
def hexDigits (width n : Nat) : List Char :=
  let digits := (Nat.toDigits 16 n).map Char.toUpper
  List.replicate (width - digits.length) '0' ++ digits

/-- The letter that stands for a character behind a backslash. -/
def escapeLetter? (c : Char) : Option Char :=
  [('\x00', '0'), ('\x07', 'a'), ('\x08', 'b'), ('\t', 't'), ('\n', 'n'), ('\x0b', 'v'),
   ('\x0c', 'f'), ('\r', 'r'), ('\x1b', 'e'), ('"', '"'), ('\\', '\\'), ('\x85', 'N'),
   ('\xa0', '_'), ('\u2028', 'L'), ('\u2029', 'P')].lookup c

/-- A character as it stands between double quotes. -/
def escape (c : Char) : List Char :=
  if isPrintable c ∧ ¬ isBreak c ∧ c ≠ '"' ∧ c ≠ '\\' then [c]
  else
    match escapeLetter? c with
    | some letter => ['\\', letter]
    | none =>
      if c.toNat < 0x100 then '\\' :: 'x' :: hexDigits 2 c.toNat
      else if c.toNat < 0x10000 then '\\' :: 'u' :: hexDigits 4 c.toNat
      else '\\' :: 'U' :: hexDigits 8 c.toNat

/-- The text with a margin in front of each line that is not empty. `fresh` says whether the text
starts a line. -/
def indented (margin : List Char) (fresh : Bool) : List Char → List Char
  | [] => []
  | c :: s =>
    if isBreak c then c :: indented margin true s
    else (if fresh then margin else []) ++ c :: indented margin false s

/-- Whether a text ends a line. -/
def endsLine (s : List Char) : Bool := s.getLast?.any isBreak

/-- The header of a literal block: the depth of its margin where the first line does not show it,
and whether the breaks at the end are dropped (`-`) or kept beyond the first (`+`). -/
def literalHeader (s : List Char) : List Char :=
  let depth := if s.head?.any fun c => c == ' ' || isBreak c then ['2'] else []
  let chomping :=
    if !endsLine s then ['-'] else if s.dropLast.isEmpty || endsLine s.dropLast then ['+'] else []
  '|' :: depth ++ chomping

/-- A text whose further lines are indented by `depth`. -/
def write (depth : Nat) (s : List Char) : List Char :=
  let margin := List.replicate depth ' '
  match style s with
  | .plain => s
  | .singleQuoted =>
    let quoted := s.flatMap fun c => if c = '\'' then ['\'', '\''] else [c]
    '\'' :: indented margin false quoted ++ (if endsLine s then margin else []) ++ ['\'']
  | .doubleQuoted => '"' :: s.flatMap escape ++ ['"']
  | .literal => literalHeader s ++ '\n' :: indented margin true s

end Scalar

def numberYaml : Binary64 → List Char
  | .nan => ".nan".toList
  | .infinite negative => Binary64.signText negative ++ ".inf".toList
  | .finite negative m q => Binary64.compactText negative m q

/-- The text with a line break at the end, unless it ends a line already. -/
def closeLine (s : List Char) : List Char := if Scalar.endsLine s then s else s ++ ['\n']

def margin (depth : Nat) : List Char := List.replicate depth ' '

mutual

/-- What stands behind the colon of a field, or behind the dash of an element. Fields inside stand
`depth` columns further in, elements `outer` columns. -/
def yamlValue (outer depth : Nat) : Data → List Char
  | .null => " null\n".toList
  | .boolean b => (if b then " true\n" else " false\n").toList
  | .integer n => ' ' :: (toString n).toList ++ ['\n']
  | .float x => ' ' :: numberYaml x ++ ['\n']
  | .text s => ' ' :: closeLine (Scalar.write depth s.toList)
  | .list [] => " []\n".toList
  | .list (d :: ds) => '\n' :: yamlItems outer (d :: ds)
  | .record [] => " \x7b\x7d\n".toList
  | .record (f :: fs) => '\n' :: yamlFields depth (f :: fs)
  | .variant name payload => ' ' :: '!' :: name.toList ++ yamlValue outer depth payload

/-- The elements of a list. -/
def yamlItems (depth : Nat) : List Data → List Char
  | [] => []
  | d :: ds => margin depth ++ '-' :: yamlItem depth d ++ yamlItems depth ds

/-- What stands behind the dash of an element. The first part of a record or a list stands on the
same line. -/
def yamlItem (depth : Nat) : Data → List Char
  | .record ((name, d) :: fields) =>
    ' ' :: name.toList ++ ':' :: yamlValue (depth + 2) (depth + 4) d ++
      yamlFields (depth + 2) fields
  | .list (d :: ds) => ' ' :: '-' :: yamlItem (depth + 2) d ++ yamlItems (depth + 2) ds
  | d => yamlValue (depth + 2) (depth + 2) d

/-- The fields of a record. -/
def yamlFields (depth : Nat) : List (String × Data) → List Char
  | [] => []
  | (name, d) :: fields =>
    margin depth ++ name.toList ++ ':' :: yamlValue depth (depth + 2) d ++ yamlFields depth fields

end

/-- Data as a whole YAML text. -/
def yaml : Data → List Char
  | .record (field :: fields) => yamlFields 0 (field :: fields)
  | .list (d :: ds) => yamlItems 0 (d :: ds)
  | d => (yamlValue 0 2 d).drop 1

end Verbatim.Dump
