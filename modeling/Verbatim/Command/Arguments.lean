import Verbatim.Command.Basic

/-!
# Command lines

A command line is read from left to right and the first fault decides. What stands in front of the
command goes for the program, what stands behind it for the command; the file of options and the
verbosity may stand in either part, and the later part wins. An argument behind `--` is a path, even
if it starts with a hyphen.
-/

namespace Verbatim

inductive ArgumentForm where
  /-- A word, a path or a value. A single hyphen is one. -/
  | plain (text : String)
  /-- A name behind two hyphens, perhaps with a value behind an equals sign. -/
  | long (name : String) (value : Option String)
  /-- Letters behind one hyphen. -/
  | short (letters : List Char)
  /-- Two hyphens: no options from here on. -/
  | ending
  deriving DecidableEq, Repr

def ArgumentForm.of (argument : String) : ArgumentForm :=
  match argument.toList with
  | '-' :: '-' :: [] => ending
  | '-' :: '-' :: rest =>
    let name := String.ofList (rest.takeWhile (· ≠ '='))
    match rest.dropWhile (· ≠ '=') with
    | [] => long name none
    | _ :: value => long name (some (String.ofList value))
  | '-' :: c :: rest => short (c :: rest)
  | _ => plain argument

/-- The options that take a value. -/
inductive Setting where
  | config | format | extension
  deriving DecidableEq, Repr

/-- The options that take none. -/
inductive Switch where
  | verbose | version | help
  deriving DecidableEq, Repr

/-- A part of the command line. -/
inductive CommandLevel where
  /-- In front of the command. -/
  | program
  /-- Behind the command. -/
  | command (name : CommandName)
  deriving DecidableEq, Repr

namespace CommandLevel

/-- The options with a value that a part knows. -/
def setting? (level : CommandLevel) (name : String) : Option Setting :=
  match name with
  | "config" => some .config
  | "format" => if level = command .tree then some .format else none
  | "extension" => if level = command .check then some .extension else none
  | _ => none

/-- The options without a value that a part knows. -/
def switch? (level : CommandLevel) (name : String) : Option Switch :=
  match name with
  | "verbose" => some .verbose
  | "help" => some .help
  | "version" => if level = program then some .version else none
  | _ => none

/-- The same options by their letters. -/
def switchOfLetter? (level : CommandLevel) (letter : Char) : Option Switch :=
  match letter with
  | 'v' => some .verbose
  | 'h' => some .help
  | 'V' => if level = program then some .version else none
  | _ => none

/-- What help at a level is about. -/
def topic : CommandLevel → Option CommandName
  | program => none
  | command name => some name

end CommandLevel

/-- What a part of a command line has said so far. -/
structure Given where
  config : Option String := none
  format : Option DumpFormat := none
  extensions : List String := []
  verbosity : Nat := 0
  path : Option String := none
  deriving DecidableEq, Repr

/-- Why reading ends before the end of the command line: something is wrong, or a switch asks for
something that needs no command. -/
inductive Halt where
  | misuse (fault : Misuse)
  | request (asked : Request)
  deriving DecidableEq, Repr

namespace Given

/-- Takes a value of an option. An option that is a file must not be empty. -/
def set (g : Given) (setting : Setting) (value : String) : Except Halt Given :=
  match setting with
  | .config =>
    if g.config.isSome then .error (.misuse (.repeated "--config"))
    else if value = "" then .error (.misuse (.valueMissing "--config"))
    else .ok { g with config := some value }
  | .format =>
    if g.format.isSome then .error (.misuse (.repeated "--format"))
    else
      match value with
      | "json" => .ok { g with format := some .json }
      | "yaml" => .ok { g with format := some .yaml }
      | _ => .error (.misuse (.invalidValue "--format" value))
  | .extension => .ok { g with extensions := g.extensions ++ [value] }

/-- Takes an option without a value. -/
def turn (g : Given) (level : CommandLevel) : Switch → Except Halt Given
  | .verbose => .ok { g with verbosity := g.verbosity + 1 }
  | .version => .error (.request .version)
  | .help => .error (.request (.help level.topic))

/-- Takes a letter. -/
def turnLetter (level : CommandLevel) (g : Given) (letter : Char) : Except Halt Given :=
  match level.switchOfLetter? letter with
  | some switch => g.turn level switch
  | none => .error (.misuse (.unexpected (String.ofList ['-', letter])))

/-- Takes a path. A command has one at most. -/
def place (level : CommandLevel) (g : Given) (path : String) : Except Halt Given :=
  if level = .program ∨ g.path.isSome then .error (.misuse (.unexpected path))
  else if path = "" then .error (.misuse (.valueMissing "path"))
  else .ok { g with path := some path }

end Given

namespace Request

/-- What `help` with the words behind it asks for. -/
def ofHelp : List String → Halt
  | [] => .request (.help none)
  | [word] =>
    if word = "help" then .request (.help none)
    else
      match CommandName.ofWord? word with
      | some name => .request (.help (some name))
      | none => .misuse (.unknownCommand word)
  | _ :: word :: _ => .misuse (.unknownCommand word)

/-- Reads a part of a command line up to its end or, in front of the command, up to the command,
with the arguments behind that. -/
def scan (level : CommandLevel) (g : Given) :
    List String → Except Halt (Given × Option (CommandName × List String))
  | [] => .ok (g, none)
  | argument :: rest =>
    match ArgumentForm.of argument with
    | .ending => (rest.foldlM (Given.place level) g).map fun g => (g, none)
    | .short letters => letters.foldlM (Given.turnLetter level) g >>= fun g => scan level g rest
    | .long name value? =>
      match level.setting? name, level.switch? name, value?, rest with
      | some setting, _, some value, rest => g.set setting value >>= fun g => scan level g rest
      | some setting, _, none, value :: rest =>
        if ArgumentForm.of value = .plain value then
          g.set setting value >>= fun g => scan level g rest
        else .error (.misuse (.valueMissing argument))
      | some _, _, none, [] => .error (.misuse (.valueMissing argument))
      | none, some _, some value, _ => .error (.misuse (.valueUnexpected name value))
      | none, some switch, none, rest => g.turn level switch >>= fun g => scan level g rest
      | none, none, _, _ => .error (.misuse (.unexpected argument))
    | .plain word =>
      match level, CommandName.ofWord? word with
      | .command _, _ => g.place level word >>= fun g => scan level g rest
      | .program, some name => .ok (g, some (name, rest))
      | .program, none =>
        .error (if word = "help" then ofHelp rest else .misuse (.unknownCommand word))

/-- The action of a command with what stands behind it. -/
def action (name : CommandName) (g : Given) : Except Halt Action :=
  match name, g.path with
  | .tree, some file => .ok (.tree file (g.format.getD .json))
  | .print, some file => .ok (.print file)
  | .check, path => .ok (.check (path.getD ".") g.extensions)
  | name, none => .error (.misuse (.valueMissing name.word))

/-- Reads the arguments up to where something decides what is asked for. -/
def readOrHalt (arguments : List String) : Except Halt Request := do
  match ← scan .program {} arguments with
  | (_, none) => throw (.misuse .noCommand)
  | (front, some (name, rest)) =>
    let (back, _) ← scan (.command name) {} rest
    let action ← action name back
    return .run
      { action
        config := back.config.or front.config
        verbosity := if back.verbosity = 0 then front.verbosity else back.verbosity }

/-- Reads a command line without the name of the program. -/
def read (arguments : List String) : Except Misuse Request :=
  match readOrHalt arguments with
  | .ok request => .ok request
  | .error (.request asked) => .ok asked
  | .error (.misuse fault) => .error fault

end Request

end Verbatim
