import Verbatim.Dump.Format

/-!
# Commands

What the program can be asked to do, and the ways to ask wrongly.
-/

namespace Verbatim

/-- The names of the commands. -/
inductive CommandName where
  | tree | print | check
  deriving DecidableEq, Repr

def CommandName.word : CommandName → String
  | tree => "tree"
  | print => "print"
  | check => "check"

def CommandName.ofWord? (word : String) : Option CommandName :=
  [tree, print, check].find? fun name => name.word = word

/-- What a command does. -/
inductive Action where
  /-- Dump the document of a file. -/
  | tree (file : String) (format : DumpFormat)
  /-- Print a file back from its document. -/
  | print (file : String)
  /-- Verify that the files below a path print back unchanged. Extensions override the options'
  unless there are none. -/
  | check (root : String) (extensions : List String)
  deriving DecidableEq, Repr

/-- An action with what goes for all actions. -/
structure Command where
  action : Action
  /-- The file of options. -/
  config : Option String := none
  /-- How much to log. -/
  verbosity : Nat := 0
  deriving DecidableEq, Repr

/-- What a command line asks for. -/
inductive Request where
  | run (command : Command)
  /-- The name and the version of the program. -/
  | version
  /-- How to use the program or one of its commands. -/
  | help (topic : Option CommandName)
  deriving DecidableEq, Repr

/-- What is wrong with a command line. -/
inductive Misuse where
  | noCommand
  | unknownCommand (word : String)
  /-- An argument that has no place. -/
  | unexpected (argument : String)
  /-- An option or a command without its value. -/
  | valueMissing (name : String)
  /-- A switch with a value. -/
  | valueUnexpected (name value : String)
  /-- A value that an option does not take. -/
  | invalidValue (name value : String)
  /-- An option that may be given once and is given twice. -/
  | repeated (name : String)
  deriving DecidableEq, Repr

/-- The fault in words. -/
def Misuse.message : Misuse → String
  | noCommand => "a command is required"
  | unknownCommand word => "unrecognized command '" ++ word ++ "'"
  | unexpected argument => "unexpected argument '" ++ argument ++ "' found"
  | valueMissing name => "a value is required for '" ++ name ++ "' but none was supplied"
  | valueUnexpected name value =>
    "unexpected value '" ++ value ++ "' for '" ++ name ++ "' found; no more were expected"
  | invalidValue name value => "invalid value '" ++ value ++ "' for '" ++ name ++ "'"
  | repeated name => "the argument '" ++ name ++ "' cannot be used multiple times"

end Verbatim
