import Verbatim.Peg.Attempts
import Verbatim.Text.Excerpt
import Verbatim.Toml.Grammar

/-!
# Parse trees of TOML texts

`parse` matches a whole text against the grammar. A text that does not match is reported by the
furthest place where a rule failed.
-/

namespace Verbatim.Toml

/-- Why a text is not TOML: the furthest place where a rule failed, and the rules that failed
there. -/
structure SyntaxError where
  /-- The byte offset of the place. -/
  offset : Nat
  /-- The rules that failed there, each once, in the order of the grammar. -/
  expected : List Rule
  deriving DecidableEq, Repr

/-- Where and with which rules matching a text fails. -/
def furthestFailure (s : List Char) : SyntaxError :=
  let attempts := grammar.attempts Grammar.document .spaced 0 s .none
  ⟨attempts.offset, Rule.all.filter fun r => attempts.expected.contains r⟩

/-- The node of the whole document, if the text is TOML. -/
def document? (s : List Char) : Option (Peg.Tree Rule) :=
  (grammar.parse Grammar.document .spaced 0 s).bind (·.trees.head?)

/-- The parse tree of a text. -/
def parse (s : List Char) : Except SyntaxError (Peg.Tree Rule) :=
  match document? s with
  | some t => .ok t
  | none => .error (furthestFailure s)

namespace SyntaxError

/-- What was expected, in a reader's words. -/
def message (e : SyntaxError) : String :=
  match e.expected with
  | [] => "unexpected input"
  | rules => "expected " ++ ", ".intercalate (rules.map Rule.phrase)

/-- The advice given for a failure in a text. -/
def help? (e : SyntaxError) (s : List Char) : Option String :=
  if ((Text.dropBytes? e.offset s).bind List.head?) = some '=' then
    some "a key is required before '='"
  else if e.message.contains "newline" then
    some "each key/value pair and table header must be on its own line"
  else none

/-- The failure shown in its line, with the rules by their names in the grammar. -/
def excerpt (e : SyntaxError) (s : List Char) : String :=
  Text.excerpt ((Text.takeBytes? e.offset s).getD s) ((Text.dropBytes? e.offset s).getD [])
    (Text.alternatives (e.expected.map Rule.name))

end SyntaxError

end Verbatim.Toml
