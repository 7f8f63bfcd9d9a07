import Verbatim.Document.Space
import Verbatim.Peg.Expr
import Verbatim.Span
import Verbatim.Text.Offset
import Verbatim.Toml.Rule

/-!
# The cursor

While a document is built, a cursor marks how much of the source already belongs to a node. It only
moves forward. Each move is made from an offset of the parse tree, and the tree need not be that of
the source: an offset that does not fit is a fault, and the cursor stays where the moves before the
fault have left it.
-/

namespace Verbatim

/-- How much of the source already belongs to a node. -/
structure Cursor where
  /-- The byte offset up to which the source is used up. -/
  offset : Nat := 0
  deriving DecidableEq, Repr

/-- Moves the cursor to an offset, unless that lies behind it. -/
def Cursor.advanceTo (c : Cursor) (offset : Nat) : Cursor := ⟨max c.offset offset⟩

/-- Why a parse tree does not give a document. -/
inductive BuildFault where
  /-- The text between the cursor and the start of a node cannot be cut out of the source. -/
  | gap (cursor start : Nat)
  /-- The last character of a node would start inside a character of the source. -/
  | insideCharacter (stop : Nat)
  /-- The cursor lies outside the source, or inside a character of it. -/
  | outside (cursor : Nat)
  /-- A node has not as many alternatives as its rule asks for. -/
  | alternatives (rule : Toml.Rule) (span : Span) (matched : Nat) (expected : String)
  /-- A node lacks a part that its rule asks for. -/
  | missing (rule : Toml.Rule) (span : Span) (slot : String)
  deriving DecidableEq, Repr

/-- Building moves the cursor and may fail; a failure keeps the moves made before it. -/
abbrev Build := ExceptT BuildFault (StateM Cursor)

namespace Build

/-- Moves the cursor to an offset, unless that lies behind it. -/
def advanceTo (offset : Nat) : Build Unit := modify (·.advanceTo offset)

/-- The text between the cursor and an offset, which the cursor then moves to. An offset that the
cursor has passed gives no text. -/
def spaceBefore (source : List Char) (start : Nat) : Build Space := do
  let cursor ← get
  if start < cursor.offset then
    return {}
  match Text.slice? source cursor.offset start with
  | none => throw (.gap cursor.offset start)
  | some text =>
    advanceTo start
    return Space.ofList text

/-- Moves the cursor past the character at an offset. A blank is left to the space that follows, and
an offset beyond the source moves the cursor to its end. -/
def advancePast (source : List Char) (stop : Nat) : Build Unit :=
  if Text.byteLength source ≤ stop then advanceTo (Text.byteLength source)
  else
    match Text.dropBytes? stop source with
    | some (c :: _) => advanceTo (if Text.isBlank c then stop else stop + c.utf8Size)
    | _ => throw (.insideCharacter stop)

/-- All text from the cursor on, which is then used up. -/
def remainingSpace (source : List Char) : Build Space := do
  let cursor ← get
  match Text.dropBytes? cursor.offset source with
  | none => throw (.outside cursor.offset)
  | some rest =>
    advanceTo (Text.byteLength source)
    return Space.ofList rest

/-- Builds from a node: takes the space before it, builds what it stands for, and moves the cursor
past its last character. -/
def around {α : Type} (source : List Char) (t : Peg.Tree Toml.Rule) (make : Space → Build α) :
    Build α := do
  let before ← spaceBefore source t.start
  let node ← make before
  match t.last? with
  | none => pure ()
  | some last => advancePast source last
  return node

end Build

end Verbatim
