import Verbatim.Number.Shortest
import Verbatim.Text.Quoted
import Verbatim.Yaml.Document

/-!
# What can be wrong with an options text

A text that is YAML may still not give options: a key may be unknown or given twice, and a value may
be of the wrong kind. Such a fault names the option and the place.
-/

namespace Verbatim.Options

/-- The options by their names. -/
inductive Field where
  | verifyRoundTrip | computeChecksum | extensions
  deriving DecidableEq, Repr

namespace Field

/-- The name of an option. -/
def name : Field → String
  | verifyRoundTrip => "verify_round_trip"
  | computeChecksum => "compute_checksum"
  | extensions => "extensions"

/-- All options. -/
def all : List Field := [verifyRoundTrip, computeChecksum, extensions]

def ofName? (name : String) : Option Field := all.find? (·.name = name)

end Field

/-- What a value turned out to be. -/
inductive Found where
  | nothing
  | boolean (b : Bool)
  | integer (n : Int)
  | float (x : Binary64)
  | text (s : String)
  | sequence
  | mapping
  deriving DecidableEq, Repr

/-- A floating-point number as it is shown. -/
def Found.showFloat : Binary64 → String
  | .nan => "NaN"
  | .infinite negative => if negative then "-inf" else "inf"
  | .finite negative m q => String.ofList (Binary64.positionalText negative m q)

/-- What a value turned out to be, in words. Integers that do not fit 64 bits are told apart by
whether they have a sign. -/
def Found.message : Found → String
  | nothing => "unit value"
  | boolean b => "boolean \x60" ++ (if b then "true" else "false") ++ "\x60"
  | integer n =>
    "integer \x60" ++ toString n ++ "\x60" ++
      (if 2 * Hint.wordEnd ≤ n then " as u128"
        else if n < -Hint.wordEnd then " as i128" else "")
  | float x => "floating point \x60" ++ showFloat x ++ "\x60"
  | text s => "string " ++ Text.quoteString s
  | sequence => "sequence"
  | mapping => "map"

/-- What a value should be. -/
inductive Wanted where
  | options | fieldName | boolean | sequence | string
  /-- What a tag asks for. -/
  | taggedBoolean | taggedInteger | taggedFloat | taggedNull
  deriving DecidableEq, Repr

/-- What a value should be, in words. -/
def Wanted.message : Wanted → String
  | options => "struct ParserOptions"
  | fieldName => "field identifier"
  | boolean | taggedBoolean => "a boolean"
  | sequence => "a sequence"
  | string => "a string"
  | taggedInteger => "an integer"
  | taggedFloat => "a float"
  | taggedNull => "null"

/-- Why a YAML document does not give options. -/
inductive Mismatch where
  | unknownField (name : String)
  | duplicateField (field : Field)
  | wrongKind (found : Found) (wanted : Wanted)
  /-- A text that its tag does not fit. -/
  | wrongValue (text : String) (wanted : Wanted)
  deriving DecidableEq, Repr

def quoteName (s : String) : String := "\x60" ++ s ++ "\x60"

/-- A mismatch in words. -/
def Mismatch.message : Mismatch → String
  | unknownField name =>
    "unknown field " ++ quoteName name ++ ", expected one of " ++
      ", ".intercalate (Field.all.map fun f => quoteName f.name)
  | duplicateField field => "duplicate field " ++ quoteName field.name
  | wrongKind found wanted =>
    "invalid type: " ++ found.message ++ ", expected " ++ wanted.message
  | wrongValue text wanted =>
    "invalid value: " ++ Found.message (.text text) ++ ", expected " ++ wanted.message

/-- Which value of the options a mismatch is in. -/
inductive Route where
  | root
  | field (name : String)
  /-- The value behind a key that is an alias. -/
  | unnamed
  | element (route : Route) (index : Nat)
  deriving DecidableEq, Repr

/-- A value by its keys and numbers. -/
def Route.show : Route → String
  | root => "."
  | field name => name
  | unnamed => "?"
  | element route index => route.show ++ "[" ++ toString index ++ "]"

/-- Why a text does not give options. -/
inductive Fault where
  /-- The text is not a whole YAML document. -/
  | yaml (obstacle : Yaml.Obstacle)
  /-- The document does not give options. -/
  | mismatch (m : Mismatch) (place : Option (Route × Yaml.Mark))
  /-- The text has more than one document. -/
  | manyDocuments
  deriving DecidableEq, Repr

/-- A fault in words. The root needs no name. -/
def Fault.message : Fault → String
  | yaml obstacle => obstacle.message
  | mismatch m none => m.message
  | mismatch m (some (route, mark)) =>
    (if route = .root then "" else route.show ++ ": ") ++ m.message ++ mark.suffix
  | manyDocuments => "deserializing from YAML containing more than one document is not supported"

end Verbatim.Options
