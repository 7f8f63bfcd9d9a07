import Verbatim.Options.Basic
import Verbatim.Options.Fault
import Verbatim.Yaml.Plain

/-!
# Reading options

Options are read item by item from a YAML document, so that the first fault in the text is the one
reported. An empty document gives the defaults, and so does every option that is not named.
-/

namespace Verbatim.Options

/-- Reading takes items from a list and may find a fault. -/
abbrev ReadItems := StateT (List (Yaml.Item × Yaml.Mark)) (Except Fault)

namespace ReadItems

/-- The next item. Where the document ends, what is wrong with it is the fault. -/
def peek (d : Yaml.Document) : ReadItems (Yaml.Item × Yaml.Mark) := do
  match ← get with
  | item :: _ => return item
  | [] => throw (.yaml (d.obstacle.getD (.problem { cause := .unexpectedEnd })))

/-- Takes the next item. -/
def next (d : Yaml.Document) : ReadItems (Yaml.Item × Yaml.Mark) := do
  let item ← peek d
  modify (·.drop 1)
  return item

/-- A fault in a value. -/
def fail {α : Type} (m : Mismatch) (route : Route) (mark : Yaml.Mark) : ReadItems α :=
  throw (.mismatch m (some (route, mark)))

/-- Takes a value, and reads the one that it stands for if it is an alias. -/
def value {α : Type} (d : Yaml.Document) (read : Yaml.Item → Yaml.Mark → ReadItems α) :
    ReadItems α := do
  let (item, mark) ← next d
  match item with
  | .alias slot =>
    match d.itemsFrom slot with
    | [] => read item mark
    | (target, targetMark) :: rest =>
      let (a, _) ← (read target targetMark).run rest
      return a
  | _ => read item mark

/-- What a scalar without quotes or with a tag turns out to be, against what is wanted. -/
def scalarMismatch (wanted : Wanted) (s : Yaml.Scalar) : Mismatch :=
  let text := String.ofList s.text
  let plain : Mismatch :=
    .wrongKind
      (match Yaml.Plain.ofText s.text with
        | .null => .nothing
        | .boolean b => .boolean b
        | .integer n => .integer n
        | .float x => .float x
        | .text => .text text)
      wanted
  let tagged (found : Option Found) (kind : Wanted) : Mismatch :=
    match found with
    | some f => .wrongKind f wanted
    | none => .wrongValue text kind
  match s.tag.map String.ofList with
  | none => if s.style = .plain then plain else .wrongKind (.text text) wanted
  | some tag =>
    if tag = "tag:yaml.org,2002:bool" then
      tagged ((Yaml.Plain.boolean? s.text).map .boolean) .taggedBoolean
    else if tag = "tag:yaml.org,2002:int" then
      tagged ((Yaml.Plain.integer? s.text).map .integer) .taggedInteger
    else if tag = "tag:yaml.org,2002:float" then
      tagged ((Yaml.Plain.float? s.text).map .float) .taggedFloat
    else if tag = "tag:yaml.org,2002:null" then
      tagged (if Yaml.Plain.isNull s.text then some .nothing else none) .taggedNull
    else if tag.startsWith "!" ∧ s.style = .plain then plain
    else .wrongKind (.text text) wanted

def mismatch (wanted : Wanted) : Yaml.Item → Mismatch
  | .scalar s => scalarMismatch wanted s
  | .mappingStart | .mappingEnd => .wrongKind .mapping wanted
  | _ => .wrongKind .sequence wanted

/-- Reads a truth value. It stands without quotes, or in a literal block that is tagged as one. -/
def boolean (d : Yaml.Document) (route : Route) : ReadItems Bool :=
  value d fun item mark =>
    let found : Option Bool :=
      match item with
      | .scalar s =>
        if s.style = .plain ∨
            (s.style = .literal ∧ s.tag = some "tag:yaml.org,2002:bool".toList) then
          Yaml.Plain.boolean? s.text
        else none
      | _ => none
    match found with
    | some b => return b
    | none => fail (mismatch .boolean item) route mark

/-- Reads a text. Every scalar is one. -/
def string (d : Yaml.Document) (route : Route) (wanted : Wanted) : ReadItems (String × Yaml.Mark) :=
  value d fun item mark =>
    match item with
    | .scalar s => return (String.ofList s.text, mark)
    | _ => fail (mismatch wanted item) route mark

/-- Reads texts up to the end of a sequence, of which `index` are read already. -/
def elements (d : Yaml.Document) (route : Route) : Nat → Nat → ReadItems (List String)
  | 0, _ => return []
  | fuel + 1, index => do
    match ← peek d with
    | (.sequenceEnd, _) =>
      let _ ← next d
      return []
    | _ =>
      let (s, _) ← string d (.element route index) .string
      return s :: (← elements d route fuel (index + 1))

/-- Whether an item is a scalar with nothing in it, which also counts as an empty collection. -/
def isEmpty : Yaml.Item → Bool
  | .scalar s => s.text.isEmpty && s.style == .plain
  | _ => false

/-- Reads a list of texts. -/
def strings (d : Yaml.Document) (route : Route) : ReadItems (List String) :=
  value d fun item mark => do
    match item with
    | .sequenceStart => elements d route d.items.length 0
    | _ =>
      if isEmpty item then return []
      else fail (mismatch .sequence item) route mark

/-- Reads a key, and gives the route of its value as well. -/
def field (d : Yaml.Document) : ReadItems (Field × Route) := do
  let route : Route :=
    match ← peek d with
    | (.scalar s, _) => .field (String.ofList s.text)
    | _ => .unnamed
  let (name, mark) ← string d .root .fieldName
  match Field.ofName? name with
  | some f => return (f, route)
  | none => fail (.unknownField name) .root mark

/-- Reads keys and values up to the end of a mapping that starts at a mark, on top of the options
read so far. -/
def fields (d : Yaml.Document) (start : Yaml.Mark) :
    Nat → List Field → Options → ReadItems Options
  | 0, _, options => return options
  | fuel + 1, seen, options => do
    match ← peek d with
    | (.mappingEnd, _) =>
      let _ ← next d
      return options
    | _ =>
      let (f, route) ← field d
      if seen.contains f then
        fail (.duplicateField f) .root start
      let options ←
        match f with
        | .verifyRoundTrip => do pure { options with verifyRoundTrip := ← boolean d route }
        | .computeChecksum => do pure { options with computeChecksum := ← boolean d route }
        | .extensions => do pure { options with extensions := ← strings d route }
      fields d start fuel (f :: seen) options

/-- Whether a scalar at the root stands for no options at all. -/
def isAbsent (s : Yaml.Scalar) : Except Fault Bool :=
  if s.style ≠ .plain then .ok false
  else
    match s.tag with
    | none => .ok (s.text.isEmpty || Yaml.Plain.isNull s.text)
    | some tag =>
      if tag ≠ "tag:yaml.org,2002:null".toList then .ok false
      else if Yaml.Plain.isNull s.text then .ok true
      else .error (.mismatch (.wrongValue (String.ofList s.text) .taggedNull) none)

def options (d : Yaml.Document) : ReadItems Options := do
  match ← peek d with
  | (.scalar s, mark) =>
    if ← isAbsent s then return {}
    else if isEmpty (.scalar s) then return {}
    else fail (scalarMismatch .options s) .root mark
  | (.mappingStart, mark) =>
    let _ ← next d
    fields d mark d.items.length [] {}
  | (item, mark) => fail (mismatch .options item) .root mark

end ReadItems

/-- The options that a YAML text gives. -/
def read (text : String) : Except Fault Options := do
  let d := Yaml.Document.read text.toList
  if d.items.isEmpty ∧ d.obstacle.isNone ∧ ¬ d.isFollowed then
    return {}
  let (options, _) ← (ReadItems.options d).run d.items
  match d.obstacle with
  | some obstacle => throw (.yaml obstacle)
  | none => if d.isFollowed then throw .manyDocuments else return options

end Verbatim.Options
