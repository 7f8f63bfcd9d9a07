import Verbatim.Yaml.Scanner

/-!
# From tokens to events

Events are the nodes of a document in the order of the text, with the starts and ends of collections.
`firstDocument` gives the events of the first document up to the problem that stopped the
reading, so that a reader can take what comes before a problem.
-/

namespace Verbatim.Yaml

/-- What may stand before a node: a name for it, and a tag with its handle expanded. -/
structure Properties where
  anchor : Option (List Char) := none
  tag : Option (List Char) := none
  deriving DecidableEq, Repr

/-- A node, or the start or end of one. -/
inductive Event where
  | alias (name : List Char)
  | scalar (properties : Properties) (text : List Char) (style : ScalarStyle)
  | sequenceStart (properties : Properties)
  | sequenceEnd
  | mappingStart (properties : Properties)
  | mappingEnd
  deriving DecidableEq, Repr

/-- The events of a document, and what is left of the tokens. -/
structure Events where
  /-- The tokens that are left. -/
  tokens : List Token
  /-- The problem behind the last token. -/
  problem : Option Problem
  /-- The handles of tags, with what they expand to. -/
  handles : List (List Char × List Char) := []
  /-- The events, the last first. -/
  reversed : List (Event × Mark) := []
  deriving DecidableEq, Repr

/-- Reading events may find a problem, and keeps the events before it. -/
abbrev Parse := ExceptT Problem (StateM Events)

namespace Parse

/-- The next token. -/
def peek : Parse Token := do
  let s ← get
  match s.tokens with
  | t :: _ => return t
  | [] => throw (s.problem.getD { cause := .unexpectedEnd })

/-- Passes the next token. -/
def advance : Parse Unit := modify fun s => { s with tokens := s.tokens.drop 1 }

/-- Gives an event. -/
def emit (event : Event) (mark : Mark) : Parse Unit :=
  modify fun s => { s with reversed := (event, mark) :: s.reversed }

/-- Gives a scalar without text. -/
def emitEmpty (mark : Mark) : Parse Unit := emit (.scalar {} [] .plain) mark

/-- Stops at a token. -/
def fail {α : Type} (cause : Cause) (t : Token) : Parse α := throw { cause, mark := t.start }

/-- Stops at a token, while something is read that starts at a mark. -/
def failWhile {α : Type} (context : Context) (start : Mark) (cause : Cause) (t : Token) :
    Parse α :=
  throw { cause, mark := t.start, context := some (context, start) }

/-- The handles that need no directive. -/
def standardHandles : List (List Char × List Char) :=
  [("!".toList, "!".toList), ("!!".toList, "tag:yaml.org,2002:".toList)]

/-- Reads directives. `version` says whether the version has been given already. -/
def directives : Nat → Bool → Parse Unit
  | 0, _ => pure ()
  | fuel + 1, version => do
    let t ← peek
    match t.kind with
    | .versionDirective major minor =>
      if version then
        fail .duplicateVersion t
      if major ≠ 1 ∨ (minor ≠ 1 ∧ minor ≠ 2) then
        fail .incompatibleVersion t
      advance
      directives fuel true
    | .tagDirective handle expansion =>
      let s ← get
      if (s.handles.lookup handle).isSome then
        fail .duplicateTagDirective t
      set { s with handles := s.handles ++ [(handle, expansion)] }
      advance
      directives fuel version
    | _ => modify fun s => { s with handles := s.handles ++ standardHandles }

/-- A tag with its handle expanded. -/
def expand (start : Mark) (t : Token) (handle suffix : List Char) : Parse (List Char) := do
  if handle = [] then
    return suffix
  match (← get).handles.lookup handle with
  | some expansion => return expansion ++ suffix
  | none =>
    throw { cause := .undefinedHandle, mark := t.start, context := some (.node, start) }

/-- The name before a node, if there is one. -/
def anchor? : Parse (Option (List Char)) := do
  match (← peek).kind with
  | .anchor name =>
    advance
    return some name
  | _ => return none

/-- The tag before a node, if there is one. Its handle is expanded later. -/
def tag? : Parse (Option (Token × List Char × List Char)) := do
  let t ← peek
  match t.kind with
  | .tag handle suffix =>
    advance
    return some (t, handle, suffix)
  | _ => return none

/-- Reads the properties of a node, in either order. -/
def properties (start : Mark) : Parse Properties := do
  let anchor ← anchor?
  let tag ← tag?
  let anchor ← if anchor.isNone && tag.isSome then anchor? else pure anchor
  -- a problem behind the properties comes before one with the tag
  let _ ← peek
  match tag with
  | none => return { anchor }
  | some (t, handle, suffix) => return { anchor, tag := some (← expand start t handle suffix) }

/-- The properties of a scalar with text. An exclamation mark alone is no tag for it. -/
def scalarProperties (properties : Properties) : Properties :=
  { properties with tag := properties.tag.filter (· ≠ ['!']) }

/-- Whether a key or value in block style is missing in front of a token. -/
def endsEntry (t : Token) : Bool :=
  match t.kind with
  | .key | .value | .blockEnd => true
  | _ => false

/-- Whether an element is missing in front of a token. -/
def endsElement (t : Token) : Bool :=
  match t.kind with
  | .blockEntry | .blockEnd => true
  | _ => false

/-- Whether a value in flow style is missing in front of a token. -/
def endsFlowValue (close : TokenKind) (t : Token) : Bool := t.kind == .flowEntry || t.kind == close

mutual

/-- Reads a node. In block style a node may be a block collection, and behind a key also a sequence
that is not further in than the key. -/
def node : Nat → Bool → Bool → Parse Unit
  | 0, _, _ => pure ()
  | fuel + 1, block, indentless => do
    let first ← peek
    match first.kind with
    | .alias name =>
      advance
      emit (.alias name) first.start
    | _ =>
      let start := first.start
      let given ← properties start
      let t ← peek
      match t.kind with
      | .scalar text style =>
        advance
        emit (.scalar (scalarProperties given) text style) start
      | .flowSequenceStart =>
        advance
        emit (.sequenceStart given) start
        flowSequence fuel t.start true
      | .flowMappingStart =>
        advance
        emit (.mappingStart given) start
        flowMapping fuel t.start true
      | kind =>
        if indentless ∧ kind = .blockEntry then
          emit (.sequenceStart given) start
          indentlessSequence fuel
        else if block ∧ kind = .blockSequenceStart then
          advance
          emit (.sequenceStart given) start
          blockSequence fuel t.start
        else if block ∧ kind = .blockMappingStart then
          advance
          emit (.mappingStart given) start
          blockMapping fuel t.start
        else if given.anchor.isSome ∨ given.tag.isSome then
          emit (.scalar given [] .plain) start
        else
          failWhile (if block then .blockNode else .flowNode) start .expectedContent t

/-- Reads the elements of a block sequence that starts at a mark. -/
def blockSequence : Nat → Mark → Parse Unit
  | 0, _ => pure ()
  | fuel + 1, start => do
    let t ← peek
    match t.kind with
    | .blockEntry =>
      advance
      if endsElement (← peek) then emitEmpty t.stop else node fuel true false
      blockSequence fuel start
    | .blockEnd =>
      advance
      emit .sequenceEnd t.start
    | _ => failWhile .blockCollection start .expectedDash t

/-- Reads the elements of a block sequence that is not further in than the key before it. -/
def indentlessSequence : Nat → Parse Unit
  | 0 => pure ()
  | fuel + 1 => do
    let t ← peek
    if t.kind = .blockEntry then
      advance
      let next ← peek
      if endsElement next || endsEntry next then emitEmpty t.stop else node fuel true false
      indentlessSequence fuel
    else
      emit .sequenceEnd t.start

/-- Reads the keys and values of a block mapping that starts at a mark. -/
def blockMapping : Nat → Mark → Parse Unit
  | 0, _ => pure ()
  | fuel + 1, start => do
    let t ← peek
    match t.kind with
    | .key =>
      advance
      if endsEntry (← peek) then emitEmpty t.stop else node fuel true true
      blockValue fuel
      blockMapping fuel start
    | .blockEnd =>
      advance
      emit .mappingEnd t.start
    | _ => failWhile .blockMapping start .expectedKey t

/-- Reads the value behind a key in block style, which may be missing. -/
def blockValue : Nat → Parse Unit
  | 0 => pure ()
  | fuel + 1 => do
    let t ← peek
    if t.kind = .value then
      advance
      if endsEntry (← peek) then emitEmpty t.stop else node fuel true true
    else
      emitEmpty t.start

/-- Reads the elements of a flow sequence that starts at a mark. -/
def flowSequence : Nat → Mark → Bool → Parse Unit
  | 0, _, _ => pure ()
  | fuel + 1, start, first => do
    let t ← flowNext first .flowSequenceEnd .flowSequence start .expectedCommaOrBracket
    match t.kind with
    | .flowSequenceEnd =>
      advance
      emit .sequenceEnd t.start
    | .key =>
      advance
      emit (.mappingStart {}) t.start
      pairKey fuel
      flowValue fuel .flowSequenceEnd
      emit .mappingEnd (← peek).start
      flowSequence fuel start false
    | _ =>
      node fuel false false
      flowSequence fuel start false

/-- Passes the comma between two entries in flow style, and gives the token behind it. -/
def flowNext (first : Bool) (close : TokenKind) (context : Context) (start : Mark)
    (cause : Cause) : Parse Token := do
  let t ← peek
  if first ∨ t.kind = close then return t
  else if t.kind = .flowEntry then
    advance
    peek
  else failWhile context start cause t

/-- Reads the key of a pair that is an element of a flow sequence. Where the key is missing, the
token in its place is passed. -/
def pairKey : Nat → Parse Unit
  | 0 => pure ()
  | fuel + 1 => do
    let t ← peek
    if t.kind = .value ∨ endsFlowValue .flowSequenceEnd t then
      advance
      emitEmpty t.stop
    else
      node fuel false false

/-- Reads the value behind a key in flow style, which may be missing. -/
def flowValue : Nat → TokenKind → Parse Unit
  | 0, _ => pure ()
  | fuel + 1, close => do
    let t ← peek
    if t.kind = .value then
      advance
      let next ← peek
      if endsFlowValue close next then emitEmpty next.start else node fuel false false
    else
      emitEmpty t.start

/-- Reads the keys and values of a flow mapping that starts at a mark. -/
def flowMapping : Nat → Mark → Bool → Parse Unit
  | 0, _, _ => pure ()
  | fuel + 1, start, first => do
    let t ← flowNext first .flowMappingEnd .flowMapping start .expectedCommaOrBrace
    match t.kind with
    | .flowMappingEnd =>
      advance
      emit .mappingEnd t.start
    | .key =>
      advance
      let next ← peek
      if next.kind = .value ∨ endsFlowValue .flowMappingEnd next then emitEmpty next.start
      else node fuel false false
      flowValue fuel .flowMappingEnd
      flowMapping fuel start false
    | _ =>
      node fuel false false
      emitEmpty (← peek).start
      flowMapping fuel start false

end

/-- Whether a document has no content in front of a token. -/
def endsDocument (t : Token) : Bool :=
  match t.kind with
  | .versionDirective _ _ | .tagDirective _ _ | .documentStart | .documentEnd | .streamEnd => true
  | _ => false

/-- Reads the first document of a text, if it has any. -/
def document (fuel : Nat) : Parse Unit := do
  let t ← peek
  match t.kind with
  | .streamEnd => pure ()
  | .versionDirective _ _ | .tagDirective _ _ | .documentStart =>
    directives fuel false
    let t ← peek
    if t.kind ≠ .documentStart then
      fail .expectedDocumentStart t
    advance
    let t ← peek
    if endsDocument t then emitEmpty t.start else node fuel true false
    close
  | _ =>
    directives fuel false
    node fuel true false
    close
where
  /-- Passes the mark that ends a document, if there is one. -/
  close : Parse Unit := do
    if (← peek).kind = .documentEnd then
      advance

end Parse

namespace Events

/-- The events of the first document, in order. -/
def toList (e : Events) : List (Event × Mark) := e.reversed.reverse

/-- Whether another document, or anything else, follows. -/
def isFollowed (e : Events) : Bool :=
  match e.tokens.dropWhile (·.kind == .documentEnd) with
  | [t] => t.kind != .streamEnd
  | _ => true

end Events

/-- The first document of a text, with the problem that stopped the reading, if there is one. -/
def firstDocument (text : List Char) : Option Problem × Events :=
  let (tokens, problem) := scan text
  let (result, events) := (Parse.document (4 * tokens.length + 16)).run.run { tokens, problem }
  match result with
  | .ok _ => (none, events)
  | .error problem => (some problem, events)

end Verbatim.Yaml
