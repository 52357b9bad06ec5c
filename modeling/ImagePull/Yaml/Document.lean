import ImagePull.Yaml.Token
import ImagePull.Yaml.Tree

/-!
# Reading YAML documents

Tokens are put together to trees by recursive descent. An anchor before a node gives it
a mark, and an alias refers to the mark that its name was last given. The mark is the
number of names that are known before it. So when a name is given again, its mark is
also that of the next new name. A text holds one document at most.
-/

namespace ImagePull.Yaml

/-- What is left of the tokens, the names of anchors so far with their marks, and the
tag handles. -/
structure Reading where
  tokens : List Token
  names : List (String × Nat) := []
  handles : List (String × List UInt8) :=
    [("!", [Tag.mark]), ("!!", (Tag.core "").bytes)]

/-- A step of reading; it fails where the tokens form no document. -/
abbrev Read := StateT Reading Option

namespace Read

/-- The next token, which stays. -/
def peek : Read (Option Token) := do
  return (← get).tokens.head?

/-- Passes over the next token. -/
def skip : Read Unit :=
  modify fun r => { r with tokens := r.tokens.tail }

/-- Passes over the next token if it is this one, and tells whether it was. -/
def accept (t : Token) : Read Bool := do
  if (← peek) = some t then
    skip
    return true
  else return false

/-- Passes over the next token, which has to be this one. -/
def expect (t : Token) : Read Unit := do
  if !(← accept t) then failure

/-- The anchor before a node. -/
def anchor : Read (Option String) := do
  match ← peek with
  | some (.anchor name) =>
    skip
    return some name
  | _ => return none

/-- The tag before a node, with its handle replaced by what it stands for. -/
def tag : Read (Option Tag) := do
  match ← peek with
  | some (.tag handle rest) =>
    skip
    if handle = "" then return some ⟨rest⟩
    else match (← get).handles.lookup handle with
      | some start => return some ⟨start ++ rest⟩
      | none => failure
  | _ => return none

/-- The anchor and the tag before a node, in either order. -/
def properties : Read (Option String × Option Tag) := do
  match ← anchor with
  | some a => return (some a, ← tag)
  | none =>
    let t ← tag
    return (← anchor, t)

/-- The alias of a name, which has to be known. -/
def named (name : String) : Read Tree := do
  match (← get).names.lookup name with
  | some mark => return .reference mark
  | none => failure

/-- Reads the content of a node under its anchor. -/
def anchored (name : Option String) (content : Read Tree) : Read Tree :=
  match name with
  | none => content
  | some name => do
    let mark := (← get).names.length
    modify fun r => { r with names := (name, mark) :: r.names.filter (·.1 ≠ name) }
    return .marked mark (← content)

/-- Whether the next token is one of these, or there is none. -/
def at? (ends : List Token) : Read Bool := do
  match ← peek with
  | none => return true
  | some t => return ends.contains t

/-- What a token that ends a flow collection or separates its entries looks like. -/
def flowStops (closing : Token) : List Token := [.flowEntry, closing]

mutual

/-- Reads a node. Block collections may begin here if `block` says so, and a sequence
without indentation of its own if `indentless` says so. -/
def node (fuel : Nat) (block indentless : Bool) : Read Tree :=
  match fuel with
  | 0 => failure
  | fuel + 1 => do
    match ← peek with
    | some (.reference name) =>
      skip
      named name
    | _ =>
      let (name, tag) ← properties
      anchored name (content fuel block indentless tag (name.isSome || tag.isSome))

/-- Reads a node after its anchor and tag; with one of them it may be empty. -/
def content (fuel : Nat) (block indentless : Bool) (tag : Option Tag) (bare : Bool) :
    Read Tree :=
  match fuel with
  | 0 => failure
  | fuel + 1 => do
    match ← peek with
    | some .entry =>
      if indentless then return .sequence tag (← indentlessItems fuel)
      else if bare then return .scalar tag .plain ""
      else failure
    | some (.scalar style text) =>
      skip
      return .scalar tag style text
    | some .flowSequenceStart =>
      skip
      return .sequence tag (← flowItems fuel true)
    | some .flowMappingStart =>
      skip
      return .mapping tag (← flowPairs fuel true)
    | some .sequenceStart =>
      if block then
        skip
        return .sequence tag (← blockItems fuel)
      else if bare then return .scalar tag .plain ""
      else failure
    | some .mappingStart =>
      if block then
        skip
        return .mapping tag (← blockPairs fuel)
      else if bare then return .scalar tag .plain ""
      else failure
    | _ => if bare then return .scalar tag .plain "" else failure

/-- Reads a node unless one of these tokens follows, which means an empty one. -/
def optional (fuel : Nat) (ends : List Token) (block indentless : Bool) : Read Tree :=
  match fuel with
  | 0 => failure
  | fuel + 1 => do
    if ← at? ends then return Tree.empty else node fuel block indentless

/-- Reads the entries of a block sequence. -/
def blockItems (fuel : Nat) : Read (List Tree) :=
  match fuel with
  | 0 => failure
  | fuel + 1 => do
    if ← accept .blockEnd then return []
    else
      expect .entry
      let item ← optional fuel [.entry, .blockEnd] true false
      return item :: (← blockItems fuel)

/-- Reads the entries of a sequence without indentation of its own. -/
def indentlessItems (fuel : Nat) : Read (List Tree) :=
  match fuel with
  | 0 => failure
  | fuel + 1 => do
    if ← accept .entry then
      let item ← optional fuel [.entry, .key, .value, .blockEnd] true false
      return item :: (← indentlessItems fuel)
    else return []

/-- Reads the entries of a block mapping. -/
def blockPairs (fuel : Nat) : Read (List (Tree × Tree)) :=
  match fuel with
  | 0 => failure
  | fuel + 1 => do
    if ← accept .blockEnd then return []
    else
      expect .key
      let ends : List Token := [.key, .value, .blockEnd]
      let key ← optional fuel ends true true
      let value ← if ← accept .value then optional fuel ends true true else pure Tree.empty
      return (key, value) :: (← blockPairs fuel)

/-- Reads the entries of a flow sequence; an entry may be a mapping of one pair. -/
def flowItems (fuel : Nat) (first : Bool) : Read (List Tree) :=
  match fuel with
  | 0 => failure
  | fuel + 1 => do
    if ← accept .flowSequenceEnd then return []
    else
      if !first then expect .flowEntry
      if ← accept .flowSequenceEnd then return []
      else
        let item ← if ← accept .key then pair fuel else node fuel false false
        return item :: (← flowItems fuel false)

/-- Reads the single pair of a mapping in a flow sequence. -/
def pair (fuel : Nat) : Read Tree :=
  match fuel with
  | 0 => failure
  | fuel + 1 => do
    let ends := flowStops .flowSequenceEnd
    let key ← if ← at? (.value :: ends) then
        skip
        pure Tree.empty
      else node fuel false false
    let value ← if ← accept .value then optional fuel ends false false else pure Tree.empty
    return .mapping none [(key, value)]

/-- Reads the entries of a flow mapping; a key may stand without a value. -/
def flowPairs (fuel : Nat) (first : Bool) : Read (List (Tree × Tree)) :=
  match fuel with
  | 0 => failure
  | fuel + 1 => do
    if ← accept .flowMappingEnd then return []
    else
      if !first then expect .flowEntry
      if ← accept .flowMappingEnd then return []
      else
        let ends := flowStops .flowMappingEnd
        let (key, value) ← if ← accept .key then do
            let key ← optional fuel (.value :: ends) false false
            let value ← if ← accept .value then optional fuel ends false false
              else pure Tree.empty
            pure (key, value)
          else do
            let key ← node fuel false false
            pure (key, Tree.empty)
        return (key, value) :: (← flowPairs fuel false)

end

/-- Reads the directives before a document: a version at most, and handles of which
no two are the same. The version has to be one of the two in use. -/
def directives (declared : List (String × List UInt8)) (versioned : Bool) :
    List Token → Option (List (String × List UInt8) × List Token)
  | .version major minor :: rest =>
    if versioned ∨ major ≠ 1 ∨ (minor ≠ 1 ∧ minor ≠ 2) then none
    else directives declared true rest
  | .tagHandle handle start :: rest =>
    if declared.any (·.1 = handle) then none
    else directives ((handle, start) :: declared) versioned rest
  | rest => some (declared, rest)

/-- Whether the next token ends an empty document. -/
def isDocumentEdge : Option Token → Bool
  | none => true
  | some (.version _ _) => true
  | some (.tagHandle _ _) => true
  | some .documentStart => true
  | some .documentEnd => true
  | _ => false

/-- Reads the tokens of a text: nothing at all, or one document. -/
def document (fuel : Nat) : Read (Option Tree) := do
  let tokens := (← get).tokens
  let (declared, rest) ← directives [] false tokens
  modify fun r => { r with tokens := rest, handles := declared ++ r.handles }
  match tokens with
  | [] => return none
  | _ =>
    let explicit ← accept .documentStart
    if !explicit && rest.length < tokens.length then failure
    let root ← if explicit && isDocumentEdge (← peek) then pure Tree.empty
      else node fuel true false
    modify fun r => { r with tokens := r.tokens.dropWhile (· = .documentEnd) }
    if (← peek).isSome then failure
    return some root

end Read

/-- The document in a text: `some none` where there is none, nothing where the text
is wrong or holds more than one. -/
def document? (text : String) : Option (Option Node) := do
  let tokens ← Token.ofChars? text.toList
  let root ← (Read.document (4 * tokens.length + 4)).run' { tokens }
  root.mapM Tree.node?

end ImagePull.Yaml
