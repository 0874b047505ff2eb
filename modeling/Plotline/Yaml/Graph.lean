import Plotline.Yaml.Lexing
import Plotline.Yaml.Tag

/-!
# The graph of a YAML document

A node may be a part of several others, and even of itself, so nodes have numbers and name their parts by them.

* `Node`: a text, a list or a map with its tag.
* `Graph`: the nodes of a document.
* `Graph.ofParts?`: the graph of the only document that parts make up, if there is one.
-/

namespace Plotline.Yaml

/-- A part of a document; the parts of a node are given by their numbers. -/
inductive Node where
  | text (tag : Tag) (s : String)
  | list (tag : Tag) (items : List Nat)
  | map (tag : Tag) (entries : List (Nat × Nat))

def Node.tag : Node → Tag
  | text tag _ => tag
  | list tag _ => tag
  | map tag _ => tag

/-- The nodes of a document. -/
structure Graph where
  version : Version
  nodes : Array Node
  /-- The number of the node that holds all others. -/
  root : Nat

/-- The node for what is left out. -/
def Node.empty : Node := .text .null ""

def Graph.node (g : Graph) (n : Nat) : Node := (g.nodes[n]?).getD .empty

/-! ## Reading parts -/

/-- How far parts have been put together. -/
structure Building where
  tokens : List Token
  /-- What is wrong behind the last part. -/
  fault : Option Fault := none
  version : Version := .v12
  /-- The meaning of the handles for tags. -/
  handles : List (String × String) := []
  nodes : Array Node := #[]
  /-- The numbers of the nodes with anchors, the latest one first. -/
  anchors : List (String × Nat) := []
  /-- The number of collections that have begun and not ended. -/
  depth : Nat := 0

abbrev Build (α : Type) := StateT Building (Except Fault) α

namespace Build

/-- The next part, which stays where it is. -/
def peek? : Build (Option Token) := do
  let b ← get
  match b.tokens, b.fault with
  | t :: _, _ => return some t
  | [], some f => throw f
  | [], none => return none

def skip : Build Unit := modify fun b => { b with tokens := b.tokens.drop 1 }

/-- Whether the next part is `t`. -/
def sees (t : Token) : Build Bool := return (← peek?) = some t

/-- Passes the next part if it is `t`, and says whether it was. -/
def accept (t : Token) : Build Bool := do
  if ← sees t then
    skip
    return true
  else return false

def seesAny (ts : List Token) : Build Bool := return (← peek?).any ts.contains

/-- Whether the next part is a colon that stands for the value of a key that has been left out; the older version has
no such keys. -/
def seesLoneValue : Build Bool := do
  if (← get).version = .v12 then sees .value else return false

/-! ## Nodes -/

/-- Sets aside a number for a node that begins here, which an anchor may name. -/
def newNode (anchor : Option String) : Build Nat := do
  let b ← get
  let n := b.nodes.size
  set { b with
    nodes := b.nodes.push .empty, anchors := (anchor.toList.map fun a => (a, n)) ++ b.anchors }
  return n

def setNode (n : Nat) (node : Node) : Build Nat := do
  modify fun b => { b with nodes := b.nodes.setIfInBounds n node }
  return n

def empty : Build Nat := newNode none

def aliased (name : String) : Build Nat := do
  match (← get).anchors.find? (·.1 = name) with
  | some (_, n) => return n
  | none => throw .unknownAlias

/-- What comes before a node: the name of an anchor and a tag, in any order. -/
structure Properties where
  anchor : Option String := none
  tag : Option (Option String × String) := none

def properties : Build Properties := do
  match ← peek? with
  | some (.anchor a) =>
    skip
    match ← peek? with
    | some (.tag h s) =>
      skip
      return ⟨some a, some (h, s)⟩
    | _ => return ⟨some a, none⟩
  | some (.tag h s) =>
    skip
    match ← peek? with
    | some (.anchor a) =>
      skip
      return ⟨some a, some (h, s)⟩
    | _ => return ⟨none, some (h, s)⟩
  | _ => return {}

/-- How a node says what kind it is. -/
inductive Claim where
  /-- It has no tag. -/
  | silent
  /-- A lone exclamation mark: it is of the kind of its spelling, even in quotes. -/
  | spelt
  | tagged (tag : Tag)

/-- The tag that is meant. -/
def claim (tag : Option (Option String × String)) : Build Claim := do
  match tag with
  | none => return .silent
  | some (none, suffix) => return if suffix = "!" then .spelt else .tagged (Tag.ofName suffix)
  | some (some handle, suffix) =>
    match (← get).handles.find? (·.1 = handle) with
    | some (_, meaning) => return .tagged (Tag.ofName (meaning ++ suffix))
    | none => throw .unknownHandle

def textTag (c : Claim) (isPlain : Bool) (s : String) : Build Tag := do
  let spelt := Tag.ofPlain (← get).version s
  match c with
  | .tagged tag => return tag
  | .spelt => return spelt
  | .silent => return if isPlain then spelt else .text

def Claim.tagD (c : Claim) (usual : Tag) : Tag :=
  match c with
  | .tagged tag => tag
  | _ => usual

def deepest : Nat := 488

/-- A collection whose parts are read after it has its number, so that an alias among them can mean it. -/
def collection {α : Type} (anchor : Option String) (read : Build α) (make : α → Node) : Build Nat := do
  let depth := (← get).depth
  if deepest ≤ depth then throw .tooDeep
  let n ← newNode anchor
  modify fun b => { b with depth := depth + 1 }
  let parts ← read
  modify fun b => { b with depth }
  setNode n (make parts)

/-- Passes a comma, which must come next unless it is the first item. -/
def separated (first : Bool) : Build Unit := do
  unless first do
    unless ← accept .comma do throw .unexpectedPart

mutual

/-- The node that comes next. It may be a list without an indentation of its own where `dashes`, and a block where
`block`. -/
def node (fuel : Nat) (block dashes : Bool) : Build Nat := do
  match fuel with
  | 0 => throw .unexpectedPart
  | fuel + 1 =>
    if let some (.alias name) := ← peek? then
      skip
      return ← aliased name
    let p ← properties
    let c ← claim p.tag
    match ← peek? with
    | some (.scalar s isPlain) => do
      skip
      setNode (← newNode p.anchor) (.text (← textTag c isPlain s) s)
    | some .flowList => do
      skip
      collection p.anchor (flowItems fuel true) (.list (c.tagD .list))
    | some .flowMap => do
      skip
      collection p.anchor (flowEntries fuel true) (.map (c.tagD .map))
    | some .item =>
      if dashes then collection p.anchor (dashedItems fuel) (.list (c.tagD .list)) else nothing p c
    | some .blockList =>
      if block then do
        skip
        collection p.anchor (blockItems fuel) (.list (c.tagD .list))
      else nothing p c
    | some .blockMap =>
      if block then do
        skip
        collection p.anchor (blockEntries fuel) (.map (c.tagD .map))
      else nothing p c
    | _ => nothing p c
  where
    /-- Nothing but an anchor or a tag stands for a text without characters. -/
    nothing (p : Properties) (c : Claim) : Build Nat := do
      if p.anchor.isNone && p.tag.isNone then throw .unexpectedPart
      else setNode (← newNode p.anchor) (.text (← textTag c true "") "")

def blockItems (fuel : Nat) : Build (List Nat) := do
  match fuel with
  | 0 => throw .unexpectedPart
  | fuel + 1 =>
    if ← accept .item then
      let n ← if ← seesAny [.item, .blockEnd] then empty else node fuel true false
      return n :: (← blockItems fuel)
    else if ← accept .blockEnd then return []
    else throw .unexpectedPart

/-- The items of a list whose dashes stand in the column of the key before it. -/
def dashedItems (fuel : Nat) : Build (List Nat) := do
  match fuel with
  | 0 => throw .unexpectedPart
  | fuel + 1 =>
    if ← accept .item then
      let n ← if ← seesAny [.item, .key, .value, .blockEnd] then empty else node fuel true false
      return n :: (← dashedItems fuel)
    else return []

def blockEntries (fuel : Nat) : Build (List (Nat × Nat)) := do
  match fuel with
  | 0 => throw .unexpectedPart
  | fuel + 1 =>
    if ← accept .key then
      let k ← if ← seesAny [.key, .value, .blockEnd] then empty else node fuel true true
      let v ← blockValue fuel
      return (k, v) :: (← blockEntries fuel)
    else if ← seesLoneValue then
      let k ← empty
      let v ← blockValue fuel
      return (k, v) :: (← blockEntries fuel)
    else if ← accept .blockEnd then return []
    else throw .unexpectedPart

/-- The value of an entry of an indented map, which may be left out. -/
def blockValue (fuel : Nat) : Build Nat := do
  match fuel with
  | 0 => throw .unexpectedPart
  | fuel + 1 =>
    if ← accept .value then
      if ← seesAny [.key, .value, .blockEnd] then empty else node fuel true true
    else empty

/-- The items of a list in brackets; an item may be a map of a single entry. -/
def flowItems (fuel : Nat) (first : Bool) : Build (List Nat) := do
  match fuel with
  | 0 => throw .unexpectedPart
  | fuel + 1 =>
    if ← accept .flowListEnd then return []
    separated first
    if ← accept .flowListEnd then return []
    let n ← if ← accept .key then collection none (singleEntry fuel) (.map .map) else node fuel false false
    return n :: (← flowItems fuel false)

/-- The only entry of a map without brackets of its own. -/
def singleEntry (fuel : Nat) : Build (List (Nat × Nat)) := do
  match fuel with
  | 0 => throw .unexpectedPart
  | fuel + 1 =>
    let k ← if ← seesAny [.value, .comma, .flowListEnd] then empty else node fuel false false
    let v ← flowValue fuel .flowListEnd
    return [(k, v)]

def flowEntries (fuel : Nat) (first : Bool) : Build (List (Nat × Nat)) := do
  match fuel with
  | 0 => throw .unexpectedPart
  | fuel + 1 =>
    if ← accept .flowMapEnd then return []
    separated first
    if ← accept .flowMapEnd then return []
    let e ← if ← accept .key then
        let k ← if ← seesAny [.value, .comma, .flowMapEnd] then empty else node fuel false false
        let v ← flowValue fuel .flowMapEnd
        pure (k, v)
      else if ← seesLoneValue then
        let k ← empty
        let v ← flowValue fuel .flowMapEnd
        pure (k, v)
      else
        let k ← node fuel false false
        let v ← empty
        pure (k, v)
    return e :: (← flowEntries fuel false)

/-- The value of an entry in brackets, which may be left out. -/
def flowValue (fuel : Nat) (close : Token) : Build Nat := do
  match fuel with
  | 0 => throw .unexpectedPart
  | fuel + 1 =>
    if ← accept .value then
      if ← seesAny [.comma, close] then empty else node fuel false false
    else empty

end

/-! ## Documents -/

structure Directives where
  version : Option (Nat × Nat) := none
  handles : List (String × String) := []

/-- Passes directives and looks at what is behind them; `n` is more than there are. -/
def directivesFrom (d : Directives) : (n : Nat) → Build Directives
  | 0 => return d
  | n + 1 => do
    match ← peek? with
    | some (.version major minor) =>
      skip
      if d.version.isSome then throw .repeatedDirective
      if major ≠ 1 then throw .incompatibleVersion
      directivesFrom { d with version := some (major, minor) } n
    | some (.handle name meaning) =>
      skip
      if d.handles.any (·.1 = name) then throw .repeatedDirective
      directivesFrom { d with handles := (name, meaning) :: d.handles } n
    | some .reserved =>
      skip
      directivesFrom d n
    | _ => return d

/-- The handles that have a meaning even if no directive gives them one. -/
def usualHandles : List (String × String) := [("!", "!"), ("!!", Tag.usual)]

/-- What is said before a document. The rules of versions other than 1.1 and 1.2 are not known. -/
def directives : Build Unit := do
  let d ← directivesFrom {} ((← get).tokens.length + 1)
  let version ← match d.version with
    | none => pure Version.v12
    | some (major, minor) =>
      if minor = 1 then pure .v11 else if minor = 2 then pure .v12 else throw (.unknownVersion major minor)
  modify fun b => { b with version, handles := d.handles ++ usualHandles }

/-- Passes the marks for the end of a document, at most `n` of them. -/
def skipEnds : (n : Nat) → Build Unit
  | 0 => return
  | n + 1 => do if ← accept .documentEnd then skipEnds n

def explicitStart : Build Unit := do
  directives
  unless ← accept .documentStart do throw .unexpectedPart

/-- Whether the next part is one with which no document begins that has neither directives nor a mark for its
beginning. -/
def seesExplicitStart : Build Bool := return (← peek?).all fun t => t.isDirective || t = .documentStart

/-- Makes sure that no other document follows. In the newer version a mark for the end is behind the document only
once; another one belongs to the next document. -/
def ending : Build Unit := do
  let ended ← accept .documentEnd
  if !(ended && (← get).version = .v12) then skipEnds (← get).tokens.length
  if (← peek?).isSome then
    if ← seesExplicitStart then explicitStart
    throw .severalDocuments

/-- The number of the root of the only document, if there is one. -/
def document : Build (Option Nat) := do
  if (← peek?).isNone then return none
  let explicit ← seesExplicitStart
  if explicit then explicitStart else modify fun b => { b with handles := usualHandles }
  let left := explicit && ((← peek?).all fun t => t.isDirective || t = .documentStart || t = .documentEnd)
  let n ← if left then empty else node (4 * (← get).tokens.length + 4) true false
  ending
  return some n

end Build

/-- The graph of the only document that parts make up, if there is one. -/
def Graph.ofParts? (p : Lexing.Parts) : Except Fault (Option Graph) := do
  let (root, b) ← Build.document.run { tokens := p.tokens, fault := p.fault }
  pure (root.map fun root => { version := b.version, nodes := b.nodes, root })

end Plotline.Yaml
