import Plotline.Yaml.Atom
import Plotline.Yaml.Graph

/-!
# Data in YAML

A collection is known before its parts are: they are built level by level, so that of several faults the one nearest to
the root counts. The parts of a key are built at once.

* `Cell`: what has been built of a node.
* `Graph.entriesOf`: the entries of a map together with those that are merged into it.
* `Graph.cells`: the cells of all nodes below the root.
* `Graph.data`: the data that a document stands for; `Yaml.read`: the data in a YAML text, if there is any.
-/

namespace Plotline.Yaml

/-- A part of what has been built: the number of its node, or nothing for a part of a key that contains itself. -/
abbrev Part := Option Nat

/-- What has been built of a node. -/
inductive Cell where
  | atom (d : Data)
  | list (items : List Part)
  | pairs (items : List (Part × Part))
  | set (keys : List Data)
  | map (entries : List (Data × Part))

/-! ## Entries -/

/-- The entries of a map, and whether some of them are merged into it. -/
structure Entries where
  entries : List (Nat × Nat)
  merged : Bool

def Graph.isMerge (g : Graph) (e : Nat × Nat) : Bool := (g.node e.1).tag = .merge

mutual

/-- The entries of the map with number `n`, those that are merged into it first. Nothing more is merged in once there is
something; what is merged into one of the maps in `opened` does not count again. -/
def Graph.entriesWithin (g : Graph) (fuel : Nat) (opened : List Nat) (n : Nat) (es : List (Nat × Nat)) :
    Except Fault Entries := do
  match fuel with
  | 0 => .error .unexpectedPart
  | fuel + 1 =>
    let own := es.filter (!g.isMerge ·)
    if opened.contains n then pure ⟨own, false⟩
    else
      let lent ← (es.filter g.isMerge).foldlM (fun lent e =>
        if lent.isEmpty then g.lent fuel (n :: opened) e.2 else .error Fault.repeatedKey) []
      pure ⟨lent ++ own, !lent.isEmpty⟩

/-- Everything that the node with number `n` lends to the map it is merged into; of the maps in a list the first counts
most and so comes last. -/
def Graph.lent (g : Graph) (fuel : Nat) (opened : List Nat) (n : Nat) : Except Fault (List (Nat × Nat)) := do
  match fuel with
  | 0 => .error .unexpectedPart
  | fuel + 1 =>
    match g.node n with
    | .map _ es => return (← g.entriesWithin fuel opened n es).entries
    | .list _ items =>
      items.foldlM (fun lent m =>
        match g.node m with
        | .map _ es => do return (← g.entriesWithin fuel opened m es).entries ++ lent
        | _ => .error .unfitTag) []
    | .text .. => .error .unfitTag

end

def Graph.entriesOf (g : Graph) (n : Nat) (es : List (Nat × Nat)) : Except Fault Entries :=
  g.entriesWithin (2 * g.nodes.size + 2) [] n es

/-! ## Building -/

/-- How far data has been built. -/
structure Growth where
  cells : Array (Option Cell)
  /-- The collections whose parts are to be built next, the last one first. -/
  waiting : List Nat := []
  /-- The collections that are being built as parts of a key. -/
  opened : List Nat := []

abbrev Grow (α : Type) := StateT Growth (Except Fault) α

/-- The characters of a text, or of a map those of its value for the key that stands for the map as a whole. -/
def Graph.characters (g : Graph) : (fuel : Nat) → Node → Except Fault String
  | 0, _ => .error .unfitTag
  | fuel + 1, n =>
    match n with
    | .text _ s => .ok s
    | .list .. => .error .unfitTag
    | .map _ es =>
      match es.find? fun e => (g.node e.1).tag = .value with
      | some e => g.characters fuel (g.node e.2)
      | none => .error .unfitTag

/-- The data of a node of a kind for texts. A day or time must be spelt out. -/
def Graph.atom (g : Graph) (tag : Tag) (n : Node) : Except Fault Data :=
  match tag, n with
  | .moment, .text _ s => tag.data g.version s
  | .moment, _ => .error .unfitTag
  | _, n => do tag.data g.version (← g.characters (g.nodes.size + 1) n)

/-- What a collection is before its parts are built, if the tag is one for collections. -/
def Tag.emptyCell? : Tag → Option Cell
  | .list => some (.list [])
  | .map => some (.map [])
  | .set => some (.set [])
  | .orderedMap => some (.map [])
  | .pairs => some (.pairs [])
  | _ => none

namespace Growth

/-- What has been built of a part. -/
def cell? (s : Growth) (p : Part) : Option Cell := p.bind fun n => (s.cells[n]?).join

/-- A part as a part of a key; of a collection only the kind counts. -/
def keyPart (s : Growth) (p : Part) : Data :=
  match s.cell? p with
  | some (.atom d) => d
  | some (.list _) => .list []
  | some (.pairs _) => .list []
  | some (.set _) => .set []
  | some (.map _) => .map []
  | none => .null

/-- A part as a key: a list becomes a tuple. -/
def key (s : Growth) (p : Part) : Data :=
  match s.cell? p with
  | some (.list items) => .tuple (items.map s.keyPart)
  | some (.pairs items) => .tuple (items.map fun e => .tuple [s.keyPart e.1, s.keyPart e.2])
  | _ => s.keyPart p

end Growth

namespace Grow

def setCell (n : Nat) (c : Cell) : Grow Unit := modify fun s => { s with cells := s.cells.setIfInBounds n (some c) }

/-- The entries with one more; a known key keeps its place. -/
def put {α : Type} (k : Data) (v : α) : List (Data × α) → List (Data × α)
  | [] => [(k, v)]
  | e :: es => if k.same e.1 then (e.1, v) :: es else e :: put k v es

/-- The only entry of a map in a list of entries. -/
def singleEntry (g : Graph) (n : Nat) : Grow (Nat × Nat) :=
  match g.node n with
  | .map _ [e] => return e
  | _ => throw .unfitTag

def fixedKey (p : Part) : Grow Data := do
  match (← get).key p with
  | .map _ => throw .changingKey
  | .set _ => throw .changingKey
  | d => return d

/-- The entries with one more. Where `strict`, its key must be new. -/
def addEntry (strict : Bool) (es : List (Data × Part)) (k : Data) (v : Part) : Grow (List (Data × Part)) :=
  if !k.isKey then throw .nestedKey
  else if strict && es.any (fun e => k.same e.1) then throw .repeatedKey
  else return put k v es

mutual

/-- The part that the node with number `n` becomes, at once with all its parts where `deep`. Where `asKey`, the key that
stands for the map as a whole is a text. -/
def build (g : Graph) (fuel : Nat) (deep asKey : Bool) (n : Nat) : Grow Part := do
  match fuel with
  | 0 => throw .unexpectedPart
  | fuel + 1 =>
    let s ← get
    if (s.cell? (some n)).isSome then return some n
    else if s.opened.contains n then return none
    else
      let node := g.node n
      let tag := if asKey && node.tag = .value then .text else node.tag
      match tag.emptyCell? with
      | none => setCell n (.atom (← g.atom tag node))
      | some c =>
        if deep then
          set { s with opened := n :: s.opened }
          let c ← fill g fuel true n
          modify fun t => { t with opened := s.opened }
          setCell n c
        else
          setCell n c
          modify fun t => { t with waiting := n :: t.waiting }
      return some n

def fill (g : Graph) (fuel : Nat) (deep : Bool) (n : Nat) : Grow Cell := do
  match fuel with
  | 0 => throw .unexpectedPart
  | fuel + 1 =>
    match g.node n with
    | .list .list items => return .list (← items.mapM fun m => build g fuel deep false m)
    | .list .pairs items =>
      return .pairs (← items.mapM fun m => do
        let e ← singleEntry g m
        let k ← build g fuel deep false e.1
        let v ← build g fuel deep false e.2
        return (k, v))
    | .list .orderedMap items =>
      return .map (← items.foldlM (fun es m => do
        let e ← singleEntry g m
        let p ← build g fuel deep false e.1
        let k := (← get).keyPart p
        if !k.isKey then throw .nestedKey
        if es.any (fun e => k.same e.1) then throw .repeatedEntry
        let v ← build g fuel deep false e.2
        return es ++ [(k, v)]) [])
    | .map .map es => return .map (← entries g fuel deep n es)
    | .map .set es => return .set ((← entries g fuel deep n es).map (·.1))
    | _ => throw .unfitTag

/-- The entries of a map, each key before its value. -/
def entries (g : Graph) (fuel : Nat) (deep : Bool) (n : Nat) (es : List (Nat × Nat)) : Grow (List (Data × Part)) := do
  match fuel with
  | 0 => throw .unexpectedPart
  | fuel + 1 =>
    let es ← g.entriesOf n es
    es.entries.foldlM (fun ds e => do
      let k ← fixedKey (← build g fuel true true e.1)
      let v ← build g fuel deep false e.2
      addEntry (!es.merged) ds k v) []

end

/-- Enough steps for the parts of a key. -/
def enough (g : Graph) : Nat := 3 * g.nodes.size + 3

/-- Builds the parts of what is waiting, level by level, for at most `n` levels. -/
def levels (g : Graph) : (n : Nat) → Grow Unit
  | 0 => return
  | n + 1 => do
    let waiting := (← get).waiting.reverse
    unless waiting.isEmpty do
      modify fun s => { s with waiting := [] }
      for m in waiting do
        setCell m (← fill g (enough g) false m)
      levels g n

def all (g : Graph) : Grow Unit := do
  discard (build g (enough g) false false g.root)
  levels g (g.nodes.size + 1)

end Grow

def Graph.cells (g : Graph) : Except Fault (Array (Option Cell)) :=
  ((Grow.all g).run { cells := Array.replicate g.nodes.size none }).map (·.2.cells)

/-! ## Data -/

/-- The data of nodes, as far as it is known. -/
structure Unfolding where
  known : Array (Option Data)
  /-- The collections that are being unfolded. -/
  opened : List Nat := []

/-- A collection inside itself stands there without parts. -/
def Cell.hollow : Cell → Data
  | atom d => d
  | list _ => .list []
  | pairs _ => .list []
  | set _ => .set []
  | map _ => .map []

/-- The keys of a set, which has no order of its own, in the order of their texts. -/
def setOf (keys : List Data) : Data := .set (keys.mergeSort fun a b => decide (a.display ≤ b.display))

def unfold (cells : Array (Option Cell)) (fuel : Nat) (p : Part) : StateM Unfolding Data := do
  match fuel, p with
  | fuel + 1, some n =>
    let s ← get
    match (s.known[n]?).join, (cells[n]?).join with
    | some d, _ => return d
    | none, none => return .null
    | none, some c =>
      if s.opened.contains n then return c.hollow
      set { s with opened := n :: s.opened }
      let d ← match c with
        | .atom d => pure d
        | .set keys => pure (setOf keys)
        | .list items => do pure (.list (← items.mapM fun q => unfold cells fuel q))
        | .pairs items => do
          pure (.list (← items.mapM fun e => do
            let k ← unfold cells fuel e.1
            let v ← unfold cells fuel e.2
            return Data.tuple [k, v]))
        | .map es => do
          pure (.map (← es.mapM fun e => do
            let v ← unfold cells fuel e.2
            return (e.1, v)))
      modify fun t => { known := t.known.setIfInBounds n (some d), opened := s.opened }
      return d
  | _, _ => return .null

def Graph.data (g : Graph) : Except Fault Data := do
  let cells ← g.cells
  pure ((unfold cells (g.nodes.size + 1) (some g.root)).run { known := Array.replicate g.nodes.size none }).1

def read (s : List Char) : Except Fault (Option Data) := do
  match ← Graph.ofParts? (Lexing.ofText (Text.unifyLineEnds s)) with
  | some g => (g.data).map some
  | none => pure none

end Plotline.Yaml
