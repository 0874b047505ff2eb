import Plotline.Text.Utf8
import Plotline.Yaml.BlockText

/-!
# The parts of a YAML text

* `Token`: indicators, texts, and the bounds of indented blocks.
* `anchorName`, `tagAt`, `directiveAt`: names, tags and directives at a place.
-/

namespace Plotline.Yaml

/-- A part of a YAML text. -/
inductive Token where
  /-- The version that a directive asks for. -/
  | version (major minor : Nat)
  /-- A handle for tags, with what it stands for. -/
  | handle (name meaning : String)
  /-- A directive that says nothing to us. -/
  | reserved
  | documentStart
  | documentEnd
  | blockList
  | blockMap
  | blockEnd
  | flowList
  | flowListEnd
  | flowMap
  | flowMapEnd
  | item
  | comma
  | key
  | value
  | alias (name : String)
  | anchor (name : String)
  | tag (handle : Option String) (suffix : String)
  | scalar (text : String) (plain : Bool)
deriving DecidableEq, Repr

def Token.isDirective : Token → Bool
  | .version .. => true
  | .handle .. => true
  | .reserved => true
  | _ => false

def Scalar.token (isPlain : Bool) (x : Scalar) : Token := .scalar (String.ofList x.text) isPlain

/-! ## Names -/

/-- The characters of an anchor: all but blanks, line feeds and what parts the items of collections. -/
def isAnchorChar (c : Char) : Bool :=
  !(isBlank c || isFlowSign c || c = '\n' || c.toNat = 0x85 || c = byteOrderMark)

/-- The name of an anchor or alias behind its sign, and the place behind it. -/
def anchorName (c : Cursor) : Except Fault (String × Cursor) :=
  let (name, after) := c.span isAnchorChar
  if name.isEmpty || after.head? = some byteOrderMark then .error .badAnchor else .ok (String.ofList name, after)

/-! ## Tags -/

def isHandleChar (c : Char) : Bool := c.isAlphanum || c = '-' || c = '_'

/-- The characters of a tag; the newer version has one more. -/
def isTagChar (version : Version) (c : Char) : Bool :=
  c.isAlphanum || "-;/?:@&=+$,_.!~*'()[]%".toList.contains c || (c = '#' && version = .v12)

/-- The text with its escaped bytes, each of which becomes the character of its number. The bytes of a run, which is
`run` so far with its last byte first, must be UTF-8. -/
def unescape? (run : List UInt8) : List Char → Option (List Char)
  | [] => if (Text.Utf8.decode run.reverse).isOk then some [] else none
  | c :: r =>
    if c = '%' then
      match r with
      | a :: b :: r => do
        let byte := 16 * (← hexDigit? a) + (← hexDigit? b)
        (unescape? (UInt8.ofNat byte :: run) r).map (Char.ofNat byte :: ·)
      | _ => none
    else if (Text.Utf8.decode run.reverse).isOk then (unescape? [] r).map (c :: ·)
    else none

/-- The longest run of characters of a tag, as it stands and without its escapes, and the place behind it. -/
def tagName (version : Version) (c : Cursor) : Except Fault (List Char × List Char × Cursor) :=
  let (raw, after) := c.span (isTagChar version)
  match unescape? [] raw with
  | some name => if raw.isEmpty then .error .badTag else .ok (raw, name, after)
  | none => .error .badTag

/-- A handle: an exclamation mark in front of a space, or two with a name between them. -/
def tagHandle (c : Cursor) : Except Fault (List Char × Cursor) :=
  if c.head? ≠ some '!' then .error .badTag
  else if c.ahead? 1 = some ' ' then .ok (['!'], c.skip)
  else
    let (name, after) := c.skip.span isHandleChar
    if after.head? = some '!' then .ok ('!' :: name ++ ['!'], after.skip) else .error .badTag

/-- The tag behind its exclamation marks, and the place behind it: spelt out in angle brackets, nothing, or a name
behind a handle. -/
def tagBody (version : Version) (short : String) (c : Cursor) : Except Fault (Token × Cursor) := do
  let next := c.ahead? 1
  if next = some '<' then
    let (_, name, after) ← tagName version (c.skipN 2)
    if after.head? = some '>' then pure (.tag none (String.ofList name), after.skip) else .error .badTag
  else if endsWord next then pure (.tag none "!", c.skip)
  else
    let ahead := (c.rest.drop 1).takeWhile fun x => !endsPart (some x)
    let (handle, c) ← if ahead.contains '!' then tagHandle c else pure (short.toList, c.skip)
    let (_, name, after) ← tagName version c
    pure (.tag (some (String.ofList handle)) (String.ofList name), after)

/-- A tag, and the place behind it. -/
def tagAt (version : Version) (c : Cursor) : Except Fault (Token × Cursor) := do
  let (t, after) ← if c.ahead? 1 = some '!' then tagBody version "!!" c.skip else tagBody version "!" c
  if endsPart after.head? then pure (t, after) else .error .badTag

/-! ## Directives -/

def isDirectiveChar (c : Char) : Bool := c.isAlphanum || ['-', '_', ':', '.'].contains c

def versionPart (c : Cursor) : Except Fault (Nat × Cursor) :=
  let (ds, after) := c.span Char.isDigit
  if ds.isEmpty then .error .badDirective else .ok (Number.digitsValue ds, after)

def versionAt (c : Cursor) : Except Fault (Token × Cursor) := do
  let (major, c) ← versionPart (c.skipWhile isSpace)
  if c.head? ≠ some '.' then .error .badDirective
  else
    let (minor, c) ← versionPart c.skip
    if endsPart c.head? then pure (.version major minor, c) else .error .badDirective

/-- What a tag directive says. The rules of a version do not hold before the document begins. -/
def handleAt (c : Cursor) : Except Fault (Token × Cursor) := do
  let (handle, c) ← tagHandle (c.skipWhile isSpace)
  if c.head? ≠ some ' ' then .error .badDirective
  else
    let (meaning, _, c) ← tagName .v12 (c.skipWhile isSpace)
    if endsPart c.head? then pure (.handle (String.ofList handle) (String.ofList meaning), c) else .error .badDirective

/-- A directive, and the place behind its line. -/
def directiveAt (c : Cursor) : Except Fault (Token × Cursor) := do
  let (name, c) := c.skip.span isDirectiveChar
  if name.isEmpty || !endsPart c.head? then .error .badDirective
  else
    let (t, c) ←
      if name = "YAML".toList then versionAt c
      else if name = "TAG".toList then handleAt c
      else pure (.reserved, c.skipWhile (!isBreak ·))
    match c.lineRest? with
    | some c => pure (t, c.skip)
    | none => .error .badDirective

end Plotline.Yaml
