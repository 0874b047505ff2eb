import Plotline.Text.Pattern
import Plotline.Yaml.Scalar

/-!
# Kinds of data in YAML

* `Tag`: what kind of data a node is.
* `Tag.ofName`: the kind with a given name.
* `Tag.ofPlain`: the kind of a text without a tag, by its spelling; the two versions of the rules differ in how truth
  values and numbers are spelt.
-/

namespace Plotline.Yaml
open Text Pattern

/-- What kind of data a node is. -/
inductive Tag where
  | null
  | bool
  | int
  | float
  | text
  | bytes
  | moment
  | list
  | map
  /-- Different keys without values. -/
  | set
  /-- Entries in order, each key once. -/
  | orderedMap
  /-- Entries in order. -/
  | pairs
  /-- The key whose value is merged into the map. -/
  | merge
  /-- The key that stands for the map as a whole. -/
  | value
  /-- Another kind. -/
  | other (name : String)
deriving DecidableEq, Repr

namespace Tag

def usual : String := "tag:yaml.org,2002:"

def named : List (String × Tag) :=
  [("null", null), ("bool", bool), ("int", int), ("float", float), ("str", text), ("binary", bytes),
    ("timestamp", moment), ("seq", list), ("map", map), ("set", set), ("omap", orderedMap), ("pairs", pairs),
    ("merge", merge), ("value", value)]

def ofName (name : String) : Tag :=
  match named.find? (fun t => usual ++ t.1 = name) with
  | some t => t.2
  | none => other name

/-! ## Spellings -/

/-- A plus or minus sign, or nothing. -/
def sign : Pattern := maybe (oneOf "+-")

def groupedDigit : Pattern := one fun c => c.isDigit || c = '_'

/-- Digits with underscores behind the first of them. -/
def grouped : Pattern := seq digit (many groupedDigit)

def exponent (sign : Pattern) : Pattern := inOrder [oneOf "eE", sign, several digit]

def sixtieths : Pattern := inOrder [char ':', maybe (oneOf "012345"), digit]

/-- Whole numbers in base 2 and 16. -/
def wholeInBase : Pattern :=
  anyOf [inOrder [sign, word "0b", several (oneOf "01_")],
    inOrder [sign, word "0x", several (one fun c => (hexDigit? c).isSome || c = '_')]]

def wholePattern : Version → Pattern
  | .v11 =>
    anyOf [wholeInBase, inOrder [sign, maybe (char '0'), several (oneOf "01234567_")],
      inOrder [sign, alt (char '0') (seq (oneOf "123456789") (many groupedDigit))],
      inOrder [sign, oneOf "123456789", many groupedDigit, several sixtieths]]
  | .v12 =>
    anyOf [wholeInBase, inOrder [sign, word "0o", several (oneOf "01234567_")], inOrder [sign, several groupedDigit]]

/-- Numbers with a point behind digits, numbers with an exponent, infinities, and what is no number. -/
def floatPattern (version : Version) : Pattern :=
  let fraction := inOrder [char '.', several groupedDigit, maybe (exponent (oneOf "+-"))]
  let common := anyOf [inOrder [sign, grouped, char '.', many groupedDigit, maybe (exponent sign)],
    inOrder [sign, grouped, exponent sign], inOrder [sign, words [".inf", ".Inf", ".INF"]],
    words [".nan", ".NaN", ".NAN"]]
  match version with
  | .v11 => anyOf [common, fraction, inOrder [sign, grouped, several sixtieths, char '.', many groupedDigit]]
  | .v12 => anyOf [common, seq sign fraction]

def boolPattern : Version → Pattern
  | .v11 => words ["y", "Y", "yes", "Yes", "YES", "n", "N", "no", "No", "NO", "true", "True", "TRUE", "false", "False",
      "FALSE", "on", "On", "ON", "off", "Off", "OFF"]
  | .v12 => words ["true", "True", "TRUE", "false", "False", "FALSE"]

/-- How days are spelt, and days with a time. -/
def momentPattern : Pattern :=
  let short := seq digit (maybe digit)
  let pair := seq digit digit
  let year := inOrder [pair, pair, char '-']
  let time := inOrder [short, char ':', pair, char ':', pair, maybe (seq (char '.') (many digit))]
  let zone := alt (char 'Z') (inOrder [oneOf "+-", short, maybe (seq (char ':') pair)])
  alt (inOrder [year, pair, char '-', pair])
    (inOrder [year, short, char '-', short, alt (oneOf "Tt") (several (one isBlank)), time,
      maybe (seq (many (one isBlank)) zone)])

/-- How each kind is spelt; the first that fits counts. -/
def patterns (version : Version) : List (Tag × Pattern) :=
  [(bool, boolPattern version), (float, floatPattern version), (int, wholePattern version), (merge, word "<<"),
    (null, words ["", "~", "null", "Null", "NULL"]), (moment, momentPattern), (value, word "="),
    (other (usual ++ "yaml"), oneOf "!&*")]

/-- The text without the line feed at its end, if there is something before that. -/
def trimLineEnd (s : List Char) : List Char :=
  match s.reverse with
  | c :: d :: r => if c = '\n' then (d :: r).reverse else s
  | _ => s

/-- The kind of a text without a tag, by its spelling. A number does not begin with an underscore. -/
def ofPlain (version : Version) (s : String) : Tag :=
  let t := trimLineEnd s.toList
  if t.head? = some '_' then text
  else match (patterns version).find? (fun p => p.2.accepts t) with
    | some p => p.1
    | none => text

end Tag
end Plotline.Yaml
