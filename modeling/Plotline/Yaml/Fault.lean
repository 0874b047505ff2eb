import Plotline.Data.Display
import Plotline.Number.Refusal

/-!
# What can be wrong with a YAML text

* `Fault`: why a text is no YAML document, or why its data cannot be built.
* `Fault.message`: what is said about it.
-/

namespace Plotline.Yaml

/-- Why a text is no YAML document, or why its data cannot be built. -/
inductive Fault where
  /-- A character that no YAML text may hold. -/
  | controlCharacter
  /-- A character that begins nothing. -/
  | strayCharacter
  /-- A colon in a place where no key can stand. -/
  | misplacedValue
  /-- A question mark in a place where no key can stand. -/
  | misplacedKey
  /-- A dash in a place where no item can stand. -/
  | misplacedItem
  /-- A line that must be a key has no colon. -/
  | keyWithoutValue
  /-- A quoted text that does not end. -/
  | unclosedQuote
  /-- A document marker inside a quoted text. -/
  | markerInQuote
  /-- A backslash that escapes nothing. -/
  | badEscape
  /-- An escaped number that no character has. -/
  | noCharacter
  /-- An escaped number that is larger than any that could be one of a character. -/
  | hugeCharacter
  /-- A block text with something other than its indicators on the first line. -/
  | badBlockHeader
  /-- A block text whose first lines are blank and indented less than a later one. -/
  | badBlockIndentation
  /-- A directive that is not spelt right. -/
  | badDirective
  /-- A directive that says again what is said already. -/
  | repeatedDirective
  /-- A version that is not understood at all. -/
  | incompatibleVersion
  /-- A version of which there are no rules. -/
  | unknownVersion (major minor : Nat)
  /-- A tag that is not spelt right. -/
  | badTag
  /-- A tag whose handle has no meaning. -/
  | unknownHandle
  /-- An anchor or alias without a proper name. -/
  | badAnchor
  /-- A part that cannot stand where it stands. -/
  | unexpectedPart
  /-- Too many collections inside each other. -/
  | tooDeep
  | severalDocuments
  | unknownAlias
  /-- A tag that does not fit what it stands on. -/
  | unfitTag
  /-- A key that occurs twice. -/
  | repeatedKey
  /-- An entry of an ordered map that occurs twice. -/
  | repeatedEntry
  /-- A map or set as a key. -/
  | changingKey
  /-- A list with something as a part that can be no key, as a key. -/
  | nestedKey
  /-- A number without any characters. -/
  | emptyNumber
  /-- A text that is no number in its base. -/
  | notInBase (base : Nat) (given : String)
  | notNumber (given : String)
  | severalExponents
  /-- A whole number with too many digits. -/
  | tooManyDigits (count : Nat)
  | unknownTruth (word : String)
  /-- A day or time that does not exist. -/
  | badMoment (fault : MomentFault)
  /-- A text in base 64 that breaks off. -/
  | badBytes
deriving DecidableEq, Repr

def Fault.message : Fault → String
  | controlCharacter => "special characters are not allowed"
  | strayCharacter => "found character that cannot start any token"
  | misplacedValue => "mapping values are not allowed here"
  | misplacedKey => "mapping keys are not allowed here"
  | misplacedItem => "sequence entries are not allowed here"
  | keyWithoutValue => "could not find expected ':'"
  | unclosedQuote => "found unexpected end of stream"
  | markerInQuote => "found unexpected document separator"
  | badEscape => "found unknown escape character"
  | noCharacter => "chr() arg not in range(0x110000)"
  | hugeCharacter => "Python int too large to convert to C int"
  | badBlockHeader => "expected chomping or indentation indicators"
  | badBlockIndentation => "more indented follow up line than first in a block scalar"
  | badDirective => "expected a directive"
  | repeatedDirective => "found duplicate directive"
  | incompatibleVersion => "found incompatible YAML document"
  | unknownVersion major minor =>
    "version minor part can only be 2 or 1, got (" ++ toString major ++ ", " ++ toString minor ++ ")"
  | badTag => "expected a tag"
  | unknownHandle => "found undefined tag handle"
  | badAnchor => "expected alphabetic or numeric character"
  | unexpectedPart => "expected the node content"
  | tooDeep => "maximum recursion depth exceeded"
  | severalDocuments => "expected a single document in the stream"
  | unknownAlias => "found undefined alias"
  | unfitTag => "could not determine a constructor for the tag"
  | repeatedKey => "found duplicate key"
  | repeatedEntry => ""
  | changingKey => "found unhashable key"
  | nestedKey => "found unhashable part of a key"
  | emptyNumber => "string index out of range"
  | notInBase base given => Number.notInBase base (quoted given)
  | notNumber given => Number.notFloat (quoted given)
  | severalExponents => "too many values to unpack (expected 2)"
  | tooManyDigits n => Number.tooLong (some n)
  | unknownTruth word => quoted word
  | badMoment f => f.message
  | badBytes => "failed to decode base64 data"

end Plotline.Yaml
