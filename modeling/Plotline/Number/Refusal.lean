import Plotline.Number.Arithmetic
import Plotline.Number.Whole

/-!
# What is said about texts that are no numbers

* `notInBase`, `notFloat`: a text is no whole number, or no number at all.
* `tooLong`: a whole number has too many digits.
-/

namespace Plotline.Number

/-- A text, in quotes here, is no whole number in a base; of a long text only the beginning is shown. -/
def notInBase (base : Nat) (quoted : String) : String :=
  "invalid literal for int() with base " ++ toString base ++ ": " ++ String.ofList (quoted.toList.take 200)

/-- A text, in quotes here, is no number. -/
def notFloat (quoted : String) : String := "could not convert string to float: " ++ quoted

/-- A whole number has too many digits, so many if they have been counted. -/
def tooLong (count : Option Nat) : String :=
  "Exceeds the limit (" ++ toString longest ++ " digits) for integer string conversion" ++
    ((count.map fun n => ": value has " ++ toString n ++ " digits").getD "") ++
    "; use sys.set_int_max_str_digits() to increase the limit"

end Plotline.Number
