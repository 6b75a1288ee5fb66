import NameCatalog.Calendar
import NameCatalog.Decimal.Numeral
import NameCatalog.Text.Quoted

/-!
# What can be wrong with YAML text

Text is either no YAML document, or a well-formed document of which a scalar does not fit its
type. Only the former is a fault of the format.
-/

namespace NameCatalog.Yaml

inductive Fault where
  | invalid
  | whole (base : Nat) (numeral : Text)
  | tooManyDigits (digits : Nat)
  | real (numeral : Text)
  | emptyNumeral
  | truth (word : Text)
  | timestamp
  | timestampOfMapping
  | calendar (f : Calendar.Fault)
  | codePoint
  | hugeCodePoint
  | hugePower
  | tooDeep
deriving DecidableEq, Repr

/-- How a numeral is shown: a long one is cut short. -/
def shownNumeral (s : Text) : Text :=
  Text.ofList ((Text.quotedChars s.toList).take 200)

def Fault.message : Fault → Text
  | .invalid => "is not valid YAML"
  | .whole base s =>
    "invalid literal for int() with base " ++ toString base ++ ": " ++ shownNumeral s
  | .tooManyDigits n =>
    "Exceeds the limit (" ++ toString Decimal.Numeral.maxDigits ++
      " digits) for integer string conversion: value has " ++ toString n ++
      " digits; use sys.set_int_max_str_digits() to increase the limit"
  | .real s => "could not convert string to float: " ++ Text.quoted s
  | .emptyNumeral => "string index out of range"
  | .truth word => Text.quoted word
  | .timestamp => "'NoneType' object has no attribute 'groupdict'"
  | .timestampOfMapping => "expected string or bytes-like object, got 'list'"
  | .calendar f => f.message
  | .codePoint => "chr() arg not in range(0x110000)"
  | .hugeCodePoint => "Python int too large to convert to C int"
  | .hugePower => "int too large to convert to float"
  | .tooDeep => "maximum recursion depth exceeded"

/-- Faults of the content, which a run reports and ends with; the others break it off. -/
def Fault.isReported : Fault → Bool
  | .invalid => true
  | .whole .. => true
  | .tooManyDigits _ => true
  | .real _ => true
  | .calendar _ => true
  | .codePoint => true
  | _ => false

end NameCatalog.Yaml
