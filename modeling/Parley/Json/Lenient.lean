import Parley.Decimal.Basic
import Parley.Decimal.Whole
import Parley.Json.Basic
import Parley.Text.Numeral

/-!
# Reading fields leniently

Records are filled from JSON values, and a value of another type is accepted when it plainly means
one of the right type: a text that spells a number, a float without a fraction, zero and one for
truth values. Everything else is a fault of the field.

## Main definitions

* `FieldFault` lists what can be wrong with the value of a field
* `Json.asText`, `Json.asInt`, `Json.asReal`, `Json.asBool` read a value as one of a type
* `Json.asWideReal` reads a float where there is no number too large
* `FieldError` is a fault with the place it was found at
* `Json.whole` and `Json.numberOr` read a whole number that is to be stored, or a default
-/

namespace Parley

/-- What can be wrong with the value of a field. -/
inductive FieldFault where
  | textType
  | intType
  | intParsing
  | intFromFloat
  | intParsingSize
  | finiteNumber
  | floatType
  | floatParsing
  | boolType
  | boolParsing
  | objectType
  | listType
  | recordType
  | notMember
  | missing
  | unknownPart
  | unknownField
  | noSuchField
  | greaterThan
  | greaterThanEqual
  | lessThanEqual
  | unknownName
  | notJson
  | notObject
  deriving DecidableEq, Repr

/-- The name of a fault. -/
def FieldFault.code : FieldFault → Text
  | textType => "string_type".toList
  | intType => "int_type".toList
  | intParsing => "int_parsing".toList
  | intFromFloat => "int_from_float".toList
  | intParsingSize => "int_parsing_size".toList
  | finiteNumber => "finite_number".toList
  | floatType => "float_type".toList
  | floatParsing => "float_parsing".toList
  | boolType => "bool_type".toList
  | boolParsing => "bool_parsing".toList
  | objectType => "dict_type".toList
  | listType => "list_type".toList
  | recordType => "dataclass_type".toList
  | notMember => "enum".toList
  | missing => "missing".toList
  | unknownPart => "unexpected_keyword_argument".toList
  | unknownField => "extra_forbidden".toList
  | noSuchField => "no_such_attribute".toList
  | greaterThan => "greater_than".toList
  | greaterThanEqual => "greater_than_equal".toList
  | lessThanEqual => "less_than_equal".toList
  | unknownName => "value_error".toList
  | notJson => "json_invalid".toList
  | notObject => "model_type".toList

/-- A fault and where it was found: the field, then the keys and indices inside it. -/
structure FieldError where
  place : List Text
  fault : FieldFault
  deriving DecidableEq, Repr

namespace Json

/-- A text. -/
def asText : Json → Except FieldFault Text
  | .text t => .ok t
  | _ => .error .textType

/-- The number of a numeral without spaces, plus sign, underscores or leading zeros. With more than
`maxDigits` digits it is too long, whatever follows them. -/
def plainInt (t : Text) : Except FieldFault Int :=
  let (negative, body) := match t with
    | '-' :: ds => (true, ds)
    | ds => (false, ds)
  match body.span isAsciiDigit with
  | ([], _) | ('0' :: _ :: _, _) => .error .intParsing
  | (digits, rest) =>
    if maxDigits < digits.length then .error .intParsingSize
    else if rest.isEmpty then .ok (signed negative (asciiValue digits))
    else .error .intParsing

/-- An unsigned numeral from its first digit that is not a leading zero; `none` when it does not
start like one. A zero in front of a point stays, and so does the last character of nothing but
zeros. A minus sign after leading zeros starts the numeral as well. -/
def dropLeadingZeros (t : Text) : Option Text :=
  match t with
  | '0' :: rest =>
    match rest.dropWhile fun c => c == '0' || c == '_' with
    | [] => some (t.drop (t.length - 1))
    | '.' :: fraction =>
      some (t.drop (t.length - fraction.length - 2))
    | c :: more => if c = '-' ∨ isAsciiDigit c then some (c :: more) else none
  | c :: _ => if isAsciiDigit c then some t else none
  | [] => none

/-- A numeral without a fraction of zeros, of which there has to be one at least. -/
def dropZeroFraction (t : Text) : Text :=
  match t.cut '.' with
  | (whole, some fraction) =>
    if !fraction.isEmpty && fraction.all (· == '0') then whole else t
  | (_, none) => t

/-- A text without its underscores, when each stands alone inside it. -/
def dropUnderscores (t : Text) : Text :=
  if t.hasSingleUnderscores then t.filter (· != '_') else t

/-- A numeral with all that does no harm taken away: spaces around it, a plus sign, leading zeros
after the sign, a fraction of zeros and single underscores. -/
def plainNumeral? (t : Text) : Option Text :=
  let (sign, body) := match t.trim isSpace with
    | '+' :: ds => ([], ds)
    | '-' :: ds => (['-'], ds)
    | ds => ([], ds)
  (dropLeadingZeros body).map fun ds => sign ++ dropUnderscores (dropZeroFraction ds)

/-- The number a text spells. Only the text as it stands can be too long; one that is too long with
the harmless parts taken away spells no number. -/
def intOfText (t : Text) : Except FieldFault Int :=
  match plainInt t with
  | .error .intParsing =>
    match (plainNumeral? t).map plainInt with
    | some (.ok n) => .ok n
    | _ => .error .intParsing
  | r => r

/-- The whole numbers a machine word holds. -/
def fitsWord (n : Int) : Bool :=
  decide (-9223372036854775808 ≤ n) && decide (n < 9223372036854775808)

/-- The whole number a float is. The least number of a word is too large here, since smaller numbers
round to the same float. -/
def intOfReal (x : Float) : Except FieldFault Int :=
  match Float.whole? x with
  | none => .error .finiteNumber
  | some n =>
    if Float.ofInt n != x then .error .intFromFloat
    else if fitsWord n && n != -9223372036854775808 then .ok n
    else .error .intParsingSize

/-- A whole number. -/
def asInt : Json → Except FieldFault Int
  | .int n => .ok n
  | .bool b => .ok (if b then 1 else 0)
  | .real x => intOfReal x
  | .text t => intOfText t
  | _ => .error .intType

/-- The float a text without spaces and underscores spells. -/
def plainReal? (t : Text) : Option Float :=
  let (negative, body) := takeSign t
  let word := body.map Char.toLower
  if word = "inf".toList ∨ word = "infinity".toList then
    some (if negative then -(1.0 / 0.0) else 1.0 / 0.0)
  else if word = "nan".toList then some (0.0 / 0.0)
  else
    match Decimal.read? negative body with
    | some (d, []) => some d.toFloat
    | _ => none

/-- The float a text spells. -/
def realOfText (t : Text) : Except FieldFault Float :=
  match plainReal? (t.trim isSpace) with
  | some x => .ok x
  | none =>
    match t.hasSingleUnderscores, plainReal? (t.filter (· != '_')) with
    | true, some x => .ok x
    | _, _ => .error .floatParsing

/-- A float, which is infinite for a whole number that is too large. -/
def asWideReal : Json → Except FieldFault Float
  | .real x => .ok x
  | .int n => .ok (Float.ofInt n)
  | .bool b => .ok (if b then 1.0 else 0.0)
  | .text t => realOfText t
  | _ => .error .floatType

/-- A float. A whole number that is too large for one is refused. -/
def asReal (v : Json) : Except FieldFault Float :=
  match v with
  | .int n => if (Float.ofInt n).isInf then .error .floatType else .ok (Float.ofInt n)
  | v => v.asWideReal

/-- The truth value a number stands for. -/
def boolOfInt (n : Int) : Except FieldFault Bool :=
  if n = 0 then .ok false
  else if n = 1 then .ok true
  else if fitsWord n then .error .boolParsing
  else .error .boolType

/-- The truth value a text spells. -/
def boolOfText (t : Text) : Except FieldFault Bool :=
  let word := String.ofList (t.map Char.toLower)
  if ["0", "off", "f", "false", "n", "no"].contains word then .ok false
  else if ["1", "on", "t", "true", "y", "yes"].contains word then .ok true
  else .error .boolParsing

/-- A truth value. -/
def asBool : Json → Except FieldFault Bool
  | .bool b => .ok b
  | .int n => boolOfInt n
  | .real x =>
    match intOfReal x with
    | .ok n => boolOfInt n
    | .error _ => .error .boolType
  | .text t => boolOfText t
  | _ => .error .boolType

/-- Whether a value counts as true: everything but `null`, zero, `false`, and what is empty. -/
def truth : Json → Bool
  | .null => false
  | .bool b => b
  | .int n => n != 0
  | .real x => x != 0.0
  | .text t => !t.isEmpty
  | .list vs => !vs.isEmpty
  | .object es => !es.isEmpty

/-- The name of the type of a value, as messages give it. -/
def typeName : Json → Text
  | .null => "NoneType".toList
  | .bool _ => "bool".toList
  | .int _ => "int".toList
  | .real _ => "float".toList
  | .text _ => "str".toList
  | .list _ => "list".toList
  | .object _ => "dict".toList

/-- Why a value has no whole number in it. -/
inductive WholeFault where
  | numeral (t : Text) (fault : NumeralFault)
  | notNumber (type : Text)
  | infinite
  | notANumber
  deriving DecidableEq, Repr

/-- The wording of a fault. -/
def WholeFault.message : WholeFault → Text
  | numeral t fault => fault.message t
  | notNumber type =>
    "int() argument must be a string, a bytes-like object or a real number, not ".toList ++
      type.quoted
  | infinite => "cannot convert float infinity to integer".toList
  | notANumber => "cannot convert float NaN to integer".toList

/-- The whole number in a value: a float loses its fraction, a text must spell a number, in at most
`limit` digits if there is a limit. -/
def wholeUpTo (limit : Option Nat) : Json → Except WholeFault Int
  | .int n => .ok n
  | .bool b => .ok (if b then 1 else 0)
  | .real x =>
    match Float.whole? x with
    | some n => .ok n
    | none => .error (if x.isNaN then .notANumber else .infinite)
  | .text t =>
    match t.toWhole limit with
    | .ok n => .ok n
    | .error fault => .error (.numeral t fault)
  | v => .error (.notNumber v.typeName)

/-- The whole number in a value that is to be stored, where texts must not be overlong. -/
def whole : Json → Except WholeFault Int := wholeUpTo (some maxDigits)

/-- A number, or the one in a default, which is only read and may have any length. -/
def numberOr (default : Json) : Option Int → Except WholeFault Int
  | some n => .ok n
  | none => default.wholeUpTo none

end Json

end Parley
