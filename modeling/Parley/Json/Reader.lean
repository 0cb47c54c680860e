import Parley.Decimal.Basic
import Parley.Json.Basic

/-!
# Reading JSON

A strict reader: no comments, no trailing commas, no control characters inside texts, no lone
halves of surrogate pairs, nothing before or after the value but blanks. Beyond the standard it
accepts `NaN`, `Infinity` and `-Infinity`. When an object repeats a key, the last value counts.
A float that is too large is infinite.

## Main definitions

* `Json.Limits` bounds how deep values may nest and how long numbers may be
* `Json.read?` reads a text that holds one value within limits

## Implementation notes

Every value takes at least one character, so the length of the text bounds the recursion.
-/

namespace Parley.Json

/-- What a reader puts up with. Containers with nothing in them do not count as nested, and the
length of a number is that of its digits before a point or an exponent. -/
structure Limits where
  depth : Nat
  numeral : Nat
  deriving DecidableEq, Repr

/-- Drop the blanks that may stand between tokens. -/
def skipBlanks (t : Text) : Text :=
  t.dropWhile fun c => c == ' ' || c == '\t' || c == '\n' || c == '\r'

/-- The rest of a text that starts with a given word. -/
def afterWord? (word t : Text) : Option Text :=
  if word.isPrefixOf t then some (t.drop word.length) else none

/-- The value of a hexadecimal digit. -/
def hexValue? (c : Char) : Option Nat :=
  if '0' ≤ c ∧ c ≤ '9' then some (c.toNat - '0'.toNat)
  else if 'a' ≤ c ∧ c ≤ 'f' then some (c.toNat - 'a'.toNat + 10)
  else if 'A' ≤ c ∧ c ≤ 'F' then some (c.toNat - 'A'.toNat + 10)
  else none

/-- The value of four hexadecimal digits. -/
def hexValue4? (a b c d : Char) : Option Nat := do
  return ((← hexValue? a) * 16 + (← hexValue? b)) * 256 + (← hexValue? c) * 16 + (← hexValue? d)

/-- The character that an escape by a single letter stands for. -/
def letterEscape? : Char → Option Char
  | '"' => some '"'
  | '\\' => some '\\'
  | '/' => some '/'
  | 'b' => some '\x08'
  | 'f' => some '\x0c'
  | 'n' => some '\n'
  | 'r' => some '\r'
  | 't' => some '\t'
  | _ => none

/-- Read a text after its opening quote. The characters read so far come last first. -/
def readText (done : Text) : Text → Option (Text × Text)
  | '"' :: t => some (done.reverse, t)
  | '\\' :: 'u' :: a :: b :: c :: d :: t =>
    match hexValue4? a b c d with
    | none => none
    | some n =>
      if n < 0xd800 ∨ 0xe000 ≤ n then readText (Char.ofNat n :: done) t
      else if 0xdc00 ≤ n then none
      else
        match t with
        | '\\' :: 'u' :: e :: f :: g :: h :: t' =>
          match hexValue4? e f g h with
          | none => none
          | some k =>
            if k < 0xdc00 ∨ 0xe000 ≤ k then none
            else readText
              (Char.ofNat (0x10000 + (n - 0xd800) * 0x400 + (k - 0xdc00)) :: done) t'
        | _ => none
  | '\\' :: c :: t =>
    match letterEscape? c with
    | some e => readText (e :: done) t
    | none => none
  | c :: t => if c.toNat < 0x20 then none else readText (c :: done) t
  | [] => none

/-- Read a number whose sign has been read. -/
def readNumber (longest : Nat) (negative : Bool) (t : Text) : Option (Json × Text) :=
  match t.span isAsciiDigit with
  | ([], _) => none
  | ('0' :: _ :: _, _) => none
  | (whole, rest) =>
    if longest < whole.length then none
    else
      match rest with
      | '.' :: c :: _ => if isAsciiDigit c then float else none
      | '.' :: [] => none
      | 'e' :: _ | 'E' :: _ => float
      | _ => some (.int (signed negative (asciiValue whole)), rest)
where
  /-- A number with a fraction or an exponent. Where an exponent lacks its digits, its letter is
  left over, and no token starts with it. -/
  float : Option (Json × Text) :=
    (Decimal.read? negative t).map fun r => (.real r.1.toFloat, r.2)

mutual

/-- Read a value. -/
def readValue : Nat → Limits → Text → Option (Json × Text)
  | 0, _, _ => none
  | fuel + 1, limits, t =>
    match skipBlanks t with
    | '"' :: t => (readText [] t).map fun r => (.text r.1, r.2)
    | '[' :: t =>
      match skipBlanks t, limits.depth with
      | ']' :: t, _ => some (.list [], t)
      | _, 0 => none
      | t, depth + 1 => readItems fuel { limits with depth } [] t
    | '{' :: t =>
      match skipBlanks t, limits.depth with
      | '}' :: t, _ => some (.object [], t)
      | _, 0 => none
      | t, depth + 1 => readFields fuel { limits with depth } [] t
    | '-' :: t =>
      match afterWord? "Infinity".toList t with
      | some t => some (.real (-(1.0 / 0.0)), t)
      | none => readNumber limits.numeral true t
    | t =>
      match afterWord? "null".toList t, afterWord? "true".toList t, afterWord? "false".toList t,
        afterWord? "NaN".toList t, afterWord? "Infinity".toList t with
      | some t, _, _, _, _ => some (.null, t)
      | _, some t, _, _, _ => some (.bool true, t)
      | _, _, some t, _, _ => some (.bool false, t)
      | _, _, _, some t, _ => some (.real (0.0 / 0.0), t)
      | _, _, _, _, some t => some (.real (1.0 / 0.0), t)
      | _, _, _, _, _ => readNumber limits.numeral false t

/-- Read the rest of a list. The items read so far come last first. -/
def readItems : Nat → Limits → List Json → Text → Option (Json × Text)
  | 0, _, _, _ => none
  | fuel + 1, limits, done, t =>
    match readValue fuel limits t with
    | none => none
    | some (v, t) =>
      match skipBlanks t with
      | ',' :: t => readItems fuel limits (v :: done) t
      | ']' :: t => some (.list (v :: done).reverse, t)
      | _ => none

/-- Read the rest of an object. The fields read so far come last first. -/
def readFields : Nat → Limits → List (Text × Json) → Text → Option (Json × Text)
  | 0, _, _, _ => none
  | fuel + 1, limits, done, t =>
    match skipBlanks t with
    | '"' :: t =>
      match readText [] t with
      | none => none
      | some (key, t) =>
        match skipBlanks t with
        | ':' :: t =>
          match readValue fuel limits t with
          | none => none
          | some (v, t) =>
            match skipBlanks t with
            | ',' :: t => readFields fuel limits ((key, v) :: done) t
            | '}' :: t =>
              some (.object (((key, v) :: done).reverse.foldl (fun es e => bindEntry e.1 e.2 es) []),
                t)
            | _ => none
        | _ => none
    | _ => none

end

/-- The value a text holds, `none` when it does not hold exactly one or goes beyond the limits. -/
def read? (limits : Limits) (t : Text) : Option Json :=
  match readValue (t.length + 1) limits t with
  | some (v, rest) => if (skipBlanks rest).isEmpty then some v else none
  | none => none

end Parley.Json
