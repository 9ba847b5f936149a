import FieldRules.Decimal.Numeral
import FieldRules.Json.Basic

/-!
# Reading JSON

The reader follows the grammar of the format from left to right.  Every call takes a bound on the
number of calls below it; a text needs at most two of them for each of its characters, so `ofText?`
gives enough for any text.
-/

namespace FieldRules
namespace Json

def isSpace (character : Char) : Bool :=
  character == ' ' || character == '\t' || character == '\n' || character == '\r'

def skipSpace (input : List Char) : List Char := input.dropWhile isSpace

def hexValue? (character : Char) : Option Nat :=
  if character.isDigit then some (character.toNat - '0'.toNat)
  else if 'a' ≤ character ∧ character ≤ 'f' then some (character.toNat - 'a'.toNat + 10)
  else if 'A' ≤ character ∧ character ≤ 'F' then some (character.toNat - 'A'.toNat + 10)
  else none

def hexUnit? (first second third fourth : Char) : Option Nat := do
  let first ← hexValue? first
  let second ← hexValue? second
  let third ← hexValue? third
  let fourth ← hexValue? fourth
  return ((first * 16 + second) * 16 + third) * 16 + fourth

def unescape? (short : Char) : Option Char :=
  [('"', '"'), ('\\', '\\'), ('/', '/'), ('b', '\x08'), ('t', '\t'), ('n', '\n'), ('f', '\x0c'),
    ('r', '\r')].lookup short

/-- Reads a string behind its opening mark as code units, after the units read before, which stand
in reverse. -/
def readUnits (before : List Nat) : List Char → Option (List Nat × List Char)
  | [] => none
  | '"' :: rest => some (before.reverse, rest)
  | '\\' :: 'u' :: first :: second :: third :: fourth :: rest =>
      match hexUnit? first second third fourth with
      | none => none
      | some unit => readUnits (unit :: before) rest
  | '\\' :: short :: rest =>
      match unescape? short with
      | none => none
      | some character => readUnits (character.toNat :: before) rest
  | character :: rest =>
      if character.toNat < 0x20 then none else readUnits (character.toNat :: before) rest

/-- The characters of code units, where two surrogates in a row make one character. -/
def joinUnits : List Nat → Option (List Char)
  | [] => some []
  | unit :: rest =>
      if 0xD800 ≤ unit ∧ unit < 0xDC00 then
        match rest with
        | low :: later =>
            if 0xDC00 ≤ low ∧ low < 0xE000 then
              (joinUnits later).map
                (Char.ofNat (0x10000 + (unit - 0xD800) * 0x400 + (low - 0xDC00)) :: ·)
            else none
        | [] => none
      else if 0xDC00 ≤ unit ∧ unit < 0xE000 then none
      else (joinUnits rest).map (Char.ofNat unit :: ·)

def readString (input : List Char) : Option (String × List Char) := do
  let (units, rest) ← readUnits [] input
  let text ← joinUnits units
  return (String.ofList text, rest)

def readDigits (input : List Char) : Option (List Char × List Char) :=
  let digits := input.takeWhile Char.isDigit
  if digits.isEmpty then none else some (digits, input.dropWhile Char.isDigit)

/-- Reads the whole part of a numeral, which begins with zero only if it is zero. -/
def readWhole (input : List Char) : Option (List Char × List Char) :=
  (readDigits input).filter fun (digits, _) => digits.length = 1 || digits.head? != some '0'

/-- Reads the fraction of a numeral; the result has no digits if there is none. -/
def readFraction (input : List Char) : Option (List Char × List Char) :=
  match input with
  | '.' :: rest => readDigits rest
  | _ => some ([], input)

def readSigned : List Char → Option (Int × List Char)
  | '-' :: rest =>
      (readDigits rest).map fun (digits, rest) => (-(Nat.ofDigitChars 10 digits 0 : Int), rest)
  | '+' :: rest =>
      (readDigits rest).map fun (digits, rest) => ((Nat.ofDigitChars 10 digits 0 : Int), rest)
  | input =>
      (readDigits input).map fun (digits, rest) => ((Nat.ofDigitChars 10 digits 0 : Int), rest)

def readExponent (input : List Char) : Option (Option Int × List Char) :=
  match input with
  | 'e' :: rest => (readSigned rest).map fun (exponent, rest) => (some exponent, rest)
  | 'E' :: rest => (readSigned rest).map fun (exponent, rest) => (some exponent, rest)
  | _ => some (none, input)

def readNumeral (negative : Bool) (input : List Char) : Option (Numeral × List Char) := do
  let (whole, input) ← readWhole input
  let (fraction, input) ← readFraction input
  let (exponent, input) ← readExponent input
  return (⟨negative, whole, fraction, exponent.getD 0, fraction.isEmpty && exponent.isNone⟩, input)

def ofNumeral? (numeral : Numeral) : Option Json :=
  match numeral.toInt? with
  | some value => some (.integer value)
  | none => numeral.toBinary64?.map .float

def readNumber (input : List Char) : Option (Json × List Char) := do
  let (numeral, rest) ←
    match input with
    | '-' :: rest => readNumeral true rest
    | _ => readNumeral false input
  let value ← ofNumeral? numeral
  return (value, rest)

mutual

def readValue : (bound : Nat) → List Char → Option (Json × List Char)
  | 0, _ => none
  | bound + 1, input =>
      match skipSpace input with
      | 'n' :: 'u' :: 'l' :: 'l' :: rest => some (.null, rest)
      | 't' :: 'r' :: 'u' :: 'e' :: rest => some (.bool true, rest)
      | 'f' :: 'a' :: 'l' :: 's' :: 'e' :: rest => some (.bool false, rest)
      | '"' :: rest => (readString rest).map fun (text, rest) => (.string text, rest)
      | '[' :: rest =>
          match skipSpace rest with
          | ']' :: rest => some (.array [], rest)
          | rest => (readItems bound rest).map fun (items, rest) => (.array items, rest)
      | '{' :: rest =>
          match skipSpace rest with
          | '}' :: rest => some (.object [], rest)
          | rest => (readMembers bound [] rest).map fun (members, rest) => (.object members, rest)
      | rest => readNumber rest

def readItems : (bound : Nat) → List Char → Option (List Json × List Char)
  | 0, _ => none
  | bound + 1, input =>
      match readValue bound input with
      | none => none
      | some (item, rest) =>
          match skipSpace rest with
          | ',' :: rest => (readItems bound rest).map fun (items, rest) => (item :: items, rest)
          | ']' :: rest => some ([item], rest)
          | _ => none

/-- Reads the members of an object up to the closing brace, after those read before. -/
def readMembers : (bound : Nat) → List (String × Json) → List Char →
    Option (List (String × Json) × List Char)
  | 0, _, _ => none
  | bound + 1, before, input =>
      match skipSpace input with
      | '"' :: rest =>
          match readString rest with
          | none => none
          | some (name, rest) =>
              match skipSpace rest with
              | ':' :: rest =>
                  match readValue bound rest with
                  | none => none
                  | some (value, rest) =>
                      let members := insertMember name value before
                      match skipSpace rest with
                      | ',' :: rest => readMembers bound members rest
                      | '}' :: rest => some (members, rest)
                      | _ => none
              | _ => none
      | _ => none

end

/-- The value that a text writes, if it is one value and nothing else. -/
def ofText? (text : String) : Option Json :=
  let input := text.toList
  match readValue (2 * input.length + 1) input with
  | some (value, rest) => if (skipSpace rest).isEmpty then some value else none
  | none => none

end Json
end FieldRules
