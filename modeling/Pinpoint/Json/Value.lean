import Pinpoint.Json.Numeral

/-! # JSON values

A value of the JSON data format. The members of an object are kept in the order in which they are
written, and a key may be written twice.
-/

namespace Pinpoint

inductive Json where
  | null
  | boolean (value : Bool)
  | number (numeral : Json.Numeral)
  | string (text : Text)
  | array (items : List Json)
  | object (members : List (Text × Json))
  deriving Repr

namespace Json

def ofNat (n : Nat) : Json := number (.ofNat n)

def toNat? : Json → Option Nat
  | number numeral => numeral.toNat?
  | _ => none

def toText? : Json → Option Text
  | string text => some text
  | _ => none

def toItems? : Json → Option (List Json)
  | array items => some items
  | _ => none

/-- The value of a key in the object that a value is; where the key is written twice, the value
written last. -/
def member? (value : Json) (key : Text) : Option Json :=
  match value with
  | object members => members.reverse.lookup key
  | _ => none

/-! ## Writing

Values are written without blanks. In a string only the quotation mark, the backslash and the
control characters below the space are escaped, five of these by a letter and the others by four
hexadecimal digits; every other character stands for itself.
-/

/-- The letter that escapes a control character, where there is one. -/
def escapeLetter? : Char → Option Char
  | '\x08' => some 'b'
  | '\t' => some 't'
  | '\n' => some 'n'
  | '\x0c' => some 'f'
  | '\r' => some 'r'
  | _ => none

/-- The hexadecimal digit of a number below 16, in lower case. -/
def hexDigit (n : Nat) : Char := Nat.digitChar n

/-- How a character is written inside a string. -/
def escape (c : Char) : Text :=
  if c = '"' ∨ c = '\\' then ['\\', c]
  else if c < ' ' then
    match escapeLetter? c with
    | some letter => ['\\', letter]
    | none => ['\\', 'u', '0', '0', hexDigit (c.toNat / 16), hexDigit (c.toNat % 16)]
  else [c]

/-- How a string is written, its quotation marks included. -/
def quote (text : Text) : Text := '"' :: text.flatMap escape ++ ['"']

def Numeral.render (numeral : Numeral) : Text :=
  (if numeral.negative then ['-'] else []) ++ Text.ofNat numeral.whole ++
    (match numeral.fraction with
      | none => []
      | some digits => '.' :: digits.text) ++
    match numeral.exponent with
    | none => []
    | some exponent => 'e' :: (if exponent.negative then ['-'] else []) ++ exponent.digits.text

mutual

def render : Json → Text
  | null => "null".toList
  | boolean true => "true".toList
  | boolean false => "false".toList
  | number numeral => numeral.render
  | string text => quote text
  | array [] => "[]".toList
  | array (item :: items) => '[' :: render item ++ renderItems items
  | object [] => "\x7b\x7d".toList
  | object ((key, value) :: members) =>
    '\x7b' :: quote key ++ ':' :: render value ++ renderMembers members

/-- The items behind the first one and the end of the array. -/
def renderItems : List Json → Text
  | [] => "]".toList
  | item :: items => ',' :: render item ++ renderItems items

/-- The members behind the first one and the end of the object. -/
def renderMembers : List (Text × Json) → Text
  | [] => "\x7d".toList
  | (key, value) :: members => ',' :: quote key ++ ':' :: render value ++ renderMembers members

end

end Json

end Pinpoint
