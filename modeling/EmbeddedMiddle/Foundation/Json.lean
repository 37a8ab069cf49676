import EmbeddedMiddle.Foundation.Printf
import Mathlib.Algebra.Order.Field.Power
import Mathlib.Data.List.TakeWhile

/-!
# Reading JSON

The grammar of RFC 8259 on the bytes of a text.  The bytes from 128 on belong
to UTF-8 characters that stand for themselves.  Each round of a loop and each
level of nesting takes at least one byte, so the length of the text is enough
fuel.
-/

namespace Foundation

inductive Json where
  | null
  | boolean (value : Bool)
  | number (value : ℚ)
  | string (text : List UInt8)
  | array (items : List Json)
  | object (members : List (List UInt8 × Json))

namespace Json

/-! ## Tokens -/

def isSpace (byte : UInt8) : Bool :=
  byte == 32 || byte == 9 || byte == 10 || byte == 13

def skip (text : List UInt8) : List UInt8 := text.dropWhile isSpace

/-- One byte behind blanks. -/
def token (byte : UInt8) (text : List UInt8) : Option (List UInt8) :=
  match skip text with
  | [] => none
  | first :: rest => if first = byte then some rest else none

/-! ## Strings -/

def hexValue (byte : UInt8) : Option ℕ :=
  if 48 ≤ byte ∧ byte ≤ 57 then some (byte.toNat - 48)
  else if 65 ≤ byte ∧ byte ≤ 70 then some (byte.toNat - 55)
  else if 97 ≤ byte ∧ byte ≤ 102 then some (byte.toNat - 87)
  else none

def hex4 : List UInt8 → Option (ℕ × List UInt8)
  | a :: b :: c :: d :: rest => do
      let a ← hexValue a
      let b ← hexValue b
      let c ← hexValue c
      let d ← hexValue d
      some (((a * 16 + b) * 16 + c) * 16 + d, rest)
  | _ => none

/-- A half of a surrogate pair that stands alone is encoded like any other
code. -/
def utf8 (code : ℕ) : List UInt8 :=
  if code < 128 then [code.toUInt8]
  else if code < 2048 then
    [(192 + code / 64).toUInt8, (128 + code % 64).toUInt8]
  else if code < 65536 then
    [(224 + code / 4096).toUInt8, (128 + code / 64 % 64).toUInt8,
      (128 + code % 64).toUInt8]
  else
    [(240 + code / 262144).toUInt8, (128 + code / 4096 % 64).toUInt8,
      (128 + code / 64 % 64).toUInt8, (128 + code % 64).toUInt8]

/-- The second half of a surrogate pair. -/
def lowSurrogate : List UInt8 → Option (ℕ × List UInt8)
  | backslash :: u :: text =>
      if backslash = 92 ∧ u = 117 then
        (hex4 text).filter fun (code, _) => 56320 ≤ code && code < 57344
      else none
  | _ => none

/-- What is behind `\u`. -/
def unicode (text : List UInt8) : Option (List UInt8 × List UInt8) := do
  let (code, text) ← hex4 text
  if 55296 ≤ code ∧ code < 56320 then
    match lowSurrogate text with
    | some (low, text) =>
        some (utf8 (65536 + (code - 55296) * 1024 + (low - 56320)), text)
    | none => some (utf8 code, text)
  else some (utf8 code, text)

/-- What a byte behind a backslash stands for. -/
def escaped (byte : UInt8) : Option UInt8 :=
  if byte = 34 ∨ byte = 92 ∨ byte = 47 then some byte
  else if byte = 98 then some 8
  else if byte = 102 then some 12
  else if byte = 110 then some 10
  else if byte = 114 then some 13
  else if byte = 116 then some 9
  else none

def escape : List UInt8 → Option (List UInt8 × List UInt8)
  | [] => none
  | byte :: text =>
      if byte = 117 then unicode text
      else (escaped byte).map fun value => ([value], text)

/-- A character of a string, which starts with `byte`. -/
def char (byte : UInt8) (text : List UInt8) :
    Option (List UInt8 × List UInt8) :=
  if byte = 92 then escape text
  else if byte < 32 then none
  else some ([byte], text)

/-- The characters up to the quotation mark that ends the string. -/
def charsFrom : ℕ → List UInt8 → Option (List UInt8 × List UInt8)
  | 0, _ => none
  | _ + 1, [] => none
  | fuel + 1, byte :: text =>
      if byte = 34 then some ([], text)
      else do
        let (first, text) ← char byte text
        let (more, text) ← charsFrom fuel text
        some (first ++ more, text)

def chars (text : List UInt8) : Option (List UInt8 × List UInt8) :=
  charsFrom text.length text

/-! ## Numbers -/

/-- An optional byte. -/
def optionalByte (byte : UInt8) : List UInt8 → Bool × List UInt8
  | [] => (false, [])
  | first :: text =>
      if first = byte then (true, text) else (false, first :: text)

/-- One digit at least. -/
def digits (text : List UInt8) : Option (List UInt8 × List UInt8) :=
  if text.takeWhile isDigit = [] then none
  else some (text.takeWhile isDigit, text.dropWhile isDigit)

/-- No zero in front of other digits. -/
def whole (text : List UInt8) : Option (List UInt8 × List UInt8) :=
  (digits text).filter fun (row, _) => row.head? != some 48 || row == [48]

def fraction (text : List UInt8) : Option (List UInt8 × List UInt8) :=
  let (point, text) := optionalByte 46 text
  if point then digits text else some ([], text)

def exponent : List UInt8 → Option (ℤ × List UInt8)
  | [] => some (0, [])
  | e :: text =>
      if e = 101 ∨ e = 69 then
        let (plus, text) := optionalByte 43 text
        let (minus, text) :=
          if plus then (false, text) else optionalByte 45 text
        (digits text).map fun (row, text) =>
          (if minus then -(digitsValue row : ℤ) else digitsValue row, text)
      else some (0, e :: text)

def numberText (text : List UInt8) : Option (ℚ × List UInt8) := do
  let (minus, text) := optionalByte 45 text
  let (row, text) ← whole text
  let (behind, text) ← fraction text
  let (power, text) ← exponent text
  some ((if minus then -1 else 1) * digitsValue (row ++ behind) *
    10 ^ (power - behind.length), text)

/-! ## Values -/

/-- One item at least, with commas between them. -/
def items {Item : Type} (item : List UInt8 → Option (Item × List UInt8))
    (close : UInt8) : ℕ → List UInt8 → Option (List Item × List UInt8)
  | 0, _ => none
  | fuel + 1, text => do
      let (first, text) ← item text
      match token 44 text with
      | some text => do
          let (more, text) ← items item close fuel text
          some (first :: more, text)
      | none => do
          let text ← token close text
          some ([first], text)

def bracketed {Item : Type} (item : List UInt8 → Option (Item × List UInt8))
    (close : UInt8) (text : List UInt8) : Option (List Item × List UInt8) :=
  match token close text with
  | some text => some ([], text)
  | none => items item close text.length text

def member (value : List UInt8 → Option (Json × List UInt8))
    (text : List UInt8) : Option ((List UInt8 × Json) × List UInt8) := do
  let text ← token 34 text
  let (key, text) ← chars text
  let text ← token 58 text
  let (value, text) ← value text
  some ((key, value), text)

def word (name : String) (value : Json) (text : List UInt8) :
    Option (Json × List UInt8) :=
  if ascii name <+: text then some (value, text.drop (ascii name).length)
  else none

/-- A value that is neither an object nor an array nor a string. -/
def scalar (text : List UInt8) : Option (Json × List UInt8) :=
  word "null" .null text <|> word "true" (.boolean true) text <|>
    word "false" (.boolean false) text <|>
    (numberText text).map fun (value, text) => (.number value, text)

def value : ℕ → List UInt8 → Option (Json × List UInt8)
  | 0, _ => none
  | depth + 1, text =>
      match token 123 text, token 91 text, token 34 text with
      | some text, _, _ =>
          (bracketed (member (value depth)) 125 text).map
            fun (members, text) => (.object members, text)
      | none, some text, _ =>
          (bracketed (value depth) 93 text).map
            fun (items, text) => (.array items, text)
      | none, none, some text =>
          (chars text).map fun (row, text) => (.string row, text)
      | none, none, none => scalar (skip text)

/-- The value of a whole text. -/
def parse (text : List UInt8) : Option Json := do
  let (value, text) ← value (text.length + 1) text
  if skip text = [] then some value else none

end Json

end Foundation
