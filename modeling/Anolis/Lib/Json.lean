import Anolis.Lib.SortedMap
import Anolis.Lib.Utf8
import Mathlib.Data.Nat.Digits.Defs

/-!
# JSON texts

JSON as `nlohmann::json` reads and writes it. A text is bytes. The lexer takes one byte a step and
gives the tokens that end with it (`lexStep`), the parser takes one token a step and keeps the
arrays and objects that are still open on a stack (`parseStep`). A text is refused by the first step
that has no successor, and a text that ends inside a token or with something open is refused too.

What is particular to that library: a NUL byte outside a string ends the text, a byte order mark at
its start is skipped, of two members with one key the last counts, and a whole number that fits
neither `int64_t` nor `uint64_t` is a floating point number. `dump` writes no blanks, writes the
members in the order of their keys, escapes what JSON has to have escaped and nothing else, and
throws (`none`) on a string that is not UTF-8.

What a floating point number is, and how it is read and written, is a parameter (`FloatFormat`).
-/

namespace Anolis.Lib

/-- A JSON value with floating point numbers in `F`. The members of an object are in the order of
their keys. -/
inductive Json (F : Type)
  | null
  | bool (b : Bool)
  | int (i : Int)
  | float (x : F)
  | string (s : Bytes)
  | array (items : List (Json F))
  | object (fields : List (Bytes × Json F))

namespace Json

variable {F : Type}

/-- How floating point numbers are read and written. A literal that is out of range is no number. -/
structure FloatFormat (F : Type) where
  read : Bytes → Option F
  write : F → Bytes

/-- The value of a member of an object. -/
def get? : Json F → Bytes → Option (Json F)
  | .object fields, key => (fields.find? fun field => field.1 = key).map Prod.snd
  | _, _ => none

/-! ### Writing -/

/-- The digit of a number below 16. -/
def hexDigit (n : UInt8) : UInt8 := if n < 10 then 0x30 + n else 0x57 + n

/-- What a byte of a string is written as. -/
def escapeByte (b : UInt8) : Bytes :=
  if b = 0x08 then ascii "\\b"
  else if b = 0x09 then ascii "\\t"
  else if b = 0x0A then ascii "\\n"
  else if b = 0x0C then ascii "\\f"
  else if b = 0x0D then ascii "\\r"
  else if b = 0x22 then ascii "\\\""
  else if b = 0x5C then ascii "\\\\"
  else if b < 0x20 then ascii "\\u00" ++ [hexDigit (b / 16), hexDigit (b % 16)]
  else [b]

def dumpString (s : Bytes) : Bytes := 0x22 :: (s.flatMap escapeByte ++ [0x22])

/-- The decimal digits of a number. -/
def dumpNat (n : Nat) : Bytes :=
  if n = 0 then [0x30] else ((Nat.digits 10 n).map fun d => 0x30 + UInt8.ofNat d).reverse

def dumpInt (i : Int) : Bytes :=
  if i < 0 then 0x2D :: dumpNat i.natAbs else dumpNat i.natAbs

mutual

/-- The text of a value. -/
def text (fl : FloatFormat F) : Json F → Bytes
  | .null => ascii "null"
  | .bool true => ascii "true"
  | .bool false => ascii "false"
  | .int i => dumpInt i
  | .float x => fl.write x
  | .string s => dumpString s
  | .array [] => ascii "[]"
  | .array (item :: items) => 0x5B :: (text fl item ++ textItems fl items)
  | .object [] => [0x7B, 0x7D]
  | .object (field :: fields) => 0x7B :: (textField fl field ++ textFields fl fields)

/-- The text of the further items of an array, and its end. -/
def textItems (fl : FloatFormat F) : List (Json F) → Bytes
  | [] => [0x5D]
  | item :: items => 0x2C :: (text fl item ++ textItems fl items)

/-- The text of the further members of an object, and its end. -/
def textFields (fl : FloatFormat F) : List (Bytes × Json F) → Bytes
  | [] => [0x7D]
  | field :: fields => 0x2C :: (textField fl field ++ textFields fl fields)

/-- The text of a member. -/
def textField (fl : FloatFormat F) : Bytes × Json F → Bytes
  | (key, value) => dumpString key ++ 0x3A :: text fl value

end

mutual

/-- Is every string and every key of the value UTF-8. -/
def isUtf8 : Json F → Bool
  | .string s => Utf8.valid s
  | .array items => isUtf8Items items
  | .object fields => isUtf8Fields fields
  | _ => true

def isUtf8Items : List (Json F) → Bool
  | [] => true
  | item :: items => isUtf8 item && isUtf8Items items

def isUtf8Fields : List (Bytes × Json F) → Bool
  | [] => true
  | field :: fields => isUtf8Field field && isUtf8Fields fields

def isUtf8Field : Bytes × Json F → Bool
  | (key, value) => Utf8.valid key && isUtf8 value

end

/-- `dump()`. `none` is its exception. -/
def dump (fl : FloatFormat F) (v : Json F) : Option Bytes :=
  if isUtf8 v then some (text fl v) else none

/-! ### Tokens -/

inductive Token (F : Type)
  | beginObject | endObject | beginArray | endArray | colon | comma
  | null
  | bool (b : Bool)
  | int (i : Int)
  | float (x : F)
  | string (s : Bytes)

/-- Where in a number the lexer is. -/
inductive NumberPlace
  | minus | zero | digits | point | fraction | exponent | sign | power

def isDigit (b : UInt8) : Bool := 0x30 ≤ b ∧ b ≤ 0x39

/-- The place after a decimal point or an `e`. -/
def NumberPlace.pastWhole (b : UInt8) : Option NumberPlace :=
  if b = 0x2E then some .point
  else if b = 0x65 ∨ b = 0x45 then some .exponent
  else none

/-- The place after a byte of the number. -/
def NumberPlace.next : NumberPlace → UInt8 → Option NumberPlace
  | .minus, b => if b = 0x30 then some .zero else if isDigit b then some .digits else none
  | .zero, b => pastWhole b
  | .digits, b => if isDigit b then some .digits else pastWhole b
  | .point, b => if isDigit b then some .fraction else none
  | .fraction, b =>
    if isDigit b then some .fraction
    else if b = 0x65 ∨ b = 0x45 then some .exponent
    else none
  | .exponent, b =>
    if b = 0x2B ∨ b = 0x2D then some .sign else if isDigit b then some .power else none
  | .sign, b | .power, b => if isDigit b then some .power else none

/-- The place after the first byte of a number. -/
def NumberPlace.first (b : UInt8) : Option NumberPlace :=
  if b = 0x2D then some .minus else NumberPlace.minus.next b

/-- The number that digits stand for. -/
def natOf (digits : Bytes) : Nat := digits.foldl (fun n b => 10 * n + (b.toNat - 0x30)) 0

/-- The whole number that is written with or without a minus. -/
def intOf : Bytes → Int
  | [] => 0
  | b :: rest => if b = 0x2D then -(natOf rest : Int) else natOf (b :: rest)

/-- Does the number fit `int64_t` or `uint64_t`. -/
def fits (i : Int) : Bool := -(2 ^ 63) ≤ i ∧ i < 2 ^ 64

/-- The token of a number that ends at a place. A number may end after a digit. -/
def numberToken (fl : FloatFormat F) (literal : Bytes) : NumberPlace → Option (Token F)
  | .zero | .digits =>
    if fits (intOf literal) then some (.int (intOf literal)) else (fl.read literal).map .float
  | .fraction | .power => (fl.read literal).map .float
  | _ => none

/-- What the lexer is in the middle of. -/
inductive Lex (F : Type)
  | ready
  -- `true`, `false` or `null`: the bytes still to come
  | word (rest : Bytes) (token : Token F)
  | number (place : NumberPlace) (literal : Bytes)
  | string (s : Bytes) (pending : List Utf8.Range)
  | escape (s : Bytes)
  -- `\uXXXX`: the digits still to come, the value of the others, and the high surrogate before it
  | hex (s : Bytes) (high : Option Nat) (left value : Nat)
  -- a high surrogate: `\u` has to come
  | low (s : Bytes) (high : Nat) (slash : Bool)
  -- after a NUL
  | stopped

/-- A byte between two tokens. -/
def lexReady (b : UInt8) : Option (Lex F × List (Token F)) :=
  match NumberPlace.first b with
  | some place => some (.number place [b], [])
  | none =>
    if b = 0x20 ∨ b = 0x09 ∨ b = 0x0A ∨ b = 0x0D then some (.ready, [])
    else if b = 0x7B then some (.ready, [.beginObject])
    else if b = 0x7D then some (.ready, [.endObject])
    else if b = 0x5B then some (.ready, [.beginArray])
    else if b = 0x5D then some (.ready, [.endArray])
    else if b = 0x3A then some (.ready, [.colon])
    else if b = 0x2C then some (.ready, [.comma])
    else if b = 0x22 then some (.string [] [], [])
    else if b = 0x74 then some (.word (ascii "rue") (.bool true), [])
    else if b = 0x66 then some (.word (ascii "alse") (.bool false), [])
    else if b = 0x6E then some (.word (ascii "ull") .null, [])
    else if b = 0x00 then some (.stopped, [])
    else none

/-- The value of a hexadecimal digit. -/
def hexValue (b : UInt8) : Option Nat :=
  if isDigit b then some (b.toNat - 0x30)
  else if 0x41 ≤ b ∧ b ≤ 0x46 then some (b.toNat - 0x37)
  else if 0x61 ≤ b ∧ b ≤ 0x66 then some (b.toNat - 0x57)
  else none

/-- The bytes of a character. -/
def encodeUtf8 (c : Nat) : Bytes :=
  if c < 0x80 then [UInt8.ofNat c]
  else if c < 0x800 then [UInt8.ofNat (0xC0 + c / 0x40), UInt8.ofNat (0x80 + c % 0x40)]
  else if c < 0x10000 then
    [UInt8.ofNat (0xE0 + c / 0x1000), UInt8.ofNat (0x80 + c / 0x40 % 0x40),
      UInt8.ofNat (0x80 + c % 0x40)]
  else
    [UInt8.ofNat (0xF0 + c / 0x40000), UInt8.ofNat (0x80 + c / 0x1000 % 0x40),
      UInt8.ofNat (0x80 + c / 0x40 % 0x40), UInt8.ofNat (0x80 + c % 0x40)]

/-- The string after the four digits of a `\u`. Surrogates come in pairs. -/
def unescape (s : Bytes) (high : Option Nat) (value : Nat) : Option (Lex F) :=
  match high with
  | some h =>
    if 0xDC00 ≤ value ∧ value ≤ 0xDFFF then
      some (.string (s ++ encodeUtf8 (0x10000 + (h - 0xD800) * 0x400 + (value - 0xDC00))) [])
    else none
  | none =>
    if 0xD800 ≤ value ∧ value ≤ 0xDBFF then some (.low s value false)
    else if 0xDC00 ≤ value ∧ value ≤ 0xDFFF then none
    else some (.string (s ++ encodeUtf8 value) [])

/-- The string after a backslash and a byte. -/
def lexEscape (s : Bytes) (b : UInt8) : Option (Lex F) :=
  if b = 0x22 ∨ b = 0x5C ∨ b = 0x2F then some (.string (s ++ [b]) [])
  else if b = 0x62 then some (.string (s ++ [0x08]) [])
  else if b = 0x66 then some (.string (s ++ [0x0C]) [])
  else if b = 0x6E then some (.string (s ++ [0x0A]) [])
  else if b = 0x72 then some (.string (s ++ [0x0D]) [])
  else if b = 0x74 then some (.string (s ++ [0x09]) [])
  else if b = 0x75 then some (.hex s none 4 0)
  else none

/-- The step of the lexer by one byte, and the tokens that end with it. -/
def lexStep (fl : FloatFormat F) : Lex F → UInt8 → Option (Lex F × List (Token F))
  | .ready, b => lexReady b
  | .word [] _, _ => none
  | .word (c :: rest) token, b =>
    if b ≠ c then none
    else if rest.isEmpty then some (.ready, [token])
    else some (.word rest token, [])
  | .number place literal, b =>
    match place.next b with
    | some place' => some (.number place' (literal ++ [b]), [])
    | none =>
      -- the byte is not the number's
      match numberToken fl literal place, lexReady b with
      | some token, some (lex, tokens) => some (lex, token :: tokens)
      | _, _ => none
  | .string s [], b =>
    if b = 0x22 then some (.ready, [.string s])
    else if b = 0x5C then some (.escape s, [])
    else if b < 0x20 then none
    else (Utf8.follow b).map fun pending => (.string (s ++ [b]) pending, [])
  | .string s pending, b =>
    (Utf8.step pending b).map fun pending' => (.string (s ++ [b]) pending', [])
  | .escape s, b => (lexEscape s b).map fun lex => (lex, [])
  | .hex s high left value, b =>
    match hexValue b with
    | none => none
    | some d =>
      if left ≤ 1 then (unescape s high (16 * value + d)).map fun lex => (lex, [])
      else some (.hex s high (left - 1) (16 * value + d), [])
  | .low s high false, b => if b = 0x5C then some (.low s high true, []) else none
  | .low s high true, b => if b = 0x75 then some (.hex s (some high) 4 0, []) else none
  | .stopped, _ => some (.stopped, [])

/-- The tokens at the end of the text. -/
def lexEnd (fl : FloatFormat F) : Lex F → Option (List (Token F))
  | .ready | .stopped => some []
  | .number place literal => (numberToken fl literal place).map fun token => [token]
  | _ => none

/-- The tokens of a text. -/
def lex (fl : FloatFormat F) : Lex F → Bytes → Option (List (Token F))
  | st, [] => lexEnd fl st
  | st, b :: rest =>
    match lexStep fl st b with
    | none => none
    | some (st', tokens) => (lex fl st' rest).map (tokens ++ ·)

/-! ### Decimal literals -/

/-- A decimal literal without its sign: its digits as one number, and the power of ten. -/
def decimalOf (literal : Bytes) : Nat × Int :=
  let body := if literal.head? = some 0x2D then literal.drop 1 else literal
  let whole := body.takeWhile isDigit
  let rest := body.drop whole.length
  let fraction := if rest.head? = some 0x2E then (rest.drop 1).takeWhile isDigit else []
  let power := (rest.dropWhile fun b => b = 0x2E || isDigit b).drop 1
  let exponent : Int :=
    if power.head? = some 0x2D then -(natOf (power.drop 1) : Int)
    else if power.head? = some 0x2B then natOf (power.drop 1)
    else natOf power
  (natOf (whole ++ fraction), exponent - fraction.length)

/-- Is the number too large for a `double`: it would be rounded to `2 ^ 1024`. -/
def overflows (digits : Nat) (power : Int) : Bool :=
  let bound : Nat := 2 ^ 1024 - 2 ^ 970
  let size : Int := (Nat.digits 10 digits).length + power
  -- far from the bound the powers of ten need not be computed
  if digits = 0 ∨ size < 300 then false
  else if size > 400 then true
  else if power < 0 then bound * 10 ^ power.natAbs ≤ digits
  else bound ≤ digits * 10 ^ power.natAbs

/-- Floating point numbers as the literals they are read from, for a program that looks at no
value of one. -/
def literalFormat : FloatFormat Bytes where
  read literal :=
    if overflows (decimalOf literal).1 (decimalOf literal).2 then none else some literal
  write literal := literal

/-! ### Parsing -/

/-- An array or an object that is still open. A `member` has its key, but not its value. -/
inductive Frame (F : Type)
  | array (items : List (Json F))
  | object (fields : List (Bytes × Json F))
  | member (fields : List (Bytes × Json F)) (key : Bytes)

/-- What the parser expects. -/
inductive Expect (F : Type)
  | value | valueOrEnd | keyOrEnd | key | colon | next
  | done (v : Json F)

/-- A value is complete. -/
def deliver (v : Json F) : List (Frame F) → Option (Expect F × List (Frame F))
  | [] => some (.done v, [])
  | .array items :: stack => some (.next, .array (items ++ [v]) :: stack)
  | .member fields key :: stack =>
    some (.next, .object (SortedMap.insertEntry key v fields) :: stack)
  | .object _ :: _ => none

/-- A token where a value is expected. -/
def parseValue (stack : List (Frame F)) : Token F → Option (Expect F × List (Frame F))
  | .beginObject => some (.keyOrEnd, .object [] :: stack)
  | .beginArray => some (.valueOrEnd, .array [] :: stack)
  | .null => deliver .null stack
  | .bool b => deliver (.bool b) stack
  | .int i => deliver (.int i) stack
  | .float x => deliver (.float x) stack
  | .string s => deliver (.string s) stack
  | .endObject | .endArray | .colon | .comma => none

/-- The step of the parser by one token. -/
def parseStep : Expect F → List (Frame F) → Token F → Option (Expect F × List (Frame F))
  | .value, stack, token => parseValue stack token
  | .valueOrEnd, .array items :: stack, .endArray => deliver (.array items) stack
  | .valueOrEnd, stack, token => parseValue stack token
  | .keyOrEnd, .object fields :: stack, .endObject => deliver (.object fields) stack
  | .keyOrEnd, .object fields :: stack, .string key
  | .key, .object fields :: stack, .string key => some (.colon, .member fields key :: stack)
  | .colon, stack, .colon => some (.value, stack)
  | .next, .array items :: stack, .comma => some (.value, .array items :: stack)
  | .next, .array items :: stack, .endArray => deliver (.array items) stack
  | .next, .object fields :: stack, .comma => some (.key, .object fields :: stack)
  | .next, .object fields :: stack, .endObject => deliver (.object fields) stack
  | _, _, _ => none

/-- The value of the tokens. -/
def parseTokens : Expect F → List (Frame F) → List (Token F) → Option (Json F)
  | .done v, _, [] => some v
  | _, _, [] => none
  | expect, stack, token :: tokens =>
    match parseStep expect stack token with
    | none => none
    | some (expect', stack') => parseTokens expect' stack' tokens

/-- A text without its byte order mark. -/
def withoutMark : Bytes → Bytes
  | 0xEF :: 0xBB :: 0xBF :: rest => rest
  | s => s

/-- `parse()` of a whole text. `none` is a value that is discarded. -/
def parse (fl : FloatFormat F) (s : Bytes) : Option (Json F) :=
  (lex fl .ready (withoutMark s)).bind (parseTokens .value [])

end Json

end Anolis.Lib
