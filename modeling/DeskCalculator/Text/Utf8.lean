import DeskCalculator.Text.Quoted

/-!
UTF-8 read strictly, and the two ways it can fail: bytes that no text is written as, and surrogates,
which no bytes stand for. Each failure names the positions it covers, counted from zero.
-/

namespace DeskCalculator.Utf8

inductive Malformation where
  | badStart
  | badContinuation
  | truncated
  deriving DecidableEq, Repr

/-- The bytes from `start` up to `stop` begin no code point; `lead` is the first of them. -/
structure DecodingFailure where
  malformation : Malformation
  lead : Nat
  start : Nat
  stop : Nat
  deriving DecidableEq, Repr

def Malformation.message : Malformation → Text
  | badStart => Text.ofString "invalid start byte"
  | badContinuation => Text.ofString "invalid continuation byte"
  | truncated => Text.ofString "unexpected end of data"

/-- One position, or the first and the last of several. -/
def positions (start stop : Nat) : Text :=
  if stop = start + 1 then Text.ofString " in position " ++ Numeral.decimal start
  else Text.ofString "s in position " ++ Numeral.decimal start ++ Text.ofString "-"
    ++ Numeral.decimal (stop - 1)

def DecodingFailure.message (failure : DecodingFailure) : Text :=
  Text.ofString "'utf-8' codec can't decode byte"
    ++ (if failure.stop = failure.start + 1 then
        Text.ofString " 0x" ++ Numeral.hexadecimal 2 failure.lead else [])
    ++ positions failure.start failure.stop ++ Text.ofString ": " ++ failure.malformation.message

/-- A code point begun at `start` that is owed `owed` more bytes, the next one between `low` and
`high`; `number` is what its bytes so far have given. -/
structure Begun where
  start : Nat
  lead : Nat
  owed : Nat
  low : Nat
  high : Nat
  number : Nat

/-- What a first byte begins. A second byte is restricted where a shorter form, a surrogate or a
number beyond U+10FFFF would follow. -/
def begin? (position lead : Nat) : Option Begun :=
  if lead < 0x80 then some ⟨position, lead, 0, 0x80, 0xBF, lead⟩
  else if lead < 0xC2 then none
  else if lead < 0xE0 then some ⟨position, lead, 1, 0x80, 0xBF, lead - 0xC0⟩
  else if lead < 0xF0 then
    some ⟨position, lead, 2, if lead = 0xE0 then 0xA0 else 0x80,
      if lead = 0xED then 0x9F else 0xBF, lead - 0xE0⟩
  else if lead < 0xF5 then
    some ⟨position, lead, 3, if lead = 0xF0 then 0x90 else 0x80,
      if lead = 0xF4 then 0x8F else 0xBF, lead - 0xF0⟩
  else none

/-- Reads `bytes`, the first of which stands at `position`, after what `begun` has of a code point;
`read` holds the code points before it, last first. -/
def decodeFrom (position : Nat) (begun : Option Begun) (read : Text) :
    List UInt8 → Except DecodingFailure Text
  | [] =>
    match begun with
    | none => .ok read.reverse
    | some b => .error ⟨.truncated, b.lead, b.start, position⟩
  | byte :: bytes =>
    match begun with
    | none =>
      match begin? position byte.toNat with
      | none => .error ⟨.badStart, byte.toNat, position, position + 1⟩
      | some b =>
        if b.owed = 0 then
          decodeFrom (position + 1) none (.scalar (Char.ofNat b.number) :: read) bytes
        else decodeFrom (position + 1) (some b) read bytes
    | some b =>
      if b.low ≤ byte.toNat ∧ byte.toNat ≤ b.high then
        let number := b.number * 0x40 + byte.toNat % 0x40
        if b.owed = 1 then
          decodeFrom (position + 1) none (.scalar (Char.ofNat number) :: read) bytes
        else
          decodeFrom (position + 1)
            (some { b with owed := b.owed - 1, low := 0x80, high := 0xBF, number }) read bytes
      else .error ⟨.badContinuation, b.lead, b.start, position⟩

def decode (bytes : List UInt8) : Except DecodingFailure Text := decodeFrom 0 none [] bytes

/-- How many bytes the code point of number `n` is written as. -/
def width (n : Nat) : Nat :=
  if n < 0x80 then 1 else if n < 0x800 then 2 else if n < 0x10000 then 3 else 4

/-- How many bytes a text is written as. -/
def size (t : Text) : Nat := t.foldl (fun bytes c => bytes + width c.number) 0

/-- The surrogates from `start` up to `stop` have no bytes; `point` is the first of them. -/
structure EncodingFailure where
  point : CodePoint
  start : Nat
  stop : Nat
  deriving DecidableEq, Repr

/-- The first run of surrogates in a text, if it holds any. -/
def encodingFailure? (t : Text) : Option EncodingFailure :=
  let start := (t.takeWhile (!·.isSurrogate)).length
  let rest := t.drop start
  rest.head?.map fun point => ⟨point, start, start + (rest.takeWhile CodePoint.isSurrogate).length⟩

def EncodingFailure.message (failure : EncodingFailure) : Text :=
  Text.ofString "'utf-8' codec can't encode character"
    ++ (if failure.stop = failure.start + 1 then
        Text.ofString " '" ++ Text.numberEscape failure.point.number ++ Text.ofString "'" else [])
    ++ positions failure.start failure.stop ++ Text.ofString ": surrogates not allowed"

/-- A text in which every surrogate is replaced by an escape of its number. -/
def escapeSurrogates (t : Text) : Text :=
  t.flatMap fun c => if c.isSurrogate then Text.numberEscape c.number else [c]

end DeskCalculator.Utf8
