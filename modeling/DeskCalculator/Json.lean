import DeskCalculator.Numeral.Basic

/-!
JSON documents and their indented text, which holds ASCII only.
-/

namespace DeskCalculator

inductive Json where
  | null
  | number (n : Int)
  | string (t : Text)
  | array (items : List Json)
  | object (members : List (Text × Json))

namespace Json

/-- A code unit of UTF-16 as an escape. -/
def unitEscape (n : Nat) : Text := Text.ofString "\\u" ++ Numeral.hexadecimal 4 n

/-- A code point above U+FFFF is escaped as its two surrogates. -/
def numberEscape (n : Nat) : Text :=
  if n < 0x10000 then unitEscape n
  else unitEscape (0xD800 + (n - 0x10000) / 0x400) ++ unitEscape (0xDC00 + (n - 0x10000) % 0x400)

def escaped (c : CodePoint) : Text :=
  if c = .scalar '"' then Text.ofString "\\\""
  else if c = .scalar '\\' then Text.ofString "\\\\"
  else if c = .scalar '\n' then Text.ofString "\\n"
  else if c = .scalar '\r' then Text.ofString "\\r"
  else if c = .scalar '\t' then Text.ofString "\\t"
  else if c = .scalar '\x08' then Text.ofString "\\b"
  else if c = .scalar '\x0c' then Text.ofString "\\f"
  else if 0x20 ≤ c.number ∧ c.number ≤ 0x7E then [c]
  else numberEscape c.number

def quoted (t : Text) : Text := .scalar '"' :: t.flatMap escaped ++ [.scalar '"']

/-- A line end and the indentation of `depth` levels, two spaces each. -/
def lineEnd (depth : Nat) : Text := .scalar '\n' :: List.replicate (2 * depth) (.scalar ' ')

mutual

/-- The text of a document that stands `depth` levels deep. An empty array or object takes no line
of its own. -/
def indentedAt (depth : Nat) : Json → Text
  | null => Text.ofString "null"
  | number n => Numeral.signedDecimal n
  | string t => quoted t
  | array [] => Text.ofString "[]"
  | array (item :: items) =>
    .scalar '[' :: lineEnd (depth + 1) ++ indentedAt (depth + 1) item
      ++ laterItems (depth + 1) items ++ lineEnd depth ++ [.scalar ']']
  | object [] => Text.ofString "\x7b\x7d"
  | object ((key, item) :: members) =>
    .scalar '\x7b' :: lineEnd (depth + 1) ++ quoted key ++ Text.ofString ": "
      ++ indentedAt (depth + 1) item
      ++ laterMembers (depth + 1) members ++ lineEnd depth ++ [.scalar '\x7d']

def laterItems (depth : Nat) : List Json → Text
  | [] => []
  | item :: items =>
    .scalar ',' :: lineEnd depth ++ indentedAt depth item ++ laterItems depth items

def laterMembers (depth : Nat) : List (Text × Json) → Text
  | [] => []
  | (key, item) :: members =>
    .scalar ',' :: lineEnd depth ++ quoted key ++ Text.ofString ": " ++ indentedAt depth item
      ++ laterMembers depth members

end

def indented (document : Json) : Text := indentedAt 0 document

end Json

end DeskCalculator
