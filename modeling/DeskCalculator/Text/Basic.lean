/-!
Text as the calculator holds it: a list of code points. A surrogate may stand alone in it, which
no `String` can hold, so a character made from the code 55296 is as good as any other.
-/

namespace DeskCalculator

/-- A Unicode code point: a scalar value, or one of the 2048 surrogates. -/
inductive CodePoint where
  | scalar (c : Char)
  | surrogate (offset : Fin 0x800)
  deriving DecidableEq, Repr

namespace CodePoint

instance : Inhabited CodePoint := ⟨.scalar ' '⟩

instance : Coe Char CodePoint := ⟨.scalar⟩

/-- The surrogates begin at U+D800. -/
def number : CodePoint → Nat
  | scalar c => c.toNat
  | surrogate offset => 0xD800 + offset

/-- Every number up to 0x10FFFF is the number of a code point. -/
def ofNumber? (n : Nat) : Option CodePoint :=
  if h : n.isValidChar then some (.scalar (Char.ofNatAux n h))
  else if h : 0xD800 ≤ n ∧ n < 0xE000 then some (.surrogate ⟨n - 0xD800, by omega⟩)
  else none

theorem number_of_ofNumber? {n : Nat} {c : CodePoint} (h : ofNumber? n = some c) :
    c.number = n := by
  by_cases valid : n.isValidChar
  · rw [ofNumber?, dif_pos valid] at h
    obtain rfl := Option.some.inj h
    rfl
  · rw [ofNumber?, dif_neg valid] at h
    by_cases isSurrogate : 0xD800 ≤ n ∧ n < 0xE000
    · rw [dif_pos isSurrogate] at h
      obtain rfl := Option.some.inj h
      exact Nat.add_sub_cancel' isSurrogate.1
    · rw [dif_neg isSurrogate] at h
      contradiction

theorem ofNumber?_isSome_iff (n : Nat) : (ofNumber? n).isSome ↔ n ≤ 0x10FFFF := by
  by_cases valid : n.isValidChar
  · rw [ofNumber?, dif_pos valid]
    obtain h | h := valid <;> exact ⟨fun _ => by omega, fun _ => rfl⟩
  · rw [ofNumber?, dif_neg valid]
    have range : 0xD800 ≤ n ∧ (n ≤ 0xDFFF ∨ 0x110000 ≤ n) := by
      simp only [Nat.isValidChar, not_or, not_and, Nat.not_lt] at valid
      omega
    by_cases isSurrogate : 0xD800 ≤ n ∧ n < 0xE000
    · rw [dif_pos isSurrogate]
      exact ⟨fun _ => by omega, fun _ => rfl⟩
    · rw [dif_neg isSurrogate]
      exact ⟨fun h => by contradiction, fun _ => by omega⟩

def isSurrogate : CodePoint → Bool
  | scalar _ => false
  | surrogate _ => true

instance : Ord CodePoint := ⟨fun a b => compare a.number b.number⟩

end CodePoint

/-- A sequence of code points. Lengths, positions and columns count them. -/
abbrev Text := List CodePoint

namespace Text

def ofString (s : String) : Text := s.toList.map .scalar

/-- The text of one character. -/
instance : Coe Char Text := ⟨fun c => [.scalar c]⟩

/-- Joins `parts` with `separator` between each two. -/
def joined (separator : Text) (parts : List Text) : Text := separator.intercalate parts

/-- `t` with `fill` in front of it up to `width` code points. -/
def padded (width : Nat) (fill : CodePoint) (t : Text) : Text :=
  List.replicate (width - t.length) fill ++ t

end Text

end DeskCalculator
