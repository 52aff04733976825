import TimingSweep.Text.Graphic

/-!
# Quoted text

A text in double quotes, written so that it cannot break out of its line: quotes and backslashes
are escaped, and so is every character that is not graphic or that would combine with the one
before it.

* `escape_of_graphic`: a graphic character that needs no backslash stands for itself.
-/

namespace TimingSweep.Quoted

/-- A character by its number: a backslash, `u`, and the hexadecimal digits in braces. -/
def numbered (c : Char) : List Char := ['\\', 'u', '{'] ++ Nat.toDigits 16 c.toNat ++ ['}']

/-- Tab, line feed, carriage return and null have names; quote and backslash are marked with a
backslash; combining and non-graphic characters are given by number; all others are kept. -/
def escape (c : Char) : List Char :=
  if c = '\x00' then ['\\', '0']
  else if c = '\t' then ['\\', 't']
  else if c = '\n' then ['\\', 'n']
  else if c = '\r' then ['\\', 'r']
  else if c = '"' || c = '\\' then ['\\', c]
  else if extendsGrapheme c || !isGraphic c then numbered c
  else [c]

theorem escape_of_graphic {c : Char} (graphic : isGraphic c = true)
    (alone : extendsGrapheme c = false) (mark : c ≠ '"' ∧ c ≠ '\\') : escape c = [c] := by
  have named : c ≠ '\x00' ∧ c ≠ '\t' ∧ c ≠ '\n' ∧ c ≠ '\r' := by
    refine ⟨?_, ?_, ?_, ?_⟩ <;> rintro rfl <;> exact absurd graphic (by decide)
  simp [escape, named, mark, alone, graphic]

/-- The text between quotes, each character escaped. -/
def quote (text : List Char) : List Char := '"' :: (text.flatMap escape ++ ['"'])

end TimingSweep.Quoted
