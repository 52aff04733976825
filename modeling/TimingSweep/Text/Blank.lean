import TimingSweep.Text.CharacterSet

/-!
# Blanks

The white space of Unicode, and what is cut at it: `trim` drops blanks at both ends and `firstWord`
is the first run of other characters.
-/

namespace TimingSweep

/-- The characters with the Unicode property `White_Space`. -/
def blanks : CharacterSet :=
  ⟨[9, 14, 32, 33, 133, 134, 160, 161, 5760, 5761, 8192, 8203, 8232, 8234, 8239, 8240, 8287, 8288,
    12288, 12289]⟩

def isBlank (c : Char) : Bool := blanks.contains c

def trimStart (text : List Char) : List Char := text.dropWhile isBlank

def trimEnd (text : List Char) : List Char := (text.reverse.dropWhile isBlank).reverse

def trim (text : List Char) : List Char := trimEnd (trimStart text)

/-- The first longest run of characters that are not blank; empty if there is none. -/
def firstWord (text : List Char) : List Char := (trimStart text).takeWhile fun c => !isBlank c

end TimingSweep
