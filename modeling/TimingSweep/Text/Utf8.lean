/-!
# Octets and text

Text is sent as UTF-8. `decode` reads any octets: each longest beginning of a character that does
not go on as one is replaced by U+FFFD. `decode?` refuses octets that are no text, and `encode`
writes text.

* `decode?_eq_some`: what is accepted is written back unchanged.
-/

namespace TimingSweep.Utf8

/-- What stands for octets that are no text. -/
def replacement : Char := '\ufffd'

/-- A character of which the first octets have been read: the bits so far, how many octets are
missing, and between which bounds the next must lie. -/
structure Unfinished where
  bits : Nat
  missing : Nat
  low : Nat
  high : Nat

/-- What a first octet begins: a whole character, or one with more octets. The bounds of the second
octet exclude overlong forms, surrogates and numbers beyond U+10FFFF. -/
def first (octet : UInt8) : Char ⊕ Unfinished :=
  let n := octet.toNat
  if n < 0x80 then .inl (Char.ofNat n)
  else if n < 0xC2 then .inl replacement
  else if n < 0xE0 then .inr ⟨n % 0x20, 1, 0x80, 0xBF⟩
  else if n < 0xF0 then
    .inr ⟨n % 0x10, 2, if n = 0xE0 then 0xA0 else 0x80, if n = 0xED then 0x9F else 0xBF⟩
  else if n < 0xF5 then
    .inr ⟨n % 0x08, 3, if n = 0xF0 then 0x90 else 0x80, if n = 0xF4 then 0x8F else 0xBF⟩
  else .inl replacement

/-- Reads octets after the beginning of a character, if there is one. -/
def decodeFrom : Option Unfinished → List UInt8 → List Char
  | none, [] => []
  | some _, [] => [replacement]
  | none, octet :: rest =>
    match first octet with
    | .inl c => c :: decodeFrom none rest
    | .inr begun => decodeFrom (some begun) rest
  | some begun, octet :: rest =>
    let n := octet.toNat
    if begun.low ≤ n && n ≤ begun.high then
      let bits := begun.bits * 0x40 + n % 0x40
      if begun.missing = 1 then Char.ofNat bits :: decodeFrom none rest
      else decodeFrom (some ⟨bits, begun.missing - 1, 0x80, 0xBF⟩) rest
    else
      match first octet with
      | .inl c => replacement :: c :: decodeFrom none rest
      | .inr again => replacement :: decodeFrom (some again) rest

def decode (octets : List UInt8) : List Char := decodeFrom none octets

def encode (text : List Char) : List UInt8 := text.flatMap String.utf8EncodeChar

/-- The text of octets that are UTF-8: those that decoding and encoding give back. -/
def decode? (octets : List UInt8) : Option (List Char) :=
  if encode (decode octets) = octets then some (decode octets) else none

theorem decode?_eq_some {octets : List UInt8} {text : List Char} (h : decode? octets = some text) :
    encode text = octets := by
  unfold decode? at h
  split at h <;> simp_all

end TimingSweep.Utf8
