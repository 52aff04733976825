import TimingSweep.Number.Power
import TimingSweep.Text.Utf8

/-!
# Decoding and encoding

An octet below 128 is a character wherever it stands, even where it breaks off another character,
and no other octets are read as that character. So a text can be cut at such octets before it is
decoded.

* `decode_append_ascii`: what is before the octet and what is behind it are read on their own;
* `octet_mem_of_mem_decodeFrom`, `decode_eq_append_iff`: characters below 128 come from their
  octets;
* `decode_encode`: what has been written is read as it was.
-/

namespace TimingSweep.Utf8

namespace Unfinished

/-- The least number that the character can have, and the first that it cannot. -/
def least (u : Unfinished) : Nat := (u.bits * 0x40 + (u.low - 0x80)) * 0x40 ^ (u.missing - 1)

def bound (u : Unfinished) : Nat := (u.bits * 0x40 + (u.high - 0x80) + 1) * 0x40 ^ (u.missing - 1)

/-- What is still missing are octets from 128 on, and whatever they are, the character is none of
ASCII. -/
structure Sound (u : Unfinished) : Prop where
  missing_pos : 1 ≤ u.missing
  low_ge : 0x80 ≤ u.low
  high_le : u.high ≤ 0xBF
  foreign : 0x80 ≤ u.least
  scalar : u.bound ≤ 0xD800 ∨ 0xE000 ≤ u.least ∧ u.bound ≤ 0x110000

/-- One more octet of a character. -/
def next (u : Unfinished) (n : Nat) : Unfinished :=
  ⟨u.bits * 0x40 + n % 0x40, u.missing - 1, 0x80, 0xBF⟩

theorem Sound.next {u : Unfinished} (sound : u.Sound) {n : Nat} (low : u.low ≤ n)
    (high : n ≤ u.high) (more : u.missing ≠ 1) : (u.next n).Sound := by
  obtain ⟨missing_pos, low_ge, high_le, foreign, scalar⟩ := sound
  obtain ⟨k, missing⟩ : ∃ k, u.missing = k + 2 := ⟨u.missing - 2, by omega⟩
  have octet : n % 0x40 = n - 0x80 := by omega
  have power : 0x40 ^ (k + 1) = 0x40 * 0x40 ^ k := Nat.pow_succ'
  have least : u.least ≤ (u.next n).least := by
    have grown : u.bits * 0x40 + (u.low - 0x80) ≤ u.bits * 0x40 + (n - 0x80) := by omega
    have scaled := Nat.mul_le_mul_right (0x40 ^ (k + 1)) grown
    simp only [Unfinished.least, Unfinished.next, missing, octet, Nat.sub_self, Nat.add_zero,
      Nat.add_one_sub_one, Nat.mul_assoc, ← power]
    exact scaled
  have bound : (u.next n).bound ≤ u.bound := by
    have shrunk : u.bits * 0x40 + (n - 0x80) + 1 ≤ u.bits * 0x40 + (u.high - 0x80) + 1 := by omega
    have scaled := Nat.mul_le_mul_right (0x40 ^ (k + 1)) shrunk
    have last : (u.bits * 0x40 + (n - 0x80)) * 0x40 + (0xBF - 0x80) + 1 =
        (u.bits * 0x40 + (n - 0x80) + 1) * 0x40 := by omega
    simp only [Unfinished.bound, Unfinished.next, missing, octet, last, Nat.add_one_sub_one,
      Nat.mul_assoc, ← power]
    exact scaled
  refine ⟨?_, Nat.le_refl _, Nat.le_refl _, by omega, by omega⟩
  simp only [Unfinished.next]
  omega

theorem Sound.last {u : Unfinished} (sound : u.Sound) {n : Nat} (low : u.low ≤ n)
    (high : n ≤ u.high) (last : u.missing = 1) :
    (Char.ofNat (u.bits * 0x40 + n % 0x40)).toNat = u.bits * 0x40 + n % 0x40 ∧
      0x80 ≤ u.bits * 0x40 + n % 0x40 := by
  obtain ⟨-, low_ge, high_le, foreign, scalar⟩ := sound
  simp only [least, bound, last, Nat.sub_self, Nat.pow_zero, Nat.mul_one] at foreign scalar
  have octet : n % 0x40 = n - 0x80 := by omega
  have valid : (u.bits * 0x40 + n % 0x40).isValidChar := by
    simp only [Nat.isValidChar]
    omega
  refine ⟨?_, by omega⟩
  rw [Char.ofNat, dif_pos valid]
  rfl

end Unfinished

theorem sound_of_first {octet : UInt8} {u : Unfinished} (h : first octet = .inr u) : u.Sound := by
  revert h
  have byte := octet.toNat_lt
  simp only [first]
  repeat' split
  all_goals
    intro h
    cases h
  all_goals
    refine ⟨?_, ?_, ?_, ?_, ?_⟩ <;> simp only [Unfinished.least, Unfinished.bound] <;> omega

/-- Nothing is under way, or the sound beginning of a character. -/
def Ready (state : Option Unfinished) : Prop := ∀ u ∈ state, u.Sound

/-- What stands for a character that breaks off. -/
def broken : Option Unfinished → List Char
  | none => []
  | some _ => [replacement]

theorem first_ascii {octet : UInt8} (ascii : octet.toNat < 0x80) :
    first octet = .inl (Char.ofNat octet.toNat) := by
  simp [first, ascii]

/-- An octet below 128 ends what is under way and stands for itself. -/
theorem decodeFrom_ascii {state : Option Unfinished} (ready : Ready state) {octet : UInt8}
    (ascii : octet.toNat < 0x80) (rest : List UInt8) :
    decodeFrom state (octet :: rest) =
      broken state ++ Char.ofNat octet.toNat :: decodeFrom none rest := by
  cases state with
  | none => simp only [decodeFrom, first_ascii ascii, broken, List.nil_append]
  | some u =>
    have outside : ¬ u.low ≤ octet.toNat := by
      have := (ready u rfl).low_ge
      omega
    simp only [decodeFrom, first_ascii ascii, broken, outside, decide_false, Bool.false_and]
    rfl

theorem first_foreign {octet : UInt8} (foreign : 0x80 ≤ octet.toNat) :
    first octet = .inl replacement ∨ ∃ u, first octet = .inr u ∧ u.Sound := by
  cases begun : first octet with
  | inl c =>
    left
    revert begun
    simp only [first, Nat.not_lt.mpr foreign, if_false]
    repeat' split
    all_goals
      intro same
      cases same
    all_goals rfl
  | inr u => exact Or.inr ⟨u, rfl, sound_of_first begun⟩

theorem ready_none : Ready none := fun _ h => nomatch h

theorem ready_some {u : Unfinished} (sound : u.Sound) : Ready (some u) := by
  rintro _ ⟨⟩
  exact sound

/-- What an octet from 128 on adds to the text, and what is under way behind it. -/
structure Foreign (state : Option Unfinished) (octet : UInt8) (chars : List Char)
    (later : Option Unfinished) : Prop where
  ready : Ready later
  foreign : ∀ c ∈ chars, 0x80 ≤ c.toNat
  busy : chars = [] → later ≠ none
  read : ∀ rest, decodeFrom state (octet :: rest) = chars ++ decodeFrom later rest

/-- An octet from 128 on gives characters beyond ASCII, if it gives any. -/
theorem exists_foreign {state : Option Unfinished} (ready : Ready state) {octet : UInt8}
    (foreign : 0x80 ≤ octet.toNat) : ∃ chars later, Foreign state octet chars later := by
  have high : ∀ c ∈ [replacement, replacement], 0x80 ≤ c.toNat := by simp [replacement]
  cases state with
  | none =>
    rcases first_foreign foreign with stray | ⟨u, begun, sound⟩
    · refine ⟨[replacement], none, ready_none, by simpa using high, by simp, fun rest => ?_⟩
      simp [decodeFrom, stray]
    · refine ⟨[], some u, ready_some sound, by simp, by simp, fun rest => ?_⟩
      simp [decodeFrom, begun]
  | some u =>
    have sound := ready u rfl
    by_cases goes_on : u.low ≤ octet.toNat ∧ octet.toNat ≤ u.high
    · by_cases last : u.missing = 1
      · obtain ⟨value, large⟩ := sound.last goes_on.1 goes_on.2 last
        refine ⟨[Char.ofNat (u.bits * 0x40 + octet.toNat % 0x40)], none, ready_none, ?_, by simp,
          fun rest => ?_⟩
        · rintro c (_ | ⟨_, ⟨⟩⟩)
          omega
        · simp [decodeFrom, goes_on, last]
      · refine ⟨[], some (u.next octet.toNat), ?_, by simp, by simp, fun rest => ?_⟩
        · exact ready_some (sound.next goes_on.1 goes_on.2 last)
        · simp [decodeFrom, goes_on, last, Unfinished.next]
    · rcases first_foreign foreign with again | ⟨v, again, begun⟩
      · refine ⟨[replacement, replacement], none, ready_none, high, by simp, fun rest => ?_⟩
        simp [decodeFrom, goes_on, again]
      · refine ⟨[replacement], some v, ready_some begun, by simpa using high, by simp,
          fun rest => ?_⟩
        simp [decodeFrom, goes_on, again]

theorem decodeFrom_nil (state : Option Unfinished) : decodeFrom state [] = broken state := by
  cases state <;> rfl

theorem decodeFrom_append_ascii {state : Option Unfinished} (ready : Ready state)
    (before : List UInt8) {octet : UInt8} (ascii : octet.toNat < 0x80) (after : List UInt8) :
    decodeFrom state (before ++ octet :: after) =
      decodeFrom state before ++ Char.ofNat octet.toNat :: decode after := by
  induction before generalizing state with
  | nil => rw [List.nil_append, decodeFrom_ascii ready ascii, decodeFrom_nil, decode]
  | cons x before ih =>
    rw [List.cons_append]
    by_cases plain : x.toNat < 0x80
    · rw [decodeFrom_ascii ready plain, decodeFrom_ascii ready plain, ih ready_none,
        List.append_assoc, List.cons_append]
    · obtain ⟨chars, later, x⟩ := exists_foreign ready (Nat.le_of_not_lt plain)
      rw [x.read, x.read, ih x.ready, List.append_assoc]

/-- An octet below 128 stands for itself, and what is before it and behind it is read on its own. -/
theorem decode_append_ascii (before : List UInt8) {octet : UInt8} (ascii : octet.toNat < 0x80)
    (after : List UInt8) : decode (before ++ octet :: after) =
      decode before ++ Char.ofNat octet.toNat :: decode after :=
  decodeFrom_append_ascii ready_none before ascii after

theorem toNat_ofNat_octet {octet : UInt8} (small : octet.toNat < 0x80) :
    (Char.ofNat octet.toNat).toNat = octet.toNat := by
  rw [Char.ofNat, dif_pos (Or.inl (Nat.lt_trans small (by decide)))]
  rfl

theorem not_mem_broken {state : Option Unfinished} {c : Char} (ascii : c.toNat < 0x80) :
    c ∉ broken state := by
  intro member
  cases state with
  | none => cases member
  | some u =>
    rw [List.mem_singleton.mp member] at ascii
    exact absurd ascii (by decide)

/-- A character below 128 is read from no other octet than its own. -/
theorem octet_mem_of_mem_decodeFrom {state : Option Unfinished} (ready : Ready state)
    {octets : List UInt8} {c : Char} (read : c ∈ decodeFrom state octets) (ascii : c.toNat < 0x80) :
    UInt8.ofNat c.toNat ∈ octets := by
  induction octets generalizing state with
  | nil =>
    rw [decodeFrom_nil] at read
    exact absurd read (not_mem_broken ascii)
  | cons x rest ih =>
    by_cases plain : x.toNat < 0x80
    · rw [decodeFrom_ascii ready plain, List.mem_append, List.mem_cons] at read
      rcases read with stray | same | later
      · exact absurd stray (not_mem_broken ascii)
      · rw [same, toNat_ofNat_octet plain, UInt8.ofNat_toNat]
        exact List.mem_cons_self
      · exact List.mem_cons_of_mem x (ih ready_none later)
    · obtain ⟨chars, later, step⟩ := exists_foreign ready (Nat.le_of_not_lt plain)
      rw [step.read, List.mem_append] at read
      rcases read with stray | read
      · have := step.foreign c stray
        omega
      · exact List.mem_cons_of_mem x (ih step.ready read)

theorem broken_append_eq_cons {state : Option Unfinished} {text tail : List Char} {c : Char}
    (ascii : c.toNat < 0x80) (same : broken state ++ tail = c :: text) :
    state = none ∧ tail = c :: text := by
  cases state with
  | none => exact ⟨rfl, same⟩
  | some u =>
    have member : c ∈ broken (some u) := by
      rw [← (List.cons.inj same).1]
      exact List.mem_singleton.mpr rfl
    exact absurd member (not_mem_broken ascii)

/-- A text that begins with a character below 128 is read from octets that begin with it. -/
theorem decodeFrom_eq_cons {state : Option Unfinished} (ready : Ready state) {octets : List UInt8}
    {c : Char} {text : List Char} (read : decodeFrom state octets = c :: text)
    (ascii : c.toNat < 0x80) : state = none ∧ ∃ octet rest,
      octets = octet :: rest ∧ octet.toNat < 0x80 ∧ Char.ofNat octet.toNat = c ∧
        decode rest = text := by
  induction octets generalizing state with
  | nil =>
    rw [decodeFrom_nil, ← List.append_nil (broken state)] at read
    cases (broken_append_eq_cons ascii read).2
  | cons x rest ih =>
    by_cases plain : x.toNat < 0x80
    · rw [decodeFrom_ascii ready plain] at read
      obtain ⟨idle, same⟩ := broken_append_eq_cons ascii read
      obtain ⟨same, tail⟩ := List.cons.inj same
      exact ⟨idle, x, rest, rfl, plain, same, tail⟩
    · obtain ⟨chars, later, step⟩ := exists_foreign ready (Nat.le_of_not_lt plain)
      rw [step.read] at read
      cases chars with
      | nil =>
        exact absurd (ih step.ready read).1 (step.busy rfl)
      | cons d chars =>
        have same : d = c := (List.cons.inj read).1
        have := step.foreign d List.mem_cons_self
        rw [same] at this
        omega

theorem utf8EncodeChar_ascii {c : Char} (ascii : c.toNat < 0x80) :
    String.utf8EncodeChar c = [UInt8.ofNat c.toNat] := by
  have small : c.val.toNat ≤ 127 := Nat.le_of_lt_succ ascii
  simp only [String.utf8EncodeChar, small, if_true]
  rfl

theorem encode_cons_ascii {c : Char} (ascii : c.toNat < 0x80) (text : List Char) :
    encode (c :: text) = UInt8.ofNat c.toNat :: encode text := by
  rw [encode, List.flatMap_cons, utf8EncodeChar_ascii ascii]
  rfl

theorem toNat_ofNat_ascii {c : Char} (ascii : c.toNat < 0x80) :
    (UInt8.ofNat c.toNat).toNat = c.toNat := by
  rw [UInt8.toNat_ofNat_of_lt' (Nat.lt_of_lt_of_le ascii (by decide))]

/-- Words of ASCII are the only octets that are read as they are written. -/
theorem decode_eq_append_iff {word : List Char} (ascii : ∀ c ∈ word, c.toNat < 0x80)
    {octets : List UInt8} {text : List Char} :
    decode octets = word ++ text ↔ ∃ rest, octets = encode word ++ rest ∧ decode rest = text := by
  induction word generalizing octets with
  | nil => simp [encode]
  | cons c word ih =>
    have plain := ascii c List.mem_cons_self
    have others : ∀ d ∈ word, d.toNat < 0x80 := fun d member =>
      ascii d (List.mem_cons_of_mem c member)
    rw [encode_cons_ascii plain]
    constructor
    · intro read
      obtain ⟨-, octet, rest, rfl, small, same, tail⟩ := decodeFrom_eq_cons ready_none read plain
      obtain ⟨rest, rfl, behind⟩ := (ih others).mp tail
      refine ⟨rest, ?_, behind⟩
      rw [← same, toNat_ofNat_octet small, UInt8.ofNat_toNat, List.cons_append]
    · rintro ⟨rest, rfl, tail⟩
      have small : (UInt8.ofNat c.toNat).toNat < 0x80 := by rwa [toNat_ofNat_ascii plain]
      rw [List.cons_append, ← List.nil_append (_ :: _), decode_append_ascii [] small,
        toNat_ofNat_ascii plain, Char.ofNat_toNat, (ih others).mpr ⟨rest, rfl, tail⟩]
      rfl

theorem first_two {octet : UInt8} (low : 0xC2 ≤ octet.toNat) (high : octet.toNat < 0xE0) :
    first octet = .inr ⟨octet.toNat % 0x20, 1, 0x80, 0xBF⟩ := by
  have plain : ¬ octet.toNat < 0x80 := by omega
  have stray : ¬ octet.toNat < 0xC2 := by omega
  simp only [first, plain, stray, high, if_true, if_false]

theorem first_three {octet : UInt8} (low : 0xE0 ≤ octet.toNat) (high : octet.toNat < 0xF0) :
    first octet = .inr ⟨octet.toNat % 0x10, 2, if octet.toNat = 0xE0 then 0xA0 else 0x80,
      if octet.toNat = 0xED then 0x9F else 0xBF⟩ := by
  have plain : ¬ octet.toNat < 0x80 := by omega
  have stray : ¬ octet.toNat < 0xC2 := by omega
  have two : ¬ octet.toNat < 0xE0 := by omega
  simp only [first, plain, stray, two, high, if_true, if_false]

theorem first_four {octet : UInt8} (low : 0xF0 ≤ octet.toNat) (high : octet.toNat < 0xF5) :
    first octet = .inr ⟨octet.toNat % 0x08, 3, if octet.toNat = 0xF0 then 0x90 else 0x80,
      if octet.toNat = 0xF4 then 0x8F else 0xBF⟩ := by
  have plain : ¬ octet.toNat < 0x80 := by omega
  have stray : ¬ octet.toNat < 0xC2 := by omega
  have two : ¬ octet.toNat < 0xE0 := by omega
  have three : ¬ octet.toNat < 0xF0 := by omega
  simp only [first, plain, stray, two, three, high, if_true, if_false]

theorem decodeFrom_next {u : Unfinished} {octet : UInt8} (low : u.low ≤ octet.toNat)
    (high : octet.toNat ≤ u.high) (more : u.missing ≠ 1) (rest : List UInt8) :
    decodeFrom (some u) (octet :: rest) =
      decodeFrom (some ⟨u.bits * 0x40 + octet.toNat % 0x40, u.missing - 1, 0x80, 0xBF⟩) rest := by
  simp [decodeFrom, low, high, more]

theorem decodeFrom_last {u : Unfinished} {octet : UInt8} (low : u.low ≤ octet.toNat)
    (high : octet.toNat ≤ u.high) (last : u.missing = 1) (rest : List UInt8) :
    decodeFrom (some u) (octet :: rest) =
      Char.ofNat (u.bits * 0x40 + octet.toNat % 0x40) :: decodeFrom none rest := by
  simp [decodeFrom, low, high, last]

theorem decodeFrom_begun {octet : UInt8} {u : Unfinished} (begun : first octet = .inr u)
    (rest : List UInt8) : decodeFrom none (octet :: rest) = decodeFrom (some u) rest := by
  simp [decodeFrom, begun]

theorem toNat_ofNat_small {n : Nat} (small : n < 256) : (UInt8.ofNat n).toNat = n :=
  UInt8.toNat_ofNat_of_lt' small

/-- An octet after the first keeps six bits. -/
theorem toNat_continuation (v : Nat) : (UInt8.ofNat (v % 64 + 128)).toNat = v % 64 + 128 :=
  toNat_ofNat_small (by omega)

theorem decode_utf8EncodeChar (c : Char) (rest : List UInt8) :
    decode (String.utf8EncodeChar c ++ rest) = c :: decode rest := by
  have value : Char.ofNat c.val.toNat = c := Char.ofNat_toNat c
  have valid : c.val.toNat < 0xD800 ∨ 0xDFFF < c.val.toNat ∧ c.val.toNat < 0x110000 := c.valid
  unfold String.utf8EncodeChar decode
  generalize c.val.toNat = v at *
  have last := toNat_continuation v
  have before := toNat_continuation (v / 64)
  have third := toNat_continuation (v / 4096)
  dsimp only
  split
  · rename_i one
    have octet : (UInt8.ofNat v).toNat = v := toNat_ofNat_small (by omega)
    simp [decodeFrom, first, octet, show v < 128 by omega, value]
  split
  · rename_i one two
    have begins : (UInt8.ofNat (v / 64 % 32 + 192)).toNat = v / 64 + 192 := by
      rw [toNat_ofNat_small (by omega)]
      omega
    rw [List.cons_append, decodeFrom_begun (first_two (by omega) (by omega)), List.cons_append,
      decodeFrom_last (by dsimp only; omega) (by dsimp only; omega) rfl, begins, last, ← value]
    congr 2
    dsimp only
    omega
  split
  · rename_i one two three
    have begins : (UInt8.ofNat (v / 4096 % 16 + 224)).toNat = v / 4096 + 224 := by
      rw [toNat_ofNat_small (by omega)]
      omega
    rw [List.cons_append, decodeFrom_begun (first_three (by omega) (by omega)), List.cons_append,
      decodeFrom_next (by dsimp only; split <;> omega) (by dsimp only; split <;> omega) (by simp),
      List.cons_append, decodeFrom_last (by dsimp only; omega) (by dsimp only; omega) rfl, begins,
      before, last, ← value]
    congr 2
    dsimp only
    omega
  · rename_i one two three
    have begins : (UInt8.ofNat (v / 262144 % 8 + 240)).toNat = v / 262144 + 240 := by
      rw [toNat_ofNat_small (by omega)]
      omega
    rw [List.cons_append, decodeFrom_begun (first_four (by omega) (by omega)), List.cons_append,
      decodeFrom_next (by dsimp only; split <;> omega) (by dsimp only; split <;> omega) (by simp),
      List.cons_append, decodeFrom_next (by dsimp only; omega) (by dsimp only; omega) (by simp),
      List.cons_append, decodeFrom_last (by dsimp only; omega) (by dsimp only; omega) rfl, begins,
      third, before, last, ← value]
    congr 2
    dsimp only
    omega

/-- A character beyond ASCII has no octet that would be read as another. -/
theorem foreign_of_mem_utf8EncodeChar {c : Char} (foreign : 0x80 ≤ c.toNat) {octet : UInt8}
    (member : octet ∈ String.utf8EncodeChar c) : 0x80 ≤ octet.toNat := by
  apply Nat.le_of_not_lt
  intro ascii
  obtain ⟨before, after, split⟩ := List.append_of_mem member
  have decoded := decode_utf8EncodeChar c []
  rw [List.append_nil, split, decode_append_ascii before ascii] at decoded
  have same : Char.ofNat octet.toNat ∈ c :: decode [] :=
    decoded ▸ List.mem_append_right _ List.mem_cons_self
  rw [show decode [] = [] from rfl, List.mem_singleton] at same
  have := toNat_ofNat_octet ascii
  rw [same] at this
  omega

/-- What has been written is read as it was. -/
theorem decode_encode (text : List Char) : decode (encode text) = text := by
  induction text with
  | nil => rfl
  | cons c rest ih =>
    rw [encode, List.flatMap_cons, decode_utf8EncodeChar, ← encode, ih]

theorem decode?_encode (text : List Char) : decode? (encode text) = some text := by
  rw [decode?, decode_encode, if_pos rfl]

end TimingSweep.Utf8
