import TimingSweep.Json.Value
import TimingSweep.Proofs.Scanning

/-!
# Scanning strings

Every character of a string is written as itself, with a letter or with its number, and is scanned
as its own octets in each case.

* `scans_escape`, `scans_content`: the escapes of a string give back its octets;
* `scans_text`, `scans_name`: a quoted string is scanned as a value or as the name of a member.
-/

namespace TimingSweep.Json

/-- An octet that stands for itself within a string. -/
def IsPlain (octet : UInt8) : Prop :=
  let c := Char.ofNat octet.toNat
  c ≠ '"' ∧ c ≠ '\\' ∧ ' ' ≤ c

theorem feed_plain {σ : Type} (k : Consumer σ) (state : σ) (enclosures : List Enclosure)
    (asName : Bool) {octets : List UInt8} (plain : ∀ octet ∈ octets, IsPlain octet)
    (content : List UInt8) :
    k.feed (state, ⟨enclosures, .text asName .none content⟩) octets =
      .ok (state, ⟨enclosures, .text asName .none (octets.reverse ++ content)⟩) := by
  induction octets generalizing content with
  | nil => rfl
  | cons octet rest ih =>
    rw [List.forall_mem_cons] at plain
    obtain ⟨⟨quote, backslash, visible⟩, plain⟩ := plain
    have advances : ∀ strict,
        Scanner.advance strict ⟨enclosures, .text asName .none content⟩ octet =
          .ok (none, ⟨enclosures, .text asName .none (octet :: content)⟩) := by
      intro strict
      simp [Scanner.advance, Scanner.spell, quote, backslash, Char.not_lt.mpr visible]
    have step : k.step (state, ⟨enclosures, .text asName .none content⟩) octet =
        .ok (state, ⟨enclosures, .text asName .none (octet :: content)⟩) := by
      simp only [Consumer.step, Scanner.settle, advances, Consumer.take]
      rfl
    show k.step _ octet >>= (fun later => k.feed later rest) = _
    rw [step]
    show k.feed _ rest = _
    rw [ih plain, List.reverse_cons, List.append_assoc]
    rfl

theorem isPlain_of_ascii {c : Char} (ascii : c.toNat < 0x80) (quote : c ≠ '"')
    (backslash : c ≠ '\\') (visible : ' ' ≤ c) : IsPlain (UInt8.ofNat c.toNat) := by
  unfold IsPlain
  rw [char_of_octet ascii]
  exact ⟨quote, backslash, visible⟩

theorem isPlain_of_foreign {octet : UInt8} (foreign : 0x80 ≤ octet.toNat) : IsPlain octet := by
  have byte := octet.toNat_lt
  have value : (Char.ofNat octet.toNat).toNat = octet.toNat := by
    rw [Char.ofNat, dif_pos (Or.inl (by omega))]
    rfl
  have other : ∀ c : Char, c.toNat < 0x80 → Char.ofNat octet.toNat ≠ c := by
    rintro c ascii rfl
    omega
  refine ⟨other '"' (by decide), other '\\' (by decide), ?_⟩
  show ' '.toNat ≤ (Char.ofNat octet.toNat).toNat
  rw [value]
  exact Nat.le_trans (by decide) foreign

section Strings

variable {enclosures : List Enclosure} {asName : Bool} {content : List UInt8}

/-- A character that stands for itself within a string. -/
theorem scans_plain {c : Char} (quote : c ≠ '"') (backslash : c ≠ '\\') (visible : ' ' ≤ c) :
    Scans ⟨enclosures, .text asName .none content⟩ [c] []
      ⟨enclosures, .text asName .none ((String.utf8EncodeChar c).reverse ++ content)⟩ := by
  have plain : ∀ octet ∈ String.utf8EncodeChar c, IsPlain octet := by
    intro octet member
    by_cases ascii : c.toNat < 0x80
    · rw [Utf8.utf8EncodeChar_ascii ascii, List.mem_singleton] at member
      rw [member]
      exact isPlain_of_ascii ascii quote backslash visible
    · exact isPlain_of_foreign (Utf8.foreign_of_mem_utf8EncodeChar (Nat.le_of_not_lt ascii) member)
  intro σ k state
  rw [Utf8.encode, List.flatMap_singleton]
  exact feed_plain k state enclosures asName plain content

/-- One character of an escape. -/
theorem scans_spelled {octets : List UInt8} {escape later : Escape} {c : Char}
    (within : escape ≠ .none ∨ c ≠ '"') (ascii : c.toNat < 0x80)
    (spelled : ∀ strict octet, Scanner.spell strict c octet escape = .ok (later, octets)) :
    Scans ⟨enclosures, .text asName escape content⟩ [c] []
      ⟨enclosures, .text asName later (octets.reverse ++ content)⟩ := by
  refine Scans.silent ascii rfl fun strict => ?_
  have going : (escape = .none && c = '"') = false := by
    rcases within with started | other
    · simp [started]
    · simp [other]
  simp only [Scanner.advance, char_of_octet ascii, going, spelled]
  rfl

/-- A backslash begins an escape. -/
theorem scans_mark : Scans ⟨enclosures, .text asName .none content⟩ ['\\'] []
    ⟨enclosures, .text asName .started content⟩ := by
  have other : '\\' ≠ '"' := by decide
  have spelled : ∀ strict octet,
      Scanner.spell strict '\\' octet .none = .ok (.started, []) := fun _ _ => rfl
  exact scans_spelled (Or.inr other) (by decide) spelled

/-- A letter after a backslash. -/
theorem scans_named {letter meant : Char} (ascii : letter.toNat < 0x80)
    (named : named? letter = some meant) :
    Scans ⟨enclosures, .text asName .none content⟩ ['\\', letter] []
      ⟨enclosures, .text asName .none ((String.utf8EncodeChar meant).reverse ++ content)⟩ := by
  have other : letter ≠ 'u' := by
    rintro rfl
    cases named
  have spelled : ∀ strict octet, Scanner.spell strict letter octet .started =
      .ok (.none, String.utf8EncodeChar meant) := by
    intro strict octet
    simp only [Scanner.spell, other, if_false, named]
  have started : Escape.started ≠ .none := by decide
  exact scans_mark.append (scans_spelled (Or.inl started) ascii spelled)

/-- A hexadecimal digit that is not the last of its four. -/
theorem scans_digit {lead : Option Nat} {read : List Char} {c : Char} (ascii : c.toNat < 0x80)
    (more : read.length < 3) :
    Scans ⟨enclosures, .text asName (.digits lead read) content⟩ [c] []
      ⟨enclosures, .text asName (.digits lead (read ++ [c])) content⟩ := by
  have fewer : (read ++ [c]).length < 4 := by
    rw [List.length_append, List.length_singleton]
    omega
  have spelled : ∀ strict octet, Scanner.spell strict c octet (.digits lead read) =
      .ok (.digits lead (read ++ [c]), []) := by
    intro strict octet
    simp only [Scanner.spell, fewer, if_true]
  have started : Escape.digits lead read ≠ .none := by simp
  exact scans_spelled (Or.inl started) ascii spelled

/-- The last digit of a character below the surrogates. -/
theorem scans_last_digit {read : List Char} {values : List Nat} {c meant : Char}
    (ascii : c.toNat < 0x80) (last : read.length = 3)
    (digits : (read ++ [c]).mapM hexDigit? = some values)
    (value : values.foldl (fun n d => 16 * n + d) 0 = meant.toNat) (low : meant.toNat < 0xD800) :
    Scans ⟨enclosures, .text asName (.digits none read) content⟩ [c] []
      ⟨enclosures, .text asName .none ((String.utf8EncodeChar meant).reverse ++ content)⟩ := by
  have all : ¬ (read ++ [c]).length < 4 := by
    rw [List.length_append, List.length_singleton]
    omega
  have spelled : ∀ strict octet, Scanner.spell strict c octet (.digits none read) =
      .ok (.none, String.utf8EncodeChar meant) := by
    intro strict octet
    simp only [Scanner.spell, all, if_false, digits, value, Scanner.unit, low, decide_true,
      Bool.or_true, Bool.true_or, if_true, Char.ofNat_toNat]
  have started : Escape.digits none read ≠ .none := by simp
  exact scans_spelled (Or.inl started) ascii spelled

/-- The number of a character below the space, in hexadecimal digits. -/
theorem scans_numbered {c : Char} (low : c.toNat < 32) :
    Scans ⟨enclosures, .text asName .none content⟩
      ['\\', 'u', '0', '0', Nat.digitChar (c.toNat / 16), Nat.digitChar (c.toNat % 16)] []
      ⟨enclosures, .text asName .none ((String.utf8EncodeChar c).reverse ++ content)⟩ := by
  have ascii : ∀ d < 16, (Nat.digitChar d).toNat < 0x80 := by decide
  have digits : ∀ n < 32,
      ['0', '0', Nat.digitChar (n / 16), Nat.digitChar (n % 16)].mapM hexDigit? =
        some [0, 0, n / 16, n % 16] := by decide
  have spelled : ∀ strict octet,
      Scanner.spell strict 'u' octet .started = .ok (.digits none [], []) := fun _ _ => rfl
  have started : Escape.started ≠ .none := by decide
  have value : [0, 0, c.toNat / 16, c.toNat % 16].foldl (fun n d => 16 * n + d) 0 = c.toNat := by
    simp only [List.foldl_cons, List.foldl_nil]
    omega
  apply scans_mark.append
  apply (scans_spelled (Or.inl started) (by decide) spelled).append
  apply (scans_digit (by decide) (by decide)).append
  apply (scans_digit (by decide) (by decide)).append
  apply (scans_digit (ascii _ (by omega)) (by decide)).append
  exact scans_last_digit (ascii _ (by omega)) rfl (digits _ low) value (by omega)

/-- Of the characters below the space some have a letter, and all others are given by number. -/
theorem escape_of_low {c : Char} (low : c.toNat < 32) :
    (∃ letter ∈ ['b', 't', 'n', 'f', 'r'], named? letter = some c ∧ escape c = ['\\', letter]) ∨
      escape c = ['\\', 'u', '0', '0', Nat.digitChar (c.toNat / 16),
        Nat.digitChar (c.toNat % 16)] := by
  have all : ∀ n < 32,
      (['b', 't', 'n', 'f', 'r'].any fun letter =>
        named? letter = some (Char.ofNat n) ∧ escape (Char.ofNat n) = ['\\', letter]) ∨
      escape (Char.ofNat n) =
        ['\\', 'u', '0', '0', Nat.digitChar (n / 16), Nat.digitChar (n % 16)] := by decide
  have spelled := all c.toNat low
  simpa only [Char.ofNat_toNat, List.any_eq_true, decide_eq_true_eq] using spelled

/-- A character of a string gives its octets, however it is escaped. -/
theorem scans_escape (c : Char) : Scans ⟨enclosures, .text asName .none content⟩ (escape c) []
    ⟨enclosures, .text asName .none ((String.utf8EncodeChar c).reverse ++ content)⟩ := by
  by_cases quote : c = '"'
  · subst quote
    exact scans_named (by decide) rfl
  by_cases backslash : c = '\\'
  · subst backslash
    exact scans_named (by decide) rfl
  by_cases visible : ' ' ≤ c
  · rw [escape_of_plain quote backslash visible]
    exact scans_plain quote backslash visible
  have low : c.toNat < 32 := Nat.lt_of_not_le visible
  rcases escape_of_low low with ⟨letter, known, named, escaped⟩ | escaped
  · have ascii : ∀ letter ∈ ['b', 't', 'n', 'f', 'r'], letter.toNat < 0x80 := by simp
    rw [escaped]
    exact scans_named (ascii letter known) named
  · rw [escaped]
    exact scans_numbered low

/-- The escapes of a text give back its octets. -/
theorem scans_content (text : List Char) :
    Scans ⟨enclosures, .text asName .none content⟩ (text.flatMap escape) []
      ⟨enclosures, .text asName .none ((Utf8.encode text).reverse ++ content)⟩ := by
  induction text generalizing content with
  | nil => exact Scans.nil _
  | cons c rest ih =>
    have octets : Utf8.encode (c :: rest) = String.utf8EncodeChar c ++ Utf8.encode rest := rfl
    rw [List.flatMap_cons, octets, List.reverse_append, List.append_assoc]
    exact (scans_escape c).append ih

end Strings

variable {enclosures : List Enclosure}

/-- A string as a value. -/
theorem scans_text (s : String) (mayClose : Bool) :
    Scans ⟨enclosures, .value mayClose⟩ (quote s) [.text (Utf8.encode s.toList)]
      (Scanner.after enclosures) := by
  have opens : Scans ⟨enclosures, .value mayClose⟩ ['"'] [] ⟨enclosures, .text false .none []⟩ :=
    Scans.silent (by decide) rfl fun _ => by cases mayClose <;> rfl
  have closes : Scans ⟨enclosures, .text false .none ((Utf8.encode s.toList).reverse ++ [])⟩ ['"']
      [.text (Utf8.encode s.toList)] (Scanner.after enclosures) := by
    refine Scans.telling (by decide) rfl fun _ => ?_
    rw [List.append_nil]
    show Except.ok (some (Event.text (Utf8.encode s.toList).reverse.reverse), _) = _
    rw [List.reverse_reverse]
  exact opens.append ((scans_content s.toList).append closes)

/-- A string as the name of a member. -/
theorem scans_name (s : String) (mayClose : Bool) :
    Scans ⟨enclosures, .member mayClose⟩ (quote s) [.name (Utf8.encode s.toList)]
      ⟨enclosures, .colon⟩ := by
  have opens : Scans ⟨enclosures, .member mayClose⟩ ['"'] [] ⟨enclosures, .text true .none []⟩ :=
    Scans.silent (by decide) rfl fun _ => rfl
  have closes : Scans ⟨enclosures, .text true .none ((Utf8.encode s.toList).reverse ++ [])⟩ ['"']
      [.name (Utf8.encode s.toList)] ⟨enclosures, .colon⟩ := by
    refine Scans.telling (by decide) rfl fun _ => ?_
    rw [List.append_nil]
    show Except.ok (some (Event.name (Utf8.encode s.toList).reverse.reverse), _) = _
    rw [List.reverse_reverse]
  exact opens.append ((scans_content s.toList).append closes)

end TimingSweep.Json
