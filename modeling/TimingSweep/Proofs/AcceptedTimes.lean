import TimingSweep.Proofs.Separators
import TimingSweep.Proofs.Spellings
import TimingSweep.Proofs.TimeLines

/-!
# Which times are accepted

A line that begins with the mark is accepted exactly if its first word spells a number, and the
double nearest to that number is finite and not below zero. Otherwise the line is reported without
its mark and without the blanks around the rest.

* `firstWord_eq_iff`, `trim_eq_iff`: the first word of a line, and the line without its blanks;
* `denotes_iff`: a word is read as the double nearest to the number that it spells;
* `read_lone_line`: what a time line is read as.
-/

namespace TimingSweep

/-! ## Words and blanks -/

/-- The first longest run of characters that are not blank. If there is none, all is blank. -/
def IsFirstWord (text word : List Char) : Prop :=
  ∃ before after, text = before ++ (word ++ after) ∧ (∀ c ∈ before, isBlank c = true) ∧
    (∀ c ∈ word, isBlank c = false) ∧ (∀ c ∈ after.head?, isBlank c = true) ∧
    (word = [] → after = [])

/-- The text without the blanks at both ends. -/
def IsTrimmed (text kept : List Char) : Prop :=
  ∃ before after, text = before ++ (kept ++ after) ∧ (∀ c ∈ before, isBlank c = true) ∧
    (∀ c ∈ after, isBlank c = true) ∧ (∀ c ∈ kept.head?, isBlank c = false) ∧
    ∀ c ∈ kept.getLast?, isBlank c = false

theorem firstWord_eq_iff {text word : List Char} :
    firstWord text = word ↔ IsFirstWord text word := by
  rw [firstWord, takeWhile_eq_iff]
  constructor
  · rintro ⟨after, start, solid, stops⟩
    obtain ⟨before, split, blank, leads⟩ := dropWhile_eq_iff.mp start
    refine ⟨before, after, split, blank, by simpa using solid, by simpa using stops, ?_⟩
    rintro rfl
    cases after with
    | nil => rfl
    | cons c rest =>
      have isBlank := stops c rfl
      have isSolid := leads c rfl
      simp [isSolid] at isBlank
  · rintro ⟨before, after, rfl, blank, solid, stops, alone⟩
    refine ⟨after, dropWhile_eq_iff.mpr ⟨before, rfl, blank, fun c head => ?_⟩,
      by simpa using solid, by simpa using stops⟩
    cases word with
    | nil =>
      rw [alone rfl] at head
      cases head
    | cons first rest =>
      obtain rfl : first = c := by simpa using head
      exact solid first List.mem_cons_self

theorem trimEnd_eq_iff {text kept : List Char} : trimEnd text = kept ↔
    ∃ after, text = kept ++ after ∧ (∀ c ∈ after, isBlank c = true) ∧
      ∀ c ∈ kept.getLast?, isBlank c = false := by
  rw [trimEnd, List.reverse_eq_iff, dropWhile_eq_iff, List.head?_reverse]
  constructor
  · rintro ⟨before, split, blank, ends⟩
    refine ⟨before.reverse, ?_, by simpa using blank, ends⟩
    rw [← List.reverse_reverse text, split, List.reverse_append, List.reverse_reverse]
  · rintro ⟨after, rfl, blank, ends⟩
    exact ⟨after.reverse, List.reverse_append, by simpa using blank, ends⟩

theorem trim_eq_iff {text kept : List Char} : trim text = kept ↔ IsTrimmed text kept := by
  rw [trim, trimEnd_eq_iff]
  constructor
  · rintro ⟨after, start, blank_after, ends⟩
    obtain ⟨before, split, blank_before, leads⟩ := dropWhile_eq_iff.mp start
    refine ⟨before, after, split, blank_before, blank_after, fun c head => ?_, ends⟩
    apply leads
    rw [List.head?_append, Option.mem_def.mp head]
    rfl
  · rintro ⟨before, after, rfl, blank_before, blank_after, leads, ends⟩
    cases kept with
    | nil =>
      have blank : ∀ c ∈ before ++ after, isBlank c = true := by
        simpa [or_imp, forall_and] using ⟨blank_before, blank_after⟩
      refine ⟨[], dropWhile_eq_iff.mpr ⟨before ++ after, by simp, blank, ?_⟩, by simp, ends⟩
      exact fun c head => nomatch head
    | cons first rest =>
      exact ⟨after, dropWhile_eq_iff.mpr ⟨before, rfl, blank_before, leads⟩, blank_after, ends⟩

/-! ## Times -/

namespace Decimal

/-- The word spells a number, and `x` is the double nearest to it, with the sign of the word. -/
def Spells (word : List Char) (x : Binary64) : Prop :=
  ∃ n : Spelling, n.text = word ∧ x.IsNearest n.value ∧ x.negative = n.negative

theorem denotes_iff {word : List Char} {x : Binary64} : Denotes word x ↔ Spells word x := by
  constructor
  · rintro ⟨negative, d, read, rounded⟩
    obtain ⟨n, text, rfl, rfl⟩ := read?_eq_some_iff.mp read
    obtain ⟨nearest, sign⟩ := isNearest_iff_toBinary64.mpr rounded
    exact ⟨n, text, n.value_decimal ▸ nearest, sign⟩
  · rintro ⟨n, text, nearest, sign⟩
    refine ⟨n.negative, n.decimal, read?_eq_some_iff.mpr ⟨n, text, rfl, rfl⟩, ?_⟩
    rw [← isNearest_iff_toBinary64, n.value_decimal]
    exact ⟨nearest, sign⟩

end Decimal

namespace TimeLine

/-- The word spells a time: the double nearest to its number is finite and not below zero. -/
def IsTime (word : List Char) (x : Binary64) : Prop :=
  Decimal.Spells word x ∧ x.isFinite = true ∧ 0 ≤ x.exact

theorem time_eq_ok_iff_isTime {rest : List Char} {x : Binary64} :
    time rest = .ok x ↔ IsTime (firstWord rest) x := by
  rw [time_eq_ok_iff, Decimal.denotes_iff, IsTime]
  constructor
  · rintro ⟨spells, finite, nonneg⟩
    exact ⟨spells, finite, (Binary64.le_zero_iff (Binary64.isNaN_of_isFinite finite)).mp nonneg⟩
  · rintro ⟨spells, finite, nonneg⟩
    exact ⟨spells, finite, (Binary64.le_zero_iff (Binary64.isNaN_of_isFinite finite)).mpr nonneg⟩

/-- What gives no time is reported without the blanks around it. -/
theorem time_eq_ok_or_malformed (rest : List Char) :
    (∃ x, time rest = .ok x) ∨ time rest = .error (.malformed (trim rest)) := by
  unfold time
  split
  · exact Or.inr rfl
  · dsimp only
    split
    · exact Or.inl ⟨_, rfl⟩
    · exact Or.inr rfl

theorem read_mark_line {rest : List Char} (line : '\n' ∉ rest) :
    read (mark ++ rest) = time rest := by
  have clean : '\n' ∉ mark ++ rest := by
    rw [List.mem_append, not_or]
    exact ⟨by decide, line⟩
  apply read_of_last
  rw [last?_eq_some_iff, IsLast, splitOn_of_not_mem clean]
  exact ⟨[], [], rfl, by simp⟩

/-- A time line is accepted exactly if its first word spells a time, and then it gives that time. -/
theorem read_lone_line {rest : List Char} (line : '\n' ∉ rest) :
    ∃ word kept, (∀ other, IsFirstWord rest other ↔ other = word) ∧
      (∀ other, IsTrimmed rest other ↔ other = kept) ∧
      (∀ x, read (mark ++ rest) = .ok x ↔ IsTime word x) ∧
      ((¬ ∃ x, IsTime word x) → read (mark ++ rest) = .error (.malformed kept)) := by
  have answer := read_mark_line line
  refine ⟨firstWord rest, trim rest, fun other => ?_, fun other => ?_, fun x => ?_,
    fun no_time => ?_⟩
  · rw [← firstWord_eq_iff, eq_comm]
  · rw [← trim_eq_iff, eq_comm]
  · rw [answer, time_eq_ok_iff_isTime]
  · rw [answer]
    apply (time_eq_ok_or_malformed rest).resolve_left
    rintro ⟨x, accepted⟩
    exact no_time ⟨x, time_eq_ok_iff_isTime.mp accepted⟩

/-- Blanks before the word, and a unit behind it. -/
theorem read_five : '\n' ∉ "\u00a0 .5E+1\tms".toList ∧
    read (mark ++ "\u00a0 .5E+1\tms".toList) = .ok ⟨false, 1025 * 2 ^ 52 + 2 ^ 50, by decide⟩ ∧
    IsTime ".5E+1".toList ⟨false, 1025 * 2 ^ 52 + 2 ^ 50, by decide⟩ := by
  have line : '\n' ∉ "\u00a0 .5E+1\tms".toList := by decide
  obtain ⟨word, -, words, -, accepts, -⟩ := read_lone_line line
  obtain rfl : ".5E+1".toList = word := (words _).mp (firstWord_eq_iff.mp (by decide))
  have accepted : read (mark ++ "\u00a0 .5E+1\tms".toList) =
      .ok ⟨false, 1025 * 2 ^ 52 + 2 ^ 50, by decide⟩ := by decide +kernel
  exact ⟨line, accepted, (accepts _).mp accepted⟩

end TimeLine

end TimingSweep
