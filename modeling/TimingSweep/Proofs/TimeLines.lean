import TimingSweep.TimeLine

/-!
# Outputs that report a time

An output reports a time if the last of its lines that begin with the mark goes on with a numeral.

* `last?_eq_some_iff`: the reader finds the last line that begins with the mark;
* `read_eq_ok_iff`: it accepts a finite number from zero on, and gives that number.
-/

namespace TimingSweep

/-- The word is a numeral, and `x` the double it is read as. -/
def Decimal.Denotes (word : List Char) (x : Binary64) : Prop :=
  ∃ negative decimal, read? word = some (negative, decimal) ∧ decimal.toBinary64 negative = x

namespace TimeLine

/-- `rest` stands behind the mark on the last of the lines that begin with it. -/
def IsLast (output rest : List Char) : Prop :=
  ∃ before after, output.splitOn '\n' = before ++ (mark ++ rest) :: after ∧
    ∀ line ∈ after, ¬ mark <+: line

theorem afterMark?_eq_some {line rest : List Char} :
    afterMark? line = some rest ↔ line = mark ++ rest := by
  unfold afterMark?
  constructor
  · intro found
    split at found
    · rename_i begins
      obtain ⟨tail, rfl⟩ := List.isPrefixOf_iff_prefix.mp begins
      simpa using found
    · cases found
  · rintro rfl
    simp

theorem afterMark?_eq_none {line : List Char} : afterMark? line = none ↔ ¬ mark <+: line := by
  simp [afterMark?]

theorem last?_eq_some_iff {output rest : List Char} :
    last? output = some rest ↔ IsLast output rest := by
  rw [last?, List.getLast?_eq_some_iff]
  constructor
  · rintro ⟨earlier, found⟩
    obtain ⟨first, later, lines, -, found⟩ := List.filterMap_eq_append_iff.mp found
    obtain ⟨before, line, after, rfl, -, marked, unmarked⟩ := List.filterMap_eq_cons_iff.mp found
    rw [afterMark?_eq_some] at marked
    subst marked
    refine ⟨first ++ before, after, by rw [lines, List.append_assoc], fun line member => ?_⟩
    exact afterMark?_eq_none.mp (List.filterMap_eq_nil_iff.mp unmarked line member)
  · rintro ⟨before, after, lines, unmarked⟩
    have nothing : after.filterMap afterMark? = [] :=
      List.filterMap_eq_nil_iff.mpr fun line member => afterMark?_eq_none.mpr (unmarked line member)
    refine ⟨before.filterMap afterMark?, ?_⟩
    rw [lines, List.filterMap_append, List.filterMap_cons, afterMark?_eq_some.mpr rfl, nothing]

theorem time_eq_ok_iff {rest : List Char} {elapsed : Binary64} :
    time rest = .ok elapsed ↔ Decimal.Denotes (firstWord rest) elapsed ∧
      elapsed.isFinite = true ∧ Binary64.le .zero elapsed = true := by
  unfold time Decimal.Denotes
  cases numeral : Decimal.read? (firstWord rest) with
  | none => simp
  | some read =>
    obtain ⟨negative, decimal⟩ := read
    simp only [Option.some.injEq, Prod.mk.injEq]
    constructor
    · intro accepted
      split at accepted
      · rename_i bounds
        cases accepted
        exact ⟨⟨negative, decimal, ⟨rfl, rfl⟩, rfl⟩, Bool.and_eq_true_iff.mp bounds⟩
      · cases accepted
    · rintro ⟨⟨_, _, ⟨rfl, rfl⟩, rfl⟩, finite, from_zero⟩
      rw [finite, from_zero]
      rfl

theorem read_eq_ok_iff {output : List Char} {elapsed : Binary64} :
    read output = .ok elapsed ↔
      (∃ rest, IsLast output rest ∧ Decimal.Denotes (firstWord rest) elapsed) ∧
        elapsed.isFinite = true ∧ Binary64.le .zero elapsed = true := by
  cases last : last? output with
  | none =>
    rw [read_of_noTimeLine last]
    constructor
    · intro accepted
      cases accepted
    · rintro ⟨⟨rest, isLast, -⟩, -⟩
      rw [last?_eq_some_iff.mpr isLast] at last
      cases last
  | some rest =>
    rw [read_of_last last, time_eq_ok_iff]
    constructor
    · rintro ⟨denotes, bounds⟩
      exact ⟨⟨rest, last?_eq_some_iff.mp last, denotes⟩, bounds⟩
    · rintro ⟨⟨other, isLast, denotes⟩, bounds⟩
      rw [last?_eq_some_iff.mpr isLast, Option.some.injEq] at last
      exact ⟨last ▸ denotes, bounds⟩

end TimeLine

end TimingSweep
