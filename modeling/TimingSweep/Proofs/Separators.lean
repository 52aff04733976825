import Mathlib.Data.List.Basic

/-!
# Lists cut at a separator

Lines are cut at line feeds, paths at slashes, rows at commas.

* `splitOn_append`: a separator cuts a list in two, whatever is before and behind it;
* `splitOn_ended`: pieces that each end with a separator are found again, with nothing behind them;
* `dropWhile_eq_iff`, `takeWhile_eq_iff`: a run ends before the first item that is none of it.
-/

namespace TimingSweep

variable {α : Type} [BEq α] [LawfulBEq α] {separator : α}

theorem splitOn_of_not_mem {items : List α} (clean : separator ∉ items) :
    items.splitOn separator = [items] :=
  List.splitOnP_eq_singleton fun item member => by
    rw [beq_eq_false_iff_ne]
    rintro rfl
    exact clean member

theorem splitOn_append (front back : List α) :
    (front ++ separator :: back).splitOn separator =
      front.splitOn separator ++ back.splitOn separator :=
  List.splitOnP_append_cons front back (beq_self_eq_true separator)

/-- What is before the first separator is the first piece. -/
theorem splitOn_append_of_not_mem {front : List α} (clean : separator ∉ front) (back : List α) :
    (front ++ separator :: back).splitOn separator = front :: back.splitOn separator := by
  rw [splitOn_append, splitOn_of_not_mem clean, List.singleton_append]

theorem splitOn_ended {pieces : List (List α)} (clean : ∀ piece ∈ pieces, separator ∉ piece) :
    (pieces.flatMap (· ++ [separator])).splitOn separator = pieces ++ [[]] := by
  induction pieces with
  | nil => rfl
  | cons piece rest ih =>
    rw [List.forall_mem_cons] at clean
    rw [List.flatMap_cons, List.append_assoc, List.singleton_append,
      splitOn_append_of_not_mem clean.1, ih clean.2, List.cons_append]

/-! ## Runs -/

section Runs

variable {p : α → Bool} {items part : List α}

omit [BEq α] [LawfulBEq α] in
/-- What is left after dropping a run begins where the run ends. -/
theorem dropWhile_eq_iff : items.dropWhile p = part ↔
    ∃ before, items = before ++ part ∧ (∀ item ∈ before, p item = true) ∧
      ∀ item ∈ part.head?, p item = false := by
  constructor
  · rintro rfl
    refine ⟨items.takeWhile p, List.takeWhile_append_dropWhile.symm,
      List.all_eq_true.mp List.all_takeWhile, fun item head => ?_⟩
    have stops := List.head?_dropWhile_not p items
    rwa [Option.mem_def.mp head] at stops
  · rintro ⟨before, rfl, run, stops⟩
    rw [List.dropWhile_append_of_pos run]
    cases part with
    | nil => rfl
    | cons item rest => rw [List.dropWhile_cons_of_neg (by simp [stops item rfl])]

omit [BEq α] [LawfulBEq α] in
theorem takeWhile_eq_iff : items.takeWhile p = part ↔
    ∃ after, items = part ++ after ∧ (∀ item ∈ part, p item = true) ∧
      ∀ item ∈ after.head?, p item = false := by
  constructor
  · rintro rfl
    obtain ⟨-, -, -, stops⟩ := dropWhile_eq_iff.mp (rfl : items.dropWhile p = _)
    exact ⟨items.dropWhile p, List.takeWhile_append_dropWhile.symm,
      List.all_eq_true.mp List.all_takeWhile, stops⟩
  · rintro ⟨after, rfl, run, stops⟩
    rw [List.takeWhile_append_of_pos run]
    cases after with
    | nil => exact List.append_nil part
    | cons item rest =>
      rw [List.takeWhile_cons_of_neg (by simp [stops item rfl]), List.append_nil]

end Runs

end TimingSweep
