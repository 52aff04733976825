import Mathlib.Data.List.Nodup
import TimingSweep.Proofs.Additions

/-!
# What a report holds

A report keeps each label once, in the order of the first additions, and under it at least one
sample. So it can be written as its labels with their samples, and additions under different labels
may be exchanged without any series changing.

* `Filing.IsOrderly`, `isOrderly_add`: what every addition preserves, and `isOrderly_addAll` what
  every sequence of additions does;
* `Filing.eq_map_get`: such lists are told by their labels and by what is under each;
* `IsInOrder`, `isInOrder_backends_addAll`: the labels stand in the order in which they first came;
* `store_laws`: a report in terms of its additions, and after two of them have been exchanged.
-/

namespace TimingSweep

namespace Filing

variable {α : Type} {f : Filing α} {label : String}

/-- No label is kept twice, and none without items. -/
structure IsOrderly (f : Filing α) : Prop where
  nodup : f.labels.Nodup
  filled : ∀ entry ∈ f, entry.2 ≠ []

theorem isOrderly_nil : IsOrderly ([] : Filing α) := by
  constructor
  · exact List.nodup_nil
  · intro entry member
    cases member

theorem filled_add (filled : ∀ entry ∈ f, entry.2 ≠ []) (label : String) {items : List α}
    (nonempty : items ≠ []) : ∀ entry ∈ f.add label items, entry.2 ≠ [] := by
  induction f with
  | nil => simpa [add] using nonempty
  | cons first rest ih =>
    obtain ⟨other, held⟩ := first
    rw [List.forall_mem_cons] at filled
    rw [add]
    split
    · rw [List.forall_mem_cons]
      exact ⟨List.append_ne_nil_of_left_ne_nil filled.1 items, filled.2⟩
    · rw [List.forall_mem_cons]
      exact ⟨filled.1, ih filled.2⟩

theorem isOrderly_add (orderly : f.IsOrderly) (label : String) {items : List α}
    (nonempty : items ≠ []) : IsOrderly (f.add label items) := by
  constructor
  · rw [labels_add]
    split
    · exact orderly.nodup
    · rename_i fresh
      rw [← List.concat_eq_append]
      exact orderly.nodup.concat fresh
  · exact filled_add orderly.filled label nonempty

theorem mem_labels_iff (orderly : f.IsOrderly) : label ∈ f.labels ↔ f.get label ≠ [] := by
  constructor
  · intro member
    obtain ⟨entry, held, -, items⟩ := exists_of_mem_labels member
    rw [items]
    exact orderly.filled entry held
  · intro nonempty
    by_contra absent
    exact nonempty (get_of_not_mem absent)

/-- The labels and what is under each of them are all there is. -/
theorem eq_map_get (nodup : f.labels.Nodup) :
    f = f.labels.map fun label => (label, f.get label) := by
  induction f with
  | nil => rfl
  | cons first rest ih =>
    rw [labels, List.map_cons, List.nodup_cons] at nodup
    have others : ∀ label ∈ rest.map (·.1), get (first :: rest) label = get rest label := by
      intro label member
      rw [get, if_neg]
      rintro rfl
      exact nodup.1 member
    rw [labels, List.map_cons, List.map_cons, get, if_pos rfl]
    congr 1
    calc rest = (labels rest).map fun label => (label, get rest label) := ih nodup.2
      _ = (rest.map (·.1)).map fun label => (label, get (first :: rest) label) := by
        apply List.map_congr_left
        intro label member
        rw [others label member]

end Filing

/-- The items without repetition, in the order in which they first come. -/
structure IsInOrder (once items : List String) : Prop where
  nodup : once.Nodup
  mem_iff : ∀ item, item ∈ once ↔ item ∈ items
  first : once.Pairwise fun a b => items.idxOf a < items.idxOf b

theorem isInOrder_nil : IsInOrder [] [] :=
  ⟨List.nodup_nil, fun _ => Iff.rfl, List.Pairwise.nil⟩

/-- An item that comes last is put behind the others if it is new. -/
theorem IsInOrder.concat {once items : List String} (h : IsInOrder once items) (next : String) :
    IsInOrder (if next ∈ once then once else once ++ [next]) (items ++ [next]) := by
  have earlier : ∀ item ∈ once, (items ++ [next]).idxOf item = items.idxOf item := by
    intro item member
    exact List.idxOf_append_of_mem ((h.mem_iff item).mp member)
  have ordered : once.Pairwise fun a b =>
      (items ++ [next]).idxOf a < (items ++ [next]).idxOf b := by
    apply h.first.imp_of_mem
    intro a b ha hb before
    rwa [earlier a ha, earlier b hb]
  split
  · rename_i known
    refine ⟨h.nodup, fun item => ?_, ordered⟩
    rw [List.mem_append, List.mem_singleton, h.mem_iff]
    constructor
    · exact Or.inl
    · rintro (old | rfl)
      · exact old
      · exact (h.mem_iff item).mp known
  · rename_i fresh
    refine ⟨?_, fun item => ?_, ?_⟩
    · rw [← List.concat_eq_append]
      exact h.nodup.concat fresh
    · rw [List.mem_append, List.mem_append, h.mem_iff]
    · rw [List.pairwise_append]
      refine ⟨ordered, List.pairwise_singleton .., fun item member last isLast => ?_⟩
      rw [List.mem_singleton.mp isLast, earlier item member,
        List.idxOf_append_of_notMem fun old => fresh ((h.mem_iff next).mpr old)]
      exact Nat.lt_add_right _ (List.idxOf_lt_length_of_mem ((h.mem_iff item).mp member))

namespace Report

theorem isOrderly_addAll {r : Report} (orderly : r.series.IsOrderly) (additions : List Addition) :
    (r.addAll additions).series.IsOrderly := by
  induction additions generalizing r with
  | nil => exact orderly
  | cons a rest ih => exact ih (Filing.isOrderly_add orderly a.backend (List.cons_ne_nil _ _))

theorem isInOrder_backends_addAll {r : Report} {before : List String}
    (start : IsInOrder r.backends before) (additions : List Addition) :
    IsInOrder (r.addAll additions).backends (before ++ additions.map (·.backend)) := by
  induction additions generalizing r before with
  | nil => rwa [List.map_nil, List.append_nil]
  | cons a rest ih =>
    rw [List.map_cons, List.append_cons, addAll_cons]
    apply ih
    rw [backends_add]
    exact start.concat a.backend

/-- The text is made of one block for each label. -/
theorem toText_eq {r : Report} (orderly : r.series.IsOrderly) :
    r.toText = String.join
      (r.backends.map fun label => block r.algorithm (label, r.samples label)) := by
  conv => lhs; rw [toText, Filing.eq_map_get orderly.nodup, List.map_map]
  rfl

theorem isOrderly_new (algorithm generatedAt : String) :
    (new algorithm generatedAt).series.IsOrderly :=
  Filing.isOrderly_nil

theorem isInOrder_backends_new (algorithm generatedAt : String) (additions : List Addition) :
    IsInOrder ((new algorithm generatedAt).addAll additions).backends
      (additions.map (·.backend)) := by
  have start : IsInOrder (new algorithm generatedAt).backends [] := isInOrder_nil
  exact isInOrder_backends_addAll start additions

theorem isEmpty_iff {r : Report} : r.isEmpty = true ↔ r.backends = [] := by
  rw [isEmpty, List.isEmpty_iff, backends, Filing.labels, List.map_eq_nil_iff]

/-! ## Additions in another order -/

/-- The additions under each label are the same and in the same order. -/
def SameByLabel (additions additions' : List Addition) : Prop :=
  ∀ label, additions.filter (·.backend = label) = additions'.filter (·.backend = label)

/-- Two neighbours under different labels may be exchanged. -/
theorem sameByLabel_swap (before after : List Addition) {a b : Addition}
    (differ : a.backend ≠ b.backend) :
    SameByLabel (before ++ b :: a :: after) (before ++ a :: b :: after) := by
  intro label
  rw [List.filter_append, List.filter_append]
  congr 1
  by_cases first : a.backend = label
  · have other : b.backend ≠ label := fun same => differ (first.trans same.symm)
    simp [first, other]
  · simp [List.filter_cons, first]

section Reordered

variable {additions additions' : List Addition} (same : SameByLabel additions additions')
  (algorithm generatedAt : String)
include same

theorem samples_of_sameByLabel (label : String) :
    ((new algorithm generatedAt).addAll additions).samples label =
      ((new algorithm generatedAt).addAll additions').samples label := by
  rw [samples_addAll_new, samples_addAll_new, same label]

theorem backends_of_sameByLabel :
    ((new algorithm generatedAt).addAll additions).backends.Perm
      ((new algorithm generatedAt).addAll additions').backends := by
  have order := isInOrder_backends_new algorithm generatedAt additions
  have order' := isInOrder_backends_new algorithm generatedAt additions'
  apply (List.perm_ext_iff_of_nodup order.nodup order'.nodup).mpr
  intro label
  have orderly := isOrderly_addAll (isOrderly_new algorithm generatedAt) additions
  have orderly' := isOrderly_addAll (isOrderly_new algorithm generatedAt) additions'
  show label ∈ Filing.labels _ ↔ label ∈ Filing.labels _
  rw [Filing.mem_labels_iff orderly, Filing.mem_labels_iff orderly']
  show samples _ label ≠ [] ↔ samples _ label ≠ []
  rw [samples_of_sameByLabel same]

/-- The blocks of the text are the same, in the order of the labels. -/
theorem toText_of_sameByLabel :
    let r := (new algorithm generatedAt).addAll additions
    let r' := (new algorithm generatedAt).addAll additions'
    r.toText =
      String.join (r.backends.map fun label => block algorithm (label, r'.samples label)) := by
  intro r r'
  have orderly : r.series.IsOrderly := isOrderly_addAll (isOrderly_new ..) additions
  have samples : r.samples = r'.samples := by
    funext label
    exact samples_of_sameByLabel same algorithm generatedAt label
  have name : r.algorithm = algorithm := algorithm_addAll ..
  rw [toText_eq orderly, samples, name]

end Reordered

/-- A report holds what was added to it: under each label the samples added under it, in their
order, and the labels in the order in which they first came, none of them without a sample. The
order of additions under different labels makes a difference to nothing but the order of the labels,
and in the text to the order of whole blocks. -/
theorem store_laws (algorithm generatedAt : String) (additions : List Addition) :
    let r := (new algorithm generatedAt).addAll additions
    (∀ label, r.samples label = (additions.filter (·.backend = label)).map (·.sample)) ∧
    IsInOrder r.backends (additions.map (·.backend)) ∧
    (∀ label, (r.contains label = true ↔ label ∈ r.backends) ∧
      (label ∈ r.backends ↔ r.samples label ≠ [])) ∧
    r.sampleCount = additions.length ∧
    (r.isEmpty = true ↔ r.sampleCount = 0) ∧
    r.algorithm = algorithm ∧
    r.toText = String.join (r.backends.map fun label => block algorithm (label, r.samples label)) ∧
    ∀ before after a b, additions = before ++ a :: b :: after → a.backend ≠ b.backend →
      let r' := (new algorithm generatedAt).addAll (before ++ b :: a :: after)
      (∀ label, r'.samples label = r.samples label) ∧ r'.backends.Perm r.backends ∧
      r'.toText =
        String.join (r'.backends.map fun label => block algorithm (label, r.samples label)) := by
  intro r
  have order : IsInOrder r.backends (additions.map (·.backend)) := isInOrder_backends_new ..
  have orderly : r.series.IsOrderly := isOrderly_addAll (isOrderly_new ..) additions
  have count : r.sampleCount = additions.length := by
    rw [sampleCount_addAll]
    exact Nat.zero_add _
  refine ⟨samples_addAll_new algorithm generatedAt additions, order,
    fun label => ⟨List.contains_iff_mem, ?_⟩, count, ?_, algorithm_addAll ..,
    toText_of_sameByLabel (fun _ => rfl) .., ?_⟩
  · exact Filing.mem_labels_iff orderly
  · rw [isEmpty_iff, count, List.length_eq_zero_iff, List.eq_nil_iff_forall_not_mem]
    simp only [order.mem_iff, ← List.eq_nil_iff_forall_not_mem, List.map_eq_nil_iff]
  · rintro before after a b rfl differ
    have same := sameByLabel_swap before after differ
    exact ⟨samples_of_sameByLabel same algorithm generatedAt, backends_of_sameByLabel same ..,
      toText_of_sameByLabel same ..⟩

/-- Additions under two labels in turn, with a size that comes twice. -/
def alternating : List Addition := [
  ⟨"tbb", ⟨8, .ofNat 3⟩⟩, ⟨"compute", ⟨2, .zero⟩⟩, ⟨"tbb", ⟨2, .ofNat 1⟩⟩, ⟨"tbb", ⟨8, .nan⟩⟩]

/-- The first two additions exchanged: the blocks change places. -/
theorem alternating_store_laws :
    let r := (new "sort" "").addAll alternating
    let r' := (new "sort" "").addAll
      (⟨"compute", ⟨2, .zero⟩⟩ :: ⟨"tbb", ⟨8, .ofNat 3⟩⟩ :: alternating.drop 2)
    "tbb" ≠ "compute" ∧ r.samples "tbb" = [⟨8, .ofNat 3⟩, ⟨2, .ofNat 1⟩, ⟨8, .nan⟩] ∧
    r.sampleCount = 4 ∧ IsInOrder r.backends ["tbb", "compute", "tbb", "tbb"] ∧
    r'.samples "tbb" = r.samples "tbb" ∧ r'.backends.Perm r.backends ∧
    r.backends = ["tbb", "compute"] ∧ r'.backends = ["compute", "tbb"] ∧ r'.toText ≠ r.toText := by
  intro r r'
  have differ : "tbb" ≠ "compute" := by decide
  obtain ⟨samples, order, -, count, -, -, -, exchanged⟩ := store_laws "sort" "" alternating
  obtain ⟨same, labels, -⟩ := exchanged [] (alternating.drop 2) ⟨"tbb", ⟨8, .ofNat 3⟩⟩
    ⟨"compute", ⟨2, .zero⟩⟩ rfl differ
  exact ⟨differ, samples "tbb", count, order, same "tbb", labels, by decide +kernel,
    by decide +kernel, by decide +kernel⟩

end Report

end TimingSweep
