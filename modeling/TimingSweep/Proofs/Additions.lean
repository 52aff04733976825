import TimingSweep.Report

/-!
# Reports and their additions

A report is a new one to which samples have been added one at a time. What it holds is read off the
list of `Addition`s, whatever order, labels and times they came with.

* `samples_addAll`: under a label stand the samples that were added under it, in their order;
* `backends_addAll`: a label that is new comes behind the others, once;
* `sampleCount_addAll`: every addition counts once;
* `mem_addAll`: nothing else comes into a report;
* `isFinite_addAll`: finite times stay finite.
-/

namespace TimingSweep

theorem Filing.count_add {α : Type} (f : Filing α) (label : String) (items : List α) :
    ((f.add label items).flatMap (·.2)).length = (f.flatMap (·.2)).length + items.length := by
  induction f with
  | nil => simp [add]
  | cons entry rest ih =>
    obtain ⟨other, held⟩ := entry
    by_cases h : other = label
    · simp only [add, h, if_true, List.flatMap_cons, List.length_append]
      omega
    · simp only [add, h, if_false, List.flatMap_cons, List.length_append, ih]
      omega

theorem Filing.mem_add {α : Type} {label : String} {items : List α} {f : Filing α}
    {entry : String × List α} (member : entry ∈ f.add label items) {s : α}
    (held : s ∈ entry.2) : s ∈ items ∨ ∃ before ∈ f, s ∈ before.2 := by
  induction f with
  | nil =>
    rw [Filing.add, List.mem_singleton] at member
    rw [member] at held
    exact Or.inl held
  | cons first rest ih =>
    obtain ⟨other, kept⟩ := first
    rw [Filing.add] at member
    split at member
    · rcases List.mem_cons.mp member with rfl | later
      · rcases List.mem_append.mp held with old | new
        · exact Or.inr ⟨_, List.mem_cons_self, old⟩
        · exact Or.inl new
      · exact Or.inr ⟨entry, List.mem_cons_of_mem _ later, held⟩
    · rcases List.mem_cons.mp member with rfl | later
      · exact Or.inr ⟨_, List.mem_cons_self, held⟩
      · rcases ih later with new | ⟨before, old, kept⟩
        · exact Or.inl new
        · exact Or.inr ⟨before, List.mem_cons_of_mem _ old, kept⟩

/-- A sample and the backend that it is added under. -/
structure Addition where
  backend : String
  sample : Sample
  deriving DecidableEq

namespace Report

def addAll (r : Report) (additions : List Addition) : Report :=
  additions.foldl (fun r a => r.add a.backend a.sample.size a.sample.elapsed) r

theorem addAll_cons (r : Report) (a : Addition) (rest : List Addition) :
    r.addAll (a :: rest) = (r.add a.backend a.sample.size a.sample.elapsed).addAll rest := rfl

theorem addAll_append (r : Report) (first rest : List Addition) :
    r.addAll (first ++ rest) = (r.addAll first).addAll rest :=
  List.foldl_append

theorem algorithm_addAll (r : Report) (additions : List Addition) :
    (r.addAll additions).algorithm = r.algorithm := by
  induction additions generalizing r with
  | nil => rfl
  | cons a rest ih => exact ih _

theorem samples_addAll (r : Report) (additions : List Addition) (backend : String) :
    (r.addAll additions).samples backend =
      r.samples backend ++ (additions.filter (·.backend = backend)).map (·.sample) := by
  induction additions generalizing r with
  | nil => simp [addAll]
  | cons a rest ih =>
    rw [addAll_cons, ih, samples_add]
    by_cases h : a.backend = backend
    · simp [h]
    · simp [h, Ne.symm h]

theorem samples_addAll_new (algorithm generatedAt : String) (additions : List Addition)
    (backend : String) :
    ((new algorithm generatedAt).addAll additions).samples backend =
      (additions.filter (·.backend = backend)).map (·.sample) :=
  samples_addAll ..

theorem backends_addAll (r : Report) (additions : List Addition) :
    (r.addAll additions).backends =
      r.backends ++ ((additions.map (·.backend)).removeAll r.backends).eraseDups := by
  induction additions generalizing r with
  | nil => simp [addAll, List.removeAll]
  | cons a rest ih =>
    rw [addAll_cons, ih, backends_add]
    by_cases known : a.backend ∈ r.backends
    · simp [known, List.removeAll]
    · -- Of what is still to come, the label that has just become known is no longer new.
      have later : (rest.map (·.backend)).removeAll (r.backends ++ [a.backend]) =
          ((rest.map (·.backend)).removeAll r.backends).filter fun b => !b == a.backend := by
        rw [List.removeAll, List.removeAll, List.filter_filter]
        apply List.filter_congr
        intro b _
        simp [Bool.beq_eq_decide_eq, Bool.and_comm]
      rw [if_neg known, later, List.append_assoc, List.map_cons]
      simp [known, List.removeAll, List.eraseDups_cons]

theorem backends_addAll_new (algorithm generatedAt : String) (additions : List Addition) :
    ((new algorithm generatedAt).addAll additions).backends =
      (additions.map (·.backend)).eraseDups := by
  rw [backends_addAll]
  show [] ++ ((additions.map (·.backend)).removeAll []).eraseDups = _
  rw [List.nil_append, List.removeAll_nil]

theorem sampleCount_add (r : Report) (backend : String) (size : UInt64) (elapsed : Binary64) :
    (r.add backend size elapsed).sampleCount = r.sampleCount + 1 :=
  Filing.count_add ..

theorem sampleCount_addAll (r : Report) (additions : List Addition) :
    (r.addAll additions).sampleCount = r.sampleCount + additions.length := by
  induction additions generalizing r with
  | nil => rfl
  | cons a rest ih =>
    rw [addAll_cons, ih, sampleCount_add, List.length_cons]
    omega

/-- Every sample of a report was in it before or was added. -/
theorem mem_addAll {r : Report} {additions : List Addition} {entry : String × List Sample}
    (member : entry ∈ (r.addAll additions).series) {s : Sample} (held : s ∈ entry.2) :
    (∃ before ∈ r.series, s ∈ before.2) ∨ ∃ a ∈ additions, a.sample = s := by
  induction additions generalizing r with
  | nil => exact Or.inl ⟨entry, member, held⟩
  | cons a rest ih =>
    rw [addAll_cons] at member
    rcases ih member with ⟨before, old, kept⟩ | ⟨later, added, same⟩
    · rcases Filing.mem_add old kept with new | earlier
      · exact Or.inr ⟨a, List.mem_cons_self, (List.mem_singleton.mp new).symm⟩
      · exact Or.inl earlier
    · exact Or.inr ⟨later, List.mem_cons_of_mem _ added, same⟩

/-- All times in a report are finite. -/
def IsFinite (r : Report) : Prop := ∀ entry ∈ r.series, ∀ s ∈ entry.2, s.elapsed.isFinite = true

theorem isFinite_new (algorithm generatedAt : String) : (new algorithm generatedAt).IsFinite := by
  intro entry member
  cases member

theorem isFinite_addAll {r : Report} (start : r.IsFinite) {additions : List Addition}
    (finite : ∀ a ∈ additions, a.sample.elapsed.isFinite = true) :
    (r.addAll additions).IsFinite := by
  intro entry member s held
  rcases mem_addAll member held with ⟨before, old, kept⟩ | ⟨a, added, rfl⟩
  · exact start before old s kept
  · exact finite a added

end Report

end TimingSweep
