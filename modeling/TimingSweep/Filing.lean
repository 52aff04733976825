/-!
# Filed lists

A `Filing` keeps lists under labels, and the labels in the order in which they came. `add` appends
to the list of a label, which is put at the end if it is new.

* `get_add`: only the list of the label is changed, and by appending;
* `labels_add`: the labels stay in place and a new one comes last;
* `exists_of_mem_labels`: what is under a label is that of an entry.
-/

namespace TimingSweep

/-- Lists under labels, in the order in which the labels came. -/
abbrev Filing (α : Type) := List (String × List α)

namespace Filing

variable {α : Type}

def add (label : String) (items : List α) : Filing α → Filing α
  | [] => [(label, items)]
  | (other, held) :: rest =>
    if other = label then (other, held ++ items) :: rest else (other, held) :: add label items rest

/-- The list under a label; empty if there is none. -/
def get : Filing α → String → List α
  | [], _ => []
  | (other, held) :: rest, label => if other = label then held else get rest label

def labels (f : Filing α) : List String := f.map (·.1)

theorem get_add (f : Filing α) (label other : String) (items : List α) :
    get (add label items f) other = get f other ++ if other = label then items else [] := by
  induction f with
  | nil => by_cases h : label = other <;> simp [add, get, h, eq_comm]
  | cons entry rest ih =>
    obtain ⟨first, held⟩ := entry
    by_cases hlabel : first = label
    · subst hlabel
      by_cases hother : first = other
      · simp [add, get, hother]
      · simp [add, get, hother, Ne.symm hother]
    · by_cases hother : first = other
      · subst hother
        simp [add, get, hlabel]
      · simp [add, get, hlabel, hother, ih]

theorem labels_add (f : Filing α) (label : String) (items : List α) :
    labels (add label items f) = if label ∈ labels f then labels f else labels f ++ [label] := by
  induction f with
  | nil => simp [add, labels]
  | cons entry rest ih =>
    obtain ⟨first, held⟩ := entry
    by_cases h : first = label
    · simp [add, labels, h]
    · simp only [labels] at ih
      by_cases member : label ∈ rest.map (·.1) <;>
        simp_all [add, labels, Ne.symm h]

theorem get_of_not_mem {f : Filing α} {label : String} (absent : label ∉ f.labels) :
    f.get label = [] := by
  induction f with
  | nil => rfl
  | cons first rest ih =>
    rw [labels, List.map_cons, List.mem_cons, not_or] at absent
    rw [get, if_neg (Ne.symm absent.1)]
    exact ih absent.2

theorem exists_of_mem_labels {f : Filing α} {label : String} (member : label ∈ f.labels) :
    ∃ entry ∈ f, entry.1 = label ∧ f.get label = entry.2 := by
  induction f with
  | nil => cases member
  | cons first rest ih =>
    rw [get]
    by_cases same : first.1 = label
    · rw [if_pos same]
      exact ⟨first, List.mem_cons_self, same, rfl⟩
    · rw [labels, List.map_cons, List.mem_cons] at member
      obtain ⟨entry, later, isLabel, held⟩ := ih (member.resolve_left (Ne.symm same))
      rw [if_neg same]
      exact ⟨entry, List.mem_cons_of_mem _ later, isLabel, held⟩

end Filing

end TimingSweep
