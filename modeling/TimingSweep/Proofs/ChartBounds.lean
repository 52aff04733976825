import Mathlib.Logic.Relation
import TimingSweep.Proofs.Boxes

/-!
# The bounds of a chart

The box of a chart is that of its points, whichever series they are in and however often they come.
Only the sign of a zero at an edge depends on the order in which they are gone through.

* `isSameNumber_of_le`: doubles that are at or below each other differ at most as zeros do;
* `Box.IsTight.isSame`: points have one box;
* `Chart.Rearranged`, `mem_points_of_rearranged`: no change of the series that leaves the points in
  place gains or loses one;
* `Chart.bounds_tight`: when there is a box, that it is tight, and that rearranging keeps it.
-/

namespace TimingSweep

namespace Binary64

/-- The same number, where the two zeros count as one. -/
def IsSameNumber (x y : Binary64) : Prop := x = y ∨ x.isZero = true ∧ y.isZero = true

variable {x y : Binary64}

theorem isSameNumber_of_le (h : le x y = true) (h' : le y x = true) : IsSameNumber x y := by
  obtain ⟨-, -, below⟩ := le_iff.mp h
  obtain ⟨-, -, above⟩ := le_iff.mp h'
  have place : x.place = y.place := Int.le_antisymm below above
  by_cases signs : x.negative = y.negative
  · have rank : x.rank = y.rank := by
      rw [Binary64.place, Binary64.place, signs] at place
      split at place <;> omega
    obtain ⟨sign, _, _⟩ := x
    obtain ⟨sign', _, _⟩ := y
    obtain rfl : sign = sign' := signs
    subst rank
    exact Or.inl rfl
  · -- on both sides of zero there is no common place but zero
    have zeros : x.rank = 0 ∧ y.rank = 0 := by
      unfold Binary64.place at place
      cases sign : x.negative <;> cases sign' : y.negative <;> simp [sign, sign'] at place signs <;>
        omega
    exact Or.inr ⟨beq_iff_eq.mpr zeros.1, beq_iff_eq.mpr zeros.2⟩

/-- Lists of the same numbers have the same ends. -/
theorem AreEnds.isSame {least greatest least' greatest' : Binary64} {xs xs' : List Binary64}
    (h : AreEnds least greatest xs) (h' : AreEnds least' greatest' xs')
    (same : ∀ x, x ∈ xs ↔ x ∈ xs') :
    IsSameNumber least least' ∧ IsSameNumber greatest greatest' := by
  have inside : ∀ x ∈ xs', le least x = true ∧ le x greatest = true := fun x member =>
    h.between x ((same x).mpr member)
  have inside' : ∀ x ∈ xs, le least' x = true ∧ le x greatest' = true := fun x member =>
    h'.between x ((same x).mp member)
  have leasts := isSameNumber_of_le (inside least' h'.least_mem).1 (inside' least h.least_mem).1
  have greatests :=
    isSameNumber_of_le (inside' greatest h.greatest_mem).2 (inside greatest' h'.greatest_mem).2
  exact ⟨leasts, greatests⟩

end Binary64

namespace Box

/-- The same edges, up to the sign of a zero. -/
structure IsSame (b b' : Box) : Prop where
  left : Binary64.IsSameNumber b.left b'.left
  right : Binary64.IsSameNumber b.right b'.right
  bottom : Binary64.IsSameNumber b.bottom b'.bottom
  top : Binary64.IsSameNumber b.top b'.top

variable {b b' : Box} {points points' : List (Binary64 × Binary64)}

theorem IsTight.isSame (h : b.IsTight points) (h' : b'.IsTight points')
    (same : ∀ p, p ∈ points ↔ p ∈ points') : b.IsSame b' := by
  have coordinates : ∀ (coordinate : Binary64 × Binary64 → Binary64) (x : Binary64),
      x ∈ points.map coordinate ↔ x ∈ points'.map coordinate := by
    intro coordinate x
    simp only [List.mem_map, same]
  obtain ⟨left, right⟩ := h.across.isSame h'.across (coordinates (·.1))
  obtain ⟨bottom, top⟩ := h.upward.isSame h'.upward (coordinates (·.2))
  exact ⟨left, right, bottom, top⟩

end Box

namespace Chart

/-- Series that are put in another order or given other labels; whose points are put in another
order, also from one series into another; one of whose points is given again in some series; or to
which one without points is added. -/
inductive Rearranged : List Series → List Series → Prop
  | exchanged {series series' : List Series} (order : series.Perm series') :
      Rearranged series series'
  | renamed {series series' : List Series}
      (lines : series.map (·.points) = series'.map (·.points)) : Rearranged series series'
  | moved {series series' : List Series}
      (order : (series.flatMap (·.points)).Perm (series'.flatMap (·.points))) :
      Rearranged series series'
  | doubled (before after : List Series) {s : Series} {first rest : List (Binary64 × Binary64)}
      (cut : s.points = first ++ rest) {p : Binary64 × Binary64}
      (known : p ∈ (before ++ s :: after).flatMap (·.points)) :
      Rearranged (before ++ s :: after) (before ++ ⟨s.label, first ++ p :: rest⟩ :: after)
  | added {s : Series} (empty : s.points = []) (before after : List Series) :
      Rearranged (before ++ after) (before ++ s :: after)

variable {c c' : Chart} {series series' : List Series}

theorem mem_points_of_rearranged (h : Rearranged series series') (p : Binary64 × Binary64) :
    p ∈ series.flatMap (·.points) ↔ p ∈ series'.flatMap (·.points) := by
  cases h with
  | exchanged order => exact (order.flatMap_right _).mem_iff
  | renamed lines => rw [List.flatMap_def, List.flatMap_def, lines]
  | moved order => exact order.mem_iff
  | @doubled before after s first rest cut q known =>
    have again : p ∈ (before ++ ⟨s.label, first ++ q :: rest⟩ :: after).flatMap (·.points) ↔
        p = q ∨ p ∈ (before ++ s :: after).flatMap (·.points) := by
      simp only [List.flatMap_append, List.flatMap_cons, List.mem_append, List.mem_cons, cut]
      grind
    rw [again]
    constructor
    · exact Or.inr
    · rintro (rfl | member)
      · exact known
      · exact member
  | added empty before after =>
    rw [List.flatMap_append, List.flatMap_append, List.flatMap_cons, empty, List.nil_append]

theorem mem_points_of_rearrangements (h : Relation.ReflTransGen Rearranged series series')
    (p : Binary64 × Binary64) :
    p ∈ series.flatMap (·.points) ↔ p ∈ series'.flatMap (·.points) := by
  induction h with
  | refl => exact Iff.rfl
  | tail _ step ih => exact ih.trans (mem_points_of_rearranged step p)

theorem bounds_eq_none_iff : c.bounds = none ↔ ∀ s ∈ c.series, s.points = [] := by
  rw [bounds_eq_none, points, List.flatMap_eq_nil_iff]

/-- The same points have the same box. -/
theorem isSame_bounds (numbers : ∀ p ∈ c.points, p.1.isNaN = false ∧ p.2.isNaN = false)
    (same : ∀ p, p ∈ c.points ↔ p ∈ c'.points) : Option.Rel Box.IsSame c.bounds c'.bounds := by
  have pointless : c.points = [] ↔ c'.points = [] := by
    rw [List.eq_nil_iff_forall_not_mem, List.eq_nil_iff_forall_not_mem]
    exact forall_congr' fun p => not_congr (same p)
  cases found : c.bounds with
  | none =>
    rw [bounds_eq_none.mpr (pointless.mp (bounds_eq_none.mp found))]
    exact .none
  | some b =>
    cases found' : c'.bounds with
    | none =>
      rw [bounds_eq_none.mpr (pointless.mpr (bounds_eq_none.mp found'))] at found
      cases found
    | some b' =>
      have tight := isTight_of_bounds found numbers
      have tight' := isTight_of_bounds found' fun p member => numbers p ((same p).mpr member)
      exact .some (tight.isSame tight' same)

/-- A chart of numbers has a box exactly if some series has a point. The box holds every point, has
one at each edge, and stays the same, but for the sign of a zero, when series are exchanged, renamed
or added without points, and when points are moved or given again. -/
theorem bounds_tight (c : Chart)
    (numbers : ∀ s ∈ c.series, ∀ p ∈ s.points, p.1.isNaN = false ∧ p.2.isNaN = false) :
    (c.bounds = none ↔ ∀ s ∈ c.series, s.points = []) ∧
    (∀ b, c.bounds = some b →
      (∀ s ∈ c.series, ∀ p ∈ s.points,
        (Binary64.le b.left p.1 = true ∧ Binary64.le p.1 b.right = true) ∧
        Binary64.le b.bottom p.2 = true ∧ Binary64.le p.2 b.top = true) ∧
      (∃ p ∈ c.points, p.1 = b.left) ∧ (∃ p ∈ c.points, p.1 = b.right) ∧
      (∃ p ∈ c.points, p.2 = b.bottom) ∧ ∃ p ∈ c.points, p.2 = b.top) ∧
    (∀ rename, (c.relabel rename).bounds = c.bounds) ∧
    ∀ c' : Chart, Relation.ReflTransGen Rearranged c.series c'.series →
      Option.Rel Box.IsSame c.bounds c'.bounds := by
  have all : ∀ p ∈ c.points, p.1.isNaN = false ∧ p.2.isNaN = false := by
    intro p member
    obtain ⟨s, drawn, member⟩ := List.mem_flatMap.mp member
    exact numbers s drawn p member
  refine ⟨bounds_eq_none_iff, fun b found => ?_, fun rename => bounds_relabel rename c,
    fun c' moved => isSame_bounds all (mem_points_of_rearrangements moved)⟩
  obtain ⟨across, upward⟩ := isTight_of_bounds found all
  refine ⟨fun s drawn p member => ?_, List.mem_map.mp across.least_mem,
    List.mem_map.mp across.greatest_mem, List.mem_map.mp upward.least_mem,
    List.mem_map.mp upward.greatest_mem⟩
  have point : p ∈ c.points := List.mem_flatMap.mpr ⟨s, drawn, member⟩
  exact ⟨across.between p.1 (List.mem_map_of_mem point),
    upward.between p.2 (List.mem_map_of_mem point)⟩

/-- An infinite time and a series through both zeros, of which the later one is at the edges. -/
theorem zeros_bounds_tight :
    let high : Binary64 × Binary64 := (.zero, .infinity false)
    let low : Binary64 × Binary64 := (.signedZero true, .ofBits 1)
    let c : Chart := ⟨"sort", "", "", [⟨"compute", [high, low]⟩]⟩
    let c' : Chart := ⟨"sort", "", "", [⟨"tbb", []⟩, ⟨"Primary", [low, high, high]⟩]⟩
    c.bounds = some ⟨.signedZero true, .signedZero true, .ofBits 1, .infinity false⟩ ∧
    c'.bounds = some ⟨.zero, .zero, .ofBits 1, .infinity false⟩ ∧
    Option.Rel Box.IsSame c.bounds c'.bounds := by
  intro high low c c'
  have moved : Rearranged c.series [⟨"compute", [low, high]⟩] := .moved (.swap low high [])
  have cut : (Series.mk "compute" [low, high]).points = [low] ++ [high] := rfl
  have doubled : Rearranged [⟨"compute", [low, high]⟩] [⟨"compute", [low, high, high]⟩] :=
    .doubled [] [] cut (by decide)
  have renamed : Rearranged [⟨"compute", [low, high, high]⟩] [⟨"Primary", [low, high, high]⟩] :=
    .renamed rfl
  have added : Rearranged [⟨"Primary", [low, high, high]⟩] c'.series :=
    .added (s := ⟨"tbb", []⟩) rfl [] _
  have numbers : ∀ s ∈ c.series, ∀ p ∈ s.points, p.1.isNaN = false ∧ p.2.isNaN = false := by
    decide
  obtain ⟨-, -, -, same⟩ := bounds_tight c numbers
  have chain : Relation.ReflTransGen Rearranged c.series c'.series :=
    .tail (.tail (.tail (.single moved) doubled) renamed) added
  exact ⟨by decide, by decide, same c' chain⟩

end Chart

end TimingSweep
