import TimingSweep.Chart
import TimingSweep.Proofs.Order

/-!
# The box around points

The box of a chart is found by going through the points once with four numbers in hand. Each of them
is chosen again and again from two, so it is always a coordinate of a point, and none is beyond it.

* `foldl_chosen`: what comes of choosing the better of two along a list;
* `areEnds_foldl`: the least and the greatest number of a list;
* `isTight_of_bounds`: the box of points that are numbers holds them all, and all its edges touch.
-/

namespace TimingSweep

/-- If one of two is chosen that is no worse than either, then along a list one is chosen that is no
worse than any. -/
theorem foldl_chosen {α : Type} (Eligible : α → Prop) (NoWorse : α → α → Prop)
    {choose : α → α → α} (one : ∀ a b, choose a b = a ∨ choose a b = b)
    (refl : ∀ a, Eligible a → NoWorse a a)
    (trans : ∀ a b c, NoWorse a b → NoWorse b c → NoWorse a c)
    (left : ∀ a b, Eligible a → Eligible b → NoWorse (choose a b) a)
    (right : ∀ a b, Eligible a → Eligible b → NoWorse (choose a b) b)
    (first : α) (rest : List α) (eligible : ∀ a ∈ first :: rest, Eligible a) :
    rest.foldl choose first ∈ first :: rest ∧
      ∀ a ∈ first :: rest, NoWorse (rest.foldl choose first) a := by
  induction rest generalizing first with
  | nil =>
    refine ⟨List.mem_cons_self, fun a member => ?_⟩
    rw [List.mem_singleton.mp member]
    exact refl first (eligible first List.mem_cons_self)
  | cons next rest ih =>
    have first_eligible := eligible first List.mem_cons_self
    have next_eligible := eligible next (List.mem_cons_of_mem _ List.mem_cons_self)
    have chosen_eligible : Eligible (choose first next) := by
      rcases one first next with same | same <;> rw [same] <;> assumption
    obtain ⟨chosen, best⟩ := ih (choose first next) fun a member => by
      rcases List.mem_cons.mp member with rfl | later
      · exact chosen_eligible
      · exact eligible a (List.mem_cons_of_mem _ (List.mem_cons_of_mem _ later))
    have against := best (choose first next) List.mem_cons_self
    rw [List.foldl_cons]
    constructor
    · rcases List.mem_cons.mp chosen with same | later
      · rw [same]
        rcases one first next with same | same <;> rw [same] <;> simp
      · exact List.mem_cons_of_mem _ (List.mem_cons_of_mem _ later)
    · intro a member
      rcases List.mem_cons.mp member with rfl | member
      · exact trans _ _ _ against (left _ _ first_eligible next_eligible)
      · rcases List.mem_cons.mp member with rfl | later
        · exact trans _ _ _ against (right _ _ first_eligible next_eligible)
        · exact best a (List.mem_cons_of_mem _ later)

namespace Binary64

variable {x y : Binary64}

theorem min_eq_or (x y : Binary64) : min x y = x ∨ min x y = y := by
  unfold min
  split
  · exact Or.inl rfl
  · exact Or.inr rfl

theorem max_eq_or (x y : Binary64) : max x y = x ∨ max x y = y := by
  unfold max
  split
  · exact Or.inl rfl
  · exact Or.inr rfl

theorem le_of_not_lt (hx : x.isNaN = false) (hy : y.isNaN = false) (h : lt x y = false) :
    le y x = true := by
  refine le_iff.mpr ⟨hy, hx, Int.not_lt.mp fun below => ?_⟩
  rw [lt_iff.mpr ⟨hx, hy, below⟩] at h
  cases h

theorem le_of_lt (h : lt x y = true) : le x y = true := by
  obtain ⟨hx, hy, below⟩ := lt_iff.mp h
  exact le_iff.mpr ⟨hx, hy, Int.le_of_lt below⟩

theorem min_le (hx : x.isNaN = false) (hy : y.isNaN = false) :
    le (min x y) x = true ∧ le (min x y) y = true := by
  unfold min
  rw [hy, Bool.false_or]
  cases less : lt x y with
  | true => exact ⟨le_refl hx, le_of_lt less⟩
  | false => exact ⟨le_of_not_lt hx hy less, le_refl hy⟩

theorem le_max (hx : x.isNaN = false) (hy : y.isNaN = false) :
    le x (max x y) = true ∧ le y (max x y) = true := by
  unfold max
  rw [hy, Bool.false_or]
  cases less : lt y x with
  | true => exact ⟨le_refl hx, le_of_lt less⟩
  | false => exact ⟨le_of_not_lt hy hx less, le_refl hy⟩

/-- The least and the greatest of some numbers. -/
structure AreEnds (least greatest : Binary64) (xs : List Binary64) : Prop where
  least_mem : least ∈ xs
  greatest_mem : greatest ∈ xs
  between : ∀ x ∈ xs, le least x = true ∧ le x greatest = true

theorem areEnds_foldl (first : Binary64) (rest : List Binary64)
    (numbers : ∀ x ∈ first :: rest, x.isNaN = false) :
    AreEnds (rest.foldl min first) (rest.foldl max first) (first :: rest) := by
  obtain ⟨least_mem, least⟩ := foldl_chosen (·.isNaN = false) (le · · = true) min_eq_or
    (fun _ => le_refl) (fun _ _ _ => le_trans) (fun _ _ hx hy => (min_le hx hy).1)
    (fun _ _ hx hy => (min_le hx hy).2) first rest numbers
  obtain ⟨greatest_mem, greatest⟩ := foldl_chosen (·.isNaN = false) (fun x y => le y x = true)
    max_eq_or (fun _ => le_refl) (fun _ _ _ h h' => le_trans h' h)
    (fun _ _ hx hy => (le_max hx hy).1) (fun _ _ hx hy => (le_max hx hy).2) first rest numbers
  exact ⟨least_mem, greatest_mem, fun x member => ⟨least x member, greatest x member⟩⟩

end Binary64

/-- A box that holds points and has one of them at each of its edges. -/
structure Box.IsTight (b : Box) (points : List (Binary64 × Binary64)) : Prop where
  across : Binary64.AreEnds b.left b.right (points.map (·.1))
  upward : Binary64.AreEnds b.bottom b.top (points.map (·.2))

/-- The four edges of a box are found independently of each other. -/
theorem Box.foldl_extend (b : Box) (points : List (Binary64 × Binary64)) :
    points.foldl extend b =
      ⟨(points.map (·.1)).foldl .min b.left, (points.map (·.1)).foldl .max b.right,
        (points.map (·.2)).foldl .min b.bottom, (points.map (·.2)).foldl .max b.top⟩ := by
  induction points generalizing b with
  | nil => rfl
  | cons p rest ih => exact ih (b.extend p)

theorem Chart.isTight_of_bounds {c : Chart} {b : Box} (h : c.bounds = some b)
    (numbers : ∀ p ∈ c.points, p.1.isNaN = false ∧ p.2.isNaN = false) : b.IsTight c.points := by
  unfold bounds at h
  cases points : c.points with
  | nil =>
    rw [points] at h
    cases h
  | cons first rest =>
    rw [points] at h numbers
    obtain rfl := Option.some.inj h
    have xs : ∀ x ∈ (first :: rest).map (·.1), x.isNaN = false :=
      List.forall_mem_map.mpr fun p member => (numbers p member).1
    have ys : ∀ y ∈ (first :: rest).map (·.2), y.isNaN = false :=
      List.forall_mem_map.mpr fun p member => (numbers p member).2
    rw [Box.foldl_extend]
    exact ⟨Binary64.areEnds_foldl _ _ xs, Binary64.areEnds_foldl _ _ ys⟩

end TimingSweep
