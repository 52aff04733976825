import TimingSweep.Proofs.DirectoryEntries
import TimingSweep.Proofs.Replies

/-!
# Executables of different measurements

The name of an executable joins backend and algorithm by an underscore, which may also stand in
either of them. So two measurements share an executable exactly if the same name is cut at two of
its underscores.

* `joined_eq_iff`: where two texts that are joined by an underscore are the same;
* `qualified_eq_iff`: which measurements have one name;
* `TakesOver.differ`: measurements that share an executable differ in algorithm and backend;
* `name_eq_iff_takesOver`: which measurements share an executable, and that those of one sweep do
  not unless they are of the same backend.
-/

namespace TimingSweep

/-- What is joined by an underscore, cut at another underscore: one cut lies before the other. -/
theorem cut_at_underscore {front back front' back' : List Char}
    (same : front ++ '_' :: back = front' ++ '_' :: back') :
    front = front' ∧ back = back' ∨
      (∃ moved, back = moved ++ '_' :: back' ∧ front' = front ++ '_' :: moved) ∨
      ∃ moved, back' = moved ++ '_' :: back ∧ front = front' ++ '_' :: moved := by
  rcases List.append_eq_append_iff.mp same with ⟨between, rfl, rest⟩ | ⟨between, rfl, rest⟩
  · cases between with
    | nil =>
      rw [List.nil_append, List.cons.injEq] at rest
      exact Or.inl ⟨by rw [List.append_nil], rest.2⟩
    | cons c moved =>
      rw [List.cons_append, List.cons.injEq] at rest
      obtain ⟨rfl, rest⟩ := rest
      exact Or.inr (Or.inl ⟨moved, rest, rfl⟩)
  · cases between with
    | nil =>
      rw [List.nil_append, List.cons.injEq] at rest
      exact Or.inl ⟨by rw [List.append_nil], rest.2.symm⟩
    | cons c moved =>
      rw [List.cons_append, List.cons.injEq] at rest
      obtain ⟨rfl, rest⟩ := rest
      exact Or.inr (Or.inr ⟨moved, rest, rfl⟩)

namespace Executable

/-- Two texts with an underscore between them. -/
def joined (front back : String) : String := front ++ "_" ++ back

theorem toList_joined (front back : String) :
    (joined front back).toList = front.toList ++ '_' :: back.toList := by
  rw [joined, String.toList_append, String.toList_append, List.append_assoc]
  rfl

theorem joined_assoc (front middle back : String) :
    joined (joined front middle) back = joined front (joined middle back) := by
  simp only [joined, String.append_assoc]

theorem joined_eq_iff {front back front' back' : String} :
    joined front back = joined front' back' ↔
      front = front' ∧ back = back' ∨
      (∃ moved, back = joined moved back' ∧ front' = joined front moved) ∨
      ∃ moved, back' = joined moved back ∧ front = joined front' moved := by
  constructor
  · intro same
    rw [← String.toList_inj, toList_joined, toList_joined] at same
    rcases cut_at_underscore same with ⟨fronts, backs⟩ | ⟨moved, longer, cut⟩ | ⟨moved, longer, cut⟩
    · exact Or.inl ⟨String.toList_inj.mp fronts, String.toList_inj.mp backs⟩
    · refine Or.inr (Or.inl ⟨.ofList moved, ?_, ?_⟩) <;>
        rw [← String.toList_inj, toList_joined, String.toList_ofList]
      · exact longer
      · exact cut
    · refine Or.inr (Or.inr ⟨.ofList moved, ?_, ?_⟩) <;>
        rw [← String.toList_inj, toList_joined, String.toList_ofList]
      · exact longer
      · exact cut
  · rintro (⟨rfl, rfl⟩ | ⟨moved, rfl, rfl⟩ | ⟨moved, rfl, rfl⟩)
    · rfl
    · exact (joined_assoc ..).symm
    · exact joined_assoc ..

/-- A joined text is longer than what it is joined of. -/
theorem joined_ne_front (front back : String) : joined front back ≠ front := by
  intro same
  have length := congrArg (fun s : String => s.toList.length) same
  simp only [toList_joined, List.length_append, List.length_cons] at length
  omega

theorem joined_ne_back (front back : String) : joined front back ≠ back := by
  intro same
  have length := congrArg (fun s : String => s.toList.length) same
  simp only [toList_joined, List.length_append, List.length_cons] at length
  omega

theorem underscore_mem_joined (front back : String) : '_' ∈ (joined front back).toList := by
  rw [toList_joined]
  exact List.mem_append_right _ List.mem_cons_self

/-- What tells executables apart: the algorithm, behind its backend if there is one. -/
def qualified (backend : Option String) (algorithm : String) : String :=
  match backend with
  | none => algorithm
  | some backend => joined backend algorithm

/-- The longer algorithm is a moved part before the other algorithm, and in the other measurement
that part stands last in the backend. -/
def TakesOver (algorithm : String) (backend : Option String) (algorithm' : String)
    (backend' : Option String) : Prop :=
  ∃ moved, algorithm = joined moved algorithm' ∧ backend' = some (qualified backend moved)

variable {algorithm algorithm' : String} {backend backend' : Option String}

theorem name_eq_joined (algorithm : String) (backend : Option String) :
    name algorithm backend = joined nameStart (qualified backend algorithm) := by
  cases backend with
  | none => rfl
  | some backend => simp only [name, qualified, joined, String.append_assoc]

theorem qualified_eq_iff :
    qualified backend algorithm = qualified backend' algorithm' ↔
      algorithm = algorithm' ∧ backend = backend' ∨
      TakesOver algorithm backend algorithm' backend' ∨
      TakesOver algorithm' backend' algorithm backend := by
  unfold TakesOver
  cases backend with
  | none =>
    cases backend' with
    | none => simp [qualified]
    | some backend' => simp [qualified]
  | some backend =>
    cases backend' with
    | none => simp [qualified, eq_comm]
    | some backend' =>
      simp only [qualified, joined_eq_iff, Option.some.injEq]
      rw [and_comm (a := backend = backend')]

/-- The longer algorithm has an underscore, and neither the algorithms nor the backends are the
same. -/
theorem TakesOver.differ (h : TakesOver algorithm backend algorithm' backend') :
    algorithm ≠ algorithm' ∧ backend ≠ backend' ∧ '_' ∈ algorithm.toList := by
  obtain ⟨moved, longer, behind⟩ := h
  refine ⟨?_, ?_, longer ▸ underscore_mem_joined ..⟩
  · rw [longer]
    exact joined_ne_back moved algorithm'
  · rw [behind]
    cases backend with
    | none => exact nofun
    | some backend =>
      intro same
      exact joined_ne_front _ _ (Option.some.inj same).symm

theorem eq_of_qualified_eq (alike : algorithm = algorithm' ∨ backend = backend' ∨
      '_' ∉ algorithm.toList ∧ '_' ∉ algorithm'.toList)
    (same : qualified backend algorithm = qualified backend' algorithm') :
    algorithm = algorithm' ∧ backend = backend' := by
  rcases qualified_eq_iff.mp same with equal | longer | shorter
  · exact equal
  · obtain ⟨algorithms, backends, underscore⟩ := longer.differ
    rcases alike with one | one | ⟨absent, -⟩
    · exact absurd one algorithms
    · exact absurd one backends
    · exact absurd underscore absent
  · obtain ⟨algorithms, backends, underscore⟩ := shorter.differ
    rcases alike with one | one | ⟨-, absent⟩
    · exact absurd one.symm algorithms
    · exact absurd one.symm backends
    · exact absurd underscore absent

theorem name_eq_iff_qualified :
    name algorithm backend = name algorithm' backend' ↔
      qualified backend algorithm = qualified backend' algorithm' := by
  rw [name_eq_joined, name_eq_joined]
  exact String.append_right_inj _

/-- Two measurements share an executable exactly if they are the same, or one algorithm takes over a
part of the other's backend. Then they differ in both, and the longer algorithm has an underscore;
so the measurements of one sweep, which are of one algorithm, have one executable for each
backend. -/
theorem name_eq_iff_takesOver (algorithm algorithm' : String) (backend backend' : Option String) :
    (name algorithm backend = name algorithm' backend' ↔
      algorithm = algorithm' ∧ backend = backend' ∨
      TakesOver algorithm backend algorithm' backend' ∨
      TakesOver algorithm' backend' algorithm backend) ∧
    (algorithm = algorithm' ∨ backend = backend' ∨
        '_' ∉ algorithm.toList ∧ '_' ∉ algorithm'.toList →
      name algorithm backend = name algorithm' backend' →
      algorithm = algorithm' ∧ backend = backend') ∧
    ∀ (registry : Registry) (source : TimingSource) (generatedAt : String)
      (order : ParameterOrder) (request : Request) (directory : String),
      let calls := (Sweep.run registry source generatedAt order request).calls
      ∀ call ∈ calls, ∀ call' ∈ calls,
        path directory call.algorithm call.backend =
          path directory call'.algorithm call'.backend ↔ call.backend = call'.backend := by
  refine ⟨name_eq_iff_qualified.trans qualified_eq_iff, fun alike same =>
    eq_of_qualified_eq alike (name_eq_iff_qualified.mp same), ?_⟩
  intro registry source generatedAt order request directory calls call made call' made'
  have algorithms : call.algorithm = call'.algorithm :=
    (Request.mem_plan_iff.mp (mem_plan_of_mem_calls made)).1.trans
      (Request.mem_plan_iff.mp (mem_plan_of_mem_calls made')).1.symm
  rw [path_inj, name_eq_iff_qualified, algorithms]
  constructor
  · intro same
    exact (eq_of_qualified_eq (Or.inl rfl) same).2
  · intro same
    rw [same]

/-- `inner_product` takes over a part of the backend `stl_inner`, while no backend shares its
executable of `sort` with another. -/
theorem inner_product_takes_over :
    name "inner_product" (some "stl") = name "product" (some "stl_inner") ∧
    name "sort" (some "stl") ≠ name "sort" (some "stl_inner") := by
  obtain ⟨shared, -, -⟩ :=
    name_eq_iff_takesOver "inner_product" "product" (some "stl") (some "stl_inner")
  obtain ⟨-, own, -⟩ := name_eq_iff_takesOver "sort" "sort" (some "stl") (some "stl_inner")
  refine ⟨shared.mpr (Or.inr (Or.inl ⟨"inner", by decide, by decide⟩)), fun same => ?_⟩
  exact absurd (own (Or.inl rfl) same).2 (by decide)

/-- The primary implementation of `tbb_sort` has the executable of `sort` by the backend `tbb`. -/
theorem tbb_sort_shares_executable :
    Identifier.check .algorithm "tbb_sort" = .ok () ∧ Identifier.check .algorithm "sort" = .ok () ∧
    Identifier.check .backend "tbb" = .ok () ∧
    ("tbb_sort", none) ≠ ("sort", some "tbb") ∧
    name "tbb_sort" none = name "sort" (some "tbb") :=
  ⟨rfl, rfl, rfl, by decide, by decide⟩

end Executable

end TimingSweep
