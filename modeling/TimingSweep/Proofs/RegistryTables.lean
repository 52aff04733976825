import Mathlib.Data.List.Induction
import Mathlib.Logic.Relation
import TimingSweep.Proofs.ReportContents
import TimingSweep.Registry

/-!
# The table of a registry

A registry puts the rows of each backend together, in the order of the table. So it answers from the
rows alone, and a table may be told in more rows than it needs.

* `isInOrder_iff`: there is one way to put items in the order in which they first come;
* `Merges`, `merges_add`, `merges_foldl`: what one row adds to the rows before it, and what a whole
  table comes to;
* `Retold`, `answersAs_of_retold`: a row that is cut in two, or told again, changes no answer;
* `answers_of_rows`: each answer in terms of the rows, and the answers from a table that is retold.
-/

namespace TimingSweep

theorem eraseDups_concat (items : List String) (next : String) :
    (items ++ [next]).eraseDups =
      if next ∈ items.eraseDups then items.eraseDups else items.eraseDups ++ [next] := by
  rw [List.eraseDups_append]
  by_cases known : next ∈ items <;> simp [List.removeAll, List.eraseDups_cons, known]

theorem isInOrder_eraseDups (items : List String) : IsInOrder items.eraseDups items := by
  induction items using List.reverseRecOn with
  | nil => exact isInOrder_nil
  | append_singleton items next ih =>
    rw [eraseDups_concat]
    exact ih.concat next

theorem IsInOrder.unique {once once' items : List String} (h : IsInOrder once items)
    (h' : IsInOrder once' items) : once = once' := by
  have same : once.Perm once' := (List.perm_ext_iff_of_nodup h.nodup h'.nodup).mpr fun item =>
    (h.mem_iff item).trans (h'.mem_iff item).symm
  apply same.eq_of_pairwise _ h.first h'.first
  intro a b _ _ before behind
  exact absurd behind (Nat.lt_asymm before)

theorem isInOrder_iff {once items : List String} :
    IsInOrder once items ↔ once = items.eraseDups := by
  constructor
  · intro h
    exact h.unique (isInOrder_eraseDups items)
  · rintro rfl
    exact isInOrder_eraseDups items

/-- Items that are known where they come add nothing. -/
theorem eraseDups_of_known {before known : List String} (h : ∀ item ∈ known, item ∈ before)
    (after : List String) :
    (before ++ (known ++ after)).eraseDups = (before ++ after).eraseDups := by
  have nothing : known.removeAll before = [] := by
    rw [List.removeAll, List.filter_eq_nil_iff]
    intro item member
    simpa using h item member
  have dropped : (known ++ after).removeAll before = after.removeAll before := by
    rw [List.removeAll, List.filter_append]
    exact congrArg (· ++ after.removeAll before) nothing
  rw [List.eraseDups_append, dropped, List.eraseDups_append]

namespace Registry

/-- What the rows of a backend list, one row after another. -/
def listed (rows : List (String × List String)) (backend : String) : List String :=
  (rows.filter (·.1 = backend)).flatMap (·.2)

/-- Some row of a backend lists an algorithm. -/
def Lists (rows : List (String × List String)) (backend algorithm : String) : Prop :=
  ∃ row ∈ rows, row.1 = backend ∧ algorithm ∈ row.2

instance (rows : List (String × List String)) (backend algorithm : String) :
    Decidable (Lists rows backend algorithm) :=
  inferInstanceAs (Decidable (∃ row ∈ rows, row.1 = backend ∧ algorithm ∈ row.2))

variable {rows rows' : List (String × List String)} {table : Filing String}
  {backend algorithm : String}

theorem mem_listed : algorithm ∈ listed rows backend ↔ Lists rows backend algorithm := by
  simp [listed, Lists, and_assoc]

theorem listed_append (rows rows' : List (String × List String)) (backend : String) :
    listed (rows ++ rows') backend = listed rows backend ++ listed rows' backend := by
  rw [listed, List.filter_append, List.flatMap_append]
  rfl

theorem listed_cons (row : String × List String) (rows : List (String × List String))
    (backend : String) :
    listed (row :: rows) backend =
      (if row.1 = backend then row.2 else []) ++ listed rows backend := by
  by_cases same : row.1 = backend <;> simp [listed, same]

theorem listed_of_others (others : ∀ row ∈ rows, row.1 ≠ backend) : listed rows backend = [] := by
  rw [listed, List.filter_eq_nil_iff.mpr]
  · rfl
  · intro row member
    simpa using others row member

/-- The table of some rows: their backends, and under each what its rows list. -/
structure Merges (table : Filing String) (rows : List (String × List String)) : Prop where
  labels : IsInOrder table.labels (rows.map (·.1))
  get : ∀ backend, table.get backend = listed rows backend

theorem merges_nil : Merges [] [] :=
  ⟨isInOrder_nil, fun _ => rfl⟩

theorem merges_add (merges : Merges table rows) (row : String × List String) :
    Merges (table.add row.1 row.2) (rows ++ [row]) := by
  constructor
  · rw [Filing.labels_add, List.map_append]
    exact merges.labels.concat row.1
  · intro backend
    rw [Filing.get_add, merges.get, listed_append, listed_cons]
    simp only [eq_comm (a := backend)]
    exact congrArg _ (List.append_nil _).symm

theorem merges_foldl (merges : Merges table rows) (rest : List (String × List String)) :
    Merges (rest.foldl (fun table row => Filing.add row.1 row.2 table) table) (rows ++ rest) := by
  induction rest generalizing table rows with
  | nil => rwa [List.append_nil]
  | cons row rest ih =>
    rw [List.foldl_cons, List.append_cons]
    exact ih (merges_add merges row)

theorem merges_ofTable (rows : List (String × List String)) : Merges (ofTable rows).table rows :=
  merges_foldl merges_nil rows

theorem backends_ofTable (rows : List (String × List String)) :
    (ofTable rows).backends = (rows.map (·.1)).eraseDups :=
  isInOrder_iff.mp (merges_ofTable rows).labels

theorem algorithmsFor_ofTable (rows : List (String × List String)) (backend : String) :
    (ofTable rows).algorithmsFor backend = (listed rows backend).eraseDups := by
  rw [algorithmsFor, (merges_ofTable rows).get]

theorem supports_ofTable :
    (ofTable rows).supports backend algorithm = true ↔ Lists rows backend algorithm := by
  rw [supports_iff, algorithmsFor_ofTable, List.mem_eraseDups, mem_listed]

theorem eligible_ofTable (rows : List (String × List String)) (request : Request) :
    (ofTable rows).eligible request =
      request.competitors.filter (Lists rows · request.algorithm) := by
  apply List.filter_congr
  intro competitor _
  rw [Bool.eq_iff_iff, supports_ofTable, decide_eq_true_iff]

/-- Two registries cannot be told apart. -/
structure AnswersAs (r r' : Registry) : Prop where
  backends : r.backends = r'.backends
  algorithmsFor : ∀ backend, r.algorithmsFor backend = r'.algorithmsFor backend
  supports : ∀ backend algorithm, r.supports backend algorithm = r'.supports backend algorithm
  eligible : ∀ request, r.eligible request = r'.eligible request

/-- A table in more rows than before. A row is cut in two, and rows of other backends may stand
between its parts; or a row is told once more behind itself. -/
inductive Retold : List (String × List String) → List (String × List String) → Prop
  | cut {between : List (String × List String)} {backend : String}
      (others : ∀ row ∈ between, row.1 ≠ backend) (first rest : List String)
      (before after : List (String × List String)) :
      Retold (before ++ (backend, first ++ rest) :: (between ++ after))
        (before ++ (backend, first) :: (between ++ (backend, rest) :: after))
  | again {before : List (String × List String)} {row : String × List String}
      (told : row ∈ before) (after : List (String × List String)) :
      Retold (before ++ after) (before ++ row :: after)

theorem eraseDups_backends_of_retold (h : Retold rows rows') :
    (rows.map (·.1)).eraseDups = (rows'.map (·.1)).eraseDups := by
  cases h with
  | cut others first rest before after =>
    rename_i between backend
    -- the second part comes when its backend is known from the first
    have known : ∀ item ∈ [backend],
        item ∈ (before ++ (backend, first) :: between).map (·.1) := by simp
    have again := eraseDups_of_known known (after.map (·.1))
    simpa using again.symm
  | again told after =>
    rename_i before row
    have known : ∀ item ∈ [row.1], item ∈ before.map (·.1) := by
      intro item member
      rw [List.mem_singleton.mp member]
      exact List.mem_map_of_mem told
    have again := eraseDups_of_known known (after.map (·.1))
    rw [List.map_append, List.map_append, List.map_cons]
    exact again.symm

theorem eraseDups_listed_of_retold (h : Retold rows rows') (backend : String) :
    (listed rows backend).eraseDups = (listed rows' backend).eraseDups := by
  cases h with
  | @cut between other others first rest before after =>
    simp only [listed_append, listed_cons]
    by_cases same : other = backend
    · subst same
      simp only [if_pos, listed_of_others others, List.nil_append, List.append_assoc]
    · simp only [if_neg same, List.nil_append]
  | @again before row told after =>
    have known : ∀ algorithm ∈ if row.1 = backend then row.2 else [],
        algorithm ∈ listed before backend := by
      intro algorithm member
      split at member
      · rename_i same
        exact mem_listed.mpr ⟨row, told, same, member⟩
      · cases member
    rw [listed_append, listed_append, listed_cons]
    exact (eraseDups_of_known known (listed after backend)).symm

theorem answersAs_of_retold (h : Retold rows rows') : (ofTable rows).AnswersAs (ofTable rows') := by
  have algorithms : ∀ backend,
      (ofTable rows).algorithmsFor backend = (ofTable rows').algorithmsFor backend := by
    intro backend
    rw [algorithmsFor_ofTable, algorithmsFor_ofTable, eraseDups_listed_of_retold h]
  have supports : ∀ backend algorithm,
      (ofTable rows).supports backend algorithm = (ofTable rows').supports backend algorithm := by
    intro backend algorithm
    rw [Bool.eq_iff_iff, supports_iff, supports_iff, algorithms]
  refine ⟨?_, algorithms, supports, fun request => ?_⟩
  · rw [backends_ofTable, backends_ofTable, eraseDups_backends_of_retold h]
  · simp only [eligible, supports]

theorem AnswersAs.trans {r r' r'' : Registry} (h : r.AnswersAs r') (h' : r'.AnswersAs r'') :
    r.AnswersAs r'' where
  backends := h.backends.trans h'.backends
  algorithmsFor backend := (h.algorithmsFor backend).trans (h'.algorithmsFor backend)
  supports backend algorithm := (h.supports backend algorithm).trans (h'.supports backend algorithm)
  eligible request := (h.eligible request).trans (h'.eligible request)

theorem answersAs_of_retellings (h : Relation.ReflTransGen Retold rows rows') :
    (ofTable rows).AnswersAs (ofTable rows') := by
  induction h with
  | refl => exact ⟨rfl, fun _ => rfl, fun _ _ => rfl, fun _ => rfl⟩
  | tail _ step ih => exact ih.trans (answersAs_of_retold step)

/-- A backend supports what one of its rows lists, and this is what is given as its algorithms.
Backends and algorithms are given once each, where they first come in the table. Of the competitors
of a request those are eligible that some row supports. A table that tells its rows in parts, or
again, is answered from in the same way. -/
theorem answers_of_rows (rows : List (String × List String)) :
    (∀ backend algorithm,
      ((ofTable rows).supports backend algorithm = true ↔ Lists rows backend algorithm) ∧
      ((ofTable rows).supports backend algorithm = true ↔
        algorithm ∈ (ofTable rows).algorithmsFor backend)) ∧
    IsInOrder (ofTable rows).backends (rows.map (·.1)) ∧
    (∀ backend, IsInOrder ((ofTable rows).algorithmsFor backend) (listed rows backend) ∧
      ((∀ row ∈ rows, row.1 ≠ backend) → (ofTable rows).algorithmsFor backend = [])) ∧
    (∀ request, (ofTable rows).eligible request =
      request.competitors.filter (Lists rows · request.algorithm)) ∧
    ∀ rows', Relation.ReflTransGen Retold rows rows' →
      (ofTable rows).AnswersAs (ofTable rows') := by
  refine ⟨fun backend algorithm => ⟨supports_ofTable, supports_iff ..⟩,
    (merges_ofTable rows).labels, fun backend => ⟨?_, fun unknown => ?_⟩, eligible_ofTable rows,
    fun rows' => answersAs_of_retellings⟩
  · exact isInOrder_iff.mpr (algorithmsFor_ofTable rows backend)
  · rw [algorithmsFor_ofTable, listed_of_others unknown]
    rfl

/-- A row that is cut around one of another backend, and one that is told again at the end. -/
theorem cut_answers_of_rows :
    let whole : List (String × List String) := [("tbb", ["sort", "merge"]), ("stl", ["sort"])]
    let parts : List (String × List String) :=
      [("tbb", ["sort"]), ("stl", ["sort"]), ("tbb", ["merge"]), ("stl", ["sort"])]
    (Registry.ofTable parts).backends = ["tbb", "stl"] ∧
    (Registry.ofTable parts).algorithmsFor "tbb" = ["sort", "merge"] ∧
    (Registry.ofTable parts).algorithmsFor "thrust" = [] ∧
    (Registry.ofTable parts).eligible ⟨"merge", [2], ["tbb", "stl", "tbb"]⟩ = ["tbb", "tbb"] ∧
    (Registry.ofTable whole).AnswersAs (.ofTable parts) := by
  intro whole parts
  have others : ∀ row ∈ [("stl", ["sort"])], row.1 ≠ "tbb" := by decide
  have told : ("stl", ["sort"]) ∈ [("tbb", ["sort"]), ("stl", ["sort"]), ("tbb", ["merge"])] := by
    decide
  have cut : Retold whole [("tbb", ["sort"]), ("stl", ["sort"]), ("tbb", ["merge"])] :=
    .cut others ["sort"] ["merge"] [] []
  have again : Retold [("tbb", ["sort"]), ("stl", ["sort"]), ("tbb", ["merge"])] parts :=
    .again told []
  obtain ⟨-, -, algorithms, -⟩ := answers_of_rows parts
  obtain ⟨-, -, -, -, same⟩ := answers_of_rows whole
  exact ⟨by decide, by decide, (algorithms "thrust").2 (by decide), by decide,
    same parts (.tail (.single cut) again)⟩

end Registry

end TimingSweep
