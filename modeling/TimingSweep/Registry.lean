import TimingSweep.Backend
import TimingSweep.Filing
import TimingSweep.Request

/-!
# Registries

A `Registry` says which backends have an implementation of which algorithms. A backend may have
several rows in the table it is built from.

* `supports_iff`: a backend supports what is listed for it.
-/

namespace TimingSweep

structure Registry where
  table : Filing String

namespace Registry

/-- Puts the rows of each backend together. -/
def ofTable (rows : List (String × List String)) : Registry :=
  ⟨rows.foldl (fun table row => Filing.add row.1 row.2 table) []⟩

def backends (r : Registry) : List String := r.table.labels

/-- The algorithms of a backend in the order of the table, each once. -/
def algorithmsFor (r : Registry) (backend : String) : List String :=
  (r.table.get backend).eraseDups

def supports (r : Registry) (backend algorithm : String) : Bool :=
  (r.table.get backend).contains algorithm

theorem supports_iff (r : Registry) (backend algorithm : String) :
    r.supports backend algorithm = true ↔ algorithm ∈ r.algorithmsFor backend := by
  simp [supports, algorithmsFor]

/-- The competitors of a request that have its algorithm, in their order. -/
def eligible (r : Registry) (request : Request) : List String :=
  request.competitors.filter fun competitor => r.supports competitor request.algorithm

/-- The implementations that come with the benchmarks. -/
def builtin : Registry := .ofTable [
  (Backend.thrust, ["accumulate", "count", "inner_product", "partial_sum", "sort", "saxpy"]),
  (Backend.tbb, ["accumulate", "merge", "sort"]),
  (Backend.stl, [
    "accumulate", "count", "find_end", "includes", "inner_product", "is_permutation", "merge",
    "next_permutation", "nth_element", "partial_sum", "partition", "partition_point",
    "prev_permutation", "reverse", "rotate", "rotate_copy", "search", "search_n",
    "set_difference", "set_intersection", "set_symmetric_difference", "set_union", "sort",
    "stable_partition", "unique", "unique_copy"])]

end Registry

end TimingSweep
