import TimingSweep.Failure
import TimingSweep.Identifier
import TimingSweep.Json.Value

/-!
# Requests

A `Request` asks for one sweep: an algorithm, the sizes it is run with, and the competitors to try.

* `check_eq_ok`: a request is accepted exactly if all its names are identifiers and no size is zero;
* `ensureValid_of_ok`, `ensureValid_of_error`: what is told of that.
-/

namespace TimingSweep

structure Request where
  algorithm : String
  sizes : List UInt64
  competitors : List String
  deriving DecidableEq

namespace Request

def checkSizes (sizes : List UInt64) : Except Objection Unit :=
  if sizes.contains 0 then .error .zeroSize else .ok ()

/-- The first objection to one of the labels. -/
def checkLabels : List String → Except Objection Unit
  | [] => .ok ()
  | label :: rest =>
    match Identifier.check .backend label with
    | .error objection => .error objection
    | .ok () => checkLabels rest

/-- The first objection, in the order algorithm, sizes, competitors. -/
def check (r : Request) : Except Objection Unit :=
  if r.algorithm = "" then .error .noAlgorithm
  else do
    Identifier.check .algorithm r.algorithm
    checkSizes r.sizes
    checkLabels r.competitors

/-- The check as a failure: the first objection is told. -/
def ensureValid (order : ParameterOrder) (r : Request) : Except Failure Unit :=
  r.check.mapError fun objection => .refused (objection.message order)

/-- The number of programs that a sweep starts if this many of the competitors take part. -/
def invocations (r : Request) (eligible : Nat) : Nat := r.sizes.length * (1 + eligible)

def toJson (r : Request) : Json.Value :=
  .record [
    ("algorithm", .text r.algorithm),
    ("sizes", .list (r.sizes.map fun size => .whole size.toNat)),
    ("competitors", .list (r.competitors.map .text))]

theorem checkLabels_eq_ok {labels : List String} :
    checkLabels labels = .ok () ↔
      ∀ label ∈ labels, Identifier.check .backend label = .ok () := by
  induction labels with
  | nil => simp [checkLabels]
  | cons label rest ih =>
    cases h : Identifier.check .backend label <;> simp [checkLabels, h, ih]

theorem check_eq_ok {r : Request} :
    r.check = .ok () ↔
      Identifier.check .algorithm r.algorithm = .ok () ∧ 0 ∉ r.sizes ∧
        ∀ label ∈ r.competitors, Identifier.check .backend label = .ok () := by
  unfold check
  split
  · rename_i h
    simp [h, Identifier.check]
  · cases h : Identifier.check .algorithm r.algorithm with
    | error objection => simp [bind, Except.bind]
    | ok _ =>
      by_cases zero : (0 : UInt64) ∈ r.sizes
      · simp [bind, Except.bind, checkSizes, zero]
      · simp [bind, Except.bind, checkSizes, zero, checkLabels_eq_ok]

variable {r : Request} (order : ParameterOrder)

theorem ensureValid_of_ok (accepted : r.check = .ok ()) : r.ensureValid order = .ok () := by
  rw [ensureValid, accepted]
  rfl

theorem ensureValid_of_error {o : Objection} (refused : r.check = .error o) :
    r.ensureValid order = .error (.refused (o.message order)) := by
  rw [ensureValid, refused]
  rfl

end Request

end TimingSweep
