/-!
# Identifiers

Algorithms and backends are named by identifiers, since the names become parts of file names:
letters, digits and underscores of ASCII, at least one and at most 64.

* `check_eq_ok`: a name is accepted exactly if it is such an identifier;
* `not_mem_of_check`: no other character is in it.
-/

namespace TimingSweep

/-- What a name stands for. -/
inductive Named where
  | algorithm
  | backend
  deriving DecidableEq

def Named.title : Named → String
  | .algorithm => "Algorithm name"
  | .backend => "Backend label"

/-- Why a name or a request is refused. -/
inductive Objection where
  | noAlgorithm
  | empty (what : Named)
  | tooLong (what : Named)
  | foreign (what : Named)
  | zeroSize
  deriving DecidableEq

/-- The order in which the two parameters of a length check come out of the hash table that the
validation library keeps them in. The table is seeded anew each time, so either may come. -/
inductive ParameterOrder where
  | minimumFirst
  | valueFirst
  deriving DecidableEq

/-- The parameters of the length check that an empty algorithm does not pass. -/
def ParameterOrder.listed (order : ParameterOrder) : String :=
  let minimum := "\"min\": Number(1)"
  let value := "\"value\": String(\"\")"
  match order with
  | .minimumFirst => minimum ++ ", " ++ value
  | .valueFirst => value ++ ", " ++ minimum

/-- What is told of an objection. The first text is that of the validation library. -/
def Objection.message (order : ParameterOrder) : Objection → String
  | .noAlgorithm => "algorithm: Validation error: length [\x7b" ++ order.listed ++ "\x7d]"
  | .empty what => what.title ++ " cannot be empty"
  | .tooLong what => what.title ++ " must be at most 64 characters"
  | .foreign what => what.title ++ " can only contain letters, numbers, and underscores"
  | .zeroSize => "Input sizes must be positive integers"

namespace Identifier

/-- The greatest length of an identifier in octets. -/
def maxSize : Nat := 64

def allows (c : Char) : Bool := c.isAlphanum || c = '_'

/-- The length is judged before the characters. -/
def check (what : Named) (name : String) : Except Objection Unit :=
  if name = "" then .error (.empty what)
  else if maxSize < name.utf8ByteSize then .error (.tooLong what)
  else if !name.toList.all allows then .error (.foreign what)
  else .ok ()

theorem check_eq_ok {what : Named} {name : String} :
    check what name = .ok () ↔
      name ≠ "" ∧ name.utf8ByteSize ≤ maxSize ∧ name.toList.all allows = true := by
  unfold check
  by_cases unnamed : name = ""
  · simp [unnamed]
  · by_cases long : maxSize < name.utf8ByteSize
    · simp [unnamed, long, Nat.not_le.mpr long]
    · by_cases all : name.toList.all allows = true
      · simp [unnamed, long, Nat.not_lt.mp long, all]
      · simp [unnamed, long, all]

theorem not_mem_of_check {what : Named} {name : String} (accepted : check what name = .ok ())
    {c : Char} (foreign : allows c = false) : c ∉ name.toList := by
  intro member
  have all := (check_eq_ok.mp accepted).2.2
  rw [List.all_eq_true.mp all c member] at foreign
  cases foreign

end Identifier

end TimingSweep
