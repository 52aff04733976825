import TimingSweep.Proofs.Replies

/-!
# Objections to requests

A request is judged by its algorithm, then its sizes, then its competitors from the first to the
last, and the first thing that is wrong is the objection. What comes behind it makes no difference.
Only of an empty algorithm two things may be told, which differ in the order of two parameters.

* `check_eq_ok_iff`: the names that are accepted, counted in characters;
* `check_eq_error_iff`: what is objected to in a name;
* `checkLabels_eq_error_iff`: of several labels the first that is wrong is objected to;
* `Request.check_eq_error_iff`: the same for a whole request;
* `ensureValid_eq_iff`: which requests are told the same;
* `ensureValid_by_first_objection`: which requests are accepted, what is told of the others, and
  that these are not run.
-/

namespace TimingSweep

namespace Identifier

/-- A letter or a digit of ASCII, or an underscore. -/
def IsNameCharacter (c : Char) : Prop :=
  'A' ≤ c ∧ c ≤ 'Z' ∨ 'a' ≤ c ∧ c ≤ 'z' ∨ '0' ≤ c ∧ c ≤ '9' ∨ c = '_'

/-- From 1 to 64 of these characters. -/
structure IsIdentifier (name : String) : Prop where
  filled : 1 ≤ name.length
  short : name.length ≤ 64
  plain : ∀ c ∈ name.toList, IsNameCharacter c

/-- What is wrong with a name. The length is counted in octets, and a name that is too long is not
looked at further. -/
inductive IsObjection (what : Named) : String → Objection → Prop
  | empty : IsObjection what "" (.empty what)
  | tooLong {name : String} (long : 64 < name.utf8ByteSize) :
      IsObjection what name (.tooLong what)
  | foreign {name : String} (short : name.utf8ByteSize ≤ 64) {c : Char} (member : c ∈ name.toList)
      (other : ¬ IsNameCharacter c) : IsObjection what name (.foreign what)

variable {what : Named} {name : String} {c : Char} {o : Objection}

theorem IsObjection.ne_noAlgorithm (objected : IsObjection what name o) : o ≠ .noAlgorithm := by
  cases objected <;> exact nofun

theorem allows_iff : allows c = true ↔ IsNameCharacter c := by
  have upper : c.isUpper = true ↔ 'A' ≤ c ∧ c ≤ 'Z' := decide_eq_true_iff
  have lower : c.isLower = true ↔ 'a' ≤ c ∧ c ≤ 'z' := by
    have both : c.isLower = (decide ('a' ≤ c) && decide (c ≤ 'z')) := rfl
    rw [both, Bool.and_eq_true, decide_eq_true_iff, decide_eq_true_iff]
  have digit : c.isDigit = true ↔ '0' ≤ c ∧ c ≤ '9' := by
    have both : c.isDigit = (decide ('0' ≤ c) && decide (c ≤ '9')) := rfl
    rw [both, Bool.and_eq_true, decide_eq_true_iff, decide_eq_true_iff]
  have any : allows c = (c.isUpper || c.isLower || c.isDigit || decide (c = '_')) := rfl
  rw [any, IsNameCharacter, Bool.or_eq_true, Bool.or_eq_true, Bool.or_eq_true, upper, lower, digit,
    decide_eq_true_iff, or_assoc, or_assoc]

theorem all_allows_iff : name.toList.all allows = true ↔ ∀ c ∈ name.toList, IsNameCharacter c := by
  simp only [List.all_eq_true, allows_iff]

theorem utf8Size_of_isNameCharacter (plain : IsNameCharacter c) : c.utf8Size = 1 := by
  rw [Char.utf8Size_eq_one_iff, UInt32.le_iff_toNat_le]
  rcases plain with ⟨_, upper⟩ | ⟨_, upper⟩ | ⟨_, upper⟩ | rfl
  · exact Nat.le_trans (UInt32.le_iff_toNat_le.mp upper) (by decide)
  · exact Nat.le_trans (UInt32.le_iff_toNat_le.mp upper) (by decide)
  · exact Nat.le_trans (UInt32.le_iff_toNat_le.mp upper) (by decide)
  · decide

theorem utf8ByteSize_ofList_of_plain {text : List Char} (plain : ∀ c ∈ text, IsNameCharacter c) :
    (String.ofList text).utf8ByteSize = text.length := by
  induction text with
  | nil => rfl
  | cons c rest ih =>
    rw [List.forall_mem_cons] at plain
    rw [← List.singleton_append, String.ofList_append, String.utf8ByteSize_append, ih plain.2,
      ← String.singleton_eq_ofList, String.utf8ByteSize_singleton,
      utf8Size_of_isNameCharacter plain.1, List.length_append, List.length_singleton]

/-- A name without foreign characters has as many octets as characters. -/
theorem utf8ByteSize_of_plain (plain : ∀ c ∈ name.toList, IsNameCharacter c) :
    name.utf8ByteSize = name.length := by
  have size := utf8ByteSize_ofList_of_plain plain
  rwa [String.ofList_toList, String.length_toList] at size

theorem check_eq_ok_iff : check what name = .ok () ↔ IsIdentifier name := by
  rw [check_eq_ok, all_allows_iff]
  constructor
  · rintro ⟨nonempty, short, plain⟩
    rw [utf8ByteSize_of_plain plain] at short
    have filled : name.length ≠ 0 := fun empty => nonempty (String.length_eq_zero_iff.mp empty)
    exact ⟨Nat.one_le_iff_ne_zero.mpr filled, short, plain⟩
  · rintro ⟨filled, short, plain⟩
    rw [← utf8ByteSize_of_plain plain] at short
    exact ⟨fun empty => by simp [empty] at filled, short, plain⟩

theorem check_eq_error_iff : check what name = .error o ↔ IsObjection what name o := by
  constructor
  · intro objected
    unfold check at objected
    split at objected
    · rename_i empty
      cases objected
      rw [empty]
      exact .empty
    · split at objected
      · rename_i long
        cases objected
        exact .tooLong long
      · split at objected
        · rename_i short foreign
          cases objected
          rw [Bool.not_eq_true', ← Bool.not_eq_true, all_allows_iff] at foreign
          obtain ⟨c, other⟩ := Classical.not_forall.mp foreign
          obtain ⟨member, other⟩ := Classical.not_imp.mp other
          exact .foreign (Nat.not_lt.mp short) member other
        · cases objected
  · intro objection
    cases objection with
    | empty => rfl
    | tooLong long =>
      have nonempty : name ≠ "" := by
        rintro rfl
        exact absurd long (by decide)
      have long : maxSize < name.utf8ByteSize := long
      rw [check, if_neg nonempty, if_pos long]
    | foreign short member other =>
      have nonempty : name ≠ "" := by
        rintro rfl
        exact absurd member (by simp)
      have foreign : (!name.toList.all allows) = true := by
        rw [Bool.not_eq_true', ← Bool.not_eq_true, all_allows_iff]
        exact fun plain => other (plain _ member)
      have short : ¬ maxSize < name.utf8ByteSize := Nat.not_lt.mpr short
      rw [check, if_neg nonempty, if_neg short, if_pos foreign]

end Identifier

namespace Request

open Identifier

variable {r : Request} {o : Objection}

theorem checkSizes_eq_ok_iff {sizes : List UInt64} : checkSizes sizes = .ok () ↔ 0 ∉ sizes := by
  by_cases zero : 0 ∈ sizes <;> simp [checkSizes, zero]

theorem checkSizes_eq_error_iff {sizes : List UInt64} :
    checkSizes sizes = .error o ↔ 0 ∈ sizes ∧ o = .zeroSize := by
  by_cases zero : 0 ∈ sizes <;> simp [checkSizes, zero, eq_comm]

/-- The labels before the one that is objected to are identifiers; those behind it may be
anything. -/
theorem checkLabels_eq_error_iff {labels : List String} :
    checkLabels labels = .error o ↔ ∃ before label after, labels = before ++ label :: after ∧
      (∀ earlier ∈ before, IsIdentifier earlier) ∧ IsObjection .backend label o := by
  induction labels with
  | nil => simp [checkLabels]
  | cons first rest ih =>
    rw [checkLabels]
    cases judged : Identifier.check .backend first with
    | error objection =>
      constructor
      · intro same
        cases same
        refine ⟨[], first, rest, rfl, fun earlier member => ?_, check_eq_error_iff.mp judged⟩
        cases member
      · rintro ⟨before, label, after, cut, accepted, objected⟩
        rw [← check_eq_error_iff] at objected
        cases before with
        | nil =>
          obtain ⟨rfl, rfl⟩ := List.cons.inj cut
          rw [← judged, objected]
        | cons earlier before =>
          -- a label that was accepted is not the one objected to
          obtain ⟨rfl, rfl⟩ := List.cons.inj cut
          rw [check_eq_ok_iff.mpr (accepted first List.mem_cons_self)] at judged
          cases judged
    | ok _ =>
      refine ih.trans ⟨?_, ?_⟩
      · rintro ⟨before, label, after, rfl, accepted, objected⟩
        exact ⟨first :: before, label, after, rfl,
          List.forall_mem_cons.mpr ⟨check_eq_ok_iff.mp judged, accepted⟩, objected⟩
      · rintro ⟨before, label, after, cut, accepted, objected⟩
        cases before with
        | nil =>
          obtain ⟨rfl, rfl⟩ := List.cons.inj cut
          rw [check_eq_error_iff.mpr objected] at judged
          cases judged
        | cons earlier before =>
          obtain ⟨rfl, rfl⟩ := List.cons.inj cut
          exact ⟨before, label, after, rfl, (List.forall_mem_cons.mp accepted).2, objected⟩

/-- The first thing that is wrong with a request. -/
inductive FirstObjection (r : Request) : Objection → Prop
  | unnamed (empty : r.algorithm = "") : FirstObjection r .noAlgorithm
  | algorithm {o : Objection} (named : r.algorithm ≠ "")
      (objected : IsObjection .algorithm r.algorithm o) : FirstObjection r o
  | size (accepted : IsIdentifier r.algorithm) (zero : 0 ∈ r.sizes) : FirstObjection r .zeroSize
  | competitor {o : Objection} (accepted : IsIdentifier r.algorithm) (nonzero : 0 ∉ r.sizes)
      {before after : List String} {label : String}
      (cut : r.competitors = before ++ label :: after)
      (earlier : ∀ label ∈ before, IsIdentifier label) (objected : IsObjection .backend label o) :
      FirstObjection r o

theorem check_eq_ok_iff :
    r.check = .ok () ↔ IsIdentifier r.algorithm ∧ 0 ∉ r.sizes ∧
      ∀ label ∈ r.competitors, IsIdentifier label := by
  simp only [check_eq_ok, Identifier.check_eq_ok_iff]

theorem check_of_unnamed (empty : r.algorithm = "") : r.check = .error .noAlgorithm :=
  if_pos empty

theorem check_of_algorithm (named : r.algorithm ≠ "")
    (objected : IsObjection .algorithm r.algorithm o) : r.check = .error o := by
  rw [check, if_neg named, Identifier.check_eq_error_iff.mpr objected]
  rfl

theorem check_of_identifier (accepted : IsIdentifier r.algorithm) :
    r.check = checkSizes r.sizes >>= fun _ => checkLabels r.competitors := by
  have judged : Identifier.check .algorithm r.algorithm = .ok () :=
    Identifier.check_eq_ok_iff.mpr accepted
  have named : r.algorithm ≠ "" := (Identifier.check_eq_ok.mp judged).1
  rw [check, if_neg named, judged]
  rfl

theorem check_of_zero (accepted : IsIdentifier r.algorithm) (zero : 0 ∈ r.sizes) :
    r.check = .error .zeroSize := by
  rw [check_of_identifier accepted, checkSizes_eq_error_iff.mpr ⟨zero, rfl⟩]
  rfl

theorem check_of_nonzero (accepted : IsIdentifier r.algorithm) (nonzero : 0 ∉ r.sizes) :
    r.check = checkLabels r.competitors := by
  rw [check_of_identifier accepted, checkSizes_eq_ok_iff.mpr nonzero]
  rfl

theorem check_eq_error_iff : r.check = .error o ↔ r.FirstObjection o := by
  constructor
  · intro refused
    by_cases empty : r.algorithm = ""
    · rw [check_of_unnamed empty] at refused
      cases refused
      exact .unnamed empty
    cases judged : Identifier.check .algorithm r.algorithm with
    | error objection =>
      have objected := Identifier.check_eq_error_iff.mp judged
      rw [check_of_algorithm empty objected] at refused
      cases refused
      exact .algorithm empty objected
    | ok _ =>
      have accepted := Identifier.check_eq_ok_iff.mp judged
      by_cases zero : 0 ∈ r.sizes
      · rw [check_of_zero accepted zero] at refused
        cases refused
        exact .size accepted zero
      · rw [check_of_nonzero accepted zero] at refused
        obtain ⟨before, label, after, cut, earlier, objected⟩ :=
          checkLabels_eq_error_iff.mp refused
        exact .competitor accepted zero cut earlier objected
  · intro first
    cases first with
    | unnamed empty => exact check_of_unnamed empty
    | algorithm named objected => exact check_of_algorithm named objected
    | size accepted zero => exact check_of_zero accepted zero
    | competitor accepted nonzero cut earlier objected =>
      rw [check_of_nonzero accepted nonzero]
      exact checkLabels_eq_error_iff.mpr ⟨_, _, _, cut, earlier, objected⟩

/-- What is wrong with the algorithm is the objection whatever else is in the request. -/
theorem exists_check_of_algorithm {other : Request} (same : other.algorithm = r.algorithm)
    (wrong : ¬ IsIdentifier r.algorithm) :
    ∃ o, r.check = .error o ∧ other.check = .error o := by
  by_cases empty : r.algorithm = ""
  · exact ⟨_, check_of_unnamed empty, check_of_unnamed (same.trans empty)⟩
  · cases judged : Identifier.check .algorithm r.algorithm with
    | ok _ => exact absurd (Identifier.check_eq_ok_iff.mp judged) wrong
    | error objection =>
      have objected := Identifier.check_eq_error_iff.mp judged
      refine ⟨objection, check_of_algorithm empty objected, check_of_algorithm ?_ ?_⟩
      · rwa [same]
      · rwa [same]

/-- So is a size of zero once the algorithm is accepted. -/
theorem exists_check_of_sharing {other : Request} (same : other.algorithm = r.algorithm)
    (wrong : ¬ IsIdentifier r.algorithm ∨ 0 ∈ r.sizes ∧ 0 ∈ other.sizes) :
    ∃ o, r.check = .error o ∧ other.check = .error o := by
  by_cases accepted : IsIdentifier r.algorithm
  · obtain ⟨zero, zero'⟩ := wrong.resolve_left (not_not_intro accepted)
    refine ⟨.zeroSize, check_of_zero accepted zero, check_of_zero ?_ zero'⟩
    rwa [same]
  · exact exists_check_of_algorithm same accepted

/-! ## What is told -/

variable {order order' : ParameterOrder}

theorem firstObjection_noAlgorithm_iff : r.FirstObjection .noAlgorithm ↔ r.algorithm = "" := by
  refine ⟨fun first => ?_, .unnamed⟩
  cases first with
  | unnamed empty => exact empty
  | algorithm _ objected => exact absurd rfl objected.ne_noAlgorithm
  | competitor _ _ _ _ objected => exact absurd rfl objected.ne_noAlgorithm

/-- Of the same objection the same is told, but for the order of the parameters in the text of the
validation library. -/
theorem message_eq_iff :
    o.message order = o.message order' ↔ o ≠ .noAlgorithm ∨ order = order' := by
  cases o with
  | noAlgorithm => cases order <;> cases order' <;> decide
  | empty | tooLong | foreign | zeroSize => exact iff_of_true rfl (.inl nofun)

theorem ensureValid_eq_ok_iff : r.ensureValid order = .ok () ↔ r.check = .ok () := by
  cases judged : r.check with
  | ok _ => exact iff_of_true (ensureValid_of_ok order judged) rfl
  | error o =>
    rw [ensureValid_of_error order judged]
    exact iff_of_false nofun nofun

theorem ensureValid_eq_error_iff {failure : Failure} : r.ensureValid order = .error failure ↔
    ∃ o, r.FirstObjection o ∧ failure = .refused (o.message order) := by
  simp only [← check_eq_error_iff]
  cases judged : r.check with
  | ok _ => simp [ensureValid_of_ok order judged]
  | error o => simp [ensureValid_of_error order judged, eq_comm]

/-- Two requests that are refused for the same thing are told the same, except that the parameters
of the check of an empty algorithm may come in two orders. -/
theorem ensureValid_eq_iff {other : Request} (refused : r.check = .error o)
    (refused' : other.check = .error o) :
    r.ensureValid order = other.ensureValid order' ↔ r.algorithm ≠ "" ∨ order = order' := by
  rw [ensureValid_of_error order refused, ensureValid_of_error order' refused', Except.error.injEq,
    Failure.refused.injEq, message_eq_iff]
  refine or_congr_left (not_congr ?_)
  rw [← firstObjection_noAlgorithm_iff, ← check_eq_error_iff, refused, Except.error.injEq]

theorem run_of_error {registry : Registry} {source : TimingSource} {generatedAt : String}
    {failure : Failure} (refused : r.ensureValid order = .error failure) :
    Sweep.run registry source generatedAt order r = ⟨[], .error failure⟩ := by
  simp only [Sweep.run, refused]

/-- A request is accepted exactly if its names are identifiers and its sizes are positive. Any other
is refused for the first thing that is wrong with it, so that nothing behind that matters: requests
that share it are told the same, except that the text for an empty algorithm ends in two parameters
in either order. Running a refused request tells just what judging it tells where the parameters
come in the same order, and measures nothing, whatever implementations there are. -/
theorem ensureValid_by_first_objection (r : Request) (order : ParameterOrder) :
    (r.ensureValid order = .ok () ↔ IsIdentifier r.algorithm ∧ 0 ∉ r.sizes ∧
      ∀ label ∈ r.competitors, IsIdentifier label) ∧
    (∀ failure, r.ensureValid order = .error failure ↔
      ∃ o, r.FirstObjection o ∧ failure = .refused (o.message order)) ∧
    (∀ other : Request, other.algorithm = r.algorithm →
      ¬ IsIdentifier r.algorithm ∨ 0 ∈ r.sizes ∧ 0 ∈ other.sizes →
      ∃ o, r.FirstObjection o ∧ other.FirstObjection o ∧
        ∀ order', r.ensureValid order = other.ensureValid order' ↔
          r.algorithm ≠ "" ∨ order = order') ∧
    ∀ failure, r.ensureValid order = .error failure → ∀ registry source generatedAt,
      Sweep.run registry source generatedAt order r = ⟨[], .error failure⟩ := by
  refine ⟨ensureValid_eq_ok_iff.trans check_eq_ok_iff, fun failure => ensureValid_eq_error_iff, ?_,
    fun failure refused registry source generatedAt => run_of_error refused⟩
  intro other same wrong
  obtain ⟨o, refused, refused'⟩ := exists_check_of_sharing same wrong
  exact ⟨o, check_eq_error_iff.mp refused, check_eq_error_iff.mp refused',
    fun order' => ensureValid_eq_iff refused refused'⟩

/-- A request with three things wrong and one with a single thing wrong, of which the same is told;
and a competitor that no implementation would be asked for. -/
theorem path_ensureValid_by_first_objection :
    Request.ensureValid .minimumFirst ⟨"sort", [2, 0], ["../x", ""]⟩ =
      Request.ensureValid .valueFirst ⟨"sort", [0], []⟩ ∧
    Request.ensureValid .minimumFirst ⟨"../sort", [0], [""]⟩ =
      Request.ensureValid .valueFirst ⟨"../sort", [2], ["tbb"]⟩ ∧
    ∀ source generatedAt, Sweep.run (.ofTable []) source generatedAt .valueFirst
      ⟨"sort", [2], ["tbb", "t/bb", ""]⟩ =
        ⟨[], .error (.refused ((Objection.foreign .backend).message .valueFirst))⟩ := by
  have path : ¬ IsIdentifier "../sort" := by
    intro identifier
    have judged : Identifier.check .algorithm "../sort" = .ok () :=
      Identifier.check_eq_ok_iff.mpr identifier
    cases judged
  obtain ⟨_, _, sizes, _⟩ :=
    ensureValid_by_first_objection ⟨"sort", [2, 0], ["../x", ""]⟩ .minimumFirst
  obtain ⟨_, _, algorithm, _⟩ :=
    ensureValid_by_first_objection ⟨"../sort", [0], [""]⟩ .minimumFirst
  obtain ⟨_, _, _, run⟩ :=
    ensureValid_by_first_objection ⟨"sort", [2], ["tbb", "t/bb", ""]⟩ .valueFirst
  obtain ⟨_, _, _, zero⟩ := sizes ⟨"sort", [0], []⟩ rfl (.inr ⟨by decide, by decide⟩)
  obtain ⟨_, _, _, named⟩ := algorithm ⟨"../sort", [2], ["tbb"]⟩ rfl (.inl path)
  exact ⟨(zero .valueFirst).mpr (.inl (by decide)), (named .valueFirst).mpr (.inl (by decide)),
    run _ rfl (.ofTable [])⟩

/-- Two requests without an algorithm need not be told the same, nor need a request be when it is
judged and then run. -/
theorem empty_algorithm_told_in_two_orders :
    let r : Request := ⟨"", [2], []⟩
    let other : Request := ⟨"", [4], []⟩
    other.algorithm = r.algorithm ∧ ¬ IsIdentifier r.algorithm ∧
    r.ensureValid .minimumFirst ≠ other.ensureValid .valueFirst ∧
    (∃ failure, r.ensureValid .minimumFirst = .error failure ∧
      (Sweep.run .builtin (fun _ _ => noMeasurement) "" .valueFirst r).result ≠ .error failure) ∧
    Failure.message (.refused (Objection.noAlgorithm.message .minimumFirst)) =
      "Validation error: algorithm: Validation error: length " ++
        "[\x7b\"min\": Number(1), \"value\": String(\"\")\x7d]" := by
  have unlike : Objection.noAlgorithm.message .minimumFirst ≠
      Objection.noAlgorithm.message .valueFirst := by decide
  refine ⟨rfl, fun identifier => absurd identifier.filled (by decide), ?_, ⟨_, rfl, ?_⟩, by decide⟩
  · intro same
    exact unlike (Failure.refused.inj (Except.error.inj same))
  · intro same
    exact unlike (Failure.refused.inj (Except.error.inj same)).symm

end Request

end TimingSweep
