import TimingSweep.Proofs.Decoding
import TimingSweep.Settings

/-!
# Files of assignments

The lines of a file are carried out one after the other. An assignment gives its variable a value,
unless the variable has one already. The first line that is no assignment ends the file. A text with
a null character that is assigned to a variable without a value ends the program.

The same file can be read as a list of orders to the environment, and what the variables come to is
then what is found in the environment at the end.

* `Carried`: lines that have been carried out, with their assignments;
* `Carried.readLines_append`: reading goes on behind such lines;
* `readLines_eq_ok_iff`, `readLines_eq_error_iff`: which assignments are read, and when the program
  crashes instead;
* `exists_assign`: what one assignment changes in an environment;
* `assignLines_of_isRead`, `assignLines_of_isCrash`: the environment ends up with what is read;
* `assignLines_of_given`: to assign a variable that has a text already comes to nothing;
* `exists_beginning`: the lines before any line are those of a beginning of the file.
-/

namespace TimingSweep

namespace Assignments

/-- The lines of a file. -/
def lines (octets : List UInt8) : List (Option (List Char)) :=
  logicalLines .complete [] (physicalLines (dropMark octets))

/-- What a line comes to where variables have these values. What is no text is invalid. -/
def lineAt (value : String → Option String) : Option (List Char) → Line
  | none => .invalid
  | some line => readLine (fun name => (search value name).getD "") line

/-- Lines that have been carried out, each where the environment and the lines before it leave the
variables, and their assignments. A variable with a value may be assigned anything. -/
inductive Carried (environment : String → Option String) :
    List (Option (List Char)) → List (String × String) → Prop
  | start : Carried environment [] []
  | nothing {before : List (Option (List Char))} {given : List (String × String)}
      {line : Option (List Char)} (carried : Carried environment before given)
      (comesTo : lineAt (valueOf environment given) line = .nothing) :
      Carried environment (before ++ [line]) given
  | assignment {before : List (Option (List Char))} {given : List (String × String)}
      {line : Option (List Char)} {name text : String} (carried : Carried environment before given)
      (comesTo : lineAt (valueOf environment given) line = .assignment name text)
      (allowed : (valueOf environment given name).isSome ∨ '\x00' ∉ text.toList) :
      Carried environment (before ++ [line]) (given ++ [(name, text)])

/-- The lines are carried out to the end, or up to the first invalid one. -/
def IsRead (environment : String → Option String) (lines : List (Option (List Char)))
    (assigned : List (String × String)) : Prop :=
  ∃ before after, lines = before ++ after ∧ Carried environment before assigned ∧
    ∀ line ∈ after.head?, lineAt (valueOf environment assigned) line = .invalid

/-- The lines are carried out up to one that assigns a text with a null character to a variable
without a value. -/
def IsCrash (environment : String → Option String) (lines : List (Option (List Char)))
    (name : String) : Prop :=
  ∃ before line after given text, lines = before ++ line :: after ∧
    Carried environment before given ∧
    lineAt (valueOf environment given) line = .assignment name text ∧
    valueOf environment given name = none ∧ '\x00' ∈ text.toList

/-! ## What is read -/

variable {environment : String → Option String} {lines before : List (Option (List Char))}
  {line : Option (List Char)} {given assigned : List (String × String)} {name : String}

theorem fits_iff {text : String} : fits text = true ↔ '\x00' ∉ text.toList := by
  simp [fits]

theorem fits_eq_false_iff {text : String} : fits text = false ↔ '\x00' ∈ text.toList := by
  simp [fits]

theorem readLines_cons (environment : String → Option String) (assigned : List (String × String))
    (line : Option (List Char)) (rest : List (Option (List Char))) :
    readLines environment assigned (line :: rest) =
      match lineAt (valueOf environment assigned) line with
      | .nothing => readLines environment assigned rest
      | .assignment name text =>
        if (valueOf environment assigned name).isSome || fits text then
          readLines environment (assigned ++ [(name, text)]) rest
        else .error name
      | .invalid => .ok assigned := by
  cases line <;> rfl

/-- Behind lines that have been carried out, reading goes on with their assignments. -/
theorem Carried.readLines_append (carried : Carried environment before given)
    (after : List (Option (List Char))) :
    readLines environment [] (before ++ after) = readLines environment given after := by
  induction carried generalizing after with
  | start => rfl
  | nothing _ comesTo ih =>
    rw [List.append_assoc, List.singleton_append, ih, readLines_cons, comesTo]
  | assignment _ comesTo allowed ih =>
    rw [← fits_iff, ← Bool.or_eq_true] at allowed
    rw [List.append_assoc, List.singleton_append, ih, readLines_cons, comesTo]
    exact if_pos allowed

theorem IsRead.readLines_eq (read : IsRead environment lines assigned) :
    readLines environment [] lines = .ok assigned := by
  obtain ⟨before, after, rfl, carried, ends⟩ := read
  rw [carried.readLines_append]
  cases after with
  | nil => rfl
  | cons line rest => rw [readLines_cons, ends line rfl]

theorem IsCrash.readLines_eq (crash : IsCrash environment lines name) :
    readLines environment [] lines = .error name := by
  obtain ⟨before, line, after, given, text, rfl, carried, comesTo, missing, null⟩ := crash
  have misfit : fits text = false := fits_eq_false_iff.mpr null
  rw [carried.readLines_append, readLines_cons, comesTo]
  simp [missing, misfit]

/-- What is left behind lines that have been carried out is carried out in turn until it ends in one
way or the other. -/
theorem isRead_or_isCrash_of_carried (carried : Carried environment before given)
    (rest : List (Option (List Char))) :
    (∃ assigned, IsRead environment (before ++ rest) assigned) ∨
      ∃ name, IsCrash environment (before ++ rest) name := by
  induction rest generalizing before given with
  | nil => exact .inl ⟨given, before, [], rfl, carried, nofun⟩
  | cons line rest ih =>
    have split : before ++ line :: rest = before ++ [line] ++ rest := by simp
    cases comesTo : lineAt (valueOf environment given) line with
    | nothing =>
      rw [split]
      exact ih (.nothing carried comesTo)
    | assignment name text =>
      by_cases allowed : (valueOf environment given name).isSome ∨ '\x00' ∉ text.toList
      · rw [split]
        exact ih (.assignment carried comesTo allowed)
      · obtain ⟨missing, null⟩ := not_or.mp allowed
        exact .inr ⟨name, before, line, rest, given, text, rfl, carried, comesTo,
          Option.not_isSome_iff_eq_none.mp missing, Classical.not_not.mp null⟩
    | invalid =>
      refine .inl ⟨given, before, line :: rest, rfl, carried, ?_⟩
      rintro _ ⟨⟩
      exact comesTo

theorem isRead_or_isCrash (environment : String → Option String)
    (lines : List (Option (List Char))) :
    (∃ assigned, IsRead environment lines assigned) ∨ ∃ name, IsCrash environment lines name :=
  isRead_or_isCrash_of_carried .start lines

theorem readLines_eq_ok_iff :
    readLines environment [] lines = .ok assigned ↔ IsRead environment lines assigned := by
  refine ⟨fun read => ?_, IsRead.readLines_eq⟩
  rcases isRead_or_isCrash environment lines with ⟨other, isRead⟩ | ⟨name, crash⟩
  · cases read.symm.trans isRead.readLines_eq
    exact isRead
  · cases read.symm.trans crash.readLines_eq

theorem readLines_eq_error_iff :
    readLines environment [] lines = .error name ↔ IsCrash environment lines name := by
  refine ⟨fun crashed => ?_, IsCrash.readLines_eq⟩
  rcases isRead_or_isCrash environment lines with ⟨assigned, read⟩ | ⟨other, crash⟩
  · cases crashed.symm.trans read.readLines_eq
  · cases crashed.symm.trans crash.readLines_eq
    exact crash

/-- Behind an assignment the variables have the values they had before, if they had any. -/
theorem valueOf_append (environment : String → Option String) (assigned : List (String × String))
    (name text : String) : valueOf environment (assigned ++ [(name, text)]) =
      fun other => (valueOf environment assigned other).or
        (if other = name then some text else none) := by
  funext other
  rw [valueOf, valueOf, List.lookup_append, Option.or_assoc]
  by_cases same : other = name
  · rw [same, List.lookup_cons_self, if_pos rfl]
  · rw [List.lookup_cons, beq_false_of_ne same, if_neg same]
    rfl

end Assignments

/-! ## Orders to the environment -/

namespace Environment

open Assignments

/-- Sets a variable, unless it has a text. A text that does not fit crashes the program. -/
def assign (e : Environment) (name text : String) : Except String Environment :=
  if (e.text name).isSome then .ok e
  else if fits text then .ok ((name, Utf8.encode text.toList) :: e)
  else .error name

/-- Carries out lines up to the first invalid one. -/
def assignLines (e : Environment) : List (Option (List Char)) → Except String Environment
  | [] => .ok e
  | line :: rest =>
    match lineAt e.text line with
    | .nothing => e.assignLines rest
    | .assignment name text => e.assign name text >>= fun later => later.assignLines rest
    | .invalid => .ok e

theorem text_eq_some_iff {e : Environment} {name text : String} :
    e.text name = some text ↔ e.lookup name = some (Utf8.encode text.toList) := by
  simp only [Environment.text, bind, Option.bind_eq_some_iff, pure, Option.some.injEq]
  constructor
  · rintro ⟨octets, found, chars, read, rfl⟩
    rw [found, String.toList_ofList, Utf8.decode?_eq_some read]
  · intro found
    exact ⟨_, found, _, Utf8.decode?_encode _, String.ofList_toList⟩

variable {e : Environment} {before lines : List (Option (List Char))} {line : Option (List Char)}
  {given assigned : List (String × String)} {name text : String}

theorem assign_of_given (given : (e.text name).isSome) (text : String) :
    e.assign name text = .ok e := if_pos given

theorem assign_of_null (missing : e.text name = none) (null : '\x00' ∈ text.toList) :
    e.assign name text = .error name := by
  have misfit : fits text = false := fits_eq_false_iff.mpr null
  simp [assign, missing, misfit]

/-- A variable that has a text keeps it, and so do all others. -/
theorem exists_assign (allowed : (e.text name).isSome ∨ '\x00' ∉ text.toList) :
    ∃ later, e.assign name text = .ok later ∧
      later.text = fun other => (e.text other).or (if other = name then some text else none) := by
  cases found : e.text name with
  | some old =>
    have given : (e.text name).isSome := by rw [found, Option.isSome_some]
    refine ⟨e, assign_of_given given text, funext fun other => ?_⟩
    by_cases same : other = name
    · rw [same, found, Option.some_or]
    · rw [if_neg same, Option.or_none]
  | none =>
    have sound : fits text = true := by
      rw [found] at allowed
      exact fits_iff.mpr (allowed.resolve_left (by simp))
    refine ⟨(name, Utf8.encode text.toList) :: e, by simp [assign, found, sound],
      funext fun other => ?_⟩
    by_cases same : other = name
    · rw [if_pos same, same, found, Option.none_or, text_eq_some_iff, List.lookup_cons_self]
    · rw [if_neg same, Option.or_none, Environment.text, List.lookup_cons, beq_false_of_ne same]
      rfl

/-- Lines that have been carried out leave an environment with the values that they assign, and it
takes the orders behind them. -/
theorem exists_of_carried (carried : Carried e.text before given) :
    ∃ later : Environment, later.text = valueOf e.text given ∧
      ∀ after, e.assignLines (before ++ after) = later.assignLines after := by
  induction carried with
  | start =>
    refine ⟨e, funext fun name => ?_, fun _ => rfl⟩
    rw [valueOf, List.lookup_nil, Option.or_none]
  | nothing _ comesTo ih =>
    obtain ⟨later, same, goes⟩ := ih
    rw [← same] at comesTo
    refine ⟨later, same, fun after => ?_⟩
    rw [List.append_assoc, goes, List.singleton_append, assignLines, comesTo]
  | assignment _ comesTo allowed ih =>
    obtain ⟨later, same, goes⟩ := ih
    rw [← same] at comesTo allowed
    obtain ⟨further, set, changed⟩ := exists_assign allowed
    refine ⟨further, by rw [changed, valueOf_append, same], fun after => ?_⟩
    rw [List.append_assoc, goes, List.singleton_append, assignLines, comesTo]
    simp only [set, bind, Except.bind]

theorem assignLines_of_isRead (read : IsRead e.text lines assigned) :
    ∃ later, e.assignLines lines = .ok later ∧ later.text = valueOf e.text assigned := by
  obtain ⟨before, after, rfl, carried, ends⟩ := read
  obtain ⟨later, same, goes⟩ := exists_of_carried carried
  refine ⟨later, ?_, same⟩
  rw [goes]
  cases after with
  | nil => rfl
  | cons line rest => rw [assignLines, same, ends line rfl]

theorem assignLines_of_isCrash (crash : IsCrash e.text lines name) :
    e.assignLines lines = .error name := by
  obtain ⟨before, line, after, given, text, rfl, carried, comesTo, missing, null⟩ := crash
  obtain ⟨later, same, goes⟩ := exists_of_carried carried
  rw [← same] at comesTo missing
  rw [goes, assignLines, comesTo]
  simp only [assign_of_null missing null, bind, Except.bind]

/-- To assign a variable that has a text already comes to nothing, here and in all lines behind. -/
theorem assignLines_of_given (carried : Carried e.text before given)
    (assigns : lineAt (valueOf e.text given) line = .assignment name text)
    (known : (valueOf e.text given name).isSome) (after : List (Option (List Char))) :
    e.assignLines (before ++ line :: after) = e.assignLines (before ++ after) := by
  obtain ⟨later, same, goes⟩ := exists_of_carried carried
  rw [← same] at assigns known
  rw [goes, goes, assignLines, assigns]
  simp only [assign_of_given known, bind, Except.bind]

end Environment

/-! ## Where a file can be cut -/

namespace Assignments

theorem exists_cut_physicalLines {octets : List UInt8} {before after : List (List UInt8)}
    (h : physicalLines octets = before ++ after) :
    ∃ kept rest, octets = kept ++ rest ∧ physicalLines kept = before := by
  induction octets generalizing before with
  | nil =>
    obtain ⟨rfl, -⟩ := List.append_eq_nil_iff.mp h.symm
    exact ⟨[], [], rfl, rfl⟩
  | cons octet octets ih =>
    cases before with
    | nil => exact ⟨[], _, rfl, rfl⟩
    | cons line before =>
      rw [List.cons_append] at h
      by_cases ends : octet = 10
      · rw [physicalLines, if_pos ends, List.cons.injEq] at h
        obtain ⟨rfl, later⟩ := h
        obtain ⟨kept, rest, rfl, lines⟩ := ih later
        exact ⟨octet :: kept, rest, rfl, by rw [physicalLines, if_pos ends, lines]⟩
      · rw [physicalLines, if_neg ends] at h
        cases begun : physicalLines octets with
        | nil =>
          rw [begun, List.cons.injEq] at h
          obtain ⟨rfl, none_left⟩ := h
          obtain ⟨rfl, -⟩ := List.append_eq_nil_iff.mp none_left.symm
          refine ⟨octet :: octets, [], (List.append_nil _).symm, ?_⟩
          rw [physicalLines, if_neg ends, begun]
        | cons first more =>
          rw [begun, List.cons.injEq] at h
          obtain ⟨rfl, rfl⟩ := h
          have same : physicalLines octets = (first :: before) ++ after := begun
          obtain ⟨kept, rest, rfl, lines⟩ := ih same
          exact ⟨octet :: kept, rest, rfl, by rw [physicalLines, if_neg ends, lines]⟩

/-- A physical line is no text, or ends a line, or leaves one open, whatever follows it. -/
theorem logicalLines_cons (state : LineState) (begun : List Char) (octets : List UInt8) :
    (∀ rest, logicalLines state begun (octets :: rest) = [none]) ∨
    (∃ line, ∀ rest, logicalLines state begun (octets :: rest) =
      some line :: logicalLines .complete [] rest) ∨
    ∃ unfinished joined, ∀ rest,
      logicalLines state begun (octets :: rest) = logicalLines unfinished joined rest := by
  simp only [logicalLines]
  split
  · exact Or.inl fun _ => rfl
  split
  · exact Or.inr (Or.inl ⟨_, fun _ => rfl⟩)
  split
  · exact Or.inr (Or.inl ⟨_, fun _ => rfl⟩)
  · exact Or.inr (Or.inl ⟨_, fun _ => rfl⟩)
  · exact Or.inr (Or.inr ⟨_, _, fun _ => rfl⟩)

theorem exists_cut_logicalLines {state : LineState} {begun : List Char}
    {physical : List (List UInt8)} {before after : List (Option (List Char))}
    (h : logicalLines state begun physical = before ++ after)
    (whole : before = [] → state = .complete) :
    ∃ kept rest, physical = kept ++ rest ∧ logicalLines state begun kept = before := by
  induction physical generalizing state begun before with
  | nil =>
    refine ⟨[], [], rfl, ?_⟩
    cases before with
    | nil => rw [logicalLines, if_pos (whole rfl)]
    | cons line before =>
      rw [logicalLines] at h ⊢
      split at h
      · cases h
      · rename_i unfinished
        obtain ⟨rfl, none_left⟩ := List.cons.inj h
        rw [if_neg unfinished, (List.append_eq_nil_iff.mp none_left.symm).1]
  | cons octets physical ih =>
    cases before with
    | nil => exact ⟨[], _, rfl, by rw [logicalLines, if_pos (whole rfl)]⟩
    | cons line before =>
      rcases logicalLines_cons state begun octets with no_text | ⟨ended, step⟩ |
        ⟨unfinished, joined, step⟩
      · rw [no_text] at h
        obtain ⟨rfl, none_left⟩ := List.cons.inj h
        refine ⟨[octets], physical, rfl, ?_⟩
        rw [no_text, (List.append_eq_nil_iff.mp none_left.symm).1]
      · rw [step] at h
        obtain ⟨rfl, later⟩ := List.cons.inj h
        obtain ⟨kept, rest, rfl, lines⟩ := ih later fun _ => rfl
        exact ⟨octets :: kept, rest, rfl, by rw [step, lines]⟩
      · rw [step] at h
        obtain ⟨kept, rest, rfl, lines⟩ := ih h fun none_left => nomatch none_left
        exact ⟨octets :: kept, rest, rfl, by rw [step, lines]⟩

theorem exists_dropMark (octets : List UInt8) : ∃ mark, octets = mark ++ dropMark octets ∧
    ∀ kept rest, dropMark octets = kept ++ rest → dropMark (mark ++ kept) = kept := by
  by_cases marked : ∃ rest, octets = 0xEF :: 0xBB :: 0xBF :: rest
  · obtain ⟨rest, rfl⟩ := marked
    exact ⟨[0xEF, 0xBB, 0xBF], rfl, fun _ _ _ => rfl⟩
  · have plain : ∀ octets, (¬ ∃ rest, octets = 0xEF :: 0xBB :: 0xBF :: rest) →
        dropMark octets = octets := by
      intro octets unmarked
      unfold dropMark
      split
      · exact absurd ⟨_, rfl⟩ unmarked
      · rfl
    refine ⟨[], (plain octets marked).symm, fun kept rest split => plain kept ?_⟩
    rintro ⟨more, rfl⟩
    rw [plain octets marked] at split
    exact marked ⟨more ++ rest, split⟩

/-- The lines before a line of a file are all the lines of some beginning of the file. -/
theorem exists_beginning {octets : List UInt8} {before after : List (Option (List Char))}
    (h : lines octets = before ++ after) :
    ∃ kept rest, octets = kept ++ rest ∧ lines kept = before := by
  obtain ⟨physical, _, split, logical⟩ := exists_cut_logicalLines h fun _ => rfl
  obtain ⟨kept, rest, body, cut⟩ := exists_cut_physicalLines split
  obtain ⟨mark, file, undone⟩ := exists_dropMark octets
  refine ⟨mark ++ kept, rest, ?_, ?_⟩
  · rw [List.append_assoc, ← body, ← file]
  · rw [lines, undone kept rest body, cut, logical]

end Assignments

end TimingSweep
