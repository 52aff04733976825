import TimingSweep.Proofs.AssignmentFiles
import TimingSweep.Proofs.Refusals
import TimingSweep.Proofs.ReportedSigns

/-!
# Loaded settings

A variable has the text that the environment has for it or, if there is none, the first text that
the file assigns to it. The settings are made of these texts and nothing else. They are refused if
the text of a dimension is not the number of a dimension, and the width is refused first. But where
a variable would be set to a text with a null character, the program crashes over the file.

* `readDimension?_eq_some_iff`: which texts are dimensions;
* `valueOf_eq_some_iff`: the effective texts of variables;
* `load_eq_ok_iff`, `load_eq_unusable_iff`, `load_eq_crash_iff`: which settings are loaded, which
  fault is found, and when the program crashes;
* `load_eq_assignLines`: the same, by what the lines of the file do to the environment;
* `load_by_precedence`: all this, and which lines of the file have no effect;
* `null_text_crashes`: a file that crashes the program though both dimensions are fine.
-/

namespace TimingSweep

/-- Digits behind an optional plus are read, if the number that they write is below the bound. -/
theorem readUnsigned?_eq_some_iff {bound n : Nat} {text : List Char} :
    readUnsigned? bound text = some n ↔ ∃ digits, (text = digits ∨ text = '+' :: digits) ∧
      IsDigits digits ∧ Nat.ofDigitChars 10 digits 0 = n ∧ n < bound := by
  simp only [readUnsigned?, Option.ite_none_right_eq_some, Bool.and_eq_true, Bool.not_eq_true',
    List.isEmpty_eq_false_iff, List.all_eq_true, decide_eq_true_eq, Option.some.injEq]
  constructor
  · rintro ⟨⟨digits, small⟩, rfl⟩
    refine ⟨_, ?_, digits, rfl, small⟩
    split
    · rename_i plus
      obtain ⟨rest, rfl⟩ := List.head?_eq_some_iff.mp plus
      exact Or.inr rfl
    · exact Or.inl rfl
  · rintro ⟨digits, rfl | rfl, isDigits, rfl, small⟩
    · have bare : text.head? ≠ some '+' := fun plus =>
        absurd (isDigits.2 '+' (List.mem_of_mem_head? plus)) (by decide)
      simp only [bare, if_false]
      exact ⟨⟨isDigits, small⟩, trivial⟩
    · simp only [List.head?_cons, if_true, List.tail_cons]
      exact ⟨⟨isDigits, small⟩, trivial⟩

namespace Settings

/-! ## The texts of dimensions -/

/-- Without the blanks around it the text is the digits of a number from 1 to 2³² - 1, perhaps with
a plus before them. -/
def IsDimension (text : String) (n : Nat) : Prop :=
  1 ≤ n ∧ n < 2 ^ 32 ∧ ∃ digits,
    (IsTrimmed text.toList digits ∨ IsTrimmed text.toList ('+' :: digits)) ∧
      IsDigits digits ∧ Nat.ofDigitChars 10 digits 0 = n

theorem readUnsigned?_trim_eq_some_iff {text : String} {n : Nat} :
    readUnsigned? (2 ^ 32) (trim text.toList) = some n ∧ 1 ≤ n ↔ IsDimension text n := by
  simp only [readUnsigned?_eq_some_iff, trim_eq_iff, IsDimension]
  constructor
  · rintro ⟨⟨digits, written, isDigits, value, small⟩, large⟩
    exact ⟨large, small, digits, written, isDigits, value⟩
  · rintro ⟨large, small, digits, written, isDigits, value⟩
    exact ⟨⟨digits, written, isDigits, value, small⟩, large⟩

theorem readDimension?_eq_some_iff {text : String} {n : UInt32} :
    readDimension? text = some n ↔ IsDimension text n.toNat := by
  rw [← readUnsigned?_trim_eq_some_iff, readDimension?]
  cases read : readUnsigned? (2 ^ 32) (trim text.toList) with
  | none => simp
  | some m =>
    have small : m < 2 ^ 32 := readUnsigned_lt read
    cases m with
    | zero =>
      simp only [reduceCtorEq, false_iff, Option.some.injEq, not_and]
      omega
    | succ m =>
      simp only [Option.some.injEq]
      constructor
      · rintro rfl
        rw [UInt32.toNat_ofNat_of_lt' small]
        exact ⟨rfl, Nat.succ_pos m⟩
      · rintro ⟨same, -⟩
        rw [same, UInt32.ofNat_toNat]

theorem readDimension?_eq_none_iff {text : String} :
    readDimension? text = none ↔ ∀ n, ¬ IsDimension text n := by
  rw [Option.eq_none_iff_forall_ne_some]
  constructor
  · intro unread n isDimension
    have same : (UInt32.ofNat n).toNat = n := UInt32.toNat_ofNat_of_lt' isDimension.2.1
    exact unread (.ofNat n) (readDimension?_eq_some_iff.mpr (same.symm ▸ isDimension))
  · intro no_dimension n read
    exact no_dimension _ (readDimension?_eq_some_iff.mp read)

/-! ## Effective texts -/

/-- The text is the first one that is assigned to the variable. -/
def IsFirst (assigned : List (String × String)) (name text : String) : Prop :=
  ∃ before after, assigned = before ++ (name, text) :: after ∧
    ∀ other, (name, other) ∉ before

/-- The text that counts for a variable: that of the environment, if its octets are text, else the
first one assigned. -/
def IsEffective (e : Environment) (assigned : List (String × String)) (name text : String) : Prop :=
  e.lookup name = some (Utf8.encode text.toList) ∨
    (∀ other : String, e.lookup name ≠ some (Utf8.encode other.toList)) ∧
      IsFirst assigned name text

theorem lookup_eq_some_iff_isFirst {assigned : List (String × String)} {name text : String} :
    assigned.lookup name = some text ↔ IsFirst assigned name text := by
  rw [List.lookup_eq_some_iff, IsFirst]
  refine exists_congr fun before => exists_congr fun after => and_congr_right fun _ => ?_
  constructor
  · intro others other member
    simpa using others _ member
  · rintro others ⟨same, other⟩ member
    rw [bne_iff_ne]
    rintro rfl
    exact others other member

theorem valueOf_eq_some_iff {e : Environment} {assigned : List (String × String)}
    {name text : String} : Assignments.valueOf e.text assigned name = some text ↔
      IsEffective e assigned name text := by
  have missing : e.text name = none ↔
      ∀ other : String, e.lookup name ≠ some (Utf8.encode other.toList) := by
    rw [Option.eq_none_iff_forall_ne_some]
    exact forall_congr' fun other => not_congr Environment.text_eq_some_iff
  rw [Assignments.valueOf, Option.or_eq_some_iff, Environment.text_eq_some_iff, missing,
    lookup_eq_some_iff_isFirst, IsEffective]

theorem valueOf_eq_none_iff {e : Environment} {assigned : List (String × String)} {name : String} :
    Assignments.valueOf e.text assigned name = none ↔
      ∀ text, ¬ IsEffective e assigned name text := by
  rw [Option.eq_none_iff_forall_ne_some]
  exact forall_congr' fun text => not_congr valueOf_eq_some_iff

/-- `a` is read from the effective text of a variable or, if it has none, is the default. -/
def Takes {α : Type} (e : Environment) (assigned : List (String × String)) (name : String)
    (reads : String → α → Prop) (standard a : α) : Prop :=
  (∃ text, IsEffective e assigned name text ∧ reads text a) ∨
    (∀ text, ¬ IsEffective e assigned name text) ∧ a = standard

/-- The effective text of a variable is no dimension. -/
def IsBad (e : Environment) (assigned : List (String × String)) (name : String) : Prop :=
  ∃ text, IsEffective e assigned name text ∧ ∀ n, ¬ IsDimension text n

/-- Each setting comes from its variable. -/
structure ComeFrom (e : Environment) (assigned : List (String × String)) (s : Settings) : Prop where
  binDir : Takes e assigned binDirVariable Eq defaultBinDir s.binDir
  plotsDir : Takes e assigned plotsDirVariable Eq defaultPlotsDir s.plotsDir
  width : Takes e assigned widthVariable (fun text n => IsDimension text n.toNat)
    defaultWidth s.width
  height : Takes e assigned heightVariable (fun text n => IsDimension text n.toNat)
    defaultHeight s.height
  logFilter : Takes e assigned logFilterVariable Eq defaultLogFilter s.logFilter

variable {e : Environment} {assigned : List (String × String)} {name : String}

theorem takes_of_some {α : Type} {reads : String → α → Prop} {standard a : α} {text : String}
    (given : Assignments.valueOf e.text assigned name = some text) :
    Takes e assigned name reads standard a ↔ reads text a := by
  have effective := valueOf_eq_some_iff.mp given
  constructor
  · rintro (⟨other, found, read⟩ | ⟨missing, -⟩)
    · have same : some text = some other := given.symm.trans (valueOf_eq_some_iff.mpr found)
      exact Option.some.inj same ▸ read
    · exact absurd effective (missing text)
  · exact fun read => Or.inl ⟨text, effective, read⟩

theorem takes_of_none {α : Type} {reads : String → α → Prop} {standard a : α}
    (missing : Assignments.valueOf e.text assigned name = none) :
    Takes e assigned name reads standard a ↔ a = standard := by
  have no_text := valueOf_eq_none_iff.mp missing
  constructor
  · rintro (⟨text, found, -⟩ | ⟨-, same⟩)
    · exact absurd found (no_text text)
    · exact same
  · exact fun same => Or.inr ⟨no_text, same⟩

theorem getD_eq_iff {standard text : String} :
    (Assignments.valueOf e.text assigned name).getD standard = text ↔
      Takes e assigned name Eq standard text := by
  cases given : Assignments.valueOf e.text assigned name with
  | none => rw [takes_of_none given, Option.getD_none, eq_comm]
  | some found => rw [takes_of_some given, Option.getD_some]

theorem dimension_eq_ok_iff {standard n : UInt32} :
    dimension (Assignments.valueOf e.text assigned) name standard = .ok n ↔
      Takes e assigned name (fun text n => IsDimension text n.toNat) standard n := by
  unfold dimension
  cases given : Assignments.valueOf e.text assigned name with
  | none =>
    rw [takes_of_none given, Except.ok.injEq]
    exact eq_comm
  | some text =>
    rw [takes_of_some given, ← readDimension?_eq_some_iff]
    cases read : readDimension? text with
    | none => simp [read]
    | some m => simp [read]

theorem isBad_iff_isUnusable :
    IsBad e assigned name ↔ IsUnusable (Assignments.valueOf e.text assigned) name := by
  simp only [IsBad, IsUnusable, valueOf_eq_some_iff, readDimension?_eq_none_iff]

/-! ## What is loaded -/

theorem ofValues_eq_ok_iff {value : String → Option String} {s : Settings} :
    ofValues value = .ok s ↔
      (value binDirVariable).getD defaultBinDir = s.binDir ∧
      (value plotsDirVariable).getD defaultPlotsDir = s.plotsDir ∧
      dimension value widthVariable defaultWidth = .ok s.width ∧
      dimension value heightVariable defaultHeight = .ok s.height ∧
      (value logFilterVariable).getD defaultLogFilter = s.logFilter := by
  unfold ofValues
  cases dimension value widthVariable defaultWidth with
  | error fault => simp [bind, Except.bind]
  | ok width =>
    cases dimension value heightVariable defaultHeight with
    | error fault => simp [bind, Except.bind]
    | ok height =>
      obtain ⟨binDir, plotsDir, width', height', logFilter⟩ := s
      simp only [bind, Except.bind, pure, Except.pure, Except.ok.injEq, Settings.mk.injEq]

theorem ofValues_eq_error_iff {value : String → Option String} {fault : SettingFault} :
    ofValues value = .error fault ↔
      IsUnusable value widthVariable ∧ fault = ⟨widthVariable⟩ ∨
      ¬ IsUnusable value widthVariable ∧ IsUnusable value heightVariable ∧
        fault = ⟨heightVariable⟩ := by
  by_cases width : IsUnusable value widthVariable
  · rw [ofValues_of_width (dimension_of_unusable width _), Except.error.injEq]
    simp only [width, true_and, not_true, false_and, or_false]
    exact eq_comm
  · obtain ⟨w, widthRead⟩ := dimension_of_usable width defaultWidth
    simp only [width, false_and, not_false_eq_true, true_and, false_or, ofValues, widthRead, bind,
      Except.bind]
    by_cases height : IsUnusable value heightVariable
    · rw [dimension_of_unusable height]
      simp only [height, true_and, Except.error.injEq]
      exact eq_comm
    · obtain ⟨h, heightRead⟩ := dimension_of_usable height defaultHeight
      simp only [heightRead, height, false_and, pure, Except.pure, reduceCtorEq]

open Assignments

theorem load_of_isRead {octets : List UInt8} (read : IsRead e.text (lines octets) assigned) :
    load e (some octets) = (ofValues (valueOf e.text assigned)).mapError .unusable := by
  have found : Assignments.read e.text octets = .ok assigned := read.readLines_eq
  exact load_of_values (by rw [values, Option.getD_some, found]; rfl)

theorem load_eq_ok_iff {octets : List UInt8} (read : IsRead e.text (lines octets) assigned)
    {s : Settings} : load e (some octets) = .ok s ↔ ComeFrom e assigned s := by
  have judged : load e (some octets) = .ok s ↔ ofValues (valueOf e.text assigned) = .ok s := by
    rw [load_of_isRead read]
    cases ofValues (valueOf e.text assigned) <;> simp [Except.mapError]
  simp only [judged, ofValues_eq_ok_iff, getD_eq_iff, dimension_eq_ok_iff]
  constructor
  · rintro ⟨binDir, plotsDir, width, height, logFilter⟩
    exact ⟨binDir, plotsDir, width, height, logFilter⟩
  · rintro ⟨binDir, plotsDir, width, height, logFilter⟩
    exact ⟨binDir, plotsDir, width, height, logFilter⟩

theorem load_eq_unusable_iff {octets : List UInt8} (read : IsRead e.text (lines octets) assigned)
    {fault : SettingFault} : load e (some octets) = .error (.unusable fault) ↔
      IsBad e assigned widthVariable ∧ fault = ⟨widthVariable⟩ ∨
      ¬ IsBad e assigned widthVariable ∧ IsBad e assigned heightVariable ∧
        fault = ⟨heightVariable⟩ := by
  have judged : load e (some octets) = .error (.unusable fault) ↔
      ofValues (valueOf e.text assigned) = .error fault := by
    rw [load_of_isRead read]
    cases ofValues (valueOf e.text assigned) <;> simp [Except.mapError]
  simp only [judged, ofValues_eq_error_iff, isBad_iff_isUnusable]

theorem load_eq_crash_iff {octets : List UInt8} :
    load e (some octets) = .error (.crash name) ↔ IsCrash e.text (lines octets) name := by
  have crashed : Assignments.read e.text octets = .error name ↔
      IsCrash e.text (lines octets) name := readLines_eq_error_iff
  rw [← crashed, load_eq_values, values, Option.getD_some]
  cases Assignments.read e.text octets with
  | error other => simp [Except.map, Except.mapError, bind, Except.bind]
  | ok assigned =>
    simp only [Except.map, Except.mapError, bind, Except.bind]
    cases ofValues (valueOf e.text assigned) <;> simp

/-- The settings are those that the environment gives once the lines have been carried out on it. -/
theorem load_eq_assignLines (e : Environment) (octets : List UInt8) : load e (some octets) =
    (e.assignLines (lines octets)).mapError .crash >>= fun later =>
      (ofValues later.text).mapError .unusable := by
  rcases isRead_or_isCrash e.text (lines octets) with ⟨assigned, read⟩ | ⟨name, crash⟩
  · obtain ⟨later, carriedOut, same⟩ := Environment.assignLines_of_isRead read
    rw [load_of_isRead read, carriedOut, ← same]
    rfl
  · rw [load_eq_crash_iff.mpr crash, Environment.assignLines_of_isCrash crash]
    rfl

theorem load_congr {octets other : List UInt8}
    (same : readLines e.text [] (lines other) = readLines e.text [] (lines octets)) :
    load e (some other) = load e (some octets) := by
  have alike : Assignments.read e.text other = Assignments.read e.text octets := same
  simp only [load, Option.getD_some, alike]

/-- The program crashes exactly if the file, before any invalid line, assigns a text with a null
character to a variable without a text. Otherwise settings are loaded if they come from the
effective texts of their variables, and refused if the text of a dimension is bad, for the width
before the height. An invalid line of the file leaves the assignments before it and makes the rest
of the file as good as absent. An assignment to a variable that has a text already has no effect at
all. -/
theorem load_by_precedence (e : Environment) (octets : List UInt8) :
    ((∃ assigned, IsRead e.text (lines octets) assigned) ∨
      ∃ name, IsCrash e.text (lines octets) name) ∧
    (∀ name, load e (some octets) = .error (.crash name) ↔ IsCrash e.text (lines octets) name) ∧
    (∀ assigned, IsRead e.text (lines octets) assigned →
      (∀ s, load e (some octets) = .ok s ↔ ComeFrom e assigned s) ∧
      ∀ fault, load e (some octets) = .error (.unusable fault) ↔
        IsBad e assigned widthVariable ∧ fault = ⟨widthVariable⟩ ∨
        ¬ IsBad e assigned widthVariable ∧ IsBad e assigned heightVariable ∧
          fault = ⟨heightVariable⟩) ∧
    load e none = load e (some []) ∧
    ∀ before given line after, lines octets = before ++ line :: after →
      Carried e.text before given →
      (lineAt (valueOf e.text given) line = .invalid →
        IsRead e.text (lines octets) given ∧
        (∃ kept rest, octets = kept ++ rest ∧ lines kept = before ∧
          load e (some kept) = load e (some octets)) ∧
        ∀ other later, lines other = before ++ line :: later →
          load e (some other) = load e (some octets)) ∧
      ∀ name text, lineAt (valueOf e.text given) line = .assignment name text →
        (valueOf e.text given name).isSome →
        ∀ other, lines other = before ++ after → load e (some other) = load e (some octets) := by
  refine ⟨isRead_or_isCrash e.text (lines octets), fun name => load_eq_crash_iff,
    fun assigned read => ⟨fun s => load_eq_ok_iff read, fun fault => load_eq_unusable_iff read⟩,
    rfl, ?_⟩
  intro before given line after inFile carried
  constructor
  · intro invalid
    have cut : ∀ later, IsRead e.text (before ++ line :: later) given := by
      intro later
      refine ⟨before, line :: later, rfl, carried, ?_⟩
      rintro _ ⟨⟩
      exact invalid
    have whole : IsRead e.text (lines octets) given := inFile ▸ cut after
    refine ⟨whole, ?_, fun other later inOther => load_congr ?_⟩
    · obtain ⟨kept, rest, split, inKept⟩ := exists_beginning inFile
      have begun : IsRead e.text (lines kept) given :=
        ⟨before, [], by simp [inKept], carried, nofun⟩
      exact ⟨kept, rest, split, inKept,
        load_congr (begun.readLines_eq.trans whole.readLines_eq.symm)⟩
    · rw [inOther, (cut later).readLines_eq, whole.readLines_eq]
  · intro name text assigns known other inOther
    rw [load_eq_assignLines, load_eq_assignLines, inOther, inFile,
      Environment.assignLines_of_given carried assigns known]

/-- An environment where one directory is no text and the other one is. -/
def halfSet : Environment :=
  [(binDirVariable, [0xFF]), (plotsDirVariable, Utf8.encode "plots".toList)]

/-- Lines that assign a directory twice, the second time with a null character, and a height behind
an invalid line. -/
def brokenLines : List String :=
  ["PERF_BIN_DIR=first", "PERF_BIN_DIR=\x00", "PERF_PLOT_WIDTH=\" +0640 \"", "no assignment",
    "PERF_PLOT_HEIGHT=0"]

def brokenFile : List UInt8 := Utf8.encode (brokenLines.flatMap fun line => line.toList ++ ['\n'])

/-- What is assigned before the invalid line. -/
def brokenAssignments : List (String × String) :=
  [("PERF_BIN_DIR", "first"), ("PERF_BIN_DIR", "\x00"), ("PERF_PLOT_WIDTH", " +0640 ")]

theorem lines_brokenFile : lines brokenFile = brokenLines.map (some ·.toList) := by decide +kernel

/-- The first directory counts, and the height does not. -/
theorem broken_file_loaded :
    IsRead halfSet.text (lines brokenFile) brokenAssignments ∧
    ComeFrom halfSet brokenAssignments ⟨"first", "plots", 640, 600, "perfsweep=info"⟩ ∧
    ∀ other, lines other = (brokenLines.eraseIdx 1).map (some ·.toList) →
      load halfSet (some other) = load halfSet (some brokenFile) := by
  obtain ⟨-, -, loads, -, parts⟩ := load_by_precedence halfSet brokenFile
  have read : IsRead halfSet.text (lines brokenFile) brokenAssignments := by
    rw [lines_brokenFile]
    exact readLines_eq_ok_iff.mp (by decide +kernel)
  have first : Carried halfSet.text [some "PERF_BIN_DIR=first".toList]
      [("PERF_BIN_DIR", "first")] :=
    .assignment .start (by decide +kernel) (.inr (by decide))
  refine ⟨read, ((loads _ read).1 _).mp ((load_of_isRead read).trans (by decide +kernel)), ?_⟩
  exact (parts _ _ (some "PERF_BIN_DIR=\x00".toList) _ lines_brokenFile first).2
    "PERF_BIN_DIR" "\x00" (by decide +kernel) (by decide +kernel)

/-- A directory with a null character in its name crashes the program, though no dimension is set at
all. -/
theorem null_text_crashes :
    let octets := Utf8.encode "PERF_BIN_DIR=a\x00b\n".toList
    lines octets = [some "PERF_BIN_DIR=a\x00b".toList] ∧
    lineAt (valueOf (Environment.text []) []) (some "PERF_BIN_DIR=a\x00b".toList) =
      .assignment "PERF_BIN_DIR" "a\x00b" ∧
    load [] (some octets) = .error (.crash "PERF_BIN_DIR") :=
  ⟨by decide +kernel, by decide +kernel, by decide +kernel⟩

end Settings

end TimingSweep
