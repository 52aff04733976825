import Mathlib.Data.List.Forall2
import TimingSweep.Identifier
import TimingSweep.Number.Unsigned
import TimingSweep.Proofs.Additions
import TimingSweep.Proofs.FixedPlaces
import TimingSweep.Proofs.Separators

/-!
# Text reports

A `Transcript` is what a reader of a text report learns from it, line by line: the algorithm, and
under each backend the sizes with their printed times. The words of a line tell what it is: a title
has five of them, the names of the columns are two, and a row is one.

* `TextReading.run_blocks`: reading a block puts it behind those that have been read;
* `Transcript.read?_toText`: a legible report is read back from its text;
* `Report.text_read_back`: what was added to a report is found in its text, with the times rounded
  to six places, and reports with one text differ in the rounded part of their times only.
-/

namespace TimingSweep

/-! ## The reader -/

/-- A row as it is printed: the size, and the sign and the decimal of the time. -/
structure PrintedSample where
  size : UInt64
  negative : Bool
  time : Decimal
  deriving DecidableEq

inductive TextLine where
  | title (algorithm backend : String)
  | columns
  | row (sample : PrintedSample)
  deriving DecidableEq

namespace TextLine

def row? (text : List Char) : Option TextLine :=
  match text.splitOn ',' with
  | [size, time] =>
    match readUnsigned? (2 ^ 64) size, Decimal.read? time with
    | some size, some (negative, time) => some (.row ⟨.ofNat size, negative, time⟩)
    | _, _ => none
  | _ => none

/-- Reads a line by its words. -/
def read? (line : List Char) : Option TextLine :=
  match line.splitOn ' ' with
  | [front, algorithm, joint, backend, back] =>
    if front = "===".toList ∧ joint = "with".toList ∧ back = "===".toList then
      some (.title (.ofList algorithm) (.ofList backend))
    else none
  | [names, unit] =>
    if names = "size,time".toList ∧ unit = "(ms)".toList then some .columns else none
  | [text] => row? text
  | _ => none

end TextLine

/-- The algorithm of a text report and the rows of its backends, in their order. -/
structure Transcript where
  algorithm : String
  series : Filing PrintedSample
  deriving DecidableEq

def Transcript.append (t : Transcript) (backend : String) (rows : List PrintedSample) :
    Transcript := { t with series := t.series ++ [(backend, rows)] }

/-- How far a text report has been read: not at all, up to a title, or up to a row below one. -/
inductive TextReading where
  | before
  | titled (finished : Transcript) (backend : String)
  | rows (finished : Transcript) (backend : String) (read : List PrintedSample)

namespace TextReading

/-- Titles of one report name the same algorithm. -/
def accept? : TextReading → TextLine → Option TextReading
  | .before, .title algorithm backend => some (.titled ⟨algorithm, []⟩ backend)
  | .titled finished backend, .columns => some (.rows finished backend [])
  | .rows finished backend read, .row sample => some (.rows finished backend (read ++ [sample]))
  | .rows finished backend read, .title algorithm next =>
    if algorithm = finished.algorithm then some (.titled (finished.append backend read) next)
    else none
  | _, _ => none

def step? (reading : TextReading) (line : List Char) : Option TextReading :=
  TextLine.read? line >>= reading.accept?

def finish? : TextReading → Option Transcript
  | .rows finished backend read => some (finished.append backend read)
  | _ => none

end TextReading

/-- The lines of a text, each of which ends with a line feed. -/
def wholeLines? (text : List Char) : Option (List (List Char)) :=
  let lines := text.splitOn '\n'
  if lines.getLast? = some [] then some lines.dropLast else none

def Transcript.read? (text : String) : Option Transcript := do
  let lines ← wholeLines? text.toList
  let last ← lines.foldlM TextReading.step? .before
  last.finish?

/-! ## The lines of a report -/

namespace Report

def titleLine (algorithm backend : String) : List Char :=
  [' '].intercalate
    ["===".toList, algorithm.toList, "with".toList, backend.toList, "===".toList]

def columnsLine : List Char := "size,time (ms)".toList

def rowLine (s : Sample) : List Char :=
  Nat.toDigits 10 s.size.toNat ++ ',' :: Binary64.fixed timePlaces s.elapsed

def blockLines (algorithm : String) (entry : String × List Sample) : List (List Char) :=
  titleLine algorithm entry.1 :: columnsLine :: entry.2.map rowLine

def lines (r : Report) : List (List Char) := r.series.flatMap (blockLines r.algorithm)

theorem toList_row (s : Sample) : (row s).toList = rowLine s ++ ['\n'] := by
  have comma : ",".toList = [','] := rfl
  have lineFeed : "\n".toList = ['\n'] := rfl
  simp only [row, rowLine, String.toList_append, String.toList_ofList, Nat.toString_eq_repr,
    Nat.toList_repr, comma, lineFeed, List.append_assoc, List.cons_append, List.nil_append]

theorem toList_block (algorithm : String) (entry : String × List Sample) :
    (block algorithm entry).toList = (blockLines algorithm entry).flatMap (· ++ ['\n']) := by
  have heading : ("=== " ++ algorithm ++ " with " ++ entry.1 ++ " ===\n" ++
      "size,time (ms)\n").toList =
      (titleLine algorithm entry.1 ++ ['\n']) ++ (columnsLine ++ ['\n']) := by
    have front : "=== ".toList = "===".toList ++ [' '] := by decide
    have joint : " with ".toList = ' ' :: "with".toList ++ [' '] := by decide
    have back : " ===\n".toList = ' ' :: "===".toList ++ ['\n'] := by decide
    have columns : "size,time (ms)\n".toList = columnsLine ++ ['\n'] := by decide
    simp only [String.toList_append, front, joint, back, columns, titleLine, List.intercalate,
      List.intersperse, List.flatten_cons, List.flatten_nil, List.append_assoc, List.cons_append,
      List.nil_append, List.append_nil]
  have rows : (String.join (entry.2.map row)).toList =
      (entry.2.map rowLine).flatMap (· ++ ['\n']) := by
    rw [String.toList_join, List.flatMap_map, List.flatMap_map]
    exact congrArg (List.flatMap · entry.2) (funext toList_row)
  rw [block, String.toList_append, heading, rows, blockLines, List.flatMap_cons, List.flatMap_cons,
    List.append_assoc]

/-- The text of a report is its lines, each with a line feed behind it. -/
theorem toList_toText (r : Report) : r.toText.toList = r.lines.flatMap (· ++ ['\n']) := by
  rw [toText, lines, String.toList_join, List.flatMap_map, List.flatMap_assoc]
  exact congrArg (List.flatMap · r.series) (funext (toList_block r.algorithm))

end Report

theorem wholeLines?_of_lines {lines : List (List Char)} (clean : ∀ line ∈ lines, '\n' ∉ line) :
    wholeLines? (lines.flatMap (· ++ ['\n'])) = some lines := by
  simp only [wholeLines?, splitOn_ended clean, List.getLast?_concat, List.dropLast_concat, if_true]

/-! ## Lines read back -/

namespace PrintedSample

/-- How a sample is printed. -/
def of (s : Sample) : PrintedSample :=
  ⟨s.size, s.elapsed.negative, ⟨Binary64.scaled Report.timePlaces s.elapsed, -Report.timePlaces⟩⟩

/-- The number that is printed for the time. -/
def exact (p : PrintedSample) : ℚ := p.time.value p.negative

end PrintedSample

namespace Report

theorem read?_titleLine {algorithm backend : String} (named : ' ' ∉ algorithm.toList)
    (labelled : ' ' ∉ backend.toList) :
    TextLine.read? (titleLine algorithm backend) = some (.title algorithm backend) := by
  have words : (titleLine algorithm backend).splitOn ' ' =
      ["===".toList, algorithm.toList, "with".toList, backend.toList, "===".toList] := by
    apply List.splitOn_intercalate
    · simp only [List.forall_mem_cons]
      exact ⟨by decide, named, by decide, labelled, by decide, by simp⟩
    · exact List.cons_ne_nil _ _
  simp only [TextLine.read?, words, and_self, if_true, String.ofList_toList]

theorem read?_columnsLine : TextLine.read? columnsLine = some .columns := by
  decide

/-- Neither of the separators stands in a size or a time. -/
theorem mem_rowLine {s : Sample} (finite : s.elapsed.isFinite = true) {c : Char}
    (member : c ∈ rowLine s) : c.isDigit = true ∨ c = ',' ∨ c = '-' ∨ c = '.' := by
  rcases List.mem_append.mp member with size | behind
  · exact Or.inl (isDigit_toDigits _ c size)
  · rcases List.mem_cons.mp behind with comma | time
    · exact Or.inr (Or.inl comma)
    · exact (Binary64.mem_fixed finite time).imp_right Or.inr

theorem read?_rowLine {s : Sample} (finite : s.elapsed.isFinite = true) :
    TextLine.read? (rowLine s) = some (.row (PrintedSample.of s)) := by
  have one : (rowLine s).splitOn ' ' = [rowLine s] :=
    splitOn_of_not_mem fun member => absurd (mem_rowLine finite member) (by decide)
  have size : ',' ∉ Nat.toDigits 10 s.size.toNat := fun member =>
    absurd (isDigit_toDigits _ _ member) (by decide)
  have time : ',' ∉ Binary64.fixed timePlaces s.elapsed := fun member =>
    absurd (Binary64.mem_fixed finite member) (by decide)
  have cells : (rowLine s).splitOn ',' =
      [Nat.toDigits 10 s.size.toNat, Binary64.fixed timePlaces s.elapsed] := by
    rw [rowLine, splitOn_append_of_not_mem size, splitOn_of_not_mem time]
  simp only [TextLine.read?, one, TextLine.row?, cells,
    readUnsigned_toDigits (show s.size.toNat < 2 ^ 64 from s.size.toNat_lt),
    Binary64.read?_fixed finite (show 0 < timePlaces by decide), UInt64.ofNat_toNat,
    PrintedSample.of]

end Report

/-! ## Blocks read back -/

/-- A block whose title and rows can be told apart. -/
structure LegibleBlock (entry : String × List Sample) : Prop where
  backend : Identifier.check .backend entry.1 = .ok ()
  finite : ∀ s ∈ entry.2, s.elapsed.isFinite = true

/-- A report whose text can be read: it has a block, and names and times are as they should be. -/
structure Report.IsLegible (r : Report) : Prop where
  nonempty : r.series ≠ []
  algorithm : Identifier.check .algorithm r.algorithm = .ok ()
  blocks : ∀ entry ∈ r.series, LegibleBlock entry

/-- What is printed under a backend. -/
def PrintedSample.ofEntry (entry : String × List Sample) : String × List PrintedSample :=
  (entry.1, entry.2.map PrintedSample.of)

namespace TextReading

open Report (titleLine columnsLine rowLine blockLines)

theorem step?_of_line {text : List Char} {line : TextLine} (known : TextLine.read? text = some line)
    (reading : TextReading) : reading.step? text = reading.accept? line := by
  rw [step?, known]
  rfl

theorem run_cons {reading later : TextReading} {line : List Char}
    (stepped : reading.step? line = some later) (rest : List (List Char)) :
    (line :: rest).foldlM step? reading = rest.foldlM step? later := by
  rw [List.foldlM_cons, stepped]
  rfl

/-- Rows are put behind those that have been read. -/
theorem run_rows {samples : List Sample} (finite : ∀ s ∈ samples, s.elapsed.isFinite = true)
    (finished : Transcript) (backend : String) (read : List PrintedSample) :
    (samples.map rowLine).foldlM step? (.rows finished backend read) =
      some (.rows finished backend (read ++ samples.map PrintedSample.of)) := by
  induction samples generalizing read with
  | nil => simp
  | cons s rest ih =>
    rw [List.forall_mem_cons] at finite
    rw [List.map_cons, run_cons (step?_of_line (Report.read?_rowLine finite.1) _), ih finite.2,
      List.map_cons, List.append_assoc, List.singleton_append]

/-- Behind what has been read a title may follow. -/
def Continues (reading : TextReading) (finished : Transcript) : Prop :=
  ∀ backend, reading.accept? (.title finished.algorithm backend) = some (.titled finished backend)

theorem continues_before (algorithm : String) : before.Continues ⟨algorithm, []⟩ := fun _ => rfl

theorem continues_rows (finished : Transcript) (backend : String) (read : List PrintedSample) :
    (rows finished backend read).Continues (finished.append backend read) :=
  fun _ => if_pos rfl

theorem run_block {reading : TextReading} {finished : Transcript}
    (continues : reading.Continues finished)
    (named : Identifier.check .algorithm finished.algorithm = .ok ())
    {entry : String × List Sample} (legible : LegibleBlock entry) :
    (blockLines finished.algorithm entry).foldlM step? reading =
      some (.rows finished entry.1 (entry.2.map PrintedSample.of)) := by
  have title := Report.read?_titleLine (Identifier.not_mem_of_check named (c := ' ') (by decide))
    (Identifier.not_mem_of_check legible.backend (c := ' ') (by decide))
  rw [blockLines, run_cons ((step?_of_line title _).trans (continues entry.1)),
    run_cons (step?_of_line Report.read?_columnsLine _), run_rows legible.finite,
    List.nil_append]

/-- Blocks are put behind those that have been read. -/
theorem run_blocks {series : Filing Sample} (legible : ∀ entry ∈ series, LegibleBlock entry)
    (finished : Transcript) (named : Identifier.check .algorithm finished.algorithm = .ok ())
    (backend : String) (read : List PrintedSample) : ∃ last,
    (series.flatMap (blockLines finished.algorithm)).foldlM step? (.rows finished backend read) =
      some last ∧
    last.finish? = some ⟨finished.algorithm,
      (finished.append backend read).series ++ series.map PrintedSample.ofEntry⟩ := by
  induction series generalizing finished backend read with
  | nil => exact ⟨_, rfl, by simp [finish?, Transcript.append]⟩
  | cons entry rest ih =>
    rw [List.forall_mem_cons] at legible
    obtain ⟨last, run, finishes⟩ := ih legible.2 (finished.append backend read) named
      entry.1 (entry.2.map PrintedSample.of)
    refine ⟨last, ?_, ?_⟩
    · -- The title of the first block closes what has been read; the rest follows behind its rows.
      have block : (blockLines finished.algorithm entry).foldlM step?
          (.rows finished backend read) =
          some (.rows (finished.append backend read) entry.1 (entry.2.map PrintedSample.of)) :=
        run_block (continues_rows finished backend read) named legible.1
      rw [List.flatMap_cons, List.foldlM_append, block]
      exact run
    · rw [finishes, List.map_cons, List.append_cons]
      rfl

end TextReading

namespace Report

/-- What can be learnt from the text of a report. -/
def transcript (r : Report) : Transcript :=
  ⟨r.algorithm, r.series.map PrintedSample.ofEntry⟩

theorem not_mem_titleLine {algorithm backend : String} (named : '\n' ∉ algorithm.toList)
    (labelled : '\n' ∉ backend.toList) : '\n' ∉ titleLine algorithm backend := by
  have marks : '\n' ∉ "===".toList ∧ '\n' ∉ "with".toList := by decide
  simp only [titleLine, List.intercalate, List.intersperse, List.flatten_cons, List.flatten_nil,
    List.mem_append, List.mem_singleton, named, labelled, marks.1, marks.2, List.not_mem_nil]
  decide

theorem IsLegible.lineFeed_not_mem {r : Report} (legible : r.IsLegible) :
    ∀ line ∈ r.lines, '\n' ∉ line := by
  intro line member
  obtain ⟨entry, held, member⟩ := List.mem_flatMap.mp member
  have block := legible.blocks entry held
  rcases List.mem_cons.mp member with rfl | member
  · exact not_mem_titleLine (Identifier.not_mem_of_check legible.algorithm (by decide))
      (Identifier.not_mem_of_check block.backend (by decide))
  rcases List.mem_cons.mp member with rfl | member
  · decide
  obtain ⟨s, taken, rfl⟩ := List.mem_map.mp member
  exact fun feed => absurd (mem_rowLine (block.finite s taken) feed) (by decide)

end Report

/-- A legible report is read back from its text, line by line. -/
theorem Transcript.read?_toText {r : Report} (legible : r.IsLegible) :
    Transcript.read? r.toText = some r.transcript := by
  have lines : wholeLines? r.toText.toList = some r.lines := by
    rw [r.toList_toText, wholeLines?_of_lines legible.lineFeed_not_mem]
  obtain ⟨first, rest, series⟩ := List.exists_cons_of_ne_nil legible.nonempty
  have blocks := legible.blocks
  rw [series, List.forall_mem_cons] at blocks
  obtain ⟨last, run, finishes⟩ := TextReading.run_blocks blocks.2 ⟨r.algorithm, []⟩
    legible.algorithm first.1 (first.2.map PrintedSample.of)
  have all : r.lines.foldlM TextReading.step? .before = some last := by
    rw [Report.lines, series, List.flatMap_cons, List.foldlM_append,
      TextReading.run_block (TextReading.continues_before r.algorithm) legible.algorithm blocks.1]
    exact run
  simp only [Transcript.read?, lines, all, finishes, Report.transcript, series, Option.bind_eq_bind,
    Option.bind_some]
  rfl

/-! ## What was added to a report -/

/-- The size is printed as it is, and the time as the multiple of a millionth that is nearest to it,
the even one of two. -/
structure Prints (p : PrintedSample) (s : Sample) : Prop where
  size : p.size = s.size
  nearest : IsNearestMultiple (1 / 10 ^ 6) s.elapsed.exact p.exact
  within : |p.exact - s.elapsed.exact| ≤ 5 / 10 ^ 7

theorem prints_of (s : Sample) : Prints (PrintedSample.of s) s where
  size := rfl
  nearest := Binary64.isNearestMultiple_scaled Report.timePlaces s.elapsed
  within := by
    have half := (Binary64.isNearestMultiple_scaled Report.timePlaces s.elapsed).abs_sub_le
      (by positivity)
    exact half.trans (by norm_num [Report.timePlaces])

/-- Two samples of one size whose times are equal but for the rounding to six places. -/
structure SameInPrint (s s' : Sample) : Prop where
  size : s.size = s'.size
  nearest : ∃ time, IsNearestMultiple (1 / 10 ^ 6) s.elapsed.exact time ∧
    IsNearestMultiple (1 / 10 ^ 6) s'.elapsed.exact time
  within : |s.elapsed.exact - s'.elapsed.exact| ≤ 1 / 10 ^ 6

theorem sameInPrint_of_eq {s s' : Sample} (same : PrintedSample.of s = PrintedSample.of s') :
    SameInPrint s s' := by
  have first := prints_of s
  have second := prints_of s'
  rw [← same] at second
  refine ⟨first.size.symm.trans second.size, ⟨_, first.nearest, second.nearest⟩, ?_⟩
  calc |s.elapsed.exact - s'.elapsed.exact|
      ≤ |s.elapsed.exact - (PrintedSample.of s).exact| +
          |(PrintedSample.of s).exact - s'.elapsed.exact| := abs_sub_le _ _ _
    _ ≤ 5 / 10 ^ 7 + 5 / 10 ^ 7 := by
      rw [abs_sub_comm]
      exact add_le_add first.within second.within
    _ = 1 / 10 ^ 6 := by norm_num

theorem forall₂_prints (samples : List Sample) :
    List.Forall₂ Prints (samples.map PrintedSample.of) samples := by
  rw [List.forall₂_map_left_iff, List.forall₂_same]
  exact fun s _ => prints_of s

theorem forall₂_sameInPrint {samples samples' : List Sample}
    (same : samples.map PrintedSample.of = samples'.map PrintedSample.of) :
    List.Forall₂ SameInPrint samples samples' := by
  have each : List.Forall₂ (· = ·) (samples.map PrintedSample.of)
      (samples'.map PrintedSample.of) := List.forall₂_eq_eq_eq ▸ same
  rw [List.forall₂_map_left_iff, List.forall₂_map_right_iff] at each
  exact each.imp fun _ _ => sameInPrint_of_eq

theorem Filing.get_map {α β : Type} (f : α → β) (filing : Filing α) (label : String) :
    Filing.get (filing.map fun entry => (entry.1, entry.2.map f)) label =
      (filing.get label).map f := by
  induction filing with
  | nil => rfl
  | cons entry rest ih =>
    rw [List.map_cons, Filing.get, Filing.get, ih]
    split <;> rfl

namespace Report

theorem get_transcript (r : Report) (backend : String) :
    r.transcript.series.get backend = (r.samples backend).map PrintedSample.of :=
  Filing.get_map ..

theorem labels_transcript (r : Report) : r.transcript.series.labels = r.backends := by
  simp only [transcript, Filing.labels, List.map_map, backends]
  rfl

/-- Samples that a text report can be made of: there is one, their names are identifiers, and their
times are finite. -/
structure Printable (algorithm : String) (additions : List Addition) : Prop where
  nonempty : additions ≠ []
  algorithm : Identifier.check .algorithm algorithm = .ok ()
  backends : ∀ a ∈ additions, Identifier.check .backend a.backend = .ok ()
  finite : ∀ a ∈ additions, a.sample.elapsed.isFinite = true

theorem isLegible_addAll {algorithm : String} {additions : List Addition}
    (printable : Printable algorithm additions) (generatedAt : String) :
    ((new algorithm generatedAt).addAll additions).IsLegible where
  nonempty empty := by
    obtain ⟨first, rest, rfl⟩ := List.exists_cons_of_ne_nil printable.nonempty
    have labels := backends_addAll_new algorithm generatedAt (first :: rest)
    rw [backends, empty, List.map_cons, List.eraseDups_cons] at labels
    cases labels
  algorithm := by
    rw [algorithm_addAll]
    exact printable.algorithm
  blocks entry member := by
    constructor
    · have label : entry.1 ∈ ((new algorithm generatedAt).addAll additions).backends :=
        List.mem_map_of_mem member
      rw [backends_addAll_new, List.mem_eraseDups] at label
      obtain ⟨a, added, same⟩ := List.mem_map.mp label
      exact same ▸ printable.backends a added
    · exact isFinite_addAll (isFinite_new algorithm generatedAt) printable.finite entry member

/-- What was added to a report is found in its text, each sample once and in its place, with the
times rounded to six places; and two reports with one text differ in what was rounded only. -/
theorem text_read_back {algorithm : String} {additions : List Addition}
    (printable : Printable algorithm additions) (generatedAt : String) :
    let report := (new algorithm generatedAt).addAll additions
    (∃ found, Transcript.read? report.toText = some found ∧
      found.algorithm = algorithm ∧
      found.series.labels = (additions.map (·.backend)).eraseDups ∧
      ∀ backend, List.Forall₂ Prints (found.series.get backend)
        ((additions.filter (·.backend = backend)).map (·.sample))) ∧
    ∀ (algorithm' generatedAt' : String) (additions' : List Addition),
      Printable algorithm' additions' →
      let other := (new algorithm' generatedAt').addAll additions'
      other.toText = report.toText →
      other.algorithm = report.algorithm ∧ other.backends = report.backends ∧
      ∀ backend, List.Forall₂ SameInPrint (other.samples backend) (report.samples backend) := by
  intro report
  have legible : report.IsLegible := isLegible_addAll printable generatedAt
  constructor
  · refine ⟨report.transcript, Transcript.read?_toText legible, algorithm_addAll .., ?_, ?_⟩
    · rw [labels_transcript, backends_addAll_new]
    · intro backend
      have samples : report.samples backend =
          (additions.filter (·.backend = backend)).map (·.sample) := samples_addAll ..
      rw [get_transcript, samples]
      exact forall₂_prints _
  · intro algorithm' generatedAt' additions' printable' other text
    have legible' : other.IsLegible := isLegible_addAll printable' generatedAt'
    have same : other.transcript = report.transcript := by
      have read := Transcript.read?_toText legible'
      rw [text, Transcript.read?_toText legible, Option.some.injEq] at read
      exact read.symm
    refine ⟨congrArg Transcript.algorithm same, ?_, fun backend => ?_⟩
    · rw [← labels_transcript, ← labels_transcript, same]
    · apply forall₂_sameInPrint
      rw [← get_transcript, ← get_transcript, same]

/-- Times half between two millionths, a negative zero and the smallest double above zero. -/
def halves : List Addition := [
  ⟨"compute", ⟨4, .ofRatio false 1 128⟩⟩,
  ⟨"tbb", ⟨18446744073709551615, .signedZero true⟩⟩,
  ⟨"compute", ⟨4, .ofRatio false 3 128⟩⟩,
  ⟨"compute", ⟨0, .ofBits 1⟩⟩]

example : ((new "sort" "").addAll halves).toText =
    "=== sort with compute ===\nsize,time (ms)\n4,0.007812\n4,0.023438\n0,0.000000\n" ++
    "=== sort with tbb ===\nsize,time (ms)\n18446744073709551615,-0.000000\n" := by
  decide +kernel

/-- Times that are printed like the halves. -/
def rounded : List Addition := [
  ⟨"compute", ⟨4, .ofRatio false 78124 10000000⟩⟩,
  ⟨"compute", ⟨4, .ofRatio false 3 128⟩⟩,
  ⟨"compute", ⟨0, .zero⟩⟩,
  ⟨"tbb", ⟨18446744073709551615, .signedZero true⟩⟩]

theorem halves_read_back :
    Printable "sort" halves ∧
    (∃ found, Transcript.read? ((new "sort" "").addAll halves).toText = some found ∧
      found.series.labels = ["compute", "tbb"] ∧
      List.Forall₂ Prints (found.series.get "compute")
        [⟨4, .ofRatio false 1 128⟩, ⟨4, .ofRatio false 3 128⟩, ⟨0, .ofBits 1⟩]) ∧
    List.Forall₂ SameInPrint (((new "sort" "later").addAll rounded).samples "compute")
      (((new "sort" "").addAll halves).samples "compute") := by
  have printable : Printable "sort" halves :=
    ⟨by decide, by rfl, by decide +kernel, by decide +kernel⟩
  have printable' : Printable "sort" rounded :=
    ⟨by decide, by rfl, by decide +kernel, by decide +kernel⟩
  obtain ⟨⟨found, read, -, labels, samples⟩, others⟩ := text_read_back printable ""
  refine ⟨printable, ⟨found, read, labels.trans (by decide), ?_⟩, ?_⟩
  · exact samples "compute"
  · exact (others "sort" "later" rounded printable' (by decide +kernel)).2.2 "compute"

end Report

end TimingSweep
