import Mathlib.Data.List.Nodup
import TimingSweep.Arguments
import TimingSweep.Proofs.Separators

/-!
# Command lines

A `Token` is an argument with its value behind an equals sign, a flag, or the algorithm. On a draft
with room for it a token has one effect, whatever was read before, so that what a command line says
is told by its tokens of each kind.

* `step_text`: what a token does to a draft;
* `foldlM_step`: what a line of tokens does, by the tokens of each kind;
* `read_text`: a line is read as what its tokens give;
* `read_line`: a wish is understood in whatever order and in whatever pieces it is written.
-/

namespace TimingSweep

namespace Arguments

/-! ## Tokens -/

namespace Flag

def name : Flag → String
  | .plotTime => "plot-time"
  | .plotRate => "plot-rate"
  | .json => "json"

/-- What the flag asks for. -/
def mode : Flag → Mode
  | .plotTime => .plot .time
  | .plotRate => .plot .rate
  | .json => .json

end Flag

def Choice.name : Choice → String
  | .competitors => "competitors"
  | .sizes => "sizes"
  | .binDir => "bin-dir"
  | .outputDir => "output-dir"

/-- A part of a command line. Lists may be given in several pieces. -/
inductive Token where
  | algorithm (name : String)
  | flag (f : Flag)
  | binDir (directory : String)
  | outputDir (directory : String)
  | sizes (piece : List UInt64)
  | competitors (piece : List String)

namespace Token

/-- An option and its value. -/
def optionText (choice : Choice) (value : String) : String := "--" ++ choice.name ++ "=" ++ value

def text : Token → String
  | .algorithm name => name
  | .flag f => "--" ++ f.name
  | .binDir directory => optionText .binDir directory
  | .outputDir directory => optionText .outputDir directory
  | .sizes piece => optionText .sizes (",".intercalate (piece.map fun size => toString size.toNat))
  | .competitors piece => optionText .competitors (",".intercalate piece)

def algorithm? : Token → Option String
  | .algorithm name => some name
  | _ => none

def flag? : Token → Option Flag
  | .flag f => some f
  | _ => none

def binDir? : Token → Option String
  | .binDir directory => some directory
  | _ => none

def outputDir? : Token → Option String
  | .outputDir directory => some directory
  | _ => none

def sizes? : Token → Option (List UInt64)
  | .sizes piece => some piece
  | _ => none

def competitors? : Token → Option (List String)
  | .competitors piece => some piece
  | _ => none

/-- Names are identifiers, and neither a directory nor a piece of a list is empty. -/
def IsValid : Token → Prop
  | .algorithm name => Identifier.check .algorithm name = .ok ()
  | .flag _ => True
  | .binDir directory => directory ≠ ""
  | .outputDir directory => directory ≠ ""
  | .sizes piece => piece ≠ []
  | .competitors piece => piece ≠ [] ∧ ∀ label ∈ piece, Identifier.check .backend label = .ok ()

end Token

namespace Draft

/-! ## One token -/

/-- No value is awaited, and what begins with a dash is an argument. -/
structure IsOpen (d : Draft) : Prop where
  settled : d.pending = none
  arguments : d.operandsOnly = false

theorem IsOpen.settle {d : Draft} (isOpen : d.IsOpen) : d.settle = .ok d := by
  rw [Draft.settle, isOpen.settled]

/-- What a token adds to a draft. -/
def take (d : Draft) : Token → Draft
  | .algorithm name => { d with algorithm := some name }
  | .flag f => { d with flags := d.flags ++ [f] }
  | .binDir directory => { d with binDir := some directory }
  | .outputDir directory => { d with outputDir := some directory }
  | .sizes piece => { d with sizes := d.sizes ++ piece }
  | .competitors piece => { d with competitors := d.competitors ++ piece }

/-- What is given once has not been given. -/
def Lacks (d : Draft) : Token → Prop
  | .algorithm _ => d.algorithm = none
  | .flag f => f ∉ d.flags
  | .binDir _ => d.binDir = none
  | .outputDir _ => d.outputDir = none
  | .sizes _ => True
  | .competitors _ => True

theorem IsOpen.take {d : Draft} (isOpen : d.IsOpen) (t : Token) : (d.take t).IsOpen := by
  cases t <;> exact ⟨isOpen.settled, isOpen.arguments⟩

theorem ofName?_flag (f : Flag) : Argument.ofName? f.name = some (.flag f) := by
  cases f <;> decide

theorem ofName?_choice (c : Choice) : Argument.ofName? c.name = some (.choice c) := by
  cases c <;> decide

section Step

variable {d : Draft} (isOpen : d.IsOpen)
include isOpen

theorem step_dashes {token : String} {first : Char} {rest : List Char}
    (text : token.toList = '-' :: '-' :: first :: rest) :
    d.step token =
      let name := (first :: rest).takeWhile (· ≠ '=')
      let value := String.ofList ((first :: rest).drop (name.length + 1))
      d.long (.ofList name) (if (first :: rest).contains '=' then some value else none) := by
  rw [step, isOpen.arguments, if_neg Bool.false_ne_true, text]
  rfl

theorem step_flag {f : Flag} (new : f ∉ d.flags) :
    d.step (Token.flag f).text = .ok (d.take (.flag f)) := by
  have called : d.step (Token.flag f).text = d.long f.name none := by
    cases f with
    | plotTime =>
      have text : "--plot-time".toList = '-' :: '-' :: 'p' :: "lot-time".toList := by decide
      exact step_dashes isOpen text
    | plotRate =>
      have text : "--plot-rate".toList = '-' :: '-' :: 'p' :: "lot-rate".toList := by decide
      exact step_dashes isOpen text
    | json =>
      have text : "--json".toList = '-' :: '-' :: 'j' :: "son".toList := by decide
      exact step_dashes isOpen text
  have absent : d.flags.contains f = false := by simpa using new
  simp only [called, long, ofName?_flag, isOpen.settle]
  show d.addFlag f = _
  rw [addFlag, absent, if_neg Bool.false_ne_true]
  rfl

/-- The value of an option stands behind the first equals sign. -/
theorem step_option (choice : Choice) (value : String) :
    d.step (Token.optionText choice value) = d.apply choice value := by
  obtain ⟨first, rest, name⟩ : ∃ first rest, choice.name.toList = first :: rest := by
    cases choice <;> exact ⟨_, _, rfl⟩
  have clean : '=' ∉ first :: rest := by
    rw [← name]
    cases choice <;> decide
  have text : (Token.optionText choice value).toList =
      '-' :: '-' :: first :: (rest ++ '=' :: value.toList) := by
    simp [Token.optionText, name]
  have before : (first :: (rest ++ '=' :: value.toList)).takeWhile (· ≠ '=') = first :: rest := by
    refine takeWhile_eq_iff.mpr ⟨'=' :: value.toList, rfl, fun c member => ?_, by simp⟩
    rw [decide_eq_true_eq]
    rintro rfl
    exact clean member
  have behind : (first :: (rest ++ '=' :: value.toList)).drop ((first :: rest).length + 1) =
      value.toList := by
    simp
  have separated : (first :: (rest ++ '=' :: value.toList)).contains '=' = true := by simp
  have called : String.ofList (first :: rest) = choice.name := by
    rw [← name, String.ofList_toList]
  rw [step_dashes isOpen text]
  simp only [before, behind, separated, if_true, called, String.ofList_toList, long,
    ofName?_choice, isOpen.settle]
  rfl

/-- What does not begin with a dash is a word, and words are operands if no value is awaited. -/
theorem step_algorithm {name : String} (lacks : d.algorithm = none)
    (valid : Identifier.check .algorithm name = .ok ()) :
    d.step name = .ok (d.take (.algorithm name)) := by
  have nonempty : name.toList ≠ [] := by
    rw [ne_eq, String.toList_eq_nil_iff]
    exact (Identifier.check_eq_ok.mp valid).1
  have dash := Identifier.not_mem_of_check valid (c := '-') (by decide)
  obtain ⟨first, rest, text⟩ := List.exists_cons_of_ne_nil nonempty
  have other : first ≠ '-' := by
    rintro rfl
    exact dash (text ▸ List.mem_cons_self)
  have called : d.step name = d.word name := by
    rw [step, isOpen.arguments, if_neg Bool.false_ne_true, text]
    split
    · simp_all
    · simp_all
    · simp_all
    · rfl
  rw [called, word, isOpen.settled]
  show d.operand name = _
  simp only [operand, lacks, Option.isSome_none, isOpen.settle]
  rfl

omit isOpen in
/-- A list that is written with commas is read back, if no item has one. -/
theorem items_intercalate {piece : List String} (nonempty : piece ≠ [])
    (clean : ∀ item ∈ piece, ',' ∉ item.toList) : items (",".intercalate piece) = piece := by
  have commas : (",".intercalate piece).toList.splitOn ',' = piece.map String.toList := by
    rw [String.toList_intercalate]
    apply List.splitOn_intercalate
    · rw [List.forall_mem_map]
      exact clean
    · rw [ne_eq, List.map_eq_nil_iff]
      exact nonempty
  rw [items, commas, List.map_map]
  simp [Function.comp_def]

omit isOpen in
theorem readSizes?_intercalate {piece : List UInt64} (nonempty : piece ≠ []) :
    readSizes? (",".intercalate (piece.map fun size => toString size.toNat)) = .some piece := by
  have digits : ∀ size : UInt64, (toString size.toNat).toList = Nat.toDigits 10 size.toNat := by
    intro size
    rw [Nat.toString_eq_repr, Nat.toList_repr]
  rw [readSizes?, items_intercalate]
  · clear nonempty
    induction piece with
    | nil => rfl
    | cons size rest ih =>
      rw [List.map_cons, List.mapM_cons, digits, readUnsigned_toDigits size.toNat_lt, ih]
      simp
  · rw [ne_eq, List.map_eq_nil_iff]
    exact nonempty
  · rw [List.forall_mem_map]
    intro size _ comma
    rw [digits] at comma
    exact absurd (Nat.isDigit_of_mem_toDigits (by decide) (by decide) comma) (by decide)

/-- A valid token is taken into a draft that lacks it. -/
theorem step_text {t : Token} (lacks : d.Lacks t) (valid : t.IsValid) :
    d.step t.text = .ok (d.take t) := by
  cases t with
  | algorithm name => exact step_algorithm isOpen lacks valid
  | flag f => exact step_flag isOpen lacks
  | binDir directory =>
    have missing : d.binDir = none := lacks
    have given : directory ≠ "" := valid
    rw [Token.text, step_option isOpen]
    simp only [apply, missing, given, Option.isSome_none, Bool.false_eq_true, if_false]
    rfl
  | outputDir directory =>
    have missing : d.outputDir = none := lacks
    have given : directory ≠ "" := valid
    rw [Token.text, step_option isOpen]
    simp only [apply, missing, given, Option.isSome_none, Bool.false_eq_true, if_false]
    rfl
  | sizes piece =>
    rw [Token.text, step_option isOpen, apply, readSizes?_intercalate valid]
    rfl
  | competitors piece =>
    obtain ⟨nonempty, labels⟩ := valid
    rw [Token.text, step_option isOpen, apply, items_intercalate nonempty fun label member =>
      Identifier.not_mem_of_check (labels label member) (by decide)]
    rfl

end Step

/-! ## A line of tokens -/

/-- A draft with all that the tokens of a line add, by their kinds. -/
def after (d : Draft) (line : List Token) : Draft :=
  { d with
    algorithm := (line.filterMap Token.algorithm?).getLast?.or d.algorithm
    flags := d.flags ++ line.filterMap Token.flag?
    competitors := d.competitors ++ (line.filterMap Token.competitors?).flatten
    sizes := d.sizes ++ (line.filterMap Token.sizes?).flatten
    binDir := (line.filterMap Token.binDir?).getLast?.or d.binDir
    outputDir := (line.filterMap Token.outputDir?).getLast?.or d.outputDir }

theorem after_nil (d : Draft) : d.after [] = d := by
  simp [after]

theorem after_take (d : Draft) (t : Token) (line : List Token) :
    (d.take t).after line = d.after (t :: line) := by
  cases t <;>
    simp [take, after, List.filterMap_cons, Token.algorithm?, Token.flag?, Token.binDir?,
      Token.outputDir?, Token.sizes?, Token.competitors?, List.getLast?_cons]

/-- What is given once is given by one token of the line at most, and not twice with the draft. -/
structure Admits (d : Draft) (line : List Token) : Prop where
  algorithm : (d.algorithm.toList ++ line.filterMap Token.algorithm?).length ≤ 1
  flags : (d.flags ++ line.filterMap Token.flag?).Nodup
  binDir : (d.binDir.toList ++ line.filterMap Token.binDir?).length ≤ 1
  outputDir : (d.outputDir.toList ++ line.filterMap Token.outputDir?).length ≤ 1
  valid : ∀ t ∈ line, t.IsValid

theorem Admits.lacks {d : Draft} {t : Token} {line : List Token} (admits : d.Admits (t :: line)) :
    d.Lacks t := by
  cases t with
  | algorithm name =>
    have once := admits.algorithm
    show d.algorithm = none
    cases given : d.algorithm with
    | none => rfl
    | some _ => simp [given, Token.algorithm?] at once
  | flag f =>
    intro given
    exact (List.nodup_append.mp admits.flags).2.2 f given f (by simp [Token.flag?]) rfl
  | binDir directory =>
    have once := admits.binDir
    show d.binDir = none
    cases given : d.binDir with
    | none => rfl
    | some _ => simp [given, Token.binDir?] at once
  | outputDir directory =>
    have once := admits.outputDir
    show d.outputDir = none
    cases given : d.outputDir with
    | none => rfl
    | some _ => simp [given, Token.outputDir?] at once
  | sizes piece => trivial
  | competitors piece => trivial

theorem Admits.take {d : Draft} {t : Token} {line : List Token} (admits : d.Admits (t :: line)) :
    (d.take t).Admits line := by
  have lacks := admits.lacks
  obtain ⟨algorithm, flags, binDir, outputDir, valid⟩ := admits
  have later := fun t member => valid t (List.mem_cons_of_mem _ member)
  cases t with
  | algorithm name =>
    simp only [Lacks] at lacks
    rw [lacks] at algorithm
    exact ⟨algorithm, flags, binDir, outputDir, later⟩
  | flag f =>
    refine ⟨algorithm, ?_, binDir, outputDir, later⟩
    show (d.flags ++ [f] ++ _).Nodup
    rw [List.append_assoc]
    exact flags
  | binDir directory =>
    simp only [Lacks] at lacks
    rw [lacks] at binDir
    exact ⟨algorithm, flags, binDir, outputDir, later⟩
  | outputDir directory =>
    simp only [Lacks] at lacks
    rw [lacks] at outputDir
    exact ⟨algorithm, flags, binDir, outputDir, later⟩
  | sizes piece => exact ⟨algorithm, flags, binDir, outputDir, later⟩
  | competitors piece => exact ⟨algorithm, flags, binDir, outputDir, later⟩

theorem foldlM_step {d : Draft} {line : List Token} (isOpen : d.IsOpen) (admits : d.Admits line) :
    (line.map Token.text).foldlM step d = .ok (d.after line) := by
  induction line generalizing d with
  | nil => rw [after_nil]; rfl
  | cons t line ih =>
    rw [List.map_cons, List.foldlM_cons,
      step_text isOpen admits.lacks (admits.valid t List.mem_cons_self), ← after_take]
    exact ih (isOpen.take t) admits.take

/-- Another flag can stand anywhere. -/
theorem Admits.insert {d : Draft} {front back : List Token} (admits : d.Admits (front ++ back))
    {f : Flag} (new : f ∉ d.flags ++ (front ++ back).filterMap Token.flag?) :
    d.Admits (front ++ .flag f :: back) := by
  obtain ⟨algorithm, flags, binDir, outputDir, valid⟩ := admits
  rw [List.filterMap_append] at algorithm flags binDir outputDir new
  refine ⟨?_, ?_, ?_, ?_, fun t member => ?_⟩
  · rw [List.filterMap_append]
    exact algorithm
  · rw [List.filterMap_append]
    show (d.flags ++ (_ ++ f :: _)).Nodup
    rw [← List.append_assoc] at flags new ⊢
    exact List.nodup_middle.mpr (List.nodup_cons.mpr ⟨new, flags⟩)
  · rw [List.filterMap_append]
    exact binDir
  · rw [List.filterMap_append]
    exact outputDir
  · rcases List.mem_append.mp member with before | behind
    · exact valid t (List.mem_append_left _ before)
    · rcases List.mem_cons.mp behind with rfl | behind
      · trivial
      · exact valid t (List.mem_append_right _ behind)

end Draft

/-! ## What a line says -/

/-- Several flags are a conflict. -/
theorem ofDraft_of_isOpen {d : Draft} (isOpen : d.IsOpen) :
    ofDraft d = if 1 < d.flags.length then .error .conflict else .ok {
      algorithm := d.algorithm.getD defaultAlgorithm
      mode := Draft.mode d.flags
      competitors := if d.competitors.isEmpty then defaultCompetitors else d.competitors
      rawSizes := d.sizes
      binDir := d.binDir
      outputDir := d.outputDir } := by
  rw [ofDraft, isOpen.settle]
  show (if _ then _ else _) = _
  split <;> rfl

/-- A line is read as what its tokens give. -/
theorem read_text {line : List Token} (admits : Draft.start.Admits line) :
    read (line.map Token.text) = ofDraft (Draft.start.after line) := by
  rw [read, Draft.foldlM_step ⟨rfl, rfl⟩ admits]
  rfl

/-- What a command line is to say: everything but the directories and the flag is said. -/
structure Wish where
  algorithm : String
  flag : Option Flag
  binDir : Option String
  outputDir : Option String
  sizes : List UInt64
  competitors : List String

namespace Wish

structure IsValid (w : Wish) : Prop where
  algorithm : Identifier.check .algorithm w.algorithm = .ok ()
  binDir : w.binDir ≠ some ""
  outputDir : w.outputDir ≠ some ""
  sizes : w.sizes ≠ []
  competitors : w.competitors ≠ []
  labels : ∀ label ∈ w.competitors, Identifier.check .backend label = .ok ()

/-- The line has a token for the algorithm, for the flag and for each directory, and tokens for
pieces that give the two lists one behind the other. How the kinds are mixed is left open. -/
structure IsSaidBy (w : Wish) (line : List Token) : Prop where
  algorithm : line.filterMap Token.algorithm? = [w.algorithm]
  flag : line.filterMap Token.flag? = w.flag.toList
  binDir : line.filterMap Token.binDir? = w.binDir.toList
  outputDir : line.filterMap Token.outputDir? = w.outputDir.toList
  sizes : (line.filterMap Token.sizes?).flatten = w.sizes
  competitors : (line.filterMap Token.competitors?).flatten = w.competitors
  pieces : ∀ t ∈ line, t.sizes? ≠ some [] ∧ t.competitors? ≠ some []

def arguments (w : Wish) : Arguments where
  algorithm := w.algorithm
  mode := (w.flag.map Flag.mode).getD .text
  competitors := w.competitors
  rawSizes := w.sizes
  binDir := w.binDir
  outputDir := w.outputDir

variable {w : Wish} {line : List Token}

theorem IsSaidBy.valid (said : w.IsSaidBy line) (valid : w.IsValid) : ∀ t ∈ line, t.IsValid := by
  intro t member
  have pieces := said.pieces t member
  cases t with
  | algorithm name =>
    have given : name ∈ line.filterMap Token.algorithm? := List.mem_filterMap.mpr ⟨_, member, rfl⟩
    rw [said.algorithm, List.mem_singleton] at given
    exact given ▸ valid.algorithm
  | flag f => trivial
  | binDir directory =>
    have given : directory ∈ line.filterMap Token.binDir? :=
      List.mem_filterMap.mpr ⟨_, member, rfl⟩
    rw [said.binDir, Option.mem_toList] at given
    rintro rfl
    exact valid.binDir given
  | outputDir directory =>
    have given : directory ∈ line.filterMap Token.outputDir? :=
      List.mem_filterMap.mpr ⟨_, member, rfl⟩
    rw [said.outputDir, Option.mem_toList] at given
    rintro rfl
    exact valid.outputDir given
  | sizes piece =>
    rintro rfl
    exact pieces.1 rfl
  | competitors piece =>
    refine ⟨fun empty => pieces.2 (empty ▸ rfl), fun label held => ?_⟩
    have given : piece ∈ line.filterMap Token.competitors? :=
      List.mem_filterMap.mpr ⟨_, member, rfl⟩
    apply valid.labels
    rw [← said.competitors]
    exact List.mem_flatten.mpr ⟨piece, given, held⟩

theorem IsSaidBy.admits (said : w.IsSaidBy line) (valid : w.IsValid) :
    Draft.start.Admits line where
  algorithm := by
    rw [said.algorithm]
    exact Nat.le_refl 1
  flags := by
    rw [said.flag]
    cases w.flag <;> simp [Draft.start]
  binDir := by
    rw [said.binDir]
    cases w.binDir <;> simp [Draft.start]
  outputDir := by
    rw [said.outputDir]
    cases w.outputDir <;> simp [Draft.start]
  valid := said.valid valid

theorem IsSaidBy.read (said : w.IsSaidBy line) (valid : w.IsValid) :
    Arguments.read (line.map Token.text) = .ok w.arguments := by
  have single : ¬ 1 < w.flag.toList.length := by
    cases w.flag <;> simp
  have mode : Draft.mode w.flag.toList = (w.flag.map Flag.mode).getD .text := by
    cases w.flag with
    | none => rfl
    | some f => cases f <;> rfl
  have competitors : w.competitors.isEmpty = false :=
    List.isEmpty_eq_false_iff.mpr valid.competitors
  have after : Draft.start.after line =
      ⟨w.algorithm, w.flag.toList, w.competitors, w.sizes, w.binDir, w.outputDir, none, false⟩ := by
    simp only [Draft.after, said.algorithm, said.flag, said.binDir, said.outputDir, said.sizes,
      said.competitors]
    cases w.binDir <;> cases w.outputDir <;> rfl
  rw [read_text (said.admits valid), after, ofDraft_of_isOpen ⟨rfl, rfl⟩]
  simp only [single, mode, competitors, if_false, Bool.false_eq_true]
  rfl

/-- A wish is understood in whatever order and in whatever pieces it is said, and a second flag is a
conflict wherever it stands. -/
theorem read_line (valid : w.IsValid) (said : w.IsSaidBy line) :
    Arguments.read (line.map Token.text) = .ok w.arguments ∧
    ∀ f other front back, w.flag = some f → other ≠ f → line = front ++ back →
      Arguments.read ((front ++ .flag other :: back).map Token.text) = .error .conflict := by
  refine ⟨said.read valid, ?_⟩
  rintro f other front back given different rfl
  have flags := said.flag
  rw [given, Option.toList_some] at flags
  have new : other ∉ Draft.start.flags ++ (front ++ back).filterMap Token.flag? := by
    rw [flags]
    show other ∉ [f]
    rwa [List.mem_singleton]
  have two : 1 < ((front ++ .flag other :: back).filterMap Token.flag?).length := by
    have one := congrArg List.length flags
    simp only [List.filterMap_append, List.length_append, List.length_singleton] at one
    simp only [List.filterMap_append, List.filterMap_cons, Token.flag?, List.length_append,
      List.length_cons]
    omega
  rw [read_text ((said.admits valid).insert new), ofDraft_of_isOpen ⟨rfl, rfl⟩]
  exact if_pos two

/-- Sizes in two pieces, and no output directory. -/
def scattered : Wish := ⟨"merge", some .json, some "bin", none, [8, 2, 8], ["stl", "tbb"]⟩

def scatteredLine : List Token :=
  [.sizes [8], .flag .json, .competitors ["stl", "tbb"], .algorithm "merge", .sizes [2, 8],
    .binDir "bin"]

theorem read_scattered :
    scattered.IsValid ∧ scattered.IsSaidBy scatteredLine ∧
    Arguments.read ["--sizes=8", "--json", "--competitors=stl,tbb", "merge", "--sizes=2,8",
      "--bin-dir=bin"] = .ok ⟨"merge", .json, ["stl", "tbb"], [8, 2, 8], some "bin", none⟩ ∧
    Arguments.read ["--sizes=8", "--json", "--competitors=stl,tbb", "--plot-time", "merge",
      "--sizes=2,8", "--bin-dir=bin"] = .error .conflict := by
  have valid : scattered.IsValid :=
    ⟨by decide, by decide, by decide, by decide, by decide, by decide⟩
  have said : scattered.IsSaidBy scatteredLine :=
    ⟨by decide, by decide, by decide, by decide, by decide, by decide, by decide⟩
  obtain ⟨understood, conflict⟩ := read_line valid said
  refine ⟨valid, said, understood, ?_⟩
  exact conflict .json .plotTime (scatteredLine.take 3) (scatteredLine.drop 3) rfl (by decide) rfl

end Wish

end Arguments

end TimingSweep
