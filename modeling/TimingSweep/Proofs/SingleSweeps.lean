import Mathlib.Data.List.Nodup
import TimingSweep.Command.Single
import TimingSweep.Proofs.Ascending
import TimingSweep.Proofs.Charts
import TimingSweep.Proofs.Labels

/-!
# The series of a single sweep

The command line gives every size once. It may name a competitor more than once, and each mention is
swept again: the samples are appended to those that are there, and the plot has one more series.

* `sizes_once_iff`: every series has each size once exactly if no competitor is swept twice;
* `distinct_labels_iff`: when two series of a plot bear the same label;
* `series_single_iff`: both, for the report and the plots of the command;
* `repeated_competitor_doubles_series`: what comes of `--competitors=tbb,tbb`.
-/

namespace TimingSweep

theorem nodup_filter_iff {p : String → Bool} {l : List String} :
    (l.filter p).Nodup ↔ ∀ a, 2 ≤ l.count a → p a = false := by
  rw [List.nodup_iff_count]
  constructor
  · intro single a twice
    rw [← Bool.not_eq_true]
    intro kept
    have := single a
    rw [List.count_filter kept] at this
    omega
  · intro dropped a
    cases kept : p a with
    | true =>
      rw [List.count_filter kept]
      apply Nat.le_of_not_lt
      intro twice
      rw [dropped a twice] at kept
      cases kept
    | false =>
      rw [List.count_eq_zero.mpr fun member => by simp [kept] at member]
      omega

theorem flatten_replicate_eq_self_iff {α : Type} {xs : List α} (nonempty : xs ≠ []) {n : Nat} :
    (List.replicate n xs).flatten = xs ↔ n = 1 := by
  constructor
  · intro same
    have lengths := congrArg List.length same
    rw [List.length_flatten, List.map_replicate, List.sum_replicate_nat] at lengths
    have positive := List.length_pos_iff.mpr nonempty
    exact Nat.eq_of_mul_eq_mul_right positive (by omega)
  · rintro rfl
    simp

namespace Request

variable {r : Request} {source : TimingSource} {generatedAt : String} {competitors : List String}

theorem mem_backends_filed (nonempty : r.sizes ≠ []) {backend : String} :
    backend ∈ (r.filed source generatedAt competitors).backends ↔
      backend ∈ Backend.primary :: competitors := by
  have filled : backend ∈ (r.plan competitors).map Call.label ↔
      0 < ((r.plan competitors).filter (·.label = backend)).length := by
    simp [List.length_pos_iff_exists_mem]
  have positive := List.length_pos_iff.mpr nonempty
  rw [backends_filed, List.mem_eraseDups, filled, length_filter_plan, ← List.count_pos_iff]
  constructor
  · exact Nat.pos_of_mul_pos_left
  · exact Nat.mul_pos positive

/-- A series has each size once exactly if no competitor is swept a second time. -/
theorem sizes_once_iff (nonempty : r.sizes ≠ []) (apart : Backend.primary ∉ competitors) :
    (∀ backend ∈ (r.filed source generatedAt competitors).backends,
      ((r.filed source generatedAt competitors).samples backend).map (·.size) = r.sizes) ↔
      competitors.Nodup := by
  have whole : competitors.Nodup ↔ (Backend.primary :: competitors).Nodup := by
    rw [List.nodup_cons, and_iff_right apart]
  rw [whole, List.nodup_iff_count_eq_one]
  simp only [map_size_samples_filed, mem_backends_filed nonempty,
    flatten_replicate_eq_self_iff nonempty]

end Request

theorem primary_not_mem_eligible (request : Request) :
    Backend.primary ∉ Registry.builtin.eligible request := by
  intro member
  have supported := (List.mem_filter.mp member).2
  have nothing : Registry.builtin.table.get Backend.primary = [] := by decide
  simp [Registry.supports, nothing] at supported

namespace SingleSweep

variable {invocation : Invocation} {arguments : Arguments} {settings : Settings}

theorem calls_of_run (read : Arguments.read invocation.arguments = .ok arguments)
    (loaded : Settings.load invocation.environment invocation.assignments = .ok settings) :
    (run invocation).calls = (sweep invocation arguments settings).calls := by
  simp only [run, read, loaded, perform]
  split
  · rfl
  · split <;> rfl

theorem labels_of_plot (report : Report) (quantity : Quantity) (competitors : List String) :
    ((presenter arguments settings).chart report quantity competitors).series.map (·.label) =
      (Backend.primary :: competitors).filter
        fun backend => (report.samples backend).any Sample.isValid := by
  rw [← Report.labels_chart report quantity]
  rfl

/-- Two series bear the same label exactly if a competitor with a valid sample is named twice. -/
theorem distinct_labels_iff (report : Report) (quantity : Quantity) {competitors : List String}
    (apart : Backend.primary ∉ competitors) :
    (((presenter arguments settings).chart report quantity competitors).series.map
      (·.label)).Nodup ↔
      ∀ backend, 2 ≤ competitors.count backend →
        (report.samples backend).any Sample.isValid = false := by
  have twice : ∀ backend, 2 ≤ (Backend.primary :: competitors).count backend ↔
      2 ≤ competitors.count backend := by
    intro backend
    by_cases same : Backend.primary = backend
    · subst same
      rw [List.count_cons_self, List.count_eq_zero.mpr apart]
      omega
    · rw [List.count_cons_of_ne same]
  simp only [labels_of_plot, nodup_filter_iff, twice]

/-- Under a label the sizes of the command line stand once for each mention of its backend, so that
a series ascends and is the only one of its label if every competitor that takes part is named once,
and not otherwise. -/
theorem series_single_iff (read : Arguments.read invocation.arguments = .ok arguments)
    (loaded : Settings.load invocation.environment invocation.assignments = .ok settings)
    (accepted : arguments.request.check = .ok ()) :
    let competitors := competitors arguments
    let sweep := sweep invocation arguments settings
    let labels := fun report quantity =>
      ((presenter arguments settings).chart report quantity competitors).series.map (·.label)
    (run invocation).calls = sweep.calls ∧ arguments.sizes.Pairwise (· < ·) ∧
    ∃ report, sweep.result = .ok report ∧
      (∀ backend, (report.samples backend).map (·.size) =
        (List.replicate ((Backend.primary :: competitors).count backend)
          arguments.sizes).flatten) ∧
      (∀ quantity, (labels report quantity).Nodup ↔
        ∀ backend, 2 ≤ competitors.count backend →
          (report.samples backend).any Sample.isValid = false) ∧
      (((∀ backend ∈ report.backends, (report.samples backend).map (·.size) = arguments.sizes) ∧
          ∀ quantity, (labels report quantity).Nodup) ↔
        competitors.Nodup) := by
  intro competitors sweep labels
  have apart : Backend.primary ∉ competitors := primary_not_mem_eligible _
  have nonempty : arguments.request.sizes ≠ [] := arguments.sizes_ne_nil
  let source := Measurement.source invocation.host (directory arguments settings)
  let report := arguments.request.filed source invocation.now competitors
  have result : sweep.result = .ok report :=
    congrArg Sweep.result (run_of_accepted _ _ _ _ accepted)
  have distinct : ∀ quantity, (labels report quantity).Nodup ↔
      ∀ backend, 2 ≤ competitors.count backend →
        (report.samples backend).any Sample.isValid = false := fun quantity =>
    distinct_labels_iff report quantity apart
  have once : (∀ backend ∈ report.backends,
      (report.samples backend).map (·.size) = arguments.sizes) ↔ competitors.Nodup :=
    Request.sizes_once_iff nonempty apart
  refine ⟨calls_of_run read loaded, arguments.pairwise_sizes, report, result, ?_, distinct, ?_⟩
  · intro backend
    exact Request.map_size_samples_filed ..
  · constructor
    · rintro ⟨ascend, -⟩
      exact once.mp ascend
    · intro nodup
      refine ⟨once.mpr nodup, fun quantity => (distinct quantity).mpr ?_⟩
      intro backend twice
      have most := List.nodup_iff_count_le_one.mp nodup backend
      omega

/-- A program that takes 2.5 ms at every size. -/
def steady : Program where
  start _ := .ok ⟨Utf8.encode "time: 2.5 ms\n".toList, .ofExitCode 0⟩

/-- A start without settings, on a host that has `sort` for the primary implementation and for `tbb`
in the usual directory. -/
def steadily (arguments : List String) : Invocation where
  arguments := arguments
  environment := []
  assignments := none
  host := ⟨⟨.folder [("perf", .folder [("perf_sort", .file (.program steady)),
    ("perf_tbb_sort", .file (.program steady))])], []⟩, fun _ => .error .noEntry⟩
  now := ""
  help := []
  order := .minimumFirst

/-- The settings where nothing is set. -/
def usual : Settings := ⟨"./perf", "perf_plots", 1000, 600, "perfsweep=info"⟩

/-- The arguments that name competitors and sizes and nothing else. -/
def naming (competitors : List String) (sizes : List UInt64) : Arguments :=
  ⟨"sort", .text, competitors, sizes, none, none⟩

/-- Sizes out of order and named twice still ascend, and competitors that are all different, whether
or not they have an executable, have one series each at most. -/
theorem repeated_size_ascends_once :
    let invocation := steadily ["--sizes=4,2,4", "--competitors=tbb,stl"]
    let arguments := naming ["tbb", "stl"] [4, 2, 4]
    Arguments.read invocation.arguments = .ok arguments ∧
    Settings.load invocation.environment invocation.assignments = .ok usual ∧
    arguments.request.check = .ok () ∧
    ∃ report, (sweep invocation arguments usual).result = .ok report ∧
      (∀ backend ∈ report.backends, (report.samples backend).map (·.size) = [2, 4]) ∧
      ∀ quantity, (((presenter arguments usual).chart report quantity
        (competitors arguments)).series.map (·.label)).Nodup := by
  have sizes : (naming ["tbb", "stl"] [4, 2, 4]).sizes = [2, 4] := by
    simp [naming, Arguments.sizes, Sizes.ascending, List.mergeSort, Sizes.dropRepeats,
      List.MergeSort.Internal.splitInTwo]
  have accepted : (naming ["tbb", "stl"] [4, 2, 4]).request.check = .ok () := by
    rw [Arguments.request, sizes]
    rfl
  have nodup : (competitors (naming ["tbb", "stl"] [4, 2, 4])).Nodup := by
    rw [competitors, Arguments.request, sizes]
    decide
  intro invocation arguments
  have read : Arguments.read invocation.arguments = .ok arguments := rfl
  have loaded : Settings.load invocation.environment invocation.assignments = .ok usual := rfl
  obtain ⟨-, -, report, ok, -, -, single⟩ := series_single_iff read loaded accepted
  obtain ⟨ascend, distinct⟩ := single.mpr nodup
  rw [sizes] at ascend
  exact ⟨read, loaded, accepted, report, ok, ascend, distinct⟩

/-- A competitor named twice is swept twice: its sizes stand in its series twice over, and the plot
has two series under its name. -/
theorem repeated_competitor_doubles_series :
    let invocation := steadily ["--sizes=2", "--competitors=tbb,tbb"]
    let arguments := naming ["tbb", "tbb"] [2]
    Arguments.read invocation.arguments = .ok arguments ∧
    Settings.load invocation.environment invocation.assignments = .ok usual ∧
    arguments.request.check = .ok () ∧ arguments.sizes = [2] ∧
    ∃ report, (sweep invocation arguments usual).result = .ok report ∧
      (report.samples "tbb").map (·.size) = [2, 2] ∧
      ∀ quantity, ((presenter arguments usual).chart report quantity
        (competitors arguments)).series.map (·.label) = ["compute", "tbb", "tbb"] := by
  have sizes : (naming ["tbb", "tbb"] [2]).sizes = [2] := by decide +kernel
  have accepted : (naming ["tbb", "tbb"] [2]).request.check = .ok () := by
    rw [Arguments.request, sizes]
    rfl
  intro invocation arguments
  have result : (sweep invocation arguments usual).result = _ :=
    congrArg Sweep.result (run_of_accepted _ _ _ _ accepted)
  refine ⟨rfl, rfl, accepted, sizes, _, result, by decide +kernel, ?_⟩
  intro quantity
  rw [labels_of_plot]
  decide +kernel

end SingleSweep

end TimingSweep
