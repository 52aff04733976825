import TimingSweep.Proofs.Additions
import TimingSweep.Sweep

/-!
# Sweeps and the replies to their calls

A sweep is one list of calls, made in the order of `Request.plan`, and its report is what adding the
replies to them gives. `TimingSource.replies` asks the source for each call with all calls before
it, so that an answer may depend on the whole past.

* `measureAll_recorded`: a progress that holds the replies to its calls goes on doing so;
* `samples_filed`, `backends_filed`: what the report of the replies holds;
* `run_of_accepted`: a sweep is its plan and the report of the replies;
* `run_files_every_reply`: calls, samples and labels of a sweep.
-/

namespace TimingSweep

/-- A call and the answer it was given. -/
structure Reply where
  call : Call
  elapsed : Binary64
  deriving DecidableEq

namespace Reply

def sample (r : Reply) : Sample := ⟨r.call.size, r.elapsed⟩

def addition (r : Reply) : Addition := ⟨r.call.label, r.sample⟩

end Reply

/-- The answers to calls made one after another. -/
def TimingSource.replies (source : TimingSource) (calls : List Call) : List Reply :=
  calls.mapIdx fun i call => ⟨call, source (calls.take i) call⟩

/-- The source as it is after some calls. -/
def TimingSource.after (source : TimingSource) (before : List Call) : TimingSource :=
  fun later call => source (before ++ later) call

theorem replies_append (source : TimingSource) (first rest : List Call) :
    source.replies (first ++ rest) = source.replies first ++ (source.after first).replies rest := by
  simp only [TimingSource.replies, TimingSource.after, List.mapIdx_append]
  congr 1
  · apply List.mapIdx_eq_mapIdx_iff.mpr
    intro i bound
    rw [List.take_append_of_le_length (Nat.le_of_lt bound)]
  · apply List.mapIdx_eq_mapIdx_iff.mpr
    intro i _
    rw [List.take_append, List.take_of_length_le (Nat.le_add_left ..), Nat.add_sub_cancel]

theorem replies_singleton (source : TimingSource) (call : Call) :
    source.replies [call] = [⟨call, source [] call⟩] := rfl

theorem map_call_replies (source : TimingSource) (calls : List Call) :
    (source.replies calls).map (·.call) = calls := by
  apply List.ext_getElem
  · simp [TimingSource.replies]
  · intro i _ _
    simp [TimingSource.replies]

theorem length_replies (source : TimingSource) (calls : List Call) :
    (source.replies calls).length = calls.length :=
  List.length_mapIdx

/-! ## The plan of a sweep -/

namespace Request

/-- The calls of one backend. -/
def callsOf (r : Request) (backend : Option String) : List Call :=
  r.sizes.map fun size => ⟨r.algorithm, size, backend⟩

/-- The calls of the primary implementation and then those of each competitor. -/
def plan (r : Request) (competitors : List String) : List Call :=
  r.callsOf none ++ competitors.flatMap fun competitor => r.callsOf (some competitor)

/-- The backends of a plan: the primary implementation and the competitors. -/
def backends (competitors : List String) : List (Option String) := none :: competitors.map some

theorem mem_plan_iff {r : Request} {competitors : List String} {call : Call} :
    call ∈ r.plan competitors ↔ call.algorithm = r.algorithm ∧ call.size ∈ r.sizes ∧
      call.backend ∈ backends competitors := by
  have mem_callsOf : ∀ backend, call ∈ r.callsOf backend ↔
      call.algorithm = r.algorithm ∧ call.size ∈ r.sizes ∧ call.backend = backend := by
    intro backend
    obtain ⟨algorithm, size, other⟩ := call
    simp [callsOf, and_comm, and_assoc, eq_comm]
  simp only [plan, backends, List.mem_append, List.mem_flatMap, mem_callsOf, List.mem_cons,
    List.mem_map]
  grind

theorem length_plan (r : Request) (competitors : List String) :
    (r.plan competitors).length = r.invocations competitors.length := by
  have each : ∀ backend, (r.callsOf backend).length = r.sizes.length := fun _ => List.length_map _
  simp only [plan, List.length_append, List.length_flatMap, each, List.map_const',
    List.sum_replicate_nat, invocations, Nat.mul_add, Nat.mul_one, Nat.mul_comm]

end Request

namespace Progress

variable {source : TimingSource} {request : Request} {start : Report} {p : Progress}

def measureAll (source : TimingSource) (p : Progress) (calls : List Call) : Progress :=
  calls.foldl (measure source) p

/-- The report holds the replies to the calls that were made, and nothing else. -/
def Recorded (source : TimingSource) (start : Report) (p : Progress) : Prop :=
  p.report = start.addAll ((source.replies p.calls).map Reply.addition)

theorem start_recorded (source : TimingSource) (algorithm generatedAt : String) :
    (Progress.start algorithm generatedAt).Recorded source (.new algorithm generatedAt) := rfl

theorem measure_recorded (h : p.Recorded source start) (call : Call) :
    (p.measure source call).Recorded source start := by
  have last : (source.after p.calls).replies [call] = [⟨call, source p.calls call⟩] := by
    rw [replies_singleton, TimingSource.after, List.append_nil]
  rw [Recorded, measure_calls, replies_append, last, List.map_append, Report.addAll_append, ← h]
  rfl

theorem measureAll_recorded (h : p.Recorded source start) (calls : List Call) :
    (p.measureAll source calls).Recorded source start := by
  induction calls generalizing p with
  | nil => exact h
  | cons call rest ih => exact ih (measure_recorded h call)

theorem measureAll_calls (source : TimingSource) (p : Progress) (calls : List Call) :
    (p.measureAll source calls).calls = p.calls ++ calls := by
  induction calls generalizing p with
  | nil => simp [measureAll]
  | cons call rest ih =>
    show ((p.measure source call).measureAll source rest).calls = _
    rw [ih, measure_calls, List.append_assoc, List.singleton_append]

theorem measureAll_append (source : TimingSource) (p : Progress) (first rest : List Call) :
    p.measureAll source (first ++ rest) = (p.measureAll source first).measureAll source rest :=
  List.foldl_append

theorem sweep_eq_measureAll (source : TimingSource) (request : Request) (p : Progress)
    (backend : Option String) :
    p.sweep source request backend = p.measureAll source (request.callsOf backend) := by
  rw [measureAll, Request.callsOf, List.foldl_map]
  rfl

/-- Competitors that are passed over leave no trace: the loop is the one over the eligible. -/
theorem foldl_compete (registry : Registry) (source : TimingSource) (request : Request)
    (p : Progress) (competitors : List String) :
    competitors.foldl (compete registry source request) p =
      p.measureAll source ((competitors.filter (registry.supports · request.algorithm)).flatMap
        fun competitor => request.callsOf (some competitor)) := by
  induction competitors generalizing p with
  | nil => rfl
  | cons competitor rest ih =>
    rw [List.foldl_cons, ih]
    by_cases supported : registry.supports competitor request.algorithm = true
    · rw [List.filter_cons, if_pos supported, List.flatMap_cons, measureAll_append, compete,
        if_pos supported, sweep_eq_measureAll]
    · rw [List.filter_cons, if_neg supported, compete, if_neg supported]

end Progress

/-! ## The report of a sweep -/

namespace Request

variable (r : Request) (source : TimingSource) (generatedAt : String) (competitors : List String)

/-- The report of the replies to a plan. -/
def filed : Report :=
  (Report.new r.algorithm generatedAt).addAll
    ((source.replies (r.plan competitors)).map Reply.addition)

/-- Under a label stand the samples of the replies to its calls. -/
theorem samples_filed (label : String) :
    (r.filed source generatedAt competitors).samples label =
      ((source.replies (r.plan competitors)).filter (·.call.label = label)).map Reply.sample := by
  rw [filed, Report.samples_addAll, List.filter_map, List.map_map]
  rfl

/-- The labels of the calls are listed, each where it comes first. -/
theorem backends_filed :
    (r.filed source generatedAt competitors).backends =
      ((r.plan competitors).map Call.label).eraseDups := by
  have calls := map_call_replies source (r.plan competitors)
  have labels : ((source.replies (r.plan competitors)).map Reply.addition).map (·.backend) =
      (r.plan competitors).map Call.label := by
    rw [List.map_map, ← congrArg (List.map Call.label) calls, List.map_map]
    rfl
  rw [filed, Report.backends_addAll_new, labels]

theorem sampleCount_filed :
    (r.filed source generatedAt competitors).sampleCount = r.invocations competitors.length := by
  rw [filed, Report.sampleCount_addAll, List.length_map, length_replies, length_plan]
  exact Nat.zero_add _

end Request

/-- A sweep of an accepted request makes the calls of its plan and files the replies. -/
theorem run_of_accepted (registry : Registry) (source : TimingSource) (generatedAt : String)
    (order : ParameterOrder) {request : Request} (accepted : request.check = .ok ()) :
    Sweep.run registry source generatedAt order request =
      ⟨request.plan (registry.eligible request),
        .ok (request.filed source generatedAt (registry.eligible request))⟩ := by
  let start := Progress.start request.algorithm generatedAt
  let last := start.measureAll source (request.plan (registry.eligible request))
  have whole : request.competitors.foldl (Progress.compete registry source request)
      (start.sweep source request none) = last := by
    rw [Progress.foldl_compete, Progress.sweep_eq_measureAll, ← Progress.measureAll_append]
    rfl
  have calls : last.calls = request.plan (registry.eligible request) :=
    Progress.measureAll_calls ..
  have recorded : last.Recorded source (.new request.algorithm generatedAt) :=
    Progress.measureAll_recorded (Progress.start_recorded ..) _
  rw [Progress.Recorded, calls] at recorded
  simp only [Sweep.run, Request.ensureValid_of_ok order accepted]
  rw [whole, calls, recorded]
  rfl

/-- A sweep makes no call outside its plan; a refused one makes none. -/
theorem mem_plan_of_mem_calls {registry : Registry} {source : TimingSource} {generatedAt : String}
    {order : ParameterOrder} {request : Request} {call : Call}
    (made : call ∈ (Sweep.run registry source generatedAt order request).calls) :
    call ∈ request.plan (registry.eligible request) := by
  cases checked : request.check with
  | error objection =>
    simp only [Sweep.run, Request.ensureValid_of_error order checked] at made
    cases made
  | ok _ =>
    rw [run_of_accepted registry source generatedAt order checked] at made
    exact made

/-- Every call of the plan is made once and in its turn, and every answer is filed once, under the
label of its call and as it was given. -/
theorem run_files_every_reply (registry : Registry) (source : TimingSource) (generatedAt : String)
    (order : ParameterOrder) {request : Request} (accepted : request.check = .ok ()) :
    let competitors := registry.eligible request
    let sweep := Sweep.run registry source generatedAt order request
    sweep.calls = request.plan competitors ∧
    ∃ report, sweep.result = .ok report ∧
      sweep.calls.length = request.invocations competitors.length ∧
      report.sampleCount = request.invocations competitors.length ∧
      (∀ label, report.samples label =
        ((source.replies sweep.calls).filter (·.call.label = label)).map Reply.sample) ∧
      report.backends = (sweep.calls.map Call.label).eraseDups := by
  intro competitors sweep
  have run : sweep = _ := run_of_accepted registry source generatedAt order accepted
  have calls : sweep.calls = request.plan competitors := by rw [run]
  have result : sweep.result = .ok (request.filed source generatedAt competitors) := by rw [run]
  have count : sweep.calls.length = request.invocations competitors.length := by
    rw [calls, Request.length_plan]
  refine ⟨calls, _, result, count, Request.sampleCount_filed .., ?_, ?_⟩
  · intro label
    rw [calls]
    exact Request.samples_filed ..
  · rw [calls]
    exact Request.backends_filed ..

/-- A source that counts its calls, asked for a competitor that is named twice. -/
theorem counted_run_files_every_reply :
    let request : Request := ⟨"sort", [4, 2], ["stl", "omp", "stl"]⟩
    let counting : TimingSource := fun before _ => .ofBits (.ofNat before.length)
    request.check = .ok () ∧
    ∃ report, (Sweep.run .builtin counting "" .minimumFirst request).result = .ok report ∧
      report.sampleCount = 6 ∧ report.backends = ["compute", "stl"] ∧
      report.samples "stl" = [⟨4, .ofBits 2⟩, ⟨2, .ofBits 3⟩, ⟨4, .ofBits 4⟩, ⟨2, .ofBits 5⟩] := by
  have accepted : Request.check ⟨"sort", [4, 2], ["stl", "omp", "stl"]⟩ = .ok () := rfl
  intro request counting
  obtain ⟨calls, report, ok, _, count, samples, backends⟩ :=
    run_files_every_reply .builtin counting "" .minimumFirst accepted
  refine ⟨accepted, report, ok, count, ?_, ?_⟩
  · rw [backends, calls]
    decide
  · rw [samples, calls]
    decide

end TimingSweep
