import TimingSweep.Proofs.Replies

/-!
# What is held under a label

Calls are filed under the label of their backend, and those of the primary implementation under a
label of their own. Nothing keeps a registry from listing a competitor under that label too.

* `map_size_samples_filed`: under a label the sizes are repeated once for each backend that has it;
* `run_separates_labels`: which calls the samples under a label come from;
* `primary_label_shared`: a competitor under the primary's label is filed with the primary.
-/

namespace TimingSweep

theorem label_eq_iff {call : Call} {label : String} (other : label ≠ Backend.primary) :
    call.label = label ↔ call.backend = some label := by
  cases h : call.backend with
  | none => simp [Call.label, h, Ne.symm other]
  | some backend => simp [Call.label, h]

theorem label_of_some {call : Call} {backend : String} (h : call.backend = some backend) :
    call.label = backend := by
  simp [Call.label, h]

theorem label_of_none {call : Call} (h : call.backend = none) :
    call.label = Backend.primary := by
  simp [Call.label, h]

namespace Request

theorem backend_of_mem_callsOf {r : Request} {backend : Option String} {call : Call}
    (h : call ∈ r.callsOf backend) : call.backend = backend := by
  obtain ⟨size, _, rfl⟩ := List.mem_map.mp h
  rfl

/-- The calls of a backend stand under one label, all or none of them. -/
theorem filter_callsOf (r : Request) (backend : Option String) (label : String) :
    (r.callsOf backend).filter (·.label = label) =
      if backend.getD Backend.primary = label then r.callsOf backend else [] := by
  split
  · rename_i same
    apply List.filter_eq_self.mpr
    intro call member
    simpa [Call.label, backend_of_mem_callsOf member] using same
  · rename_i other
    apply List.filter_eq_nil_iff.mpr
    intro call member
    simpa [Call.label, backend_of_mem_callsOf member] using other

theorem map_size_callsOf (r : Request) (backend : Option String) :
    (r.callsOf backend).map (·.size) = r.sizes := by
  simp [callsOf, Function.comp_def]

theorem sizes_of_competitors (r : Request) (competitors : List String) (label : String) :
    ((competitors.flatMap fun c => r.callsOf (some c)).filter (·.label = label)).map (·.size) =
      (List.replicate (competitors.count label) r.sizes).flatten := by
  induction competitors with
  | nil => rfl
  | cons c rest ih =>
    rw [List.flatMap_cons, List.filter_append, List.map_append, ih, filter_callsOf]
    by_cases same : c = label
    · subst same
      rw [Option.getD_some, if_pos rfl, map_size_callsOf, List.count_cons_self,
        List.replicate_succ, List.flatten_cons]
    · rw [Option.getD_some, if_neg same, List.map_nil, List.nil_append,
        List.count_cons_of_ne same]

theorem sizes_under (r : Request) (competitors : List String) (label : String) :
    ((r.plan competitors).filter (·.label = label)).map (·.size) =
      (List.replicate ((Backend.primary :: competitors).count label) r.sizes).flatten := by
  rw [plan, List.filter_append, List.map_append, sizes_of_competitors, filter_callsOf,
    Option.getD_none]
  by_cases same : Backend.primary = label
  · subst same
    rw [if_pos rfl, map_size_callsOf, List.count_cons_self, List.replicate_succ, List.flatten_cons]
  · rw [if_neg same, List.map_nil, List.nil_append, List.count_cons_of_ne same]

theorem length_filter_plan (r : Request) (competitors : List String) (label : String) :
    ((r.plan competitors).filter (·.label = label)).length =
      r.sizes.length * (Backend.primary :: competitors).count label := by
  rw [← List.length_map (·.size), sizes_under, List.length_flatten, List.map_replicate,
    List.sum_replicate_nat, Nat.mul_comm]

/-- The sizes under a label are those of the calls under it, once for each backend that has it. -/
theorem map_size_samples_filed (r : Request) (source : TimingSource) (generatedAt : String)
    (competitors : List String) (label : String) :
    ((r.filed source generatedAt competitors).samples label).map (·.size) =
      (List.replicate ((Backend.primary :: competitors).count label) r.sizes).flatten := by
  have calls := map_call_replies source (r.plan competitors)
  have filtered : (r.plan competitors).filter (·.label = label) =
      ((source.replies (r.plan competitors)).filter (·.call.label = label)).map (·.call) := by
    conv => lhs; rw [← calls]
    rw [List.filter_map]
    rfl
  rw [← sizes_under, filtered, samples_filed, List.map_map, List.map_map]
  rfl

end Request

theorem call_mem_of_mem_replies {source : TimingSource} {calls : List Call} {reply : Reply}
    (h : reply ∈ source.replies calls) : reply.call ∈ calls := by
  rw [← map_call_replies source calls]
  exact List.mem_map_of_mem h

/-- The primary's calls come first, so that its label holds their replies and then those to a
competitor of the same label. -/
theorem filter_primary_replies (source : TimingSource) (r : Request) (competitors : List String) :
    let replies := source.replies (r.plan competitors)
    replies.filter (·.call.label = Backend.primary) =
        replies.filter (·.call.backend = none) ++
          replies.filter (·.call.backend = some Backend.primary) ∧
      (replies.filter (·.call.backend = none)).length = r.sizes.length := by
  intro replies
  let own := source.replies (r.callsOf none)
  let others := (source.after (r.callsOf none)).replies
    (competitors.flatMap fun c => r.callsOf (some c))
  have split : replies = own ++ others := replies_append ..
  have unnamed : ∀ reply ∈ own, reply.call.backend = none := fun reply member =>
    Request.backend_of_mem_callsOf (call_mem_of_mem_replies member)
  have named : ∀ reply ∈ others, ∃ c, reply.call.backend = some c := by
    intro reply member
    obtain ⟨c, _, call⟩ := List.mem_flatMap.mp (call_mem_of_mem_replies member)
    exact ⟨c, Request.backend_of_mem_callsOf call⟩
  have ownAll : own.filter (·.call.label = Backend.primary) = own :=
    List.filter_eq_self.mpr fun reply member => by
      simpa using label_of_none (unnamed reply member)
  have ownNone : own.filter (·.call.backend = none) = own :=
    List.filter_eq_self.mpr fun reply member => by simpa using unnamed reply member
  have ownSome : own.filter (·.call.backend = some Backend.primary) = [] :=
    List.filter_eq_nil_iff.mpr fun reply member => by simp [unnamed reply member]
  have othersNone : others.filter (·.call.backend = none) = [] := by
    apply List.filter_eq_nil_iff.mpr
    intro reply member
    obtain ⟨c, backend⟩ := named reply member
    simp [backend]
  have othersLabel : others.filter (·.call.label = Backend.primary) =
      others.filter (·.call.backend = some Backend.primary) := by
    apply List.filter_congr
    intro reply member
    obtain ⟨c, backend⟩ := named reply member
    simp [backend, label_of_some backend]
  rw [split]
  simp only [List.filter_append, ownAll, ownNone, ownSome, othersNone, othersLabel,
    List.append_nil, List.nil_append, true_and]
  rw [length_replies, Request.callsOf, List.length_map]

/-- Under the label of a competitor there are only its own replies. Under the primary's label the
replies to the primary come first; behind them stand those to a competitor that bears the label, so
the primary has its label to itself exactly if no such competitor takes part. -/
theorem run_separates_labels (registry : Registry) (source : TimingSource) (generatedAt : String)
    (order : ParameterOrder) {request : Request} (accepted : request.check = .ok ()) :
    let sweep := Sweep.run registry source generatedAt order request
    let replies := source.replies sweep.calls
    let own := (replies.filter (·.call.backend = none)).map Reply.sample
    let others := (replies.filter (·.call.backend = some Backend.primary)).map Reply.sample
    let sharing := (registry.eligible request).count Backend.primary
    ∃ report, sweep.result = .ok report ∧
      (∀ label, label ≠ Backend.primary → report.samples label =
        (replies.filter (·.call.backend = some label)).map Reply.sample) ∧
      report.samples Backend.primary = own ++ others ∧
      own.length = request.sizes.length ∧
      (report.samples Backend.primary).length = request.sizes.length * (1 + sharing) ∧
      (report.samples Backend.primary = own ↔
        request.sizes = [] ∨ Backend.primary ∉ registry.eligible request) := by
  intro sweep replies own others sharing
  have run : sweep = _ := run_of_accepted registry source generatedAt order accepted
  have calls : sweep.calls = request.plan (registry.eligible request) := by rw [run]
  obtain ⟨primary, ownLength⟩ :=
    filter_primary_replies source request (registry.eligible request)
  rw [← calls] at primary ownLength
  let report := request.filed source generatedAt (registry.eligible request)
  have samples : ∀ label, report.samples label =
      (replies.filter (·.call.label = label)).map Reply.sample := by
    intro label
    simp only [replies, calls]
    exact Request.samples_filed ..
  have held : report.samples Backend.primary = own ++ others := by
    rw [samples, primary, List.map_append]
  have length : (report.samples Backend.primary).length = request.sizes.length * (1 + sharing) := by
    rw [← List.length_map (·.size), Request.map_size_samples_filed, ← Request.sizes_under,
      List.length_map, Request.length_filter_plan, List.count_cons_self, Nat.add_comm]
  have ownSize : own.length = request.sizes.length := by rw [List.length_map, ownLength]
  refine ⟨report, by rw [run], ?_, held, ownSize, length, ?_⟩
  · intro label other
    rw [samples]
    congr 1
    apply List.filter_congr
    intro reply _
    exact decide_eq_decide.mpr (label_eq_iff other)
  · have absent : Backend.primary ∉ registry.eligible request ↔ sharing = 0 :=
      List.count_eq_zero.symm
    rw [absent, ← List.length_eq_zero_iff]
    constructor
    · intro alone
      rw [alone, ownSize, Nat.mul_add, Nat.mul_one] at length
      exact Nat.mul_eq_zero.mp (by omega)
    · intro unshared
      have nothing : request.sizes.length * sharing = 0 := Nat.mul_eq_zero.mpr unshared
      rw [held, List.length_append, ownSize, Nat.mul_add, nothing] at length
      have empty : others = [] := List.eq_nil_of_length_eq_zero (by omega)
      rw [held, empty, List.append_nil]

/-- A competitor under a label of its own is kept apart; the sizes may repeat. -/
theorem omp_run_separates_labels :
    let request : Request := ⟨"scan", [16, 16], ["omp", "tbb"]⟩
    let registry := Registry.ofTable [("omp", ["scan"]), ("omp", ["sort"])]
    let counting : TimingSource := fun before _ => .ofBits (.ofNat before.length)
    request.check = .ok () ∧
    ∃ report, (Sweep.run registry counting "" .minimumFirst request).result = .ok report ∧
      report.samples "omp" = [⟨16, .ofBits 2⟩, ⟨16, .ofBits 3⟩] ∧
      report.samples Backend.primary = [⟨16, .ofBits 0⟩, ⟨16, .ofBits 1⟩] := by
  have accepted : Request.check ⟨"scan", [16, 16], ["omp", "tbb"]⟩ = .ok () := rfl
  intro request registry counting
  obtain ⟨report, ok, others, _, _, _, alone⟩ :=
    run_separates_labels registry counting "" .minimumFirst accepted
  refine ⟨accepted, report, ok, ?_, ?_⟩
  · rw [others "omp" (by decide)]
    rfl
  · rw [alone.mpr (Or.inr (by decide))]
    rfl

/-- The label of the primary is not reserved: of two samples under it the second is the answer to
the call of a competitor. -/
theorem primary_label_shared :
    let request : Request := ⟨"sort", [2], ["compute"]⟩
    let registry := Registry.ofTable [("compute", ["sort"])]
    let counting : TimingSource := fun before _ => .ofBits (.ofNat before.length)
    let sweep := Sweep.run registry counting "" .minimumFirst request
    request.check = .ok () ∧
    counting.replies sweep.calls =
      [⟨⟨"sort", 2, none⟩, .ofBits 0⟩, ⟨⟨"sort", 2, some "compute"⟩, .ofBits 1⟩] ∧
    ∃ report, sweep.result = .ok report ∧
      report.samples "compute" = [⟨2, .ofBits 0⟩, ⟨2, .ofBits 1⟩] ∧
      (report.samples "compute").length ≠ request.sizes.length :=
  ⟨rfl, rfl, _, rfl, rfl, by decide⟩

end TimingSweep
