import TimingSweep.Presenter
import TimingSweep.Proofs.Additions
import TimingSweep.Proofs.Documents

/-!
# Report documents

The JSON document of a report is read back as that report: its algorithm, its backends in their
order, and every sample with its size and the bits of its time.

* `ofJson?_toJson`: a report is found again in its own document;
* `Presenter.json_document_read_back`: what is presented as JSON is one document and a line feed,
  and reading the document gives back what was added to the report.
-/

namespace TimingSweep

/-- The first member of a record under a name. -/
def Json.Value.member? (v : Json.Value) (name : String) : Option Json.Value :=
  match v with
  | .record members => members.lookup name
  | _ => none

def Sample.ofJson? (v : Json.Value) : Option Sample :=
  match v.member? "size", v.member? "elapsed_ms" with
  | some (.whole size), some (.number elapsed) =>
    if size < 2 ^ 64 then some ⟨.ofNat size, elapsed⟩ else none
  | _, _ => none

namespace Report

/-- The samples under a label. -/
def entryOfJson? (member : String × Json.Value) : Option (String × List Sample) :=
  match member.2 with
  | .list items => (items.mapM Sample.ofJson?).map fun samples => (member.1, samples)
  | _ => none

/-- Finds a report in a document; what else is in the document does not matter. -/
def ofJson? (v : Json.Value) : Option Report :=
  match v.member? "algorithm", v.member? "generated_at", v.member? "series" with
  | some (.text algorithm), some (.text generatedAt), some (.record series) =>
    (series.mapM entryOfJson?).map fun series => ⟨algorithm, generatedAt, series⟩
  | _, _, _ => none

end Report

theorem mapM_map_of_inverse {α β : Type} {write : α → β} {read? : β → Option α}
    (inverse : ∀ a, read? (write a) = some a) (as : List α) :
    (as.map write).mapM read? = some as := by
  have same : read? ∘ write = pure := funext inverse
  rw [List.mapM_map, same, List.mapM_pure]
  exact congrArg some (List.map_id as)

theorem Sample.ofJson?_toJson (s : Sample) : ofJson? s.toJson = some s := by
  have size : s.toJson.member? "size" = some (.whole s.size.toNat) := rfl
  have elapsed : s.toJson.member? "elapsed_ms" = some (.number s.elapsed) := rfl
  simp only [ofJson?, size, elapsed, if_pos s.size.toNat_lt, UInt64.ofNat_toNat]

namespace Report

theorem ofJson?_toJson (r : Report) : ofJson? r.toJson = some r := by
  have algorithm : r.toJson.member? "algorithm" = some (.text r.algorithm) := rfl
  have generatedAt : r.toJson.member? "generated_at" = some (.text r.generatedAt) := rfl
  have series : r.toJson.member? "series" = some (.record (r.series.map fun entry =>
    (entry.1, .list (entry.2.map Sample.toJson)))) := rfl
  have entries : ∀ entry : String × List Sample,
      entryOfJson? (entry.1, .list (entry.2.map Sample.toJson)) = some entry := by
    intro entry
    simp only [entryOfJson?, mapM_map_of_inverse Sample.ofJson?_toJson, Option.map_some]
  simp only [ofJson?, algorithm, generatedAt, series, mapM_map_of_inverse entries, Option.map_some]

theorem isFinite_toJson {r : Report} (finite : r.IsFinite) : r.toJson.IsFinite := by
  have sample : ∀ s : Sample, s.elapsed.isFinite = true → s.toJson.IsFinite := by
    intro s finite
    apply Json.Value.IsFinite.record
    simp only [List.forall_mem_cons]
    exact ⟨.whole _, .number finite, by simp⟩
  have entry : ∀ entry ∈ r.series, (Json.Value.list (entry.2.map Sample.toJson)).IsFinite := by
    intro entry member
    apply Json.Value.IsFinite.list
    intro v written
    obtain ⟨s, held, rfl⟩ := List.mem_map.mp written
    exact sample s (finite entry member s held)
  apply Json.Value.IsFinite.record
  simp only [List.forall_mem_cons]
  refine ⟨.text _, .text _, .record fun m written => ?_, by simp⟩
  obtain ⟨entry', member, rfl⟩ := List.mem_map.mp written
  exact entry entry' member

/-- The document of a report: the octets of its JSON text. -/
def document (r : Report) : List UInt8 := Utf8.encode r.toJson.indentedText.toList

theorem read_document {r : Report} (finite : r.IsFinite) :
    Json.Value.read r.document = .ok r.toJson := by
  rw [document, Json.Value.indentedText, String.toList_ofList]
  exact Json.Value.read_write Json.isBlank_indented (isFinite_toJson finite)

theorem eq_of_document_eq {r other : Report} (finite : r.IsFinite) (finite' : other.IsFinite)
    (same : r.document = other.document) : r = other := by
  have read := read_document finite
  rw [same, read_document finite', Except.ok.injEq] at read
  have found := ofJson?_toJson r
  rw [← read, ofJson?_toJson, Option.some.injEq] at found
  exact found.symm

/-- A document ends with its closing bracket. -/
theorem exists_document (r : Report) : ∃ front, r.document = front ++ Utf8.encode ['}'] :=
  Json.exists_encode_record ..

end Report

namespace Presenter

open Report

/-- To a sink that has room, the document is written with a line feed behind it. -/
theorem present_json_unlimited (p : Presenter) (report : Report) (competitors : List String)
    (workspace : Workspace) : p.present report .json competitors .unlimited workspace =
      ⟨.ok none, ⟨none, report.document ++ Utf8.encode ['\n']⟩, workspace, []⟩ := by
  simp only [present, writeJson, Sink.write, Sink.unlimited, List.nil_append, if_true]
  rfl

/-- What is presented as JSON is one document and a line feed, and the document tells all that was
added to the report. -/
theorem json_document_read_back (p : Presenter) (algorithm generatedAt : String)
    (additions : List Addition) (competitors : List String) (workspace : Workspace)
    (finite : ∀ a ∈ additions, a.sample.elapsed.isFinite = true) :
    let report := (Report.new algorithm generatedAt).addAll additions
    let shown := p.present report .json competitors .unlimited workspace
    shown.result = .ok none ∧
    (∃ document value found,
      shown.sink.held = document ++ Utf8.encode ['\n'] ∧
      (∃ front, document = front ++ Utf8.encode ['}']) ∧
      Json.Value.read document = .ok value ∧
      Report.ofJson? value = some found ∧
      found.algorithm = algorithm ∧
      found.backends = (additions.map (·.backend)).eraseDups ∧
      ∀ backend, found.samples backend =
        (additions.filter (·.backend = backend)).map (·.sample)) ∧
    ∀ (other : Report) (p' : Presenter) (competitors' : List String) (workspace' : Workspace),
      other.IsFinite →
      (p'.present other .json competitors' .unlimited workspace').sink.held = shown.sink.held →
      other = report := by
  intro report shown
  have report_finite : report.IsFinite :=
    isFinite_addAll (isFinite_new algorithm generatedAt) finite
  have written : shown = ⟨.ok none, ⟨none, report.document ++ Utf8.encode ['\n']⟩, workspace, []⟩ :=
    present_json_unlimited p report competitors workspace
  refine ⟨by rw [written], ⟨report.document, report.toJson, report, by rw [written],
    exists_document report, read_document report_finite, ofJson?_toJson report,
    algorithm_addAll .., backends_addAll_new .., fun backend => samples_addAll ..⟩, ?_⟩
  intro other p' competitors' workspace' other_finite same
  rw [written, present_json_unlimited] at same
  exact eq_of_document_eq other_finite report_finite (List.append_cancel_right same)

/-- Labels that need escapes, the bounds of sizes, and times at the ends of the finite doubles. -/
def oddities : List Addition := [
  ⟨"\"\\\x01\u00e9", ⟨0, .signedZero true⟩⟩,
  ⟨"", ⟨18446744073709551615, .ofBits 1⟩⟩,
  ⟨"\"\\\x01\u00e9", ⟨1, .ofBits 0x7fefffffffffffff⟩⟩]

theorem oddities_read_back :
    ∃ document value found,
      (present ⟨none, "", true⟩ ((Report.new "\n" "").addAll oddities) .json [] .unlimited
        ⟨.empty, []⟩).sink.held = document ++ Utf8.encode ['\n'] ∧
      Json.Value.read document = .ok value ∧
      Report.ofJson? value = some found ∧
      found.backends = ["\"\\\x01\u00e9", ""] ∧
      found.samples "\"\\\x01\u00e9" =
        [⟨0, .signedZero true⟩, ⟨1, .ofBits 0x7fefffffffffffff⟩] := by
  obtain ⟨-, ⟨document, value, found, held, -, read, known, -, backends, samples⟩, -⟩ :=
    json_document_read_back ⟨none, "", true⟩ "\n" "" oddities [] ⟨.empty, []⟩ (by decide)
  exact ⟨document, value, found, held, read, known, backends.trans (by decide),
    (samples _).trans (by decide)⟩

end Presenter

end TimingSweep
