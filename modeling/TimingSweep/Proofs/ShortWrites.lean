import TimingSweep.Proofs.ReportDocuments

/-!
# Sinks without enough room

What is written comes to a sink in pieces, and the sink takes each piece in portions while it has
room. How the pieces are cut and how large the portions are makes no difference to what the sink
holds in the end, and none to whether all was taken.

* `Sink.Delivers`, `delivers_iff`: a delivery in pieces and portions comes to what `Sink.write`
  makes of the whole at once;
* `Presenter.output`, `held_present_unlimited`: what a presentation writes;
* `present_limited`: success and failure by the room that there is;
* `short_sink_fails`: a presentation succeeds exactly if the sink has taken all of it.
-/

namespace TimingSweep

namespace Sink

/-- Room for all of these octets. -/
def HasRoom (s : Sink) (octets : List UInt8) : Prop :=
  ∀ room, s.room = some room → octets.length ≤ room

/-- The sink after it has taken octets that it had room for. -/
def hold (s : Sink) (octets : List UInt8) : Sink :=
  ⟨s.room.map (· - octets.length), s.held ++ octets⟩

/-- Pieces are offered to a sink one after another, each until nothing of it is left. Of what is
offered the sink takes some octets from the front, and none if it has no room; then the delivery is
broken off. The flag tells whether all was taken. -/
inductive Delivers : Sink → List (List UInt8) → Bool → Sink → Prop
  | all (s : Sink) : Delivers s [] true s
  | next {s t : Sink} {rest : List (List UInt8)} {whole : Bool}
      (later : Delivers s rest whole t) : Delivers s ([] :: rest) whole t
  | portion {s t : Sink} {taken left : List UInt8} {rest : List (List UInt8)} {whole : Bool}
      (progress : taken ≠ []) (fits : s.HasRoom taken)
      (later : Delivers (s.hold taken) (left :: rest) whole t) :
      Delivers s ((taken ++ left) :: rest) whole t
  | broken {s : Sink} {piece : List UInt8} {rest : List (List UInt8)} (unsent : piece ≠ [])
      (full : s.room = some 0) : Delivers s (piece :: rest) false s

variable {s t : Sink} {octets : List UInt8} {pieces : List (List UInt8)} {whole : Bool}

theorem hasRoom_or_short (s : Sink) (octets : List UInt8) :
    s.HasRoom octets ∨ ∃ room, s.room = some room ∧ room < octets.length := by
  by_cases fits : s.HasRoom octets
  · exact Or.inl fits
  · obtain ⟨room, unfit⟩ := Classical.not_forall.mp fits
    obtain ⟨limit, short⟩ := Classical.not_imp.mp unfit
    exact Or.inr ⟨room, limit, Nat.lt_of_not_le short⟩

theorem hold_nil (s : Sink) : s.hold [] = s := by
  obtain ⟨room, held⟩ := s
  cases room <;> simp [hold]

theorem write_of_hasRoom (fits : s.HasRoom octets) : s.write octets = (true, s.hold octets) := by
  obtain ⟨room, held⟩ := s
  cases room with
  | none => rfl
  | some room =>
    have short : octets.length ≤ room := fits room rfl
    simp [write, hold, short, List.take_of_length_le short]

theorem write_of_short {room : Nat} (limit : s.room = some room) (short : room < octets.length) :
    s.write octets = (false, s.hold (octets.take room)) := by
  have taken : (octets.take room).length = room := List.length_take_of_le (Nat.le_of_lt short)
  have left : room - octets.length = 0 := Nat.sub_eq_zero_of_le (Nat.le_of_lt short)
  simp [write, hold, limit, taken, left, Nat.not_le.mpr short]

/-- The octets that there is room for may as well be taken first. -/
theorem write_append_of_hasRoom (fits : s.HasRoom octets) (rest : List UInt8) :
    s.write (octets ++ rest) = (s.hold octets).write rest := by
  obtain ⟨room, held⟩ := s
  cases room with
  | none => simp [write, hold]
  | some room =>
    have short : octets.length ≤ room := fits room rfl
    have enough : octets.length + rest.length ≤ room ↔ rest.length ≤ room - octets.length := by
      omega
    simp [write, hold, List.take_append, List.take_of_length_le short, enough, Nat.sub_sub]

/-- Whatever pieces and portions a delivery has, it comes to what is made of the whole at once. -/
theorem Delivers.write (h : Delivers s pieces whole t) :
    s.write pieces.flatten = (whole, t) := by
  induction h with
  | all s => rw [List.flatten_nil, write_of_hasRoom fun _ _ => Nat.zero_le _, hold_nil]
  | next later ih => rwa [List.flatten_cons, List.nil_append]
  | portion _ fits later ih =>
    rw [List.flatten_cons, List.append_assoc, write_append_of_hasRoom fits, ← List.flatten_cons, ih]
  | @broken s piece rest unsent full =>
    have short : 0 < (piece :: rest).flatten.length := by
      rw [List.flatten_cons, List.length_append]
      exact Nat.add_pos_left (List.length_pos_iff.mpr unsent) _
    rw [write_of_short full short, List.take_zero, hold_nil]

theorem Delivers.fitting (fits : s.HasRoom octets)
    (later : Delivers (s.hold octets) pieces whole t) : Delivers s (octets :: pieces) whole t := by
  by_cases empty : octets = []
  · subst empty
    rw [hold_nil] at later
    exact .next later
  · rw [← List.append_nil octets]
    exact .portion empty fits (.next later)

/-- What there is room for is taken in one portion, and then there is no room. -/
theorem Delivers.short {room : Nat} (limit : s.room = some room) (short : room < octets.length)
    (pieces : List (List UInt8)) :
    Delivers s (octets :: pieces) false (s.hold (octets.take room)) := by
  have taken : (octets.take room).length = room := List.length_take_of_le (Nat.le_of_lt short)
  have left : octets.drop room ≠ [] :=
    List.ne_nil_of_length_pos (by rw [List.length_drop]; exact Nat.sub_pos_of_lt short)
  by_cases spent : room = 0
  · subst spent
    rw [List.take_zero, hold_nil]
    exact .broken left limit
  · have full : (s.hold (octets.take room)).room = some 0 := by simp [hold, limit, taken]
    have fits : s.HasRoom (octets.take room) := by
      intro room' limit'
      rw [limit, Option.some.injEq] at limit'
      exact limit' ▸ Nat.le_of_eq taken
    have progress : octets.take room ≠ [] :=
      List.ne_nil_of_length_pos (by rw [taken]; exact Nat.pos_of_ne_zero spent)
    have portion : Delivers s ((octets.take room ++ octets.drop room) :: pieces) false
        (s.hold (octets.take room)) := .portion progress fits (.broken left full)
    rwa [List.take_append_drop] at portion

theorem exists_delivers (s : Sink) (pieces : List (List UInt8)) :
    ∃ whole t, Delivers s pieces whole t := by
  induction pieces generalizing s with
  | nil => exact ⟨true, s, .all s⟩
  | cons piece rest ih =>
    rcases s.hasRoom_or_short piece with fits | ⟨room, limit, short⟩
    · obtain ⟨whole, t, later⟩ := ih (s.hold piece)
      exact ⟨whole, t, .fitting fits later⟩
    · exact ⟨false, _, .short limit short rest⟩

/-- A delivery in pieces and portions comes to what is made of the whole at once, and there is one
for all pieces. -/
theorem delivers_iff : Delivers s pieces whole t ↔ s.write pieces.flatten = (whole, t) := by
  constructor
  · exact Delivers.write
  · intro written
    obtain ⟨whole', t', delivered⟩ := exists_delivers s pieces
    obtain ⟨rfl, rfl⟩ := Prod.mk.inj (delivered.write.symm.trans written)
    exact delivered

end Sink

namespace Presenter

/-- Text, JSON, and a plot where nothing can draw it. -/
def Writes (p : Presenter) (mode : Mode) : Prop :=
  ∀ quantity, mode = .plot quantity → p.renderer = none

/-- What is written of a report: its document and a line feed, or its text. -/
def output (report : Report) : Mode → List UInt8
  | .json => report.document ++ Utf8.encode ['\n']
  | .text | .plot _ => Utf8.encode report.toText.toList

/-- What goes wrong where there is room for so many octets and not for all. -/
def shortage (report : Report) (room : Nat) : Mode → Failure
  | .json => if room < report.document.length then .json .unwritten else .files .shortWrite
  | .text | .plot _ => .files .shortWrite

theorem shortage_inside {report : Report} {room : Nat} (inside : room < report.document.length) :
    shortage report room .json = .json .unwritten := by
  rw [shortage, if_pos inside]

theorem shortage_behind (report : Report) :
    shortage report report.document.length .json = .files .shortWrite := by
  rw [shortage, if_neg (Nat.lt_irrefl _)]

theorem shortage_of_ne {mode : Mode} (other : mode ≠ .json) (report : Report) (room : Nat) :
    shortage report room mode = .files .shortWrite := by
  cases mode with
  | json => exact absurd rfl other
  | text | plot _ => rfl

/-- What it comes to that so many octets can be written of an output. -/
def cutShort (report : Report) (mode : Mode) (room : Nat) (workspace : Workspace) :
    Presentation where
  result :=
    if (output report mode).length ≤ room then .ok none else .error (shortage report room mode)
  sink := ⟨some (room - (output report mode).length), (output report mode).take room⟩
  workspace := workspace
  rendered := []

theorem write_limited (room : Nat) (octets : List UInt8) :
    (Sink.limited room).write octets =
      (decide (octets.length ≤ room), ⟨some (room - octets.length), octets.take room⟩) := rfl

theorem writeText_limited (report : Report) (room : Nat) (workspace : Workspace) :
    writeText report (.limited room) workspace = cutShort report .text room workspace := by
  simp only [writeText, write_limited, decide_eq_true_eq]
  rfl

/-- A line feed is written only behind a whole document. -/
theorem writeJson_limited (report : Report) (room : Nat) (workspace : Workspace) :
    writeJson report (.limited room) workspace = cutShort report .json room workspace := by
  have document : Utf8.encode report.toJson.indentedText.toList = report.document := rfl
  have length : (output report .json).length = report.document.length + 1 := List.length_append
  rcases Nat.lt_or_ge room report.document.length with short | enough
  · have cut : ¬ report.document.length ≤ room := Nat.not_le.mpr short
    have cut' : ¬ (output report .json).length ≤ room := by omega
    have held : (output report .json).take room = report.document.take room :=
      List.take_append_of_le_length (Nat.le_of_lt short)
    have left : room - report.document.length = room - (output report .json).length := by omega
    simp [writeJson, cutShort, shortage, document, write_limited, cut, cut', held, left, short]
  · have held : (output report .json).take room =
        report.document.take room ++ (Utf8.encode ['\n']).take (room - report.document.length) :=
      List.take_append
    have whole : 1 ≤ room - report.document.length ↔ (output report .json).length ≤ room := by
      omega
    have left : room - report.document.length - 1 = room - (output report .json).length := by omega
    have lineFeed : (Utf8.encode ['\n']).length = 1 := rfl
    simp only [writeJson, cutShort, shortage, document, write_limited, decide_eq_true_eq]
    rw [if_pos enough]
    simp only [Sink.write, lineFeed, whole, held, left, decide_eq_true_eq]
    rw [if_neg (Nat.not_lt.mpr enough)]

theorem held_writeText_unlimited (report : Report) (workspace : Workspace) :
    (writeText report .unlimited workspace).sink.held = output report .text := by
  simp only [writeText, Sink.write, Sink.unlimited, List.nil_append, output]

section Written

variable {p : Presenter} {mode : Mode} (writes : p.Writes mode) (report : Report)
  (competitors : List String) (workspace : Workspace)
include writes

theorem held_present_unlimited :
    (p.present report mode competitors .unlimited workspace).sink.held = output report mode := by
  cases mode with
  | text => exact held_writeText_unlimited report workspace
  | json => rw [present_json_unlimited, output]
  | plot quantity =>
    simp only [present, writes quantity rfl]
    exact held_writeText_unlimited report workspace

theorem present_limited (room : Nat) :
    p.present report mode competitors (.limited room) workspace =
      cutShort report mode room workspace := by
  cases mode with
  | text => exact writeText_limited report room workspace
  | json => exact writeJson_limited report room workspace
  | plot quantity =>
    simp only [present, writes quantity rfl]
    exact writeText_limited report room workspace

end Written

theorem result_cutShort_iff (report : Report) (mode : Mode) (room : Nat) (workspace : Workspace) :
    (cutShort report mode room workspace).result = .ok none ↔
      (output report mode).length ≤ room := by
  rw [cutShort]
  split <;> simp [*]

/-- A presentation to a sink with limited room succeeds exactly if there is room for all that is
written, and then the sink holds all of it. Otherwise it holds what there was room for, and the
presentation fails: inside a JSON document the document is at fault, but where only the line feed
behind it is missing, and in a text, the sink is. In which pieces the output is handed over, and in
which portions the sink takes them, makes no difference. -/
theorem short_sink_fails (p : Presenter) (report : Report) (competitors : List String)
    (workspace : Workspace) {mode : Mode} (writes : p.Writes mode) (room : Nat) :
    let full := (p.present report mode competitors .unlimited workspace).sink.held
    let shown := p.present report mode competitors (.limited room) workspace
    full = output report mode ∧
    (shown.result = .ok none ↔ full.length ≤ room) ∧
    (full.length ≤ room → shown.sink.held = full) ∧
    (room < full.length → shown.sink.held = full.take room ∧
      (mode = .json → room < report.document.length → shown.result = .error (.json .unwritten)) ∧
      (mode = .json → room = report.document.length →
        shown.result = .error (.files .shortWrite)) ∧
      (mode ≠ .json → shown.result = .error (.files .shortWrite))) ∧
    ∀ pieces taken left, pieces.flatten = full →
      (Sink.Delivers (.limited room) pieces taken left ↔
        left = shown.sink ∧ (taken = true ↔ shown.result = .ok none)) := by
  intro full shown
  have written : full = output report mode :=
    held_present_unlimited writes report competitors workspace
  have cut : shown = cutShort report mode room workspace :=
    present_limited writes report competitors workspace room
  have success : shown.result = .ok none ↔ full.length ≤ room := by
    rw [cut, written]
    exact result_cutShort_iff ..
  have sink : shown.sink = ⟨some (room - full.length), full.take room⟩ := by
    rw [cut, written, cutShort]
  clear_value full shown
  refine ⟨written, success, fun enough => ?_, fun short => ⟨by rw [sink], ?_⟩, ?_⟩
  · rw [sink, List.take_of_length_le enough]
  · have failure : shown.result = .error (shortage report room mode) := by
      rw [cut, cutShort, if_neg (Nat.not_le.mpr (written ▸ short))]
    rw [failure]
    refine ⟨?_, ?_, ?_⟩
    · intro json inside
      rw [json, shortage_inside inside]
    · intro json behind
      rw [json, behind, shortage_behind]
    · intro other
      rw [shortage_of_ne other]
  · intro pieces taken left joined
    have told : (taken = true ↔ shown.result = .ok none) ↔ decide (full.length ≤ room) = taken := by
      rw [success]
      cases taken <;> simp
    rw [Sink.delivers_iff, joined, write_limited, Prod.mk.injEq, ← sink, told, and_comm,
      eq_comm (a := shown.sink)]

/-- A sample without a measurement. -/
def unmeasured : Report := (Report.new "sort" "").add "stl" 2 .zero

/-- Its presentation where nothing can be drawn and there is room for so many octets. -/
def showUnmeasured (mode : Mode) (room : Nat) : Presentation :=
  present ⟨none, "", false⟩ unmeasured mode [] (.limited room) ⟨.empty, []⟩

/-- A document that is cut in its first name, one that lacks its line feed, and in place of a plot a
text that is cut in its title. -/
theorem cut_outputs_fail :
    unmeasured.document.length = 146 ∧
    (showUnmeasured .json 12).result = .error (.json .unwritten) ∧
    (∃ left, Sink.Delivers (.limited 12) [unmeasured.document, Utf8.encode ['\n']] false left ∧
      left.held = (showUnmeasured .json 12).sink.held ∧
      left.held = Utf8.encode "\x7b\n  \"algorit".toList) ∧
    (showUnmeasured .json 146).result = .error (.files .shortWrite) ∧
    (showUnmeasured .json 146).sink.held = unmeasured.document ∧
    (showUnmeasured .json 147).result = .ok none ∧
    (showUnmeasured (.plot .time) 8).result = .error (.files .shortWrite) ∧
    (showUnmeasured (.plot .time) 8).sink.held = Utf8.encode "=== sort".toList := by
  have writes : ∀ mode, Writes ⟨none, "", false⟩ mode := fun _ _ _ => rfl
  obtain ⟨document, start⟩ : unmeasured.document.length = 146 ∧
      unmeasured.document.take 12 = Utf8.encode "\x7b\n  \"algorit".toList := by
    decide +kernel
  have length : (output unmeasured .json).length = 147 :=
    List.length_append.trans (by rw [document]; rfl)
  have text : (output unmeasured (.plot .time)).take 8 = Utf8.encode "=== sort".toList := by
    decide +kernel
  have short : 12 < unmeasured.document.length := by omega
  obtain ⟨full, -, -, inside, pieces⟩ :=
    short_sink_fails _ unmeasured [] ⟨.empty, []⟩ (writes .json) 12
  obtain ⟨-, -, -, behind, -⟩ := short_sink_fails _ unmeasured [] ⟨.empty, []⟩ (writes .json) 146
  obtain ⟨-, whole, -⟩ := short_sink_fails _ unmeasured [] ⟨.empty, []⟩ (writes .json) 147
  obtain ⟨full', -, -, cut, -⟩ :=
    short_sink_fails _ unmeasured [] ⟨.empty, []⟩ (writes (.plot .time)) 8
  rw [full, length] at inside behind whole
  rw [full'] at cut
  obtain ⟨-, broken, -⟩ := inside (by decide)
  obtain ⟨held, -, unended, -⟩ := behind (by decide)
  obtain ⟨title, -, -, failed⟩ := cut (by decide +kernel)
  have joined : [unmeasured.document, Utf8.encode ['\n']].flatten = output unmeasured .json := by
    rw [List.flatten_cons, List.flatten_singleton, output]
  have delivered := Sink.Delivers.short (s := .limited 12) rfl short [Utf8.encode ['\n']]
  obtain ⟨same, -⟩ := (pieces _ _ _ (joined.trans full.symm)).mp delivered
  simp only [showUnmeasured]
  refine ⟨document, broken rfl short, ⟨_, delivered, congrArg Sink.held same, ?_⟩,
    unended rfl document.symm, ?_, whole.mpr (Nat.le_refl _), failed (by decide), title.trans text⟩
  · rw [Sink.hold, start]
    rfl
  · rw [held, output, ← document, List.take_left]

end Presenter

end TimingSweep
