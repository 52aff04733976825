import TimingSweep.Backend
import TimingSweep.Renderer
import TimingSweep.Report
import TimingSweep.Text.Utf8

/-!
# Presentation

A `Presenter` shows a report as text or JSON, written to a sink, or as a plot, drawn to a file in
its output directory. Without a renderer a plot is replaced by the text.

* `present_text`, `present_json`: text and JSON touch no file and draw nothing;
* `present_plot_of_unmade`, `present_plot_of_made`: what a plot comes to if its directory cannot be
  made, and if it can.
-/

namespace TimingSweep

/-- How a report is shown. -/
inductive Mode where
  | text
  | json
  | plot (quantity : Quantity)
  deriving DecidableEq

/-- Takes octets; one with limited room takes no more than that. -/
structure Sink where
  room : Option Nat
  held : List UInt8
  deriving DecidableEq

namespace Sink

def unlimited : Sink := ⟨none, []⟩

def limited (room : Nat) : Sink := ⟨some room, []⟩

/-- Writes octets as far as there is room, and tells whether all were taken. -/
def write (s : Sink) (octets : List UInt8) : Bool × Sink :=
  match s.room with
  | none => (true, { s with held := s.held ++ octets })
  | some room =>
    (octets.length ≤ room, ⟨some (room - octets.length), s.held ++ octets.take room⟩)

end Sink

/-- What a presentation comes to: the path of the plot if one was drawn, what was written, the files
after it, and the charts that were handed to the renderer. -/
structure Presentation where
  result : Except Failure (Option String)
  sink : Sink
  workspace : Workspace
  rendered : List (String × Chart)

/-- `displayLabels` tells whether plots show backends under their longer names. -/
structure Presenter where
  renderer : Option Renderer
  outputDir : String
  displayLabels : Bool

namespace Presenter

def plotExtension : String := "svg"

def canPlot (p : Presenter) : Bool := p.renderer.isSome

/-- The name of a plot's file. -/
def plotName (algorithm : String) (quantity : Quantity) : String :=
  algorithm ++ "_" ++ quantity.name ++ "_plot." ++ plotExtension

def plotPath (p : Presenter) (algorithm : String) (quantity : Quantity) : String :=
  Path.join p.outputDir (plotName algorithm quantity)

/-- The text report, written to a sink. -/
def writeText (report : Report) (sink : Sink) (workspace : Workspace) : Presentation :=
  let (whole, sink) := sink.write (Utf8.encode report.toText.toList)
  ⟨if whole then .ok none else .error (.files .shortWrite), sink, workspace, []⟩

/-- The JSON document and a line feed. A document that is cut short is a fault of the JSON text, a
missing line feed one of the sink. -/
def writeJson (report : Report) (sink : Sink) (workspace : Workspace) : Presentation :=
  let (whole, sink) := sink.write (Utf8.encode report.toJson.indentedText.toList)
  if whole then
    let (ended, sink) := sink.write (Utf8.encode ['\n'])
    ⟨if ended then .ok none else .error (.files .shortWrite), sink, workspace, []⟩
  else ⟨.error (.json .unwritten), sink, workspace, []⟩

/-- The chart that is drawn: the primary backend before the competitors. -/
def chart (p : Presenter) (report : Report) (quantity : Quantity) (competitors : List String) :
    Chart :=
  let drawn := report.chart quantity (Backend.primary :: competitors)
  if p.displayLabels then drawn.relabel Backend.displayLabel else drawn

/-- Makes the output directory and draws the plot in it. -/
def drawPlot (p : Presenter) (renderer : Renderer) (report : Report) (quantity : Quantity)
    (competitors : List String) (sink : Sink) (workspace : Workspace) : Presentation :=
  match workspace.makeDirectories p.outputDir with
  | (.error failure, workspace) => ⟨.error (.files failure), sink, workspace, []⟩
  | (.ok (), workspace) =>
    let path := p.plotPath report.algorithm quantity
    let chart := p.chart report quantity competitors
    let (result, workspace) := renderer.draw chart path workspace
    ⟨result.map fun _ => some path, sink, workspace, [(path, chart)]⟩

def present (p : Presenter) (report : Report) (mode : Mode) (competitors : List String)
    (sink : Sink) (workspace : Workspace) : Presentation :=
  match mode, p.renderer with
  | .text, _ => writeText report sink workspace
  | .json, _ => writeJson report sink workspace
  | .plot quantity, some renderer =>
    p.drawPlot renderer report quantity competitors sink workspace
  | .plot _, none => writeText report sink workspace

theorem present_text (p : Presenter) (report : Report) (competitors : List String) (sink : Sink)
    (workspace : Workspace) :
    (p.present report .text competitors sink workspace).workspace = workspace ∧
      (p.present report .text competitors sink workspace).rendered = [] :=
  ⟨rfl, rfl⟩

theorem present_json (p : Presenter) (report : Report) (competitors : List String) (sink : Sink)
    (workspace : Workspace) :
    (p.present report .json competitors sink workspace).workspace = workspace ∧
      (p.present report .json competitors sink workspace).rendered = [] := by
  simp only [present, writeJson]
  split <;> exact ⟨rfl, rfl⟩

section Plot

variable {p : Presenter} {renderer : Renderer} {report : Report} {quantity : Quantity}
  {competitors : List String} {sink : Sink} {workspace made left : Workspace}
  (plots : p.renderer = some renderer)
include plots

theorem present_plot_of_unmade {failure : IoFailure}
    (unmade : workspace.makeDirectories p.outputDir = (.error failure, made)) :
    p.present report (.plot quantity) competitors sink workspace =
      ⟨.error (.files failure), sink, made, []⟩ := by
  simp only [present, plots, drawPlot, unmade]

theorem present_plot_of_made {answer : Except Failure Unit}
    (directory : workspace.makeDirectories p.outputDir = (.ok (), made))
    (call : renderer.draw (p.chart report quantity competitors)
      (p.plotPath report.algorithm quantity) made = (answer, left)) :
    p.present report (.plot quantity) competitors sink workspace =
      ⟨answer.map fun _ => some (p.plotPath report.algorithm quantity), sink, left,
        [(p.plotPath report.algorithm quantity, p.chart report quantity competitors)]⟩ := by
  simp only [present, plots, drawPlot, directory, call]

end Plot

end Presenter

end TimingSweep
