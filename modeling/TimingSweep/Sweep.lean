import TimingSweep.Registry
import TimingSweep.Report

/-!
# Sweeps

A sweep measures the primary implementation at each size and then each eligible competitor, one
measurement at a time, and files the times in a report. A `TimingSource` answers a call; its answer
may depend on the calls before.

* `measure_calls`: a measurement is one call, made last.
-/

namespace TimingSweep

/-- A measurement: of the primary implementation, or of the backend given. -/
structure Call where
  algorithm : String
  size : UInt64
  backend : Option String
  deriving DecidableEq

/-- The label under which the time is filed. -/
def Call.label (c : Call) : String := c.backend.getD Backend.primary

/-- The answer to a call after the calls that came before it. -/
abbrev TimingSource := List Call → Call → Binary64

/-- The calls made so far and the report of their answers. -/
structure Progress where
  calls : List Call
  report : Report

namespace Progress

def start (algorithm generatedAt : String) : Progress := ⟨[], .new algorithm generatedAt⟩

def measure (source : TimingSource) (p : Progress) (call : Call) : Progress :=
  ⟨p.calls ++ [call], p.report.add call.label call.size (source p.calls call)⟩

/-- One backend over all sizes. -/
def sweep (source : TimingSource) (request : Request) (p : Progress) (backend : Option String) :
    Progress :=
  request.sizes.foldl (fun p size => p.measure source ⟨request.algorithm, size, backend⟩) p

/-- One competitor over all sizes; one that does not have the algorithm is passed over. -/
def compete (registry : Registry) (source : TimingSource) (request : Request) (p : Progress)
    (competitor : String) : Progress :=
  if registry.supports competitor request.algorithm then p.sweep source request (some competitor)
  else p

theorem measure_calls (source : TimingSource) (p : Progress) (call : Call) :
    (p.measure source call).calls = p.calls ++ [call] := rfl

end Progress

/-- The calls that were made, and the report unless the request was refused. -/
structure Sweep where
  calls : List Call
  result : Except Failure Report

/-- Runs a request. A refused one makes no call. -/
def Sweep.run (registry : Registry) (source : TimingSource) (generatedAt : String)
    (order : ParameterOrder) (request : Request) : Sweep :=
  match request.ensureValid order with
  | .error failure => ⟨[], .error failure⟩
  | .ok () =>
    let start := Progress.start request.algorithm generatedAt
    let last := request.competitors.foldl (Progress.compete registry source request)
      (start.sweep source request none)
    ⟨last.calls, .ok last.report⟩

end TimingSweep
