import TimingSweep.Failure
import TimingSweep.Workspace

/-!
# Renderers

A renderer draws a chart to a file. `svg` makes a drawing of a given size.

* `svg_draw_of_written`: if the drawing can be written, rendering leaves what writing leaves.
-/

namespace TimingSweep

/-- Draws a chart to the file at a path. -/
structure Renderer where
  draw : Chart → String → Workspace → Except Failure Unit × Workspace

namespace Renderer

/-- Writes a drawing of the given size. -/
def svg (width height : UInt32) : Renderer where
  draw chart path workspace :=
    let (result, workspace) := workspace.writeDrawing path (.of width height chart)
    (result.mapError fun failure =>
      .plot (path ++ ": backend error: Drawing backend error: " ++ failure.message), workspace)

theorem svg_draw_of_written {width height : UInt32} {chart : Chart} {path : String}
    {workspace written : Workspace}
    (h : workspace.writeDrawing path (.of width height chart) = (.ok (), written)) :
    (svg width height).draw chart path workspace = (.ok (), written) := by
  simp only [svg, h]
  rfl

end Renderer

end TimingSweep
