import CanvasScript.Main
import CanvasScript.Program.File
import CanvasScript.Surface.Recording
import CanvasScript.Proofs.Command.NormalForm
import CanvasScript.Proofs.Playback.Position
import CanvasScript.Proofs.Timeline.Backward
import CanvasScript.Proofs.Command.RoundTrip
import CanvasScript.Proofs.Command.Conform
import CanvasScript.Proofs.Command.Skip
import CanvasScript.Proofs.Timeline.StyleReader
import CanvasScript.Proofs.Playback.Next
import CanvasScript.Proofs.Timeline.Telling
import CanvasScript.Proofs.Binary64.Locate
import CanvasScript.Proofs.Playback.Stepping
import CanvasScript.Proofs.Playback.Failure
import CanvasScript.Proofs.Timeline.Block
import CanvasScript.Proofs.Playback.Trajectory
import CanvasScript.Proofs.Timeline.Unfailing
import CanvasScript.Proofs.Timeline.Replay
import CanvasScript.Proofs.Command.WriteBack
import CanvasScript.Proofs.Command.Export
import CanvasScript.Proofs.Playback.Headless
import CanvasScript.Proofs.Timeline.Kept
import CanvasScript.Proofs.View.Redraw
import CanvasScript.Proofs.View.Shown
import CanvasScript.Proofs.Settings
import CanvasScript.Proofs.Json.Text
import CanvasScript.Proofs.Json.Number
import CanvasScript.Proofs.Json.Document
import CanvasScript.Proofs.Files
import CanvasScript.Proofs.Program
import CanvasScript.Proofs.Raster.Clip
import CanvasScript.Proofs.Raster.Walk
import CanvasScript.Proofs.Raster.Stroke
import CanvasScript.Proofs.Raster.Polygon
import CanvasScript.Proofs.View.Direction
import CanvasScript.Proofs.Playback.Projection
import CanvasScript.Proofs.Timeline.Interpolation
import CanvasScript.Proofs.Timeline.Amount
import CanvasScript.Proofs.Timeline.Standing
import CanvasScript.Proofs.Timeline.Scrubbing
import CanvasScript.Proofs.Timeline.Framed
import CanvasScript.Proofs.Timeline.Valid
import CanvasScript.Proofs.Timeline.Nesting
import CanvasScript.Proofs.Raster.Outline
import CanvasScript.Proofs.Raster.Painting
import CanvasScript.Proofs.Raster.Rectangle
import CanvasScript.Proofs.Playback.Cadence
import CanvasScript.Proofs.Command.Precedence
import CanvasScript.Proofs.Command.Reading
import CanvasScript.Proofs.Geometry.Arc
import CanvasScript.Proofs.Color.Spelling
import CanvasScript.Proofs.CommandLine.Validation
import CanvasScript.Proofs.Timeline.Legal
import CanvasScript.Proofs.Timeline.Causal
import CanvasScript.Proofs.Geometry.Action
