import CanvasScript.Color.Style
import CanvasScript.Timeline
import CanvasScript.Toml.Document

/-!
# Settings

The settings of a canvas and of its playback. They are given as named values, which are checked in a
fixed order: the size, the positive numbers, the flags, and then the colours.

Model of `ToyConfig`, `validate_config` and `load_config`, with the checks and their messages in
order.

* `Settings.overridden` are settings with some values replaced, if all of them fit.
* `Settings.read` are the settings of a document: those in its table, if it has one.

Out of scope: a base whose values were never checked.
-/

namespace CanvasScript

open Scalar

/-- The settings of a canvas and of its playback. -/
structure Settings (α : Type) where
  canvasSize : Nat
  canvasScale : α
  playStepSize : α
  animationDuration : α
  stepDuration : α
  /-- Whether backward playback runs from right to left. -/
  reverses : Bool
  /-- The styles where a program sets none. -/
  defaults : PerPaint String
  showsOriginFrame : Bool
  showsCurrentFrame : Bool
  forwardStartColor : String
  forwardCurrentColor : String
  backwardStartColor : String
  backwardCurrentColor : String
  deriving DecidableEq, Repr

/-- Why settings are refused. -/
inductive SettingsError where
  | unknownKey (key : String)
  | notPositiveInteger (key : String)
  | notPositive (key : String)
  | notFlag (key : String)
  | notColor (key : String)
  /-- The table of settings is another value. -/
  | notTable
  | arithmetic (fault : ArithmeticFault)
  deriving DecidableEq, Repr

namespace Settings

/-- The table of a document in which settings may stand. -/
def tableName : String := "transformtoy"

end Settings

/-- The text that reports the error. -/
def SettingsError.message : SettingsError → String
  | .unknownKey key => "Unknown config key: " ++ key
  | .notPositiveInteger key => "Config `" ++ key ++ "` must be a positive integer"
  | .notPositive key => "Config `" ++ key ++ "` must be a positive number"
  | .notFlag key => "Config `" ++ key ++ "` must be a boolean"
  | .notColor key => "Config `" ++ key ++ "` must be a color string"
  | .notTable => "`" ++ Settings.tableName ++ "` must be a table"
  | .arithmetic fault => fault.message

/-- Why a document gives no settings. -/
inductive SettingsFileError where
  /-- There is no file of that name. -/
  | missing (path : String)
  | document (error : Toml.ReadError)
  | settings (error : SettingsError)
  deriving DecidableEq, Repr

/-- The text that reports a file that is not there. -/
def Settings.missingMessage (path : String) : String := "config file not found: " ++ path

/-- The text that reports the error; that of an unreadable document is not told. -/
def SettingsFileError.message : SettingsFileError → Option String
  | .missing path => some (Settings.missingMessage path)
  | .document .malformed => none
  | .document (.tooLong digits) => some (Decimal.limitMessage digits)
  | .settings error => some error.message

namespace Settings

section

variable {α : Type}

/-- The settings as named values. -/
def fields (s : Settings α) : Fields α := [
  ("canvas_size", .int s.canvasSize),
  ("canvas_scale", .real s.canvasScale),
  ("play_step_size", .real s.playStepSize),
  ("animation_duration_ms", .real s.animationDuration),
  ("step_duration_ms", .real s.stepDuration),
  ("reverse_right_to_left", .flag s.reverses),
  ("default_fill", .text s.defaults.fill),
  ("default_stroke", .text s.defaults.stroke),
  ("show_origin_frame", .flag s.showsOriginFrame),
  ("show_current_frame", .flag s.showsCurrentFrame),
  ("forward_start_frame_color", .text s.forwardStartColor),
  ("forward_current_frame_color", .text s.forwardCurrentColor),
  ("backward_start_frame_color", .text s.backwardStartColor),
  ("backward_current_frame_color", .text s.backwardCurrentColor)]

/-- Named values with some of them replaced; there may be no other names. -/
def replaced (overrides fields : Fields α) : Except SettingsError (Fields α) :=
  overrides.foldlM
    (fun fields (key, value) =>
      if (fields.get? key).isSome then .ok (fields.put key value) else .error (.unknownKey key))
    fields

end

variable {α : Type} [Scalar α]

/-- The settings where nothing is given. -/
def default : Settings α where
  canvasSize := 600
  canvasScale := ofInt 4
  playStepSize := ofRat (2 / 100)
  animationDuration := ofInt 1000
  stepDuration := ofInt 1000
  reverses := false
  defaults := ⟨defaultStyle, defaultStyle⟩
  showsOriginFrame := true
  showsCurrentFrame := true
  forwardStartColor := "#000000"
  forwardCurrentColor := "#7F0000"
  backwardStartColor := "#a84aff"
  backwardCurrentColor := "#0080ff"

/-- The positive integer of a name. -/
def positiveInteger (fields : Fields α) (key : String) : Except SettingsError Nat :=
  match fields.get? key with
  | some (.number (.int n)) => if 0 < n then .ok n.toNat else .error (.notPositiveInteger key)
  | _ => .error (.notPositiveInteger key)

/-- The positive number of a name. -/
def positive (fields : Fields α) (key : String) : Except SettingsError α :=
  match fields.get? key with
  | some (.number n) => do
    let x ← n.toScalar?.mapError .arithmetic
    if x ≤ zero then .error (.notPositive key) else .ok x
  | _ => .error (.notPositive key)

/-- The flag of a name. -/
def flag (fields : Fields α) (key : String) : Except SettingsError Bool :=
  match fields.get? key with
  | some (.flag b) => .ok b
  | _ => .error (.notFlag key)

/-- The style of a name. -/
def style (fields : Fields α) (key : String) : Except SettingsError String :=
  match fields.get? key with
  | some (.text s) => if Rgba.isStyle s then .ok s else .error (.notColor key)
  | _ => .error (.notColor key)

/-- The settings that named values give. -/
def ofFields (fields : Fields α) : Except SettingsError (Settings α) := do
  let canvasSize ← positiveInteger fields "canvas_size"
  let canvasScale ← positive fields "canvas_scale"
  let playStepSize ← positive fields "play_step_size"
  let animationDuration ← positive fields "animation_duration_ms"
  let stepDuration ← positive fields "step_duration_ms"
  let reverses ← flag fields "reverse_right_to_left"
  let showsOriginFrame ← flag fields "show_origin_frame"
  let showsCurrentFrame ← flag fields "show_current_frame"
  let fill ← style fields "default_fill"
  let stroke ← style fields "default_stroke"
  let forwardStartColor ← style fields "forward_start_frame_color"
  let forwardCurrentColor ← style fields "forward_current_frame_color"
  let backwardStartColor ← style fields "backward_start_frame_color"
  let backwardCurrentColor ← style fields "backward_current_frame_color"
  return {
    canvasSize, canvasScale, playStepSize, animationDuration, stepDuration, reverses
    defaults := ⟨fill, stroke⟩
    showsOriginFrame, showsCurrentFrame, forwardStartColor, forwardCurrentColor
    backwardStartColor, backwardCurrentColor }

/-- The settings with some values replaced. -/
def overridden (base : Settings α) (overrides : Fields α) : Except SettingsError (Settings α) := do
  ofFields (← replaced overrides base.fields)

/-- The settings of the table of a document. -/
def ofTable (table : Fields α) : Except SettingsError (Settings α) :=
  match table.get? tableName with
  | none => default.overridden table
  | some (.object inner) => default.overridden inner
  | some _ => .error .notTable

/-- The settings of a document. -/
def read {α : Type} [Written α] (text : String) : Except SettingsFileError (Settings α) := do
  let table ← (Toml.read text).mapError .document
  (ofTable table).mapError .settings

end Settings

end CanvasScript
