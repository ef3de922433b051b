import ScreenFusion.Host
import ScreenFusion.Number.Pattern

/-!
# ScreenFusion.Host.Record — the record of a device's use as lines

A line names a command with what it is given and ends with the answer.  Floats are written as the digits of their
patterns and a uniform block as its bytes, so that two records are equal exactly if the device was given the same.
-/

namespace ScreenFusion

namespace Command

/-- A colour in a line. -/
def colorText (c : Rgba Float32) : String := ",".intercalate (c.toList.map fun x => (Binary32.ofFloat x).text)

/-- A value that may be missing. -/
def optionText {α : Type} (f : α → String) : Option α → String
  | none => "-"
  | some a => f a

/-- The screen or a target. -/
def bufferText : Option Nat → String
  | none => "screen"
  | some t => toString t

/-- What a scene is rendered for. -/
def modeText : SceneMode → String
  | .color => "color"
  | .depth => "depth"

/-- What a command is given. -/
def argumentsText : Command → String
  | setOutputSize w h => s!"{w}x{h}"
  | createTarget t => s!"{t.label} {t.width}x{t.height} {t.precision.name} alpha={t.alpha} depth={t.depth}"
  | resizeTarget t w h => s!"{t} {w}x{h}"
  | releaseTarget t => toString t
  | compileProgram label slots => label ++ " slots=" ++ ",".intercalate slots
  | releaseProgram p => toString p
  | clear t color depth =>
    bufferText t ++ " color=" ++ optionText colorText color ++
      " depth=" ++ optionText (fun x => (Binary32.ofFloat x).text) depth
  | renderScene d =>
    s!"{d.scene} {modeText d.mode} layers={d.layers.bits} target={bufferText d.target}" ++
      " background=" ++ optionText colorText d.background
  | drawFullscreen d =>
    s!"{d.program} input=" ++ optionText toString d.input ++ " depth=" ++ optionText toString d.depth ++
      " output=" ++ bufferText d.output ++ " block=" ++ Text.bytesText d.block

end Command

/-- The end of a line. -/
def Answer.text : Answer → String
  | failed => " !"
  | done => ""
  | handle id => s!" -> {id}"
  | released found => s!" -> {found}"

/-- The line of a call. -/
def Call.text (c : Call) : String := c.command.name ++ " " ++ c.command.argumentsText ++ c.answer.text

end ScreenFusion
