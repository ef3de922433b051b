import ScreenFusion.Device.Draw
import ScreenFusion.Event

/-!
# ScreenFusion.Host — a device with a record of its use

Passes and pipelines work on a host: a device, the record of the commands given to it with their answers, the events
reported, and failures armed to rehearse what happens when a command fails.

* `issue_of_not_armed`: without armed failures a command is what the device does.
-/

namespace ScreenFusion

/-- A command to a device. -/
inductive Command where
  | setOutputSize (width height : Nat)
  | createTarget (spec : TargetSpec)
  | resizeTarget (target width height : Nat)
  | releaseTarget (target : Nat)
  | compileProgram (label : String) (slots : List String)
  | releaseProgram (program : Nat)
  | clear (target : Option Nat) (color : Option (Rgba Float32)) (depth : Option Float32)
  | renderScene (draw : SceneDraw)
  | drawFullscreen (draw : FullscreenDraw)
  deriving DecidableEq, Inhabited

/-- The name of a command. -/
def Command.name : Command → String
  | setOutputSize .. => "set_output_size"
  | createTarget _ => "create_target"
  | resizeTarget .. => "resize_target"
  | releaseTarget _ => "release_target"
  | compileProgram .. => "compile_program"
  | releaseProgram _ => "release_program"
  | clear .. => "clear"
  | renderScene _ => "render_scene"
  | drawFullscreen _ => "draw_fullscreen"

/-- The answer to a command. -/
inductive Answer where
  | failed
  | done
  | handle (id : Nat)
  | released (found : Bool)
  deriving DecidableEq, Inhabited

/-- A command with its answer. -/
structure Call where
  command : Command
  answer : Answer
  deriving DecidableEq, Inhabited

/-- A failure armed for a command of some name, after some more commands of that name. -/
structure ArmedFailure where
  name : String
  remaining : Nat
  deriving DecidableEq, Inhabited

/-- A device with a record of its use. -/
structure Host where
  device : Device
  /-- The commands so far, in order. -/
  calls : Array Call
  /-- The events so far, in order. -/
  events : Array Event
  /-- The armed failures, the first armed first. -/
  armed : List ArmedFailure
  deriving Inhabited

namespace Host

/-- A host whose device has been given no command. -/
def ofDevice (device : Device) : Host := ⟨device, #[], #[], []⟩

/-- Counts a command down: whether a failure fires, and the failures still armed.  Failures after the one that fires do
not count the command. -/
def countDown (name : String) : List ArmedFailure → Bool × List ArmedFailure
  | [] => (false, [])
  | f :: fs =>
    if f.name ≠ name then
      let (fires, fs) := countDown name fs
      (fires, f :: fs)
    else if f.remaining = 0 then (true, fs)
    else
      let (fires, fs) := countDown name fs
      (fires, { f with remaining := f.remaining - 1 } :: fs)

/-- The host with a call at the end of the record. -/
def recordCall (h : Host) (command : Command) (answer : Answer) : Host :=
  { h with calls := h.calls.push ⟨command, answer⟩ }

/-- The host with events at the end of the record. -/
def report (h : Host) (events : List Event) : Host := { h with events := h.events ++ events.toArray }

/-- Gives a command to the device, unless an armed failure fires. -/
def issue {α : Type} (command : Command) (answer : α → Answer) (run : Act Device α) : Act Host α := fun h =>
  let (fires, armed) := countDown command.name h.armed
  let h := { h with armed }
  if fires then
    (.error (.resource (.rehearsed s!"injected {command.name} failure")), h.recordCall command .failed)
  else
    match run h.device with
    | (.ok a, device) => (.ok a, { h with device }.recordCall command (answer a))
    | (.error e, device) => (.error e, { h with device }.recordCall command .failed)

/-- Gives a command that cannot fail to the device. -/
def issueRelease (command : Command) (run : Device → Bool × Device) (h : Host) : Bool × Host :=
  let (found, device) := run h.device
  (found, { h with device }.recordCall command (.released found))

theorem issue_of_not_armed {α : Type} (command : Command) (answer : α → Answer) (run : Act Device α) {h : Host}
    (ha : h.armed = []) : (issue command answer run h).1 = (run h.device).1 := by
  simp only [issue, ha, countDown]
  rcases run h.device with ⟨_ | _, _⟩ <;> rfl

/-! ## Commands -/

/-- Gives the screen a size. -/
def setOutputSize (width height : Nat) : Act Host Unit :=
  issue (.setOutputSize width height) (fun _ => .done) (Device.setOutputSize width height)

/-- Makes a target. -/
def createTarget (spec : TargetSpec) : Act Host Nat :=
  issue (.createTarget spec) .handle (Device.createTarget spec)

/-- Gives a target a size. -/
def resizeTarget (target width height : Nat) : Act Host Unit :=
  issue (.resizeTarget target width height) (fun _ => .done) (Device.resizeTarget target width height)

/-- Releases a target. -/
def releaseTarget (target : Nat) (h : Host) : Bool × Host :=
  h.issueRelease (.releaseTarget target) (Device.releaseTarget target)

/-- Makes a program. -/
def compileProgram (source : ProgramSource) : Act Host Nat :=
  issue (.compileProgram source.label (source.slots.map Prod.fst)) .handle (Device.compileProgram source)

/-- Releases a program. -/
def releaseProgram (program : Nat) (h : Host) : Bool × Host :=
  h.issueRelease (.releaseProgram program) (Device.releaseProgram program)

/-- Fills a buffer. -/
def clear (target : Option Nat) (color : Option (Rgba Float32)) (depth : Option Float32) : Act Host Unit :=
  issue (.clear target color depth) (fun _ => .done) (Device.clear target color depth)

/-- Renders a scene. -/
def renderScene (draw : SceneDraw) : Act Host Unit :=
  issue (.renderScene draw) (fun _ => .done) (Device.renderScene draw)

/-- Runs a program over a buffer. -/
def drawFullscreen (draw : FullscreenDraw) : Act Host Unit :=
  issue (.drawFullscreen draw) (fun _ => .done) (Device.drawFullscreen draw)

/-- Arms a failure. -/
def arm (h : Host) (name : String) (after : Nat) : Host := { h with armed := h.armed ++ [⟨name, after⟩] }

end Host

end ScreenFusion
