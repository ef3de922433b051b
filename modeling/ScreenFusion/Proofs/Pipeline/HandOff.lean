import Mathlib.Algebra.Ring.Parity
import ScreenFusion.Proofs.Pipeline.Buffers

/-!
# ScreenFusion.Proofs.Pipeline.HandOff — what passes hand on in a frame

In a frame each pass that draws colours gets the result of those before it.  A pass that fills the write buffer leaves
its result there, and the buffers change places; a pass that draws in place leaves it in the read buffer; and a
terminal pass draws to the screen and hands nothing on.

* `Turn.WritesOnly`, `Turn.Rendered.writesOnly`: a turn writes to one place.
* `Poised`: where a frame is between two passes.
* `Turn.Result`, `Turn.carry`: the result that is handed on.
* `HandsOff`, `handsOff_of_render_ok`: the hand-off in a frame.
-/

namespace ScreenFusion

open Holder Staged

/-- Whether the pass fills the write buffer; others change what they find. -/
def Pass.fillsWrite : Pass → Bool
  | material _ | effect _ => true
  | _ => false

/-- Whether buffers change places after the pass is as it was when the pass was made. -/
def Pass.SwapsAsMade (p : Pass) : Prop := p.settings.needsSwap = p.fillsWrite

instance (p : Pass) : Decidable p.SwapsAsMade := inferInstanceAs (Decidable (_ = _))

/-- So it is for new passes of each kind. -/
theorem Pass.swapsAsMade_create :
    (∀ color depth, (clear (ClearPass.create color depth)).SwapsAsMade) ∧
    (∀ n, (scene (ScenePass.create n)).SwapsAsMade) ∧ (∀ n, (depth (DepthPass.create n)).SwapsAsMade) ∧
    (∀ m, (material (MaterialPass.create m)).SwapsAsMade) ∧
    ∀ name effects p, EffectPass.create name effects = .ok p → (effect p).SwapsAsMade := by
  refine ⟨fun _ _ => rfl, fun _ => rfl, fun _ => rfl, fun _ => rfl, fun name effects p hc => ?_⟩
  obtain ⟨_, -, hp⟩ := ok_of_bind hc
  cases hp
  rfl

theorem Pass.Rebuilt.swapsAsMade {p q : Pass} (r : p.Rebuilt q) (made : p.SwapsAsMade) : q.SwapsAsMade := by
  cases r <;> exact made

/-- No output of a program is its input. -/
def Command.ReadsElsewhere (c : Command) : Prop := ∀ draw, c = .drawFullscreen draw → draw.output ≠ draw.input

theorem Command.readsElsewhere_of_isAboutProgram {c : Command} (hc : c.isAboutProgram = true) : c.ReadsElsewhere := by
  rintro draw rfl
  cases hc

theorem Pass.Issues.readsElsewhere {p : Pass} {io : PassIo} {c : Command} (issues : p.Issues io c)
    (hio : io.output ≠ some io.input) : c.ReadsElsewhere := by
  rintro draw rfl
  cases issues with
  | paints _ paints =>
    cases paints with
    | program hc => cases hc
    | fullscreen hi _ ho _ =>
      rw [hi, ho]
      exact hio
  | depth _ hc => simp [DepthPass.commands] at hc

namespace Pipeline

variable {deltaTime : Binary32} {depthNeeded : Bool} {f f' : FrameState} {p : Pass} {h k : Host}
  {e : PipelineEntry} {es es' : List PipelineEntry} {turns : List Turn} {read write : Nat}

/-! ## Turns -/

namespace Turn

variable {t : Turn}

/-- Where the pass of the turn writes. -/
def destination (t : Turn) : Option Nat := t.pass.destination t.io

/-- Whether the turn is for the passes after it: it draws colours, and is not terminal. -/
def handsOn (t : Turn) : Bool := t.pass.presents && !t.io.isTerminal

/-- Whether the buffers change places after the turn. -/
def swaps (t : Turn) : Bool := t.handsOn && t.pass.settings.needsSwap

/-- All commands of the turn write to one place, if they write, and everything else is as it was. -/
structure WritesOnly (b : Option Nat) (t : Turn) : Prop where
  commands : ∀ c ∈ t.start.issuedSince t.finish.host, ∀ b', c.command.buffer? = some b' → b' = b
  planes : ∀ b', b' ≠ b → t.finish.host.device.plane b' = t.start.device.plane b'

theorem Rendered.only (hr : t.Rendered deltaTime) : t.start.Only (t.pass.Issues t.io) t.finish.host := by
  have only := Pass.only_render t.io deltaTime t.pass t.start
  rwa [hr] at only

/-- A turn writes only where its pass does. -/
theorem Rendered.writesOnly (hr : t.Rendered deltaTime) : t.WritesOnly t.destination :=
  ⟨fun c hc _ hb => (hr.only.issuedSince c hc).eq_destination hb,
    fun b hb => hr.only.planes b fun _ issues h => hb (issues.eq_destination h)⟩

/-- A turn writes to the screen if it is terminal, and only then. -/
theorem Rendered.destination_eq_none_iff (hr : t.Rendered deltaTime)
    (hd : t.pass.isDepthProducer = true → t.io.isTerminal = false) :
    t.destination = none ↔ t.io.isTerminal = true := by
  obtain ⟨p, ⟨input, output, depth⟩, h, s⟩ := t
  cases p with
  | depth p =>
    obtain ⟨target, ht, -⟩ := Pass.render_depth_ok hr
    have hdest : destination ⟨.depth p, ⟨input, output, depth⟩, h, s⟩ = some target := ht
    rw [hdest, hd rfl]
    exact ⟨nofun, nofun⟩
  | _ => cases output <;> simp [destination, Pass.destination, PassIo.inPlaceTarget, PassIo.isTerminal]

end Turn

/-! ## Between two passes -/

theorem Skipped.isPresenter_eq_false (skipped : Skipped depthNeeded f e.pass) : isPresenter e = false := by
  rcases skipped with hd | ⟨hd, -⟩ <;> simp [isPresenter, Pass.presents, hd]

/-- The turns that draw colours are those of the passes that take part and draw colours, in order. -/
theorem Plays.presenters (plays : Plays deltaTime depthNeeded es f h turns f' k) :
    (turns.filter (·.pass.presents)).map (·.pass) = (es.filter isPresenter).map (·.pass) := by
  induction plays with
  | nil => rfl
  | skip hskip _ ih =>
    rw [List.filter_cons_of_neg (by simp [hskip.isPresenter_eq_false]), ih]
  | depth _ hd _ _ _ _ ih =>
    rw [List.filter_cons_of_neg, List.filter_cons_of_neg, ih]
    · simp [isPresenter, Pass.presents, hd]
    · simp [Pass.presents, hd]
  | color he hd _ _ ih =>
    rw [List.filter_cons_of_pos, List.filter_cons_of_pos, List.map_cons, List.map_cons, ih]
    · simp [isPresenter, Pass.presents, he, hd]
    · simp [Pass.presents, hd]

theorem Plays.any_isPresenter_eq_false_iff (plays : Plays deltaTime depthNeeded es f h turns f' k) :
    es.any isPresenter = false ↔ ∀ t ∈ turns, t.pass.presents = false := by
  have hnil : turns.filter (·.pass.presents) = [] ↔ es.filter isPresenter = [] := by
    rw [← List.map_eq_nil_iff (f := fun t : Turn => t.pass), plays.presenters, List.map_eq_nil_iff]
  rw [List.filter_eq_nil_iff, List.filter_eq_nil_iff] at hnil
  simpa using hnil.symm

/-- A pass that draws colours is terminal if it is set to be, or if no pass after it draws colours. -/
theorem Plays.isTerminal_iff (plays : Plays deltaTime depthNeeded es f h turns f' k) {before after : List Turn}
    {t : Turn} (hturns : turns = before ++ t :: after) (ht : t.pass.presents = true) :
    t.io.isTerminal = true ↔ t.pass.settings.toScreen = true ∨ ∀ u ∈ after, u.pass.presents = false := by
  induction plays generalizing before with
  | nil => simp at hturns
  | skip _ _ ih => exact ih hturns
  | depth _ hd _ _ _ _ ih =>
    cases before with
    | nil =>
      cases hturns
      simp [Pass.presents, hd] at ht
    | cons u before =>
      cases hturns
      exact ih rfl
  | @color e es _ _ _ _ _ _ _ _ _ _ _ plays ih =>
    cases before with
    | nil =>
      cases hturns
      rw [← plays.any_isPresenter_eq_false_iff]
      cases e.pass.settings.toScreen <;> cases es.any isPresenter <;> simp [colorIo, PassIo.isTerminal]
    | cons u before =>
      cases hturns
      exact ih rfl

/-- After a pass that draws colours the buffers change places as its turn says. -/
theorem swaps_color (hd : p.isDepthProducer = false) (terminal : Bool) (f : FrameState) (h : Host) (s : Staged Pass) :
    Turn.swaps ⟨p, colorIo terminal f, h, s⟩ = (p.settings.needsSwap && !terminal) := by
  cases terminal <;> simp [Turn.swaps, Turn.handsOn, Pass.presents, colorIo, PassIo.isTerminal, hd]

/-- The buffers change places after each turn that says so. -/
theorem Plays.buffers_eq (plays : Plays deltaTime depthNeeded es f h turns f' k) :
    (f'.read, f'.write) = if Odd (turns.countP Turn.swaps) then (f.write, f.read) else (f.read, f.write) := by
  induction plays with
  | nil => rfl
  | skip _ _ ih => exact ih
  | depth _ hd _ _ _ _ ih =>
    rw [List.countP_cons_of_neg (by simp [Turn.swaps, Turn.handsOn, Pass.presents, hd])]
    exact ih
  | @color e es f _ _ _ _ _ _ turns _ hd _ _ ih =>
    rw [ih]
    unfold handOn
    by_cases hs : (e.pass.settings.needsSwap && !(e.pass.settings.toScreen || !es.any isPresenter)) = true
    · rw [if_pos hs, List.countP_cons_of_pos (by rw [swaps_color hd, hs])]
      simp only [Nat.odd_add_one, ite_not]
    · rw [if_neg hs, List.countP_cons_of_neg (by rwa [swaps_color hd])]

theorem alternates_handOn (p : Pass) (terminal : Bool) (f : FrameState) : Alternates f (handOn p terminal f) := by
  unfold handOn
  split
  · exact .inr ⟨rfl, rfl⟩
  · exact .inl ⟨rfl, rfl⟩

/-- Where a frame is between two passes: its buffers are two, and no pass to come has one of them. -/
structure Poised (read write : Nat) (es : List PipelineEntry) (f : FrameState) (h : Host) : Prop where
  buffers : f.read = read ∧ f.write = write ∨ f.read = write ∧ f.write = read
  untaken : ∀ n ∈ [read, write], Untaken n es h
  made : ∀ e ∈ es, e.pass.SwapsAsMade

namespace Poised

theorem read_mem (poised : Poised read write es f h) : f.read ∈ [read, write] := by
  rcases poised.buffers with ⟨hr, -⟩ | ⟨hr, -⟩ <;> simp [hr]

/-- After a pass that was not run. -/
theorem skip (poised : Poised read write (e :: es) f h) (events : List Event) :
    Poised read write es f (h.report events) := by
  refine ⟨poised.buffers, fun n hn => ?_, fun e he => poised.made e (List.mem_cons_of_mem _ he)⟩
  exact (Untaken.tail (poised.untaken n hn) (poised.untaken n hn).head).report events

/-- After the turn of a pass. -/
theorem turn (poised : Poised read write (e :: es) f h) {io : PassIo} {start : Host} {s : Staged Pass}
    (hstart : start.device = h.device) (hr : Turn.Rendered deltaTime ⟨e.pass, io, start, s⟩) (hf : Alternates f f')
    (events : List Event) : Poised read write es f' (s.host.report events) := by
  refine ⟨?_, fun n hn => ?_, fun e he => poised.made e (List.mem_cons_of_mem _ he)⟩
  · rcases hf with ⟨hread, hwrite⟩ | ⟨hread, hwrite⟩ <;> rw [hread, hwrite]
    · exact poised.buffers
    · exact poised.buffers.symm.imp And.symm And.symm
  · have untaken := poised.untaken n hn
    have apart := Pass.apart_render io deltaTime ⟨e.pass, start⟩
      ⟨hstart ▸ untaken.numbered, hstart ▸ untaken.live, untaken.others e List.mem_cons_self⟩
    rw [hr] at apart
    exact (untaken.tail apart).report events

theorem depth (poised : Poised read write (e :: es) f h) {io : PassIo} {s : Staged Pass}
    (hr : Turn.Rendered deltaTime ⟨e.pass, io, h, s⟩) (depth : Option Nat) (events : List Event) :
    Poised read write es { f with depth, depthRendered := true } (s.host.report events) := by
  have hf : Alternates f { f with depth, depthRendered := true } := .inl ⟨rfl, rfl⟩
  exact poised.turn rfl hr hf events

theorem color (poised : Poised read write (e :: es) f h) {io : PassIo} {before : List Event} {s : Staged Pass}
    (hr : Turn.Rendered deltaTime ⟨e.pass, io, h.report before, s⟩) (terminal : Bool) (events : List Event) :
    Poised read write es (handOn e.pass terminal f) (s.host.report events) := by
  have hstart : (h.report before).device = h.device := rfl
  exact poised.turn hstart hr (alternates_handOn e.pass terminal f) events

end Poised

/-! ## Results -/

/-- What passes have drawn: a buffer, and the host on which it was finished. -/
structure Result where
  buffer : Option Nat
  host : Host

namespace Result

variable {r : Result}

/-- The result after another turn. -/
def carry (r : Result) (t : Turn) : Result := if t.handsOn then ⟨t.destination, t.finish.host⟩ else r

/-- The result is in a buffer, and as it was when it was finished. -/
structure StandsIn (r : Result) (n : Nat) (h : Host) : Prop where
  buffer : r.buffer = some n
  plane : h.device.plane r.buffer = r.host.device.plane r.buffer

theorem StandsIn.report {n : Nat} (stands : r.StandsIn n h) (events : List Event) : r.StandsIn n (h.report events) :=
  ⟨stands.buffer, stands.plane⟩

/-- A turn that writes elsewhere and hands nothing on leaves the result. -/
theorem StandsIn.carry_of_not_handsOn {n : Nat} {t : Turn} (stands : r.StandsIn n t.start) (hr : t.Rendered deltaTime)
    (hno : t.handsOn = false) (hd : some n ≠ t.destination) : (r.carry t).StandsIn n t.finish.host := by
  unfold carry
  rw [if_neg (by simp [hno])]
  refine ⟨stands.buffer, ?_⟩
  rw [stands.buffer, hr.writesOnly.planes (some n) hd]
  have hplane := stands.plane
  rwa [stands.buffer] at hplane

/-- After a pass that draws colours the result is in the buffer that is read next. -/
theorem StandsIn.carry_color {terminal : Bool} {s : Staged Pass} (stands : r.StandsIn f.read h)
    (hr : Turn.Rendered deltaTime ⟨p, colorIo terminal f, h, s⟩) (hp : p.isDepthProducer = false)
    (made : p.SwapsAsMade) : (r.carry ⟨p, colorIo terminal f, h, s⟩).StandsIn (handOn p terminal f).read s.host := by
  cases terminal with
  | true =>
    have hsame : handOn p true f = f := if_neg (by simp)
    rw [hsame]
    refine stands.carry_of_not_handsOn hr (by simp [Turn.handsOn, colorIo, PassIo.isTerminal]) ?_
    rw [(hr.destination_eq_none_iff (by simp [hp])).2 rfl]
    exact nofun
  | false =>
    have hands : Turn.handsOn ⟨p, colorIo false f, h, s⟩ = true := by
      simp [Turn.handsOn, Pass.presents, colorIo, PassIo.isTerminal, hp]
    unfold carry
    rw [if_pos hands]
    refine ⟨?_, rfl⟩
    show p.destination (colorIo false f) = some (handOn p false f).read
    -- the buffers change places exactly if the pass fills the write buffer, so its result is read next in both cases
    unfold Pass.SwapsAsMade at made
    unfold handOn
    rw [made]
    cases p with
    | depth p => cases hp
    | _ => rfl

end Result

/-- Each pass that draws colours reads the result of those before it. -/
theorem Plays.fed (plays : Plays deltaTime depthNeeded es f h turns f' k) (poised : Poised read write es f h)
    {r : Result} (stands : r.StandsIn f.read h) {before after : List Turn} {t : Turn}
    (hturns : turns = before ++ t :: after)
    (ht : t.pass.presents = true) : (before.foldl Result.carry r).StandsIn t.io.input t.start := by
  -- on the turns before `t`: the result so far stands in the buffer that is read next
  induction plays generalizing before r with
  | nil => simp at hturns
  | skip _ _ ih => exact ih (poised.skip _) (stands.report _) hturns
  | @depth e _ f _ h _ _ s _ _ hd _ _ hr _ ih =>
    cases before with
    | nil =>
      cases hturns
      simp [Pass.presents, hd] at ht
    | cons u before =>
      cases hturns
      have hother : some f.read ≠ Turn.destination ⟨e.pass, ⟨f.read, some f.write, none⟩, h, s⟩ := by
        have hno := (poised.untaken f.read poised.read_mem).others e List.mem_cons_self
        intro hsame
        exact hno ((Pass.destination_of_isDepthProducer hd _).symm.trans hsame.symm)
      have carried := stands.carry_of_not_handsOn (t := ⟨e.pass, ⟨f.read, some f.write, none⟩, h, s⟩) hr
        (by simp [Turn.handsOn, Pass.presents, hd]) hother
      exact ih (poised.depth hr _ _) (carried.report _) rfl
  | @color e es f _ h _ _ _ s _ _ hd hr _ ih =>
    cases before with
    | nil =>
      cases hturns
      exact stands.report _
    | cons u before =>
      cases hturns
      have carried := (stands.report _).carry_color hr hd (poised.made e List.mem_cons_self)
      exact ih (poised.color hr _ _) (carried.report _) rfl

/-! ## Frames -/

/-- What a turn has before it: one of the two buffers to read, the other one to write if it is not terminal, and both on
the device. -/
structure Turn.Sees (read write : Nat) (t : Turn) : Prop where
  buffers : t.io.input = read ∧ (∀ b, t.io.output = some b → b = write) ∨
    t.io.input = write ∧ ∀ b, t.io.output = some b → b = read
  live : ∀ n ∈ [read, write], n ∈ t.start.device.targets.keys

theorem Turn.Sees.output_ne_input {t : Turn} (sees : t.Sees read write) (hne : read ≠ write) :
    t.io.output ≠ some t.io.input := by
  intro ho
  rcases sees.buffers with ⟨hi, hw⟩ | ⟨hi, hw⟩
  · exact hne (hi ▸ hw _ ho)
  · exact hne (hi ▸ hw _ ho).symm

theorem Poised.sees (poised : Poised read write es f h) {t : Turn} (hstart : t.start.device = h.device)
    (hi : t.io.input = f.read) (ho : t.io.output = none ∨ t.io.output = some f.write) : t.Sees read write := by
  have hwrite (b : Nat) (hb : t.io.output = some b) : b = f.write := by
    rcases ho with ho | ho <;> rw [ho] at hb
    · cases hb
    · exact (Option.some.inj hb).symm
  refine ⟨?_, fun n hn => hstart ▸ (poised.untaken n hn).live⟩
  exact poised.buffers.imp (fun hf => ⟨hi.trans hf.1, fun b hb => (hwrite b hb).trans hf.2⟩)
    fun hf => ⟨hi.trans hf.1, fun b hb => (hwrite b hb).trans hf.2⟩

/-- Every turn is a render that succeeds, and sees the two buffers. -/
theorem Plays.sees (plays : Plays deltaTime depthNeeded es f h turns f' k) (poised : Poised read write es f h) :
    ∀ t ∈ turns, t.Rendered deltaTime ∧ t.Sees read write ∧
      (t.pass.isDepthProducer = true → t.io.isTerminal = false) := by
  induction plays with
  | nil => exact fun t ht => absurd ht List.not_mem_nil
  | skip _ _ ih => exact ih (poised.skip _)
  | depth _ _ _ _ hr _ ih =>
    intro t ht
    rcases List.mem_cons.1 ht with rfl | ht
    · exact ⟨hr, poised.sees rfl rfl (.inr rfl), fun _ => rfl⟩
    · exact ih (poised.depth hr _ _) t ht
  | @color e es _ _ _ _ _ _ _ _ _ hd hr _ ih =>
    intro t ht
    rcases List.mem_cons.1 ht with rfl | ht
    · refine ⟨hr, poised.sees rfl rfl ?_, fun hdepth => ?_⟩
      · unfold colorIo
        cases e.pass.settings.toScreen || !es.any isPresenter
        · exact .inr rfl
        · exact .inl rfl
      · rw [hd] at hdepth
        cases hdepth
    · exact ih (poised.color hr _ _) t ht

/-- Commands of a kind in all turns are the commands of the frame. -/
theorem Plays.only {Q : Command → Prop} (plays : Plays deltaTime depthNeeded es f h turns f' k)
    (only : ∀ t ∈ turns, t.start.Only Q t.finish.host) : h.Only Q k := by
  induction plays with
  | nil => exact .refl _
  | skip _ _ ih => exact (Host.Only.report _ _).trans (ih only)
  | depth _ _ _ _ _ _ ih =>
    obtain ⟨hhead, htail⟩ := List.forall_mem_cons.1 only
    exact Host.Only.trans hhead ((Host.Only.report _ _).trans (ih htail))
  | color _ _ _ _ ih =>
    obtain ⟨hhead, htail⟩ := List.forall_mem_cons.1 only
    exact (Host.Only.report _ _).trans (Host.Only.trans hhead ((Host.Only.report _ _).trans (ih htail)))

/-- The hand-off in a frame whose buffers are two targets, first the one to read, that starts on a host and runs passes
that are ready in turns, with the buffers that it leaves. -/
structure HandsOff (first second : Nat) (start : Host) (ready : List PipelineEntry) (turns : List Turn)
    (f : FrameState) : Prop where
  /-- The enabled passes that draw colours all have their turns, in order. -/
  presenters : (turns.filter (·.pass.presents)).map (·.pass) = (ready.filter isPresenter).map (·.pass)
  sees : ∀ t ∈ turns, t.Sees first second
  /-- A pass that draws colours reads the result of the last one before it that was not terminal, and if there is none
  what was in the first buffer. -/
  fed : ∀ before t after, turns = before ++ t :: after → t.pass.presents = true →
    (before.foldl Result.carry ⟨some first, start⟩).StandsIn t.io.input t.start
  /-- Terminal are the passes that are set to be, and the last one that draws colours. -/
  terminal : ∀ before t after, turns = before ++ t :: after → t.pass.presents = true →
    (t.io.isTerminal = true ↔ t.pass.settings.toScreen = true ∨ ∀ u ∈ after, u.pass.presents = false)
  writes : ∀ t ∈ turns, t.WritesOnly t.destination
  screen : ∀ t ∈ turns, t.destination = none ↔ t.io.isTerminal = true
  buffers : (f.read, f.write) = if Odd (turns.countP Turn.swaps) then (second, first) else (first, second)

theorem Plays.handsOff {start : Host} {first second : Nat}
    (plays : Plays deltaTime depthNeeded es ⟨first, second, none, false⟩ h turns f' k)
    (poised : Poised first second es ⟨first, second, none, false⟩ h)
    (hstart : h.device.plane (some first) = start.device.plane (some first)) :
    HandsOff first second start es turns f' where
  presenters := plays.presenters
  sees t ht := (plays.sees poised t ht).2.1
  fed _ _ _ hturns ht := plays.fed poised ⟨rfl, hstart⟩ hturns ht
  terminal _ _ _ hturns ht := plays.isTerminal_iff hturns ht
  writes t ht := (plays.sees poised t ht).1.writesOnly
  screen t ht := (plays.sees poised t ht).1.destination_eq_none_iff (plays.sees poised t ht).2.2
  buffers := plays.buffers_eq

theorem swapsAsMade_of_madeReady (ready : List.Forall₂ MadeReady es es') (made : ∀ e ∈ es, e.pass.SwapsAsMade) :
    ∀ e ∈ es', e.pass.SwapsAsMade := by
  induction ready with
  | nil => exact made
  | cons m _ ih =>
    obtain ⟨hhead, htail⟩ := List.forall_mem_cons.1 made
    refine List.forall_mem_cons.2 ⟨?_, ih htail⟩
    cases m with
    | disabled _ => exact hhead
    | ready _ rebuilt _ => exact rebuilt.swapsAsMade hhead

/-- In its whole life a pipeline has the same two buffers, which are two targets on the device, and in every frame that
succeeds passes hand on what they draw: each pass that draws colours reads the result of those before it, none reads
what it writes, and the terminal ones write to the screen and no others do.  After the frame the buffers have changed
places if an odd number of passes have handed on what they drew in the write buffer, and else they have not. -/
theorem handsOff_of_render_ok {s t : Staged Pipeline} (life : Life read write s)
    (made : ∀ e ∈ s.stage.entries, e.pass.SwapsAsMade) (hr : render deltaTime s = (.ok (), t)) :
    Paired read write s ∧ Paired read write t ∧ (∀ c ∈ s.host.issuedSince t.host, c.command.ReadsElsewhere) ∧
    ∃ first second ready host turns f, s.stage.buffers = some (first, second) ∧
      prepareEntries s.stage.entries s.host = (.ok (), ready, host) ∧ List.Forall₂ MadeReady s.stage.entries ready ∧
      Plays deltaTime (ready.any needsDepth) ready ⟨first, second, none, false⟩ host turns f t.host ∧
      HandsOff first second s.host ready turns f ∧ t.stage.buffers = some (f.read, f.write) := by
  have paired := life.paired
  have paired' : Paired read write t := by
    have hp := (Life.render deltaTime life).paired
    rwa [hr] at hp
  obtain ⟨first, second, ready, host, turns, f, hb, hprepare, plays, hb'⟩ := turns_of_render_ok hr
  have readies := readies_of_prepareEntries hprepare
  have madeReady := readies.madeReady
  obtain ⟨_, _, hpaired, hpair⟩ := paired.exists_buffers
  rw [hb] at hpaired
  cases hpaired
  have poised : Poised first second ready ⟨first, second, none, false⟩ host := by
    refine ⟨.inl ⟨rfl, rfl⟩, fun n hn => ?_, swapsAsMade_of_madeReady madeReady made⟩
    refine readies.untaken (paired.untaken n ?_)
    rcases hpair with ⟨rfl, rfl⟩ | ⟨rfl, rfl⟩
    · exact hn
    · simpa [or_comm] using hn
  have hdistinct : first ≠ second := by
    rcases hpair with ⟨rfl, rfl⟩ | ⟨rfl, rfl⟩
    · exact paired.distinct
    · exact paired.distinct.symm
  have hplane : host.device.plane (some first) = s.host.device.plane (some first) := by
    refine readies.only.planes _ fun c hc => ?_
    rw [Command.buffer?_of_isAboutProgram hc]
    exact nofun
  have only : s.host.Only Command.ReadsElsewhere t.host := by
    refine (readies.only.weaken fun c => Command.readsElsewhere_of_isAboutProgram).trans (plays.only fun u hu => ?_)
    obtain ⟨hrendered, hsees, -⟩ := plays.sees poised u hu
    exact hrendered.only.weaken fun c issues => issues.readsElsewhere (hsees.output_ne_input hdistinct)
  exact ⟨paired, paired', only.issuedSince, first, second, ready, host, turns, f, hb, hprepare, madeReady, plays,
    plays.handsOff poised hplane, hb'⟩

theorem life_withPasses {passes : List Pass} (hpasses : ∀ p ∈ passes, target? p = none) :
    Life 1 2 (withPasses passes) := by
  have hbuffers : unborn.1.toOption.map Pipeline.buffers = some (some (1, 2)) := by decide +kernel
  refine withPasses_induction (fun p h hc => ?_) fun pass hpass s life => ?_
  · rw [hc] at hbuffers
    exact .create (Device.numbered_create 1 1 [] false) hc (Option.some.inj hbuffers)
  · refine .addPass pass none (fun _ _ => ?_) life
    rw [hpasses pass hpass]
    exact nofun

/-- A pass that draws in place, five that fill the write buffer, and among these one that draws to the screen. -/
def relay : List Pass :=
  let fill := Pass.material (MaterialPass.create fog)
  [.clear (ClearPass.create none false), fill, fill.withSettings ⟨true, true, true⟩, fill, fill, fill]

/-- Three passes hand on what they draw in the write buffer, so that the buffers have changed places. -/
theorem handsOff_relay : ∃ t, render .zero (withPasses relay) = (.ok (), t) ∧ t.stage.buffers = some (2, 1) ∧
    Paired 1 2 t ∧ ∀ c ∈ (withPasses relay).host.issuedSince t.host, c.command.ReadsElsewhere := by
  have life : Life 1 2 (withPasses relay) := by
    refine life_withPasses ?_
    unfold relay
    simp only [List.forall_mem_cons]
    exact ⟨rfl, rfl, rfl, rfl, rfl, rfl, List.forall_mem_nil _⟩
  have made : ∀ e ∈ (withPasses relay).stage.entries, e.pass.SwapsAsMade := by decide +kernel
  have hok : (render .zero (withPasses relay)).1.toOption.isSome = true := by decide +kernel
  have hbuffers : (render .zero (withPasses relay)).2.stage.buffers = some (2, 1) := by decide +kernel
  rcases hr : render .zero (withPasses relay) with ⟨e | _, t⟩ <;> rw [hr] at hok hbuffers
  · cases hok
  · obtain ⟨-, paired, elsewhere, -⟩ := handsOff_of_render_ok life made hr
    exact ⟨t, rfl, hbuffers, paired, elsewhere⟩

end Pipeline

end ScreenFusion
