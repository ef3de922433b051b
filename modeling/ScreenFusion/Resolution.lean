import ScreenFusion.Json.Decode
import ScreenFusion.Json.Written
import ScreenFusion.Number.Rounding

/-!
# ScreenFusion.Resolution — sizes that others follow

A resolution derives a size from a base size, a scale and optional fixed overrides; one override keeps the base's aspect
ratio.  Watchers count the changes: each change of the parameters counts once, however many fields it touches.  The
resolution does not own its watchers: it has a list of those to tell, and takes one that is gone out of the list only
when it next goes through it.  Counts are natural numbers; a word of 64 bits holds every count that can be reached.

* `effectiveSize_swap`, `effectiveSize_pos`: width and height are treated alike, and are never zero.
* `update_eq_false`: a change that leaves the parameters equal is not counted.
-/

namespace ScreenFusion

/-- What a size is derived from.  A missing override means that the size is free. -/
structure ResolutionParams where
  baseWidth : UInt32
  baseHeight : UInt32
  scale : Binary32
  preferredWidth : Option UInt32
  preferredHeight : Option UInt32
  deriving DecidableEq

namespace ResolutionParams

instance : Inhabited ResolutionParams := ⟨⟨1, 1, .ofFloat 1, none, none⟩⟩

/-- Whether two sets of parameters are equal as numbers: zeros of either sign are, NaN is not even to itself. -/
def same (p q : ResolutionParams) : Bool :=
  p.baseWidth == q.baseWidth && p.baseHeight == q.baseHeight && p.scale.toFloat == q.scale.toFloat &&
    p.preferredWidth == q.preferredWidth && p.preferredHeight == q.preferredHeight

/-- The nearest positive length. -/
def length (x : Float) : UInt32 := max (UInt32.ofNat (nearestNat 32 (.ofFloat64 x))) 1

/-- The length of an axis that follows an override of the other axis at the base's aspect ratio. -/
def derived (override baseOther base : UInt32) : UInt32 :=
  length (override.toFloat * (max base 1).toFloat / (max baseOther 1).toFloat)

/-- The length of an axis without overrides. -/
def scaled (p : ResolutionParams) (base : UInt32) : UInt32 :=
  let scale := Binary32.ofFloat (if p.scale.isNaN then 0 else if p.scale.toFloat < 0 then 0 else p.scale.toFloat)
  length ((max base 1).toFloat * scale.widen)

/-- The size, never below one by one. -/
def effectiveSize (p : ResolutionParams) : UInt32 × UInt32 :=
  match p.preferredWidth, p.preferredHeight with
  | some w, some h => (max w 1, max h 1)
  | some w, none => (max w 1, derived w p.baseWidth p.baseHeight)
  | none, some h => (derived h p.baseHeight p.baseWidth, max h 1)
  | none, none => (p.scaled p.baseWidth, p.scaled p.baseHeight)

/-- Width and height exchanged. -/
def swap (p : ResolutionParams) : ResolutionParams where
  baseWidth := p.baseHeight
  baseHeight := p.baseWidth
  scale := p.scale
  preferredWidth := p.preferredHeight
  preferredHeight := p.preferredWidth

theorem effectiveSize_swap (p : ResolutionParams) : p.swap.effectiveSize = p.effectiveSize.swap := by
  obtain ⟨w, h, s, pw, ph⟩ := p
  cases pw <;> cases ph <;> rfl

theorem effectiveSize_pos (p : ResolutionParams) : 0 < p.effectiveSize.1.toNat ∧ 0 < p.effectiveSize.2.toNat := by
  have hmax (n : UInt32) : 0 < (max n 1).toNat := by
    show 0 < (if n ≤ 1 then (1 : UInt32) else n).toNat
    split
    · decide
    · next hn =>
      rw [UInt32.le_iff_toNat_le] at hn
      exact Nat.lt_of_le_of_lt (Nat.zero_le _) (Nat.lt_of_not_le hn)
  obtain ⟨_, _, _, _ | _, _ | _⟩ := p <;> exact ⟨hmax _, hmax _⟩

/-- The fields of parameters in a descriptor. -/
def fields : Json.Record ResolutionParams where
  title := "ResolutionParams"
  fields :=
    let natural : Json.Decoder UInt32 := fun v => (Json.Decoder.natural 32 v).map UInt32.ofNat
    [.defaulted "base_width" natural fun n p => { p with baseWidth := n },
      .defaulted "base_height" natural fun n p => { p with baseHeight := n },
      .defaulted "scale" Json.Decoder.binary32 fun x p => { p with scale := x },
      .defaulted "preferred_width" (Json.Decoder.optional natural) fun n p => { p with preferredWidth := n },
      .defaulted "preferred_height" (Json.Decoder.optional natural) fun n p => { p with preferredHeight := n }]
  blank := default

/-- The parameters as they are written. -/
def written (p : ResolutionParams) : Json.Written :=
  let natural (n : UInt32) : Json.Written := .integer n.toNat
  .object [("base_width", natural p.baseWidth), ("base_height", natural p.baseHeight), ("scale", .float p.scale),
    ("preferred_width", .option natural p.preferredWidth), ("preferred_height", .option natural p.preferredHeight)]

end ResolutionParams

/-- Someone who counts the changes of a resolution. -/
structure Watcher where
  /-- The changes counted so far. -/
  received : Nat
  /-- The changes already looked at. -/
  seen : Nat
  deriving DecidableEq, Inhabited

/-- The watcher after one more change. -/
def Watcher.told (w : Watcher) : Watcher := { w with received := w.received + 1 }

/-- A size that others follow. -/
structure Resolution where
  params : ResolutionParams
  /-- The changes so far. -/
  version : Nat
  /-- The watchers by number; one that is gone has left its place empty. -/
  watchers : List (Option Watcher)
  /-- The numbers of the watchers to tell, in the order in which they joined; some may be gone. -/
  listeners : List Nat
  deriving DecidableEq

namespace Resolution

/-- A resolution without watchers. -/
def ofParams (params : ResolutionParams) : Resolution := ⟨params, 0, [], []⟩

instance : Inhabited Resolution := ⟨ofParams default⟩

/-- A resolution with a base size. -/
def ofBase (width height : UInt32) : Resolution :=
  ofParams { (default : ResolutionParams) with baseWidth := width, baseHeight := height }

/-- A resolution with a scale. -/
def ofScale (scale : Binary32) : Resolution := ofParams { (default : ResolutionParams) with scale }

/-- The size. -/
def size (r : Resolution) : UInt32 × UInt32 := r.params.effectiveSize

/-- A watcher, if it is not gone. -/
def watcher? (r : Resolution) (i : Nat) : Option Watcher := (r.watchers[i]?).join

/-- Counts a change and tells the listeners; those that are gone leave the list. -/
def notify (r : Resolution) : Resolution :=
  { r with
    version := r.version + 1
    watchers := r.listeners.foldl (fun watchers i => watchers.modify i (Option.map Watcher.told)) r.watchers
    listeners := r.listeners.filter fun i => (r.watcher? i).isSome }

/-- Changes the parameters; whether they differ from before. -/
def update (r : Resolution) (f : ResolutionParams → ResolutionParams) : Bool × Resolution :=
  let changed := { r with params := f r.params }
  if (f r.params).same r.params then (false, changed) else (true, changed.notify)

/-- Replaces the base size. -/
def setBase (r : Resolution) (width height : UInt32) : Bool × Resolution :=
  r.update fun p => { p with baseWidth := width, baseHeight := height }

/-- Replaces the scale. -/
def setScale (r : Resolution) (scale : Binary32) : Bool × Resolution := r.update fun p => { p with scale }

/-- Replaces both overrides. -/
def setPreferred (r : Resolution) (width height : Option UInt32) : Bool × Resolution :=
  r.update fun p => { p with preferredWidth := width, preferredHeight := height }

/-- Replaces the override of the width. -/
def setPreferredWidth (r : Resolution) (width : Option UInt32) : Bool × Resolution :=
  r.update fun p => { p with preferredWidth := width }

/-- Replaces the override of the height. -/
def setPreferredHeight (r : Resolution) (height : Option UInt32) : Bool × Resolution :=
  r.update fun p => { p with preferredHeight := height }

/-! ## Watchers -/

/-- Adds a watcher: its number. -/
def subscribe (r : Resolution) : Nat × Resolution :=
  (r.watchers.length,
    { r with watchers := r.watchers ++ [some ⟨0, 0⟩], listeners := r.listeners ++ [r.watchers.length] })

/-- Lets a watcher stay but tells it of no further changes; all that are gone leave the list as well. -/
def unsubscribe (r : Resolution) (i : Nat) : Resolution :=
  if (r.watcher? i).isSome then
    { r with listeners := r.listeners.filter fun j => (r.watcher? j).isSome && j != i }
  else r

/-- Lets a watcher go, which the list of listeners does not notice: whether it was there. -/
def drop (r : Resolution) (i : Nat) : Bool × Resolution :=
  ((r.watcher? i).isSome, { r with watchers := r.watchers.modify i fun _ => none })

/-- Whether a watcher has counted changes since it was last asked. -/
def takeChanged (r : Resolution) (i : Nat) : Option Bool × Resolution :=
  ((r.watcher? i).map fun w => w.received != w.seen,
    { r with watchers := r.watchers.modify i (Option.map fun w => { w with seen := w.received }) })

/-- The number of listeners that are not gone. -/
def dependents (r : Resolution) : Nat := r.listeners.countP fun i => (r.watcher? i).isSome

theorem update_eq_false {r : Resolution} {f : ResolutionParams → ResolutionParams}
    (h : (r.update f).1 = false) : (r.update f).2.version = r.version ∧ (r.update f).2.watchers = r.watchers := by
  unfold update at h ⊢
  split
  · exact ⟨rfl, rfl⟩
  · next hs => simp [hs] at h

end Resolution

end ScreenFusion
