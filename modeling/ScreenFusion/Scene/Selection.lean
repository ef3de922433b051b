import ScreenFusion.Error
import ScreenFusion.Scene.Layers
import ScreenFusion.Table

/-!
# ScreenFusion.Scene.Selection — selected objects on a layer of their own

A selection tags its members with a layer: adding an object sets the layer's bit in the scene, deleting it clears the bit.
An exclusive selection takes all other layers away from what it adds.  The scene may lose objects at any time; they stay
members.
-/

namespace ScreenFusion

/-- The layers of the objects of a scene. -/
abbrev ObjectLayers := Table Layers

/-- The layer that is always shown; it tags no selection. -/
def alwaysVisibleLayer : Nat := 0

/-- Selected objects and their layer. -/
structure Selection where
  /-- The members in ascending order. -/
  members : List Nat
  layer : Nat
  exclusive : Bool
  deriving DecidableEq, Inhabited

namespace Selection

/-- An empty selection on a layer from 1 to 31. -/
def create (layer : Nat) : Except Error Selection :=
  if layer = alwaysVisibleLayer ∨ 32 ≤ layer then .error (.configuration "selection" (.selectionLayer layer))
  else .ok ⟨[], layer, false⟩

/-- The layer as a set. -/
def mask (s : Selection) : Layers := .layer s.layer

/-- Whether an object is a member. -/
def contains (s : Selection) (object : Nat) : Bool := s.members.contains object

/-- Members with an object added in order. -/
def insertMember (object : Nat) : List Nat → List Nat
  | [] => [object]
  | m :: ms =>
    if object < m then object :: m :: ms
    else if object = m then m :: ms
    else m :: insertMember object ms

/-- Adds an object of the scene: whether the scene knows it. -/
def add (s : Selection) (scene : ObjectLayers) (object : Nat) : Bool × Selection × ObjectLayers :=
  if scene.contains object then
    let tag (l : Layers) : Layers := if s.exclusive then s.mask else l.union s.mask
    (true, { s with members := insertMember object s.members }, scene.modify object tag)
  else (false, s, scene)

/-- Deletes a member: whether it was one. -/
def delete (s : Selection) (scene : ObjectLayers) (object : Nat) : Bool × Selection × ObjectLayers :=
  if s.contains object then
    (true, { s with members := s.members.filter (· ≠ object) }, scene.modify object (·.without s.mask))
  else (false, s, scene)

/-- Deletes every member. -/
def clear (s : Selection) (scene : ObjectLayers) : Selection × ObjectLayers :=
  ({ s with members := [] }, s.members.foldl (fun t o => t.modify o (·.without s.mask)) scene)

/-- Shows or hides every member on the layer that is always shown. -/
def setVisible (s : Selection) (scene : ObjectLayers) (visible : Bool) : ObjectLayers :=
  let always := Layers.layer alwaysVisibleLayer
  s.members.foldl (fun t o => t.modify o fun l => if visible then l.union always else l.without always) scene

theorem mem_insertMember {object other : Nat} {members : List Nat} :
    other ∈ insertMember object members ↔ other = object ∨ other ∈ members := by
  induction members with
  | nil => simp [insertMember]
  | cons m ms ih =>
    simp only [insertMember]
    split
    · simp
    · split
      · next h => simp [h]
      · simp only [List.mem_cons, ih]
        grind

end Selection

end ScreenFusion
