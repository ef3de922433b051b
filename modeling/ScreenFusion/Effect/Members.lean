import ScreenFusion.Effect.Basic

/-!
# ScreenFusion.Effect.Members — effects that can share a program

The members of a program must be live, and of each exclusive attribute at most one member may be the owner.
-/

namespace ScreenFusion

/-- The exclusive attributes taken so far, each with the name of its owner. -/
abbrev Owners := List (Attributes × String)

/-- The owners after an effect has taken its exclusive attributes among the given ones. -/
def claimExclusive (label : String) (e : Effect) :
    List (String × Attributes) → Owners → Except Error Owners
  | [], owners => .ok owners
  | (title, flag) :: rest, owners =>
    if e.attributes.includes flag then
      match owners.lookup flag with
      | some first => .error (.configuration label (.exclusiveAttribute first e.name title))
      | none => claimExclusive label e rest (owners ++ [(flag, e.name)])
    else claimExclusive label e rest owners

/-- Checks effects in order, from the owners and attributes of those before them. -/
def checkMembersFrom (label : String) : List Effect → Owners → Attributes → Except Error Attributes
  | [], _, union => .ok union
  | e :: es, owners, union =>
    if e.disposed then .error (.configuration label (.disposedEffect e.name))
    else do
      let owners ← claimExclusive label e Attributes.exclusive owners
      checkMembersFrom label es owners (union.union e.attributes)

/-- The attributes of effects that can share a program, or why they cannot. -/
def checkMembers (label : String) (effects : List Effect) : Except Error Attributes :=
  checkMembersFrom label effects [] .none

@[simp] theorem checkMembers_nil (label : String) : checkMembers label [] = .ok .none := rfl

end ScreenFusion
