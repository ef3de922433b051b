import ScreenFusion.Text.Lines

/-!
# ScreenFusion.Wgsl.Check — whether a device accepts a module

A device rejects a module that refers to a name nobody declares, recognised by its stem `missing_`, and a module whose
braces do not balance in number.  The rejection comes with a listing of the module.
-/

namespace ScreenFusion.Wgsl

/-- Why a module is rejected. -/
inductive Rejection where
  | undeclaredName
  | unbalancedBraces (opened closed : Nat)
  deriving DecidableEq, Inhabited

/-- Whether one list of characters occurs in another. -/
def occursIn (part : List Char) : List Char → Bool
  | [] => part.isEmpty
  | c :: cs => part.isPrefixOf (c :: cs) || occursIn part cs

/-- What is wrong with a module, if anything is. -/
def rejection? (source : String) : Option Rejection :=
  let cs := source.toList
  let opened := cs.count '\x7b'
  let closed := cs.count '\x7d'
  if occursIn "missing_".toList cs then some .undeclaredName
  else if opened ≠ closed then some (.unbalancedBraces opened closed)
  else none

namespace Rejection

/-- The line that says what is wrong. -/
def diagnostic : Rejection → String
  | undeclaredName => "no definition in scope for identifier"
  | unbalancedBraces opened closed => s!"{opened} opening and {closed} closing braces"

/-- The message about a module that was made for a context. -/
def message (context source : String) (r : Rejection) : String :=
  s!"{context} generated invalid WGSL: WGSL validation failed:\n  {r.diagnostic}\n\nGenerated WGSL:\n---\n" ++
    Text.listing source ++ "---\n"

end Rejection

end ScreenFusion.Wgsl
