import ScreenFusion.Text.Lines
import ScreenFusion.Text.Blank

/-!
# ScreenFusion.Wgsl.Conditional — conditional lines

A line whose first character that is not blank is a number sign is a directive.  Lines in branches that are not selected
become empty, and so do directives, so that line numbers stay.
-/

namespace ScreenFusion.Wgsl

/-- A directive line. -/
inductive Directive where
  | ifdef (name : String)
  | ifndef (name : String)
  | otherwise
  | endif
  /-- A directive of another form: the line from its number sign. -/
  | unknown (line : String)
  deriving DecidableEq, Inhabited

/-- Why the directives of a text cannot be evaluated. -/
inductive ConditionalFault where
  | unexpectedElse (line : Nat)
  | unexpectedEndif (line : Nat)
  | unsupported (line : Nat) (text : String)
  | unterminated (count : Nat)
  deriving DecidableEq, Inhabited

/-- The text of a fault. -/
def ConditionalFault.message : ConditionalFault → String
  | unexpectedElse line => s!"line {line}: unexpected #else"
  | unexpectedEndif line => s!"line {line}: unexpected #endif"
  | unsupported line text => s!"line {line}: unsupported directive `{text}`"
  | unterminated count => s!"{count} unterminated #ifdef block(s)"

/-- The directive that a line is, if it is one. -/
def Directive.ofLine? (line : List Char) : Option Directive :=
  match Text.trimStart line with
  | '#' :: rest =>
    some <| match (Text.words rest).map String.ofList with
      | "ifdef" :: name :: _ => .ifdef name
      | "ifndef" :: name :: _ => .ifndef name
      | ["else"] => .otherwise
      | ["endif"] => .endif
      | _ => .unknown (String.ofList ('#' :: rest))
  | _ => none

/-- An open conditional. -/
structure Branch where
  /-- Whether the branch at hand is selected. -/
  selected : Bool
  /-- Whether the lines around the conditional are active. -/
  enclosing : Bool
  elseSeen : Bool
  deriving DecidableEq, Inhabited

/-- Whether lines inside the open conditionals, innermost first, are active. -/
def isActive : List Branch → Bool
  | [] => true
  | b :: _ => b.selected && b.enclosing

/-- The open conditionals after a directive on a line. -/
def Directive.apply (defined : List String) (line : Nat) (stack : List Branch) :
    Directive → Except ConditionalFault (List Branch)
  | ifdef name => .ok (⟨defined.contains name, isActive stack, false⟩ :: stack)
  | ifndef name => .ok (⟨!defined.contains name, isActive stack, false⟩ :: stack)
  | otherwise =>
    match stack with
    | b :: rest =>
      if b.elseSeen then .error (.unexpectedElse line)
      else .ok ({ b with selected := !b.selected, elseSeen := true } :: rest)
    | [] => .error (.unexpectedElse line)
  | endif =>
    match stack with
    | _ :: rest => .ok rest
    | [] => .error (.unexpectedEndif line)
  | unknown text => .error (.unsupported line text)

/-- The lines that are left of lines numbered from `line` inside open conditionals. -/
def selectLines (defined : List String) :
    Nat → List Branch → List (List Char) → Except ConditionalFault (List (List Char))
  | _, stack, [] => if stack.isEmpty then .ok [] else .error (.unterminated stack.length)
  | line, stack, l :: ls =>
    match Directive.ofLine? l with
    | none => do
      let rest ← selectLines defined (line + 1) stack ls
      return (if isActive stack then l else []) :: rest
    | some d => do
      let stack ← d.apply defined line stack
      let rest ← selectLines defined (line + 1) stack ls
      return [] :: rest

/-- The text with its conditionals evaluated against the defined names. -/
def selectText (defined : List String) (source : List Char) : Except ConditionalFault (List Char) := do
  let lines ← selectLines defined 1 [] (Text.lines source)
  return lines.flatMap (· ++ ['\n'])

end ScreenFusion.Wgsl
