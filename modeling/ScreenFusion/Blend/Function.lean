import ScreenFusion.Text.Keyword
import ScreenFusion.Json.Decode
import ScreenFusion.Json.Written

/-!
# ScreenFusion.Blend.Function — the blend functions

A blend function says how a newly computed colour joins the running colour.  Its number is its place in `all`; fused
programs select the function by that number.
-/

namespace ScreenFusion

/-- How a new colour joins the running colour. -/
inductive BlendFunction where
  | normal
  | add
  | multiply
  | screen
  | alpha
  | average
  | darken
  | lighten
  | difference
  | exclusion
  | overlay
  | softLight
  | colorBurn
  | colorDodge
  | divide
  | negation
  | subtract
  | skip
  deriving DecidableEq, Inhabited

namespace BlendFunction

/-- The blend functions by number. -/
def all : List BlendFunction :=
  [normal, add, multiply, screen, alpha, average, darken, lighten, difference, exclusion, overlay, softLight,
    colorBurn, colorDodge, divide, negation, subtract, skip]

/-- The number that selects the function in a program. -/
def id (f : BlendFunction) : Nat := all.idxOf f

/-- The function with a number. -/
def ofId? (n : Nat) : Option BlendFunction := all[n]?

/-- The name of the function. -/
def name : BlendFunction → String
  | normal => "normal"
  | add => "add"
  | multiply => "multiply"
  | screen => "screen"
  | alpha => "alpha"
  | average => "average"
  | darken => "darken"
  | lighten => "lighten"
  | difference => "difference"
  | exclusion => "exclusion"
  | overlay => "overlay"
  | softLight => "soft-light"
  | colorBurn => "color-burn"
  | colorDodge => "color-dodge"
  | divide => "divide"
  | negation => "negation"
  | subtract => "subtract"
  | skip => "skip"

/-- Second spellings of some functions. -/
def synonyms : List (String × BlendFunction) :=
  [("set", normal), ("additive", add), ("softlight", softLight), ("colorburn", colorBurn),
    ("colordodge", colorDodge)]

/-- The function that a text names; the normal form of the text if it names none. -/
def parse (text : String) : Except String BlendFunction :=
  let token := Text.keyword text
  match (all.find? fun f => f.name == token) <|> synonyms.lookup token with
  | some f => .ok f
  | none => .error token

/-- Reads a function from a JSON text. -/
def decode : Json.Decoder BlendFunction := fun v => do
  match parse (← Json.Decoder.string v) with
  | .ok f => .ok f
  | .error token => .error (.blendFunction token)

/-- The function as it is written. -/
def written (f : BlendFunction) : Json.Written := .string f.name

theorem ofId?_id (f : BlendFunction) : ofId? f.id = some f := by cases f <;> rfl

theorem id_lt (f : BlendFunction) : f.id < all.length := by cases f <;> decide

end BlendFunction

end ScreenFusion
