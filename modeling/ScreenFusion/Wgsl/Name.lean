/-!
# ScreenFusion.Wgsl.Name — names that shader text can use

A fragment may declare names that are identifiers of the shader language and none of its keywords.
-/

namespace ScreenFusion.Wgsl

/-- Whether a character can begin an identifier. -/
def isNameStart (c : Char) : Bool := c.isAlpha || c == '_'

/-- Whether a character can continue an identifier. -/
def isNameRest (c : Char) : Bool := c.isAlphanum || c == '_'

theorem isNameRest_of_isNameStart {c : Char} (h : isNameStart c = true) : isNameRest c = true := by
  simp only [isNameStart, isNameRest, Char.isAlphanum, Bool.or_eq_true] at h ⊢
  rcases h with h | h
  · exact .inl (.inl h)
  · exact .inr h

/-- Whether a text is an identifier: ASCII letters, digits and underscores, no digit first, not two underscores
first, and not an underscore alone. -/
def isIdentifier (name : String) : Bool :=
  match name.toList with
  | [] => false
  | ['_'] => false
  | '_' :: '_' :: _ => false
  | c :: cs => isNameStart c && cs.all isNameRest

/-- Words that name no item of a fragment. -/
def keywords : List String :=
  ["alias", "break", "case", "const", "const_assert", "continue", "continuing", "default", "diagnostic", "discard",
    "else", "enable", "false", "fn", "for", "if", "let", "loop", "override", "requires", "return", "struct", "switch",
    "true", "var", "while", "bool", "f16", "f32", "i32", "u32", "vec2f", "vec3f", "vec4f", "vec2", "vec3", "vec4",
    "mat2x2f", "mat3x3f", "mat4x4f", "array", "sampler", "texture_2d", "ptr", "function", "private", "uniform",
    "storage", "workgroup"]

/-- Whether a text is a keyword. -/
def isKeyword (name : String) : Bool := keywords.contains name

end ScreenFusion.Wgsl
