import ScreenFusion.Proofs.Fusion.Substitute
import ScreenFusion.Proofs.Wgsl.Place
import ScreenFusion.Proofs.Wgsl.Resolution

/-!
# ScreenFusion.Proofs.Fusion.Capture — when a local captures what stands for a name

A substitute is captured where a local in force has the name that the substitute begins with.  A name that means something
of the module is no local in force, so a constant that keeps its name is never captured.  The names left are the uniform
block, constants that got another name, and functions and structures.

* `Member.Captures`, `Member.Hides`: a substitute is captured; a local in force has one of these names.
* `captures_iff`: the two are the same, wherever the text of a unit has a name that may be replaced, and likewise by what
  names mean in a fragment of the language.
* `not_captures_of_unmentioned`: there is no capture in a text that does not mention these names.
-/

namespace ScreenFusion.Fusion

namespace Member

/-- A local in force has the name that the substitute begins with. -/
def Captures (m : Member) (n : String) (locals : List String) : Prop :=
  ∃ text, m.substitute n = some text ∧ root text ∈ locals

/-- The name is a uniform's and a local in force hides the uniform block, or the name gets another one at module scope and a
local in force hides that. -/
def Hides (m : Member) (n : String) (locals : List String) : Prop :=
  n ∈ m.uniforms.map Prod.fst ∧ "fx" ∈ locals ∨ ∃ x ∈ m.own.zip m.fused, x.1 = n ∧ x.2 ≠ n ∧ x.2 ∈ locals

instance (m : Member) (n : String) (locals : List String) : Decidable (m.Captures n locals) :=
  decidable_of_iff ((m.substitute n).any (fun text => decide (root text ∈ locals)) = true) (by
    simp [Captures, Option.any_eq_true])

instance (m : Member) (n : String) (locals : List String) : Decidable (m.Hides n locals) :=
  inferInstanceAs (Decidable (_ ∨ _))

end Member

theorem Sound.captures_of_hides {m : Member} {n : String} {locals : List String} (h : Sound m)
    (hhides : m.Hides n locals) : m.Captures n locals := by
  rcases hhides with ⟨huniform, hfx⟩ | ⟨⟨k, fused⟩, hown, rfl, -, hfused⟩
  · obtain ⟨text, hsubstitute, hroot⟩ := h.substitute_uniform huniform
    exact ⟨text, hsubstitute, by rwa [hroot]⟩
  · exact ⟨fused, h.substitute_own hown, by rwa [h.root_fused (List.of_mem_zip hown).2]⟩

/-- The substitute of a name that is no local in force is captured exactly where it is hidden. -/
theorem Sound.captures_iff_hides {m : Member} {n : String} {locals : List String} (h : Sound m) (hn : n ∉ locals) :
    m.Captures n locals ↔ m.Hides n locals := by
  refine ⟨fun hcaptures => ?_, h.captures_of_hides⟩
  obtain ⟨text, hsubstitute, hroot⟩ := hcaptures
  rcases Member.substitute_cases hsubstitute with ⟨huniform, hfx⟩ | hown
  · exact .inl ⟨huniform, hfx ▸ hroot⟩
  · rw [h.root_fused (List.of_mem_zip hown).2] at hroot
    have hne : text ≠ n := by
      rintro rfl
      exact hn hroot
    exact .inr ⟨(n, text), hown, rfl, hne, hroot⟩

section Programs

variable {label : String} {units : List FuseUnit} {options : FuseOptions} {source : ProgramSource}

/-- Where substitutes are captured in the units of a program.  The text of a unit in the program is its own with the
substitutes of the names at places that may be replaced; if the text is a fragment of the language, these are the names
that mean something of the module. -/
theorem captures_iff (h : (fuse label units options).2 = .ok source) :
    source.text = moduleText label source.slots ((members options units).map Member.block)
        ((members options units).map Member.call) source.readsDepth options.alpha ∧
      ∀ m ∈ members options units,
        (m.emitted = (Wgsl.placed m.code).flatMap (Wgsl.becomes m.substitute) ∧
          ∀ p ∈ Wgsl.places m.code, m.Captures p.name p.locals ↔ m.Hides p.name p.locals) ∧
        ∀ (f : Wgsl.Fragment) (text : Wgsl.Marked), Wgsl.Spells f text → f.proper = true →
          (∀ n ∈ f.bound, n ∉ Wgsl.Scopes.addressSpaces) →
          (∀ n, (m.substitute n).isSome = true → Wgsl.isReserved n = false ∧ n ∉ f.values) →
          m.code = Wgsl.spell (text.map Prod.fst) →
          m.emitted = Wgsl.resolved m.substitute text ∧
            ∀ n env, (Wgsl.Lexeme.name n, some env) ∈ text → (m.Captures n env ↔ m.Hides n env) := by
  obtain ⟨htext, hsound⟩ := fuse_members h
  refine ⟨htext, fun m hm => ⟨⟨Wgsl.rename_eq _ _, fun p hp => ?_⟩, ?_⟩⟩
  · exact (hsound m hm).captures_iff_hides (Wgsl.name_not_mem_locals hp)
  · intro f text hspells hproper hspace hnames hcode
    obtain ⟨t, hreads⟩ := hspells.reads hproper hspace hnames
    refine ⟨?_, fun n env hmem => (hsound m hm).captures_iff_hides ?_⟩
    · rw [Member.emitted, hcode]
      exact hreads.renameFrom_eq hspells.spelled
    · refine f.unshadowed n env ?_
      rw [← hspells.lexemes, List.mem_filter]
      exact ⟨hmem, rfl⟩

/-- There is no capture in a unit whose text mentions neither the uniform block, if the unit has uniforms, nor the names
that its own get at module scope. -/
theorem not_captures_of_unmentioned (h : (fuse label units options).2 = .ok source) {m : Member}
    (hm : m ∈ members options units)
    (hfx : m.uniforms = [] ∨ (Wgsl.scan m.code).any (Wgsl.Token.isName "fx") = false)
    (hfused : ∀ x ∈ m.own.zip m.fused, x.2 ≠ x.1 → (Wgsl.scan m.code).any (Wgsl.Token.isName x.2) = false)
    {p : Wgsl.Place} (hp : p ∈ Wgsl.places m.code) : ¬m.Captures p.name p.locals := by
  rw [((fuse_members h).2 m hm).captures_iff_hides (Wgsl.name_not_mem_locals hp)]
  rintro (⟨huniform, hlocal⟩ | ⟨x, hx, hname, hne, hlocal⟩)
  · rcases hfx with hnone | hfx
    · rw [hnone] at huniform
      cases huniform
    · rw [Wgsl.isName_of_mem_locals hp hlocal] at hfx
      cases hfx
  · have hmentioned := hfused x hx (by rwa [hname])
    rw [Wgsl.isName_of_mem_locals hp hlocal] at hmentioned
    cases hmentioned

end Programs

/-! ## Locals that hide and locals that do not -/

/-- Two units of which the second uses a uniform, a function and a constant under the given declarations. -/
def pairWith (declarations : String) : List FuseUnit :=
  [unitOf "a" "fn main_image(c: vec4f, p: vec2f) -> vec4f \x7breturn c*K;\x7d" [] [("K", "0.5")],
    unitOf "b" ("fn f() -> f32 \x7breturn 1.0;\x7d fn main_image(c: vec4f, p: vec2f) -> vec4f \x7b" ++ declarations ++
      " return t*f()*K;\x7d") [("t", .vec4 .zero .zero .zero .zero)] [("K", "0.25")]]

/-- Nothing is captured by locals that have other names. -/
theorem captures_iff_otherNames : ∃ source, (fuse "fx" (pairWith "let t_1 = t; let K_2 = K;") default).2 = .ok source ∧
    ∀ m ∈ members default (pairWith "let t_1 = t; let K_2 = K;"), ∀ p ∈ Wgsl.places m.code,
      ¬m.Captures p.name p.locals := by
  obtain ⟨source, hsource⟩ := exists_of_isOk
    (show (fuse "fx" (pairWith "let t_1 = t; let K_2 = K;") default).2.isOk = true by decide +kernel)
  have hhides : ∀ m ∈ members default (pairWith "let t_1 = t; let K_2 = K;"), ∀ p ∈ Wgsl.places m.code,
      ¬m.Hides p.name p.locals := by decide +kernel
  refine ⟨source, hsource, fun m hm p hp => ?_⟩
  rw [((captures_iff hsource).2 m hm).1.2 p hp]
  exact hhides m hm p hp

/-- Locals hide the uniform block, the function and the constant. -/
theorem captures_hidden :
    (fuse "fx" (pairWith "let fx = 1.0; let e1_f = 2.0; let K_1 = 3.0;") default).2.isOk = true ∧
      ∃ m ∈ members default (pairWith "let fx = 1.0; let e1_f = 2.0; let K_1 = 3.0;"),
        ((Wgsl.places m.code).filter fun p => p.renamable ∧ m.Captures p.name p.locals).map Wgsl.Place.name =
          ["t", "f", "K"] ∧
        m.emitted =
          ("fn e1_f() -> f32 \x7breturn 1.0;\x7d fn e1_main_image(c: vec4f, p: vec2f) -> vec4f \x7b" ++
            "let fx = 1.0; let e1_f = 2.0; let K_1 = 3.0; return fx.t*e1_f()*K_1;\x7d\n").toList := by
  decide +kernel

end ScreenFusion.Fusion
