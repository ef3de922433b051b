import Mathlib.Data.List.Nodup
import ScreenFusion.Pass.Effect
import ScreenFusion.Proofs.Fusion.Source

/-!
# ScreenFusion.Proofs.Effect.Change — changes of effects, cheap and not

Every change of an effect either raises its version or leaves all that its program depends on.  The cheap changes are
among the second: they leave everything but the blend mode and the values of uniforms, whose names and kinds they keep.

* `EffectChange`: the changes as data.
* `EffectChange.apply_spec`: the version is raised or the key stays.
* `EffectChange.tuned_of_isCheap`: what a cheap change leaves.
* `Effect.Made.acknowledged_le`: an effect is never acknowledged ahead of its version.
-/

namespace ScreenFusion

/-! ## Names and kinds of uniforms -/

namespace OrderedMap

/-- The names of uniforms with their kinds. -/
def kinds (m : OrderedMap UniformValue) : List (String × String) := m.entries.map fun u => (u.1, u.2.kindName)

theorem names_eq_kinds (m : OrderedMap UniformValue) : m.names = m.kinds.map Prod.fst := by
  rw [kinds, List.map_map]
  rfl

/-- A value of the same kind under a known name keeps the names and kinds. -/
theorem kinds_insert {m : OrderedMap UniformValue} {name : String} {v value : UniformValue}
    (h : m.get? name = some v) (hk : v.sameKind value = true) : (m.insert name value).kinds = m.kinds := by
  have hmem : name ∈ m.names := by
    rw [← contains_iff, contains, h]
    rfl
  have hkind : v.kindName = value.kindName := by simpa [UniformValue.sameKind] using hk
  unfold kinds insert
  rw [dif_pos hmem]
  show (replaceIn name value m.entries).map _ = _
  rw [replaceIn, List.map_map]
  refine List.map_congr_left fun e he => ?_
  show (fun u : String × UniformValue => (u.1, u.2.kindName)) (if e.1 = name then (e.1, value) else e) = _
  by_cases hn : e.1 = name
  · have hv : m.get? name = some e.2 := by
      rw [← hn]
      exact get?_of_mem he
    rw [h] at hv
    cases hv
    rw [if_pos hn]
    show (e.1, value.kindName) = (e.1, e.2.kindName)
    rw [hkind]
  · rw [if_neg hn]

theorem entries_erase_of_not_mem {V : Type} {m : OrderedMap V} {name : String} (h : name ∉ m.names) :
    (m.erase name).entries = m.entries := by
  refine List.filter_eq_self.2 fun e he => ?_
  have hne : e.1 ≠ name := by
    rintro rfl
    exact h (List.mem_map.2 ⟨e, he, rfl⟩)
  simpa using hne

/-- Where two maps have the same names and kinds, a name of one is a name of the other, of the same kind. -/
theorem kindName_of_kinds_eq {m n : OrderedMap UniformValue} (h : m.kinds = n.kinds) {name : String} {v : UniformValue}
    (hv : m.get? name = some v) : ∃ w, n.get? name = some w ∧ w.kindName = v.kindName := by
  have hnames : n.names = m.names := by rw [names_eq_kinds, names_eq_kinds, h]
  have hmem : n.contains name = true := by
    rw [contains_iff, hnames, ← contains_iff, contains, hv]
    rfl
  obtain ⟨w, hw⟩ := Option.isSome_iff_exists.1 hmem
  refine ⟨w, hw, ?_⟩
  have hentry {o : OrderedMap UniformValue} {x : UniformValue} (hx : o.get? name = some x) :
      (name, x.kindName) ∈ o.kinds := by
    obtain ⟨e, he, rfl⟩ := Option.map_eq_some_iff.1 hx
    have hn : e.1 = name := by simpa using List.find?_some he
    refine List.mem_map.2 ⟨e, List.mem_of_find?_eq_some he, ?_⟩
    rw [hn]
  have hkeys : (m.kinds.map Prod.fst).Nodup := by
    rw [← names_eq_kinds]
    exact m.nodup
  have hm := hentry hv
  have hn := hentry hw
  rw [← h] at hn
  exact congrArg Prod.snd (List.inj_on_of_nodup_map hkeys hn hm rfl)

end OrderedMap

/-! ## Changes as data -/

/-- A change of an effect. -/
inductive EffectChange where
  | uniform (name : String) (value : UniformValue)
  | define (name value : String)
  | undefine (name : String)
  | attributes (attributes : Attributes)
  | shader (text : String)
  | kernel (kernel : Kernel)
  | blendFunction (f : BlendFunction)
  | opacity (opacity : Float32)
  | mark
  | dispose

namespace EffectChange

/-- The effect after a change. -/
def apply : EffectChange → Effect → Effect
  | uniform name value, e => e.setUniform name value
  | define name value, e => e.setDefine name value
  | undefine name, e => (e.removeDefine name).2
  | attributes a, e => e.setAttributes a
  | shader text, e => e.setShader text
  | kernel k, e => e.setKernel k
  | blendFunction f, e => e.setBlend f
  | opacity x, e => e.setOpacity x
  | mark, e => e.markChanged
  | dispose, e => e.dispose.2.2

/-- What a change of an effect reports. -/
def events : EffectChange → Effect → List Event
  | dispose, e => e.dispose.2.1
  | _, _ => []

/-- Whether a change is cheap: a value of the same kind for a uniform, or another blend mode. -/
def isCheap (e : Effect) : EffectChange → Bool
  | uniform name value => ((e.uniforms.get? name).map (·.sameKind value)).getD false
  | blendFunction _ | opacity _ => true
  | _ => false

end EffectChange

/-- The effects differ at most in the blend mode and in values of uniforms of the same kinds. -/
structure Effect.Tuned (e e' : Effect) : Prop where
  rest : e' = { e with blend := e'.blend, uniforms := e'.uniforms }
  kinds : e'.uniforms.kinds = e.uniforms.kinds

namespace Effect.Tuned

variable {e e' e'' : Effect}

theorem refl (e : Effect) : Tuned e e := ⟨rfl, rfl⟩

theorem trans (h : Tuned e e') (h' : Tuned e' e'') : Tuned e e'' := by
  refine ⟨?_, h'.kinds.trans h.kinds⟩
  rw [h'.rest, h.rest]

theorem key_eq (h : Tuned e e') : EffectKey.of e' = EffectKey.of e := by
  rw [h.rest]
  unfold EffectKey.of
  exact congrArg (EffectKey.mk e.id e.shader e.defines.entries e.attributes · (e.kernel.map Kernel.serial)) h.kinds

theorem id_eq (h : Tuned e e') : e'.id = e.id := by rw [h.rest]

theorem kernel_eq (h : Tuned e e') : e'.kernel = e.kernel := by rw [h.rest]

theorem isChanged_eq (h : Tuned e e') : e'.isChanged = e.isChanged := by
  rw [h.rest]
  rfl

end Effect.Tuned

/-- Relations that compose do so on lists. -/
theorem forall₂_trans {α : Type} {R S T : α → α → Prop} (h : ∀ x y z, R x y → S y z → T x z) {xs ys zs : List α}
    (hxy : List.Forall₂ R xs ys) (hyz : List.Forall₂ S ys zs) : List.Forall₂ T xs zs := by
  induction hxy generalizing zs with
  | nil =>
    cases hyz
    exact .nil
  | cons hr _ ih =>
    cases hyz with
    | cons hs hyz => exact .cons (h _ _ _ hr hs) (ih hyz)

namespace EffectChange

/-- A cheap change leaves all but the blend mode and the values of uniforms. -/
theorem tuned_of_isCheap {c : EffectChange} {e : Effect} (h : c.isCheap e = true) : e.Tuned (c.apply e) := by
  cases c with
  | uniform name value =>
    show e.Tuned (e.setUniform name value)
    dsimp only [isCheap] at h
    cases hv : e.uniforms.get? name with
    | none =>
      rw [hv] at h
      cases h
    | some v =>
      rw [hv] at h
      have hs : v.sameKind value = true := h
      unfold Effect.setUniform OrderedMap.getThenInsert
      rw [hv]
      dsimp only
      rw [if_pos hs]
      exact ⟨rfl, OrderedMap.kinds_insert hv hs⟩
  | blendFunction f => exact ⟨rfl, rfl⟩
  | opacity x => exact ⟨rfl, rfl⟩
  | define name value => cases h
  | undefine name => cases h
  | attributes a => cases h
  | shader text => cases h
  | kernel k => cases h
  | mark => cases h
  | dispose => cases h

/-- The effect after a change: the version is raised, or all that its program depends on stays. -/
structure Spec (e e' : Effect) : Prop where
  id_eq : e'.id = e.id
  acknowledged_eq : e'.acknowledged = e.acknowledged
  version : e'.version = e.version + 1 ∨ e'.version = e.version ∧ EffectKey.of e' = EffectKey.of e

theorem Spec.same (e : Effect) : Spec e e := ⟨rfl, rfl, .inr ⟨rfl, rfl⟩⟩

theorem Spec.of_tuned {e e' : Effect} (h : e.Tuned e') : Spec e e' :=
  ⟨h.id_eq, by rw [h.rest], .inr ⟨by rw [h.rest], h.key_eq⟩⟩

theorem apply_spec (c : EffectChange) (e : Effect) : Spec e (c.apply e) := by
  cases c with
  | uniform name value =>
    by_cases h : isCheap e (uniform name value) = true
    · exact .of_tuned (tuned_of_isCheap h)
    · show Spec e (e.setUniform name value)
      dsimp only [isCheap] at h
      unfold Effect.setUniform OrderedMap.getThenInsert
      cases hv : e.uniforms.get? name with
      | none => exact ⟨rfl, rfl, .inl rfl⟩
      | some v =>
        rw [hv] at h
        have hs : ¬v.sameKind value = true := h
        dsimp only
        rw [if_neg hs]
        exact ⟨rfl, rfl, .inl rfl⟩
  | define name value =>
    show Spec e (e.setDefine name value)
    unfold Effect.setDefine
    split
    · exact .same e
    · exact ⟨rfl, rfl, .inl rfl⟩
  | undefine name =>
    show Spec e (e.removeDefine name).2
    unfold Effect.removeDefine OrderedMap.getThenErase
    dsimp only
    split
    · exact ⟨rfl, rfl, .inl rfl⟩
    · next h =>
      have hmem : name ∉ e.defines.names := by
        rw [← OrderedMap.get?_eq_none_iff]
        simpa using h
      refine ⟨rfl, rfl, .inr ⟨rfl, ?_⟩⟩
      show EffectKey.mk _ _ (e.defines.erase name).entries _ _ _ = EffectKey.of e
      rw [OrderedMap.entries_erase_of_not_mem hmem]
      rfl
  | attributes a =>
    show Spec e (e.setAttributes a)
    unfold Effect.setAttributes
    split
    · exact .same e
    · exact ⟨rfl, rfl, .inl rfl⟩
  | shader text => exact ⟨rfl, rfl, .inl rfl⟩
  | kernel k => exact ⟨rfl, rfl, .inl rfl⟩
  | blendFunction f => exact .of_tuned (tuned_of_isCheap rfl)
  | opacity x => exact .of_tuned (tuned_of_isCheap rfl)
  | mark => exact ⟨rfl, rfl, .inl rfl⟩
  | dispose =>
    show Spec e e.dispose.2.2
    unfold Effect.dispose
    split
    · exact .same e
    · exact ⟨rfl, rfl, .inl rfl⟩

end EffectChange

/-! ## Effects that can be had -/

/-- The effects that can be had: made empty or from a descriptor, furnished, changed, and acknowledged, in any order. -/
inductive Effect.Made : Effect → Prop where
  | created (id : Nat) (name shader : String) : Made (Effect.create id name shader)
  | described {id : Nat} {d : EffectDescriptor} {e : Effect} : Effect.ofDescriptor id d = .ok e → Made e
  /-- Whoever makes an effect may give it anything but a version. -/
  | furnished {e e' : Effect} : Made e → e'.version = e.version → e'.acknowledged = e.acknowledged → Made e'
  | changed {e : Effect} (c : EffectChange) : Made e → Made (c.apply e)
  | acknowledged {e : Effect} : Made e → Made e.acknowledge

theorem Effect.Made.acknowledged_le {e : Effect} (m : Made e) : e.acknowledged ≤ e.version := by
  induction m with
  | created => exact Nat.le_refl _
  | described h =>
    unfold Effect.ofDescriptor at h
    obtain ⟨attributes, -, h⟩ := ok_of_bind h
    obtain ⟨uniforms, -, h⟩ := ok_of_bind h
    cases h
    exact Nat.le_refl _
  | furnished _ hv ha ih => rw [hv, ha]; exact ih
  | changed c _ ih =>
    have spec := c.apply_spec
    rw [(spec _).acknowledged_eq]
    rcases (spec _).version with hv | ⟨hv, -⟩
    · rw [hv]
      exact Nat.le_succ_of_le ih
    · rw [hv]
      exact ih
  | acknowledged _ _ => exact Nat.le_refl _

end ScreenFusion
