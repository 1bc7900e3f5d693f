import Parley.Ink.Source

/-!
This module contains what is asked of a runtime of ink, and that the stories of such a runtime live
in a world of their own as long as no function of the host is bound to them.
-/

namespace Parley

/--
Whether what is done to a story does not depend on the world and leaves the memory of the host
alone.
-/
structure Engine.Aloof {S E α : Type} (act : World S → α × E × World S) : Prop where
  same : ∀ w w', (act w').1 = (act w).1 ∧ (act w').2.1 = (act w).2.1
  memory : ∀ w, (act w).2.2.memory = w.memory

theorem Engine.aloof_of_eq {S E α : Type} {act : World S → α × E × World S} {a : α} {story : E}
    (h : ∀ w, act w = (a, story, w)) : Aloof act where
  same w w' := by
    rw [h, h]
    exact ⟨rfl, rfl⟩
  memory w := by
    rw [h]

/--
Whether stories with a property keep it and live in a world of their own, whatever a player does to
them.
-/
structure Engine.Secluded {S E : Type} [Engine S E] (P : E → Prop) : Prop where
  continueOne : ∀ story, P story → Aloof (S := S) (Engine.continueOne story) ∧
    ∀ w : World S, P (Engine.continueOne story w).2.1
  choose : ∀ story index, P story → P (Engine.choose story index).2
  reset : ∀ story, P story → Aloof (S := S) (Engine.reset story) ∧
    ∀ w : World S, P (Engine.reset story w).2.1
  rewind : ∀ story, P story → P (Engine.rewind story).2
  load : ∀ story text, P story → P (Engine.load story text).2

namespace Ink

namespace Runtime

/--
The runtimes that bind a name if and only if nothing is bound to it, release it if and only if
something is, and change what is bound by nothing else.
-/
class LawfulBinding (S : outParam Type) (I : Type) [Runtime S I] : Prop where
  bound?_ofText? {text : String} {i : I} (h : ofText? text = .ok i) (name : String)
    : bound? i name = none
  bind_error_iff (i : I) (name : String) (external : External S)
    : (∃ error, (bind i name external).1 = .error error) ↔ (bound? i name).isSome
  bound?_bind {i : I} {name : String} (h : bound? i name = none) (external : External S)
    (other : String)
    : bound? (bind i name external).2 other = if other = name then some external else bound? i other
  unbind_error_iff (i : I) (name : String)
    : (∃ error, (unbind i name).1 = .error error) ↔ bound? i name = none
  bound?_unbind {i : I} {name : String} (h : (bound? i name).isSome) (other : String)
    : bound? (unbind i name).2 other = if other = name then none else bound? i other
  bound?_withFallbacks (i : I) (allowFallbacks : Bool)
    : bound? (withFallbacks i allowFallbacks) = bound? i
  bound?_continueOne (i : I) (w : World S) : bound? (continueOne i w).2.1 = bound? i
  bound?_currentTags (i : I) : bound? (currentTags i).2 = bound? i
  bound?_choose (i : I) (index : Nat) : bound? (choose i index).2 = bound? i
  bound?_reset (i : I) (w : World S) : bound? (reset i w).2.1 = bound? i
  bound?_choosePath (i : I) (path : String) : bound? (choosePath i path).2 = bound? i
  bound?_setVariable (i : I) (name : String) (value : Value) (w : World S)
    : bound? (setVariable i name value w).2.1 = bound? i
  bound?_observe (i : I) (name : String) (observer : Observer)
    : bound? (observe i name observer).2 = bound? i
  bound?_load (i : I) (text : String) : bound? (load i text).2 = bound? i

attribute [simp] LawfulBinding.bound?_withFallbacks LawfulBinding.bound?_continueOne
  LawfulBinding.bound?_currentTags LawfulBinding.bound?_choose LawfulBinding.bound?_reset
  LawfulBinding.bound?_choosePath LawfulBinding.bound?_setVariable LawfulBinding.bound?_observe
  LawfulBinding.bound?_load

variable {S I : Type} [Runtime S I]

/--
Whether no function of the host is bound to a story.
-/
def Unbound (i : I) : Prop :=
  ∀ name, bound? i name = none

/--
The runtimes whose stories come to the memory of the host by the functions that are bound to them,
and by nothing else.
-/
class LawfulRuntime (S : outParam Type) (I : Type) [Runtime S I] : Prop
    extends LawfulBinding S I where
  aloof_continueOne {i : I} (h : Unbound i) : Engine.Aloof (continueOne i)
  aloof_reset {i : I} (h : Unbound i) : Engine.Aloof (reset i)

end Runtime

namespace Tale

open Ink.Runtime

variable {S I : Type} [Runtime S I]

def Unbound (t : Tale I) : Prop :=
  Runtime.Unbound t.story

theorem kept_continueOne (t : Tale I) (w : World S) : (t.continueOne w).2.1.bound = t.bound := by
  unfold continueOne
  split
  . rfl
  . rfl

theorem bound?_continueOne [LawfulBinding S I] (t : Tale I) (w : World S)
    : bound? (t.continueOne w).2.1.story = bound? t.story := by
  have hkept := LawfulBinding.bound?_continueOne t.story w
  unfold continueOne
  generalize Runtime.continueOne t.story w = continued at *
  obtain ⟨_ | _, story, _⟩ := continued
  . exact hkept
  . exact (LawfulBinding.bound?_currentTags story).trans hkept

theorem aloof_continueOne [LawfulRuntime S I] {t : Tale I} (h : t.Unbound)
    : Engine.Aloof t.continueOne := by
  obtain ⟨hsame, hmemory⟩ := LawfulRuntime.aloof_continueOne h
  constructor
  case same =>
    intro w w'
    obtain ⟨hresult, hstory⟩ := hsame w w'
    unfold continueOne
    generalize Runtime.continueOne t.story w = continued,
        Runtime.continueOne t.story w' = continued' at *
    obtain ⟨result, story, _⟩ := continued
    obtain ⟨result', story', _⟩ := continued'
    dsimp only at hresult hstory
    subst hresult hstory
    cases result' with
    | error error => exact ⟨rfl, rfl⟩
    | ok text => exact ⟨rfl, rfl⟩
  case memory =>
    intro w
    have hkept := hmemory w
    unfold continueOne
    generalize Runtime.continueOne t.story w = continued at *
    obtain ⟨_ | _, _, _⟩ := continued
    . exact hkept
    . exact hkept

theorem aloof_reset [LawfulRuntime S I] {t : Tale I} (h : t.Unbound)
    : Engine.Aloof (Engine.reset (S := S) t) := by
  obtain ⟨hsame, hmemory⟩ := LawfulRuntime.aloof_reset h
  constructor
  case same =>
    intro w w'
    obtain ⟨hresult, hstory⟩ := hsame w w'
    exact ⟨hresult, congrArg (fun story => { t with story }) hstory⟩
  case memory => exact hmemory

theorem secluded_unbound [LawfulRuntime S I] : Engine.Secluded (Unbound : Tale I → Prop) where
  continueOne t ht := by
    refine ⟨aloof_continueOne ht, ?_⟩
    intro w name
    exact (congrFun (bound?_continueOne t w) name).trans (ht name)
  choose t index ht name :=
    (congrFun (LawfulBinding.bound?_choose t.story index) name).trans (ht name)
  reset t ht := by
    refine ⟨aloof_reset ht, ?_⟩
    intro w name
    exact (congrFun (LawfulBinding.bound?_reset t.story w) name).trans (ht name)
  rewind t ht name :=
    (congrFun (LawfulBinding.bound?_choosePath t.story startPath) name).trans (ht name)
  load t text ht name := (congrFun (LawfulBinding.bound?_load t.story text) name).trans (ht name)

theorem ofText?_ok {text : String} {t : Tale I} (h : ofText? text = .ok t)
    : ∃ story, Runtime.ofText? (withoutByteOrderMark text) = .ok story ∧ t = ⟨story, []⟩ := by
  unfold ofText? at h
  cases hread : (Runtime.ofText? (withoutByteOrderMark text) : Except EngineError I) with
  | error error =>
    rw [hread] at h
    cases h
  | ok story =>
    rw [hread] at h
    cases h
    exact ⟨story, rfl, rfl⟩

theorem unbound_of_create [LawfulBinding S I] {A : Type} [Shelved A] {source : Source A}
    {options : LoadOptions} {t : Tale I} (h : source.create options = .ok (some t))
    : t.Unbound := by
  unfold Source.create at h
  cases htext : source.text? with
  | error error =>
    rw [htext] at h
    cases h
  | ok found =>
    rw [htext] at h
    cases found with
    | none => cases h
    | some text =>
      change (do
        let story ← (ofText? text).mapError LoadError.parse
        return some (story.withFallbacks options.allowFallbacks)) = _ at h
      cases hread : (ofText? text : Except EngineError (Tale I)) with
      | error error =>
        rw [hread] at h
        cases h
      | ok loaded =>
        rw [hread] at h
        cases h
        obtain ⟨story, hstory, rfl⟩ := ofText?_ok hread
        intro name
        exact (congrFun (LawfulBinding.bound?_withFallbacks story _) name).trans
          (LawfulBinding.bound?_ofText? hstory name)

end Tale

end Ink

end Parley
