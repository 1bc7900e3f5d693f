import Parley.Proofs.Run

namespace Parley

namespace Run

variable {S E α β : Type}

/--
Whether a computation comes to every result that another one comes to.
-/
def Outlasts (m' m : Run S E α) : Prop :=
  ∀ s a s', outcome m s = (some a, s') → outcome m' s = (some a, s')

section Rules

variable {m m' : Run S E α}

theorem outlasts_refl (m : Run S E α) : Outlasts m m := by
  intro s a s' hm
  exact hm

theorem Outlasts.bind {f f' : α → Run S E β} (h : Outlasts m' m) (hf : ∀ a, Outlasts (f' a) (f a))
    : Outlasts (m' >>= f') (m >>= f) := by
  intro s b s' hbound
  rw [outcome_bind] at hbound ⊢
  cases hm : outcome m s with
  | mk result s₁ =>
    rw [hm] at hbound
    cases result with
    | none => cases hbound
    | some a =>
      rw [h s a s₁ hm]
      exact hf a s₁ b s' hbound

theorem Outlasts.ite {n n' : Run S E α} {c : Prop} [Decidable c] (h : Outlasts m' m)
    (hn : Outlasts n' n)
    : Outlasts (if c then m' else n') (if c then m else n) := by
  split
  . exact h
  . exact hn

end Rules

variable [Engine S E]

section Emit

variable {emit emit' : Event → Run S E Unit} (hemit : ∀ event, Outlasts (emit' event) (emit event))

include hemit

omit [Engine S E] in
theorem outlasts_announce (event : Option Event) (reply : α)
    : Outlasts (announce emit' event reply) (announce emit event reply) := by
  cases event with
  | none => exact outlasts_refl _
  | some event => exact (hemit event).bind fun _ => outlasts_refl _

theorem outlasts_decided {m : (Event → Run S E Unit) → Run S E α}
    (h : ∀ s, Decided (fun _ _ => True) s m)
    : Outlasts (m emit') (m emit) := by
  intro s a s' hm
  obtain ⟨begun, event, decided, reply, _, _, heq⟩ := h s
  rw [heq] at hm ⊢
  exact outlasts_announce hemit event reply decided a s' hm

omit [Engine S E] in
theorem outlasts_stop : Outlasts (stop emit') (stop emit) := by
  apply (outlasts_refl _).bind
  intro s
  apply Outlasts.ite
  . exact (outlasts_refl _).bind fun _ => (hemit .stopped).bind fun _ => outlasts_refl _
  . exact outlasts_refl _

theorem outlasts_operation (request : Operation S E)
    : Outlasts (operation emit' request) (operation emit request) := by
  rcases isPlain_cases request with hplain | rfl | ⟨story, rfl⟩
  . exact outlasts_decided hemit fun s => decided_plain hplain
  . exact outlasts_stop hemit
  . intro s a s' hstart
    change outcome (start emit story true) s = _ at hstart
    change outcome (start emit' story true) s = _
    rw [start_advance] at hstart ⊢
    refine (?_ : Outlasts _ _) s a s' hstart
    apply (outlasts_decided hemit fun s => decided_start Engine.respects_true story).bind
    intro _
    apply Outlasts.ite
    . exact outlasts_decided hemit fun s =>
        (tried_tryAdvance Engine.respects_true).reporting Engine.respects_true
    . exact outlasts_refl _

theorem outlasts_program (p : Program S E) : Outlasts (program emit' p) (program emit p) := by
  induction p with
  | done => exact outlasts_refl _
  | perform request next ih => exact (outlasts_operation hemit request).bind ih
  | subscribe kind handler next _ ih => exact (outlasts_refl _).bind ih

end Emit

omit [Engine S E] in
theorem outlasts_deliver {run run' : Program S E → Run S E Unit}
    (hrun : ∀ p, Outlasts (run' p) (run p)) (event : Event) (handlers : List (Token × Handler S E))
    : Outlasts (deliver run' event handlers) (deliver run event handlers) := by
  induction handlers with
  | nil => exact outlasts_refl _
  | cons entry rest ih =>
    unfold deliver
    refine (outlasts_refl _).bind fun _ => (hrun _).bind fun _ => (outlasts_refl _).bind fun _ =>
      (outlasts_refl _).bind fun s => ?_
    exact (outlasts_refl _).ite ih

omit [Engine S E] in
theorem outlasts_emitWith {drain drain' : Run S E Unit} (hdrain : Outlasts drain' drain)
    (event : Event)
    : Outlasts (emitWith drain' event) (emitWith drain event) := by
  refine (outlasts_refl _).bind fun _ => (outlasts_refl _).bind fun s => ?_
  apply (outlasts_refl _).ite
  exact (outlasts_refl _).bind fun _ => hdrain.bind fun _ => outlasts_refl _

theorem outlasts_drain {bound bound' : Nat} (hle : bound ≤ bound')
    : Outlasts (drain bound' : Run S E Unit) (drain bound) := by
  induction bound generalizing bound' with
  | zero =>
    intro s a s' hdrain
    cases hdrain
  | succ bound ih =>
    obtain ⟨bound', rfl⟩ : ∃ k, bound' = k + 1 := ⟨bound' - 1, by omega⟩
    have hdrain : Outlasts (drain bound' : Run S E Unit) (drain bound) := ih (by omega)
    unfold drain
    apply (outlasts_refl _).bind
    intro s
    split
    . exact outlasts_refl _
    . refine (outlasts_refl _).bind fun _ => Outlasts.bind ?_ fun _ => hdrain
      exact outlasts_deliver (outlasts_program (outlasts_emitWith hdrain)) _ _

end Run

theorem Session.run?_of_le {S E : Type} [Engine S E] {s s' : Session S E}
    {bound bound' : Nat} {p : Program S E} (hle : bound ≤ bound') (h : s.run? bound p = some s')
    : s.run? bound' p = some s' := by
  have hrun : ∀ {bound}, s.run? bound p = some s' ↔
      outcome (Run.program (Run.emitWith (Run.drain bound)) p) s = (some (), s') := by
    intro bound
    unfold run? run outcome
    generalize (Run.program (Run.emitWith (Run.drain bound)) p).run.run s = ended
    obtain ⟨_ | _, ended⟩ := ended
    . simp
    . simp
  rw [hrun] at h ⊢
  exact Run.outlasts_program (Run.outlasts_emitWith (Run.outlasts_drain hle)) p s () s' h

end Parley
