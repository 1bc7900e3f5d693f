import Parley.Proofs.Request

/-!
This module contains how properties of sessions go through computations. `Run.Ends` says how a
computation ends, with or without a result, and `Run.Kept` collects what an invariant has to bear so
that every operation and every program bears it, whatever it does with the events that it emits.
-/

namespace Parley
namespace Run

variable {S E α β : Type}

/--
Whether a computation that has a result ends with one that satisfies `post`, and one that exceeds
its bound leaves a session that satisfies `cut`.
-/
def Ends (m : Run S E α) (s : Session S E) (post : α → Session S E → Prop)
    (cut : Session S E → Prop) : Prop :=
  match (m.run.run s : Option α × Session S E) with
  | (some a, s) => post a s
  | (none, s) => cut s

section Ends

variable {s : Session S E} {post : β → Session S E → Prop} {cut : Session S E → Prop}

@[simp]
theorem ends_pure (b : β) : Ends (pure b) s post cut ↔ post b s := by
  rfl

@[simp]
theorem ends_bind (m : Run S E α) (f : α → Run S E β)
    : Ends (m >>= f) s post cut ↔ Ends m s (fun a s => Ends (f a) s post cut) cut := by
  unfold Ends
  rw [OptionT.run_bind, Option.elimM, StateT.run_bind]
  generalize m.run.run s = ended
  rcases ended with ⟨_ | a, s'⟩
  . rfl
  . rfl

@[simp]
theorem ends_get {post : Session S E → Session S E → Prop}
    : Ends (get : Run S E _) s post cut ↔ post s s := by
  rfl

@[simp]
theorem ends_set {post : PUnit → Session S E → Prop} (s' : Session S E)
    : Ends (set s' : Run S E _) s post cut ↔ post () s' := by
  rfl

@[simp]
theorem ends_modify {post : PUnit → Session S E → Prop} (f : Session S E → Session S E)
    : Ends (modify f : Run S E _) s post cut ↔ post () (f s) := by
  rfl

@[simp]
theorem ends_modifyGet (f : Session S E → β × Session S E)
    : Ends (modifyGet f : Run S E _) s post cut ↔ post (f s).1 (f s).2 := by
  rfl

theorem Ends.mono {m : Run S E β} {post' : β → Session S E → Prop} {cut' : Session S E → Prop}
    (h : Ends m s post cut) (hpost : ∀ b s, post b s → post' b s) (hcut : ∀ s, cut s → cut' s)
    : Ends m s post' cut' := by
  unfold Ends at *
  split at h
  . exact hpost _ _ h
  . exact hcut _ h

theorem Ends.imp {m : Run S E β} {post' : β → Session S E → Prop} (h : Ends m s post cut)
    (hpost : ∀ b s, post b s → post' b s) : Ends m s post' cut := by
  apply h.mono hpost
  intro s hcut
  exact hcut

theorem Ends.congr {m m' : Run S E β} {s' : Session S E} (hm : outcome m s = outcome m' s')
    (h : Ends m' s' post cut) : Ends m s post cut := by
  unfold outcome at hm
  unfold Ends at h ⊢
  rw [hm]
  exact h

end Ends

/--
What an invariant has to bear: that a session changes quietly, and that an operation takes one of
the steps that show in the history but emit nothing.
-/
structure Kept (I : Session S E → Prop) : Prop where
  quiet : ∀ {s s'}, s.Quiet s' → I s → I s'
  adopt : ∀ {s} story, s.runner.story = none → I s → I (s.adopt story)
  subscribe : ∀ {s} kind handler, I s → I (s.subscribe kind handler).2
  unsubscribe : ∀ {s} token, I s → I (s.unsubscribe token).2
  tearDown : ∀ {s}, I s → I s.tearDown

section Kept

variable {I cut : Session S E → Prop} (hk : Kept I)

include hk

theorem Kept.decides [Engine S E] {R : E → E → Prop} {s decided : Session S E}
    {event : Option Event} (hdecides : s.Decides R event decided) (hs : I s) : I decided := by
  cases hdecides with
  | onlyStory honly => exact hk.quiet honly.quiet hs
  | started story hidle => exact hk.adopt story hidle hs
  | tornDown => exact hk.tearDown hs
  | unsubscribed token => exact hk.unsubscribe token hs
  | line _ hfound _ hhistory hrunner | choices _ hfound _ hhistory hrunner =>
    refine hk.quiet ⟨hhistory, ?_, ?_, ?_, ?_⟩ hs
    all_goals simp [hrunner, hfound]
  | ended _ hhistory hrunner | paused _ hhistory hrunner | resumed _ hhistory hrunner =>
    refine hk.quiet ⟨hhistory, ?_, ?_, ?_, ?_⟩ hs
    all_goals simp [hrunner, Runner.clearContent]
  | restarted hpresent hhistory hrunner | rewound hpresent hhistory hrunner =>
    refine hk.quiet ⟨hhistory, ?_, ?_, ?_, ?_⟩ hs
    all_goals simp [hrunner, hpresent, Runner.clearContent]

variable [Engine S E] {emit : Event → Run S E Unit}
variable (hemit : ∀ event s, event ≠ .stopped → I s → Ends (emit event) s (fun _ => I) cut)

include hemit

theorem Decided.ends {R : E → E → Prop} {s : Session S E} {m : (Event → Run S E Unit) → Run S E α}
    (h : Decided R s m) (hs : I s) : Ends (m emit) s (fun _ => I) cut := by
  obtain ⟨begun, event, decided, reply, honly, hdecides, hm⟩ := h
  have hdecided := hk.decides hdecides (hk.quiet honly.quiet hs)
  apply Ends.congr (hm emit)
  cases event with
  | none => exact hdecided
  | some event =>
    unfold announce
    rw [ends_bind]
    exact hemit event decided hdecides.ne_stopped hdecided

variable (hstop : ∀ s, I s → Ends (stop emit) s (fun _ => I) cut)

include hstop

theorem ends_operation {s : Session S E} (hs : I s) (request : Operation S E)
    : Ends (operation emit request) s (fun _ => I) cut := by
  rcases isPlain_cases request with hplain | rfl | ⟨story, rfl⟩
  . exact (decided_plain hplain).ends hk hemit hs
  . exact hstop s hs
  . apply Ends.congr (start_advance emit story)
    rw [ends_bind]
    apply ((decided_start Engine.respects_true story).ends hk hemit hs).mono
    . intro _ s' hs'
      split
      . exact ((tried_tryAdvance Engine.respects_true).reporting Engine.respects_true).ends
            hk hemit hs'
      . exact hs'
    . intro s' hcut
      exact hcut

theorem ends_program {s : Session S E} (hs : I s) (p : Program S E)
    : Ends (program emit p) s (fun _ => I) cut := by
  induction p generalizing s with
  | done => exact hs
  | perform request next ih =>
    unfold program
    rw [ends_bind]
    apply (ends_operation hk hemit hstop hs request).mono
    . intro reply s hs
      exact ih reply hs
    . intro s hs
      exact hs
  | subscribe kind handler next _ ih =>
    unfold program
    rw [ends_bind, ends_modifyGet]
    exact ih _ (hk.subscribe kind handler hs)

end Kept

end Run
end Parley
