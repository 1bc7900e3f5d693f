import Parley.Proofs.Session

/-!
This module contains the changes that the outside of a runner does not show: nothing but notes are
written, and of the runner nothing but its story changes. What may happen to the story is a
parameter, so that the same lemmas serve where everything may happen to it and where its choices
have to stay.
-/

namespace Parley

/--
Whether a relation between stories bears what can happen to a story, apart from the taking of
choices, the way back to the start, and the loading of states.
-/
structure Engine.Respects {S E : Type} [Engine S E] (R : E → E → Prop) : Prop where
  refl : ∀ story, R story story
  trans : ∀ {story story' story''}, R story story' → R story' story'' → R story story''
  continueOne : ∀ story (world : World S), R story (Engine.continueOne story world).2.1
  reset : ∀ story (world : World S) error,
    (Engine.reset story world).1 = .error error → R story (Engine.reset story world).2.1
  setVariable : ∀ story name value (world : World S),
    R story (Engine.setVariable story name value world).2.1
  observe : ∀ story name observer, R story (Engine.observe story name observer).2
  bind : ∀ story (function : Function S) lookaheadSafe,
    R story (Engine.bind story function lookaheadSafe).2

theorem Engine.respects_true {S E : Type} [Engine S E]
    : Engine.Respects (fun _ _ => True : E → E → Prop) := by
  constructor
  all_goals
    intros
    trivial

namespace Session

variable {S E : Type} {R : E → E → Prop} {s s' t : Session S E}

/--
Whether nothing but notes were written, and of the runner nothing but its story has changed, in the
way that a relation between stories allows.
-/
structure OnlyStory (R : E → E → Prop) (s s' : Session S E) : Prop where
  history : s'.history = s.history
  runner : s'.runner = { s.runner with story := s'.runner.story }
  story : Option.Rel R s.runner.story s'.runner.story

section OnlyStory

theorem OnlyStory.trans
    (hR : ∀ {story story' story''}, R story story' → R story' story'' → R story story'')
    (h : OnlyStory R s s') (h' : OnlyStory R s' t) : OnlyStory R s t where
  history := h'.history.trans h.history
  runner := by
    rw [h'.runner, h.runner]
  story := by
    have hstory := h.story
    have hstory' := h'.story
    generalize s.runner.story = first at *
    generalize s'.runner.story = second at *
    generalize t.runner.story = third at *
    cases hstory with
    | none => exact hstory'
    | some hfirst =>
      cases hstory' with
      | some hsecond => exact .some (hR hfirst hsecond)

theorem OnlyStory.present (h : OnlyStory R s s')
    : s'.runner.story.isSome = s.runner.story.isSome := by
  have hstory := h.story
  generalize s.runner.story = story at *
  generalize s'.runner.story = story' at *
  cases hstory with
  | none => rfl
  | some _ => rfl

theorem OnlyStory.quiet (h : OnlyStory R s s') : Quiet s s' where
  history := h.history
  registry := by
    rw [h.runner]
  pending := by
    rw [h.runner]
  dispatching := by
    rw [h.runner]
  story := h.present

theorem onlyStory_withStory {story : E} (hs : s.runner.story = some story) {story' : E}
    (hstory : R story story') : OnlyStory R s (s.mapRunner ({ · with story := some story' })) where
  history := rfl
  runner := rfl
  story := by
    rw [hs]
    exact .some hstory

theorem onlyStory_absorb {story : E} (hs : s.runner.story = some story) {story' : E}
    (world : World S) (hstory : R story story') : OnlyStory R s (s.absorb story' world) where
  history := history_absorb story' world
  runner := rfl
  story := by
    rw [hs]
    exact .some hstory

variable (hrefl : ∀ story, R story story)

include hrefl

theorem onlyStory_of_eq (hhistory : s'.history = s.history) (hrunner : s'.runner = s.runner)
    : OnlyStory R s s' where
  history := hhistory
  runner := by
    rw [hrunner]
  story := by
    rw [hrunner]
    cases s.runner.story with
    | none => exact .none
    | some story => exact .some (hrefl story)

theorem OnlyStory.refl : OnlyStory R s s := by
  exact onlyStory_of_eq hrefl rfl rfl

theorem onlyStory_note {entry : Record} (hentry : entry.isNote = true)
    : OnlyStory R s (s.record entry) := by
  exact onlyStory_of_eq hrefl (history_record_note hentry) rfl

theorem onlyStory_report (error : RunnerError) : OnlyStory R s (s.report error) := by
  unfold report
  split
  . exact onlyStory_note hrefl rfl
  . exact onlyStory_note hrefl rfl

theorem onlyStory_touch {act : E → World S → E × World S}
    (hact : ∀ story world, R story (act story world).1) : OnlyStory R s (s.touch act).2 := by
  unfold touch
  split
  . exact OnlyStory.refl hrefl
  . next hs => exact onlyStory_absorb hs _ (hact _ _)

variable [Engine S E]

theorem onlyStory_commit {index : Nat} (hchoose : ∀ story, R story (Engine.choose story index).2)
    : OnlyStory R s (s.commit index).2 := by
  unfold commit
  split
  . exact OnlyStory.refl hrefl
  . next hs =>
    dsimp only
    split
    . exact OnlyStory.refl hrefl
    . split
      . exact OnlyStory.refl hrefl
      . exact onlyStory_withStory hs (hchoose _)

theorem onlyStory_load {text : String} (hload : ∀ story, R story (Engine.load story text).2)
    : OnlyStory R s (s.load text).2 := by
  unfold load
  split
  . exact onlyStory_note hrefl rfl
  . next hs => exact onlyStory_withStory hs (hload _)

theorem onlyStory_save : OnlyStory R s s.save.2 := by
  unfold save
  split
  . exact onlyStory_note hrefl rfl
  . split
    . exact OnlyStory.refl hrefl
    . exact onlyStory_note hrefl rfl

theorem onlyStory_readVariable (name : String) (kind : Kind)
    : OnlyStory R s (s.readVariable name kind).2 := by
  unfold readVariable
  split
  . exact OnlyStory.refl hrefl
  . exact onlyStory_report hrefl _

end OnlyStory

section Variables

variable [Engine S E] (hR : Engine.Respects R)

include hR

theorem onlyStory_trySetVariable (name : String) (value : Value)
    : OnlyStory R s (s.trySetVariable name value).2 := by
  unfold trySetVariable
  split
  . exact OnlyStory.refl hR.refl
  . next hs =>
    split
    . exact onlyStory_absorb hs _ (hR.setVariable _ _ _ _)
    . exact OnlyStory.refl hR.refl

theorem onlyStory_setVariable (name : String) (value : Value)
    : OnlyStory R s (s.setVariable name value) := by
  have hset := onlyStory_trySetVariable (s := s) hR name value
  unfold setVariable
  split
  . exact OnlyStory.refl hR.refl
  . split
    . next heq => simpa [heq] using hset
    . next heq =>
      rw [heq] at hset
      exact hset.trans hR.trans (onlyStory_report hR.refl _)

theorem onlyStory_observe (name : String) (observer : Observer)
    : OnlyStory R s (s.observe name observer) := by
  unfold observe
  split
  . exact OnlyStory.refl hR.refl
  . next story hs =>
    have hobserve := hR.observe story name observer
    split
    . split
      . next heq =>
        rw [heq] at hobserve
        exact onlyStory_withStory hs hobserve
      . next heq =>
        rw [heq] at hobserve
        exact (onlyStory_withStory hs hobserve).trans hR.trans (onlyStory_note hR.refl rfl)
    . exact onlyStory_note hR.refl rfl

theorem onlyStory_observeAll (names : List String) (observer : Observer)
    : OnlyStory R s (s.observeAll names observer) := by
  unfold observeAll
  induction names generalizing s with
  | nil => exact OnlyStory.refl hR.refl
  | cons name names ih => exact (onlyStory_observe hR name observer).trans hR.trans ih

theorem onlyStory_bind (function : Function S) (lookaheadSafe : Bool)
    : OnlyStory R s (s.bind function lookaheadSafe) := by
  unfold Session.bind
  split
  . exact OnlyStory.refl hR.refl
  . next story hs =>
    have hbind := hR.bind story function lookaheadSafe
    split
    . next heq =>
      rw [heq] at hbind
      exact onlyStory_withStory hs hbind
    . next heq =>
      rw [heq] at hbind
      exact (onlyStory_withStory hs hbind).trans hR.trans (onlyStory_note hR.refl rfl)

end Variables

end Session
end Parley
