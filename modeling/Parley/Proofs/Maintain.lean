import Parley.Proofs.Groundwork
import Parley.Proofs.Stage

/-!
This module contains that what every method of a story keeps is kept by every run: a property of
stories that holds of those that are started, and that nobody breaks behind the runner's back, holds
of the active story at every moment.
-/

namespace Parley

structure Engine.Maintains {S E : Type} [Engine S E] (P : E → Prop) : Prop where
  continueOne : ∀ story (world : World S), P story → P (Engine.continueOne story world).2.1
  choose : ∀ story index, P story → P (Engine.choose story index).2
  reset : ∀ story (world : World S), P story → P (Engine.reset story world).2.1
  rewind : ∀ story, P story → P (Engine.rewind story).2
  setVariable : ∀ story name value (world : World S), P story →
    P (Engine.setVariable story name value world).2.1
  observe : ∀ story name observer, P story → P (Engine.observe story name observer).2
  bind : ∀ story (function : Function S) lookaheadSafe, P story →
    P (Engine.bind story function lookaheadSafe).2
  load : ∀ story text, P story → P (Engine.load story text).2

/--
Whether going on by a line keeps a property of stories.
-/
def Engine.Carries {S E : Type} [Engine S E] (P : E → Prop) : Prop :=
  ∀ story (world : World S), P story → P (Engine.continueOne story world).2.1

/--
Whether what a request calls of a story keeps a property of stories.
-/
def Operation.Preserves {S E : Type} [Engine S E] (P : E → Prop) : Operation S E → Prop
  | .advance | .tryAdvance => Engine.Carries P
  | .choose index _ | .tryChoose index _ =>
    Engine.Carries P ∧ ∀ story, P story → P (Engine.choose story index).2
  | .start story _ => Engine.Carries P ∧ P story
  | .reset => ∀ story (world : World S), P story → P (Engine.reset story world).2.1
  | .rewind => ∀ story, P story → P (Engine.rewind story).2
  | .setVariable name value | .trySetVariable name value =>
    ∀ story (world : World S), P story → P (Engine.setVariable story name value world).2.1
  | .observe name observer => ∀ story, P story → P (Engine.observe story name observer).2
  | .observeAll _ observer => ∀ story name, P story → P (Engine.observe story name observer).2
  | .bind function lookaheadSafe =>
    ∀ story, P story → P (Engine.bind story function lookaheadSafe).2
  | .load text => ∀ story, P story → P (Engine.load story text).2
  | .touch act => ∀ story world, P story → P (act story world).1
  | _ => True

/--
Whether a move brings in only stories that have a property, and takes it from none.
-/
def Move.Keeps {S E : Type} (P : E → Prop) : Move S E → Prop
  | .perform (.start story _) => P story
  | .perform (.touch act) => ∀ story world, P story → P (act story world).1
  | _ => True

namespace Session

variable {S E : Type} {P : E → Prop} {s s' : Session S E}

/--
Whether the active story, if there is one, has a property.
-/
def StorySatisfies (P : E → Prop) (s : Session S E) : Prop :=
  ∀ story, s.runner.story = some story → P story

theorem StorySatisfies.of_story (h : StorySatisfies P s) (hstory : s'.runner.story = s.runner.story)
    : StorySatisfies P s' := by
  intro story hsome
  exact h story (hstory.symm.trans hsome)

theorem storySatisfies_of_none (hstory : s.runner.story = none) : StorySatisfies P s := by
  intro story hsome
  rw [hstory] at hsome
  cases hsome

theorem storySatisfies_of_some {story : E} (hstory : s.runner.story = some story) (h : P story)
    : StorySatisfies P s := by
  intro other hsome
  rw [hstory] at hsome
  cases hsome
  exact h

theorem StorySatisfies.onlyStory (h : StorySatisfies P s)
    (honly : OnlyStory (fun story story' => P story → P story') s s')
    : StorySatisfies P s' := by
  intro story' hstory'
  have hrel := honly.story
  rw [hstory'] at hrel
  cases hstory : s.runner.story with
  | none =>
    rw [hstory] at hrel
    cases hrel
  | some story =>
    rw [hstory] at hrel
    cases hrel with
    | some himp => exact himp (h story hstory)

variable [Engine S E]

/--
What has to hold before a request so that the story has a property after it.
-/
def Readies (P : E → Prop) (s : Session S E) : Operation S E → Prop
  | .advance | .tryAdvance => Engine.Carries P ∧ StorySatisfies P s
  | .choose index _ | .tryChoose index _ =>
    Engine.Carries P ∧ StorySatisfies P (if s.runner.paused then s else (s.commit index).2)
  | .start story _ => Engine.Carries P ∧
      if s.runner.story.isNone then P story else StorySatisfies P s
  | .reset => ∀ story, s.runner.story = some story → P (Engine.reset story s.world.unwritten).2.1
  | .rewind => ∀ story, s.runner.story = some story → P (Engine.rewind story).2
  | .stop | .tearDown => True
  | .setVariable name value | .trySetVariable name value =>
    StorySatisfies P (s.trySetVariable name value).2
  | .observe name observer => StorySatisfies P (s.observe name observer)
  | .observeAll names observer => StorySatisfies P (s.observeAll names observer)
  | .bind function lookaheadSafe => StorySatisfies P (s.bind function lookaheadSafe)
  | .load text => StorySatisfies P (s.load text).2
  | .touch act => StorySatisfies P (s.touch act).2
  | _ => StorySatisfies P s

section Perform

theorem StorySatisfies.step (hP : Engine.Carries P) (h : StorySatisfies P s)
    : StorySatisfies P s.step.2 := by
  unfold Session.step
  split
  . exact h
  . next story hstory =>
    have hcontinue := hP story s.world.unwritten (h story hstory)
    split
    . split
      . next heq =>
        rw [heq] at hcontinue
        exact storySatisfies_of_some rfl hcontinue
      . next heq =>
        rw [heq] at hcontinue
        exact storySatisfies_of_some rfl hcontinue
    . split
      . exact h.of_story rfl
      . exact h.of_story rfl

omit [Engine S E] in
theorem storySatisfies_touch {act : E → World S → E × World S}
    (hact : ∀ story, s.runner.story = some story → P (act story s.world.unwritten).1)
    : StorySatisfies P (s.touch act).2 := by
  unfold touch
  split
  . next hnone => exact storySatisfies_of_none hnone
  . next story hstory => exact storySatisfies_of_some rfl (hact story hstory)

theorem Readies.arranged {request : Operation S E} (h : s.Readies P request)
    : StorySatisfies P (s.arranged request) := by
  cases request with
  | advance | tryAdvance | choose | tryChoose => exact h.2
  | start story =>
    have hstart := h.2
    rw [Session.arranged]
    split
    . next hidle =>
      rw [if_pos hidle] at hstart
      exact storySatisfies_of_some rfl hstart
    . next hactive =>
      rw [if_neg hactive] at hstart
      exact hstart
  | reset => exact storySatisfies_touch h
  | rewind => exact storySatisfies_touch h
  | stop | tearDown => exact storySatisfies_of_none rfl
  | remember change => exact StorySatisfies.of_story h rfl
  | _ => exact h

theorem Readies.carries {request : Operation S E} (h : s.Readies P request)
    (hgoes : s.goesOn request = true)
    : Engine.Carries P := by
  cases request with
  | advance | tryAdvance | choose | tryChoose | start => exact h.1
  | _ => cases hgoes

theorem storySatisfies_perform {request : Operation S E} (h : s.Readies P request)
    : StorySatisfies P (s.perform request).2 := by
  have houtline : StorySatisfies P (s.outline request) := by
    unfold outline
    split
    . next hgoes => exact h.arranged.step (h.carries hgoes)
    . exact h.arranged
  exact houtline.of_story (resembles_perform request).story

end Perform

theorem StorySatisfies.aside {move : Move S E} (h : StorySatisfies P s)
    (hmove : ∀ request, move ≠ .perform request)
    : StorySatisfies P (s.move move) := by
  cases move with
  | perform request => exact absurd rfl (hmove request)
  | release => exact storySatisfies_of_none rfl
  | take =>
    cases hpending : s.runner.pending with
    | nil => simpa [Session.move, take, hpending] using h
    | cons event rest =>
      rw [Session.move, take_eq hpending]
      exact h.of_story rfl
  | _ => exact h.of_story rfl

section Preserves

theorem StorySatisfies.trySetVariable {name : String} {value : Value}
    (hset : ∀ story (world : World S), P story → P (Engine.setVariable story name value world).2.1)
    (h : StorySatisfies P s) : StorySatisfies P (s.trySetVariable name value).2 := by
  unfold Session.trySetVariable
  split
  . exact h
  . next story hstory =>
    split
    . exact storySatisfies_of_some rfl (hset story _ (h story hstory))
    . exact h

theorem StorySatisfies.observe {name : String}
    {observer : Observer} (hobserve : ∀ story, P story → P (Engine.observe story name observer).2)
    (h : StorySatisfies P s)
    : StorySatisfies P (s.observe name observer) := by
  unfold Session.observe
  split
  . exact h
  . next story hstory =>
    have hobserved := hobserve story (h story hstory)
    split
    . split
      . next heq =>
        rw [heq] at hobserved
        exact storySatisfies_of_some rfl hobserved
      . next heq =>
        rw [heq] at hobserved
        exact storySatisfies_of_some rfl hobserved
    . exact h.of_story rfl

theorem StorySatisfies.observeAll {names : List String} {observer : Observer}
    (hobserve : ∀ story name, P story → P (Engine.observe story name observer).2)
    (h : StorySatisfies P s)
    : StorySatisfies P (s.observeAll names observer) := by
  unfold Session.observeAll
  induction names generalizing s with
  | nil => exact h
  | cons name names ih => exact ih (h.observe (hobserve · name))

theorem StorySatisfies.bind {function : Function S} {lookaheadSafe : Bool}
    (hbind : ∀ story, P story → P (Engine.bind story function lookaheadSafe).2)
    (h : StorySatisfies P s)
    : StorySatisfies P (s.bind function lookaheadSafe) := by
  unfold Session.bind
  split
  . exact h
  . next story hstory =>
    have hbound := hbind story (h story hstory)
    split
    . next heq =>
      rw [heq] at hbound
      exact storySatisfies_of_some rfl hbound
    . next heq =>
      rw [heq] at hbound
      exact storySatisfies_of_some rfl hbound

theorem StorySatisfies.readies {request : Operation S E} (h : StorySatisfies P s)
    (hpreserves : request.Preserves P)
    : s.Readies P request := by
  cases request with
  | advance | tryAdvance => exact ⟨hpreserves, h⟩
  | choose index | tryChoose index =>
    refine ⟨hpreserves.1, ?_⟩
    split
    . exact h
    . exact h.onlyStory (onlyStory_commit (fun _ => id) hpreserves.2)
  | start story =>
    refine ⟨hpreserves.1, ?_⟩
    split
    . exact hpreserves.2
    . exact h
  | reset => exact fun story hstory => hpreserves story _ (h story hstory)
  | rewind => exact fun story hstory => hpreserves story (h story hstory)
  | stop | tearDown => trivial
  | setVariable name value | trySetVariable name value => exact h.trySetVariable hpreserves
  | observe name observer => exact h.observe hpreserves
  | observeAll names observer => exact h.observeAll hpreserves
  | bind function lookaheadSafe => exact h.bind hpreserves
  | load text => exact h.onlyStory (onlyStory_load (fun _ => id) hpreserves)
  | touch act => exact h.onlyStory (onlyStory_touch (fun _ => id) hpreserves)
  | _ => exact h

end Preserves

variable (hP : Engine.Maintains P)

include hP

theorem preserves_of_maintains {request : Operation S E} (hkeeps : Move.Keeps P (.perform request))
    : request.Preserves P := by
  cases request with
  | advance | tryAdvance => exact hP.continueOne
  | choose index | tryChoose index => exact ⟨hP.continueOne, (hP.choose · index)⟩
  | start story => exact ⟨hP.continueOne, hkeeps⟩
  | reset => exact hP.reset
  | rewind => exact hP.rewind
  | setVariable name value | trySetVariable name value => exact (hP.setVariable · name value)
  | observe name observer => exact (hP.observe · name observer)
  | observeAll names observer => exact (hP.observe · · observer)
  | bind function lookaheadSafe => exact (hP.bind · function lookaheadSafe)
  | load text => exact (hP.load · text)
  | touch act => exact hkeeps
  | _ => trivial

theorem StorySatisfies.move {move : Move S E} (h : StorySatisfies P s) (hkeeps : move.Keeps P)
    : StorySatisfies P (s.move move) := by
  cases move with
  | perform request => exact storySatisfies_perform (h.readies (preserves_of_maintains hP hkeeps))
  | _ => exact h.aside (by simp)

end Session

/--
What comes of the moves of a run, taken in order, each with the session in which it was made.
-/
def Course.fold {S E α : Type} [Engine S E] (c : Course S E)
    (f : Session S E → Move S E → α → α) (a : α)
    : α :=
  go c.start c.moves
where
  go (start : Session S E) : List (Move S E) → α
    | [] => a
    | move :: before => f (Course.mk start before).now move (go start before)

section Fold

variable {S E α : Type} [Engine S E] {Q : Move S E → Prop} {f : Session S E → Move S E → α → α}
    {stage : Stage S E} {c : Course S E} {a : α}

theorem Staged.fold_keeps {I : α → Session S E → Prop}
    (hnew : ∀ options memory, I a (Session.new options memory))
    (hmove : ∀ (s : Session S E) move a, Q move → I a s → I (f s move a) (s.move move))
    (h : Staged stage c) (hmoves : ∀ move ∈ c.moves, Q move) : I (c.fold f a) c.now := by
  induction h with
  | begin options memory => exact hnew options memory
  | push _ _ ih =>
    rw [Course.push, List.forall_mem_cons] at hmoves
    exact hmove _ _ _ hmoves.1 (ih hmoves.2)
  | delivered _ ih => exact ih hmoves

theorem Staged.tells_fold {P : α → E → Prop}
    (hmove : ∀ (s : Session S E) move a, Q move → s.StorySatisfies (P a) →
      (s.move move).StorySatisfies (P (f s move a)))
    (h : Staged stage c) (a : α) (hmoves : ∀ move ∈ c.moves, Q move)
    : c.now.StorySatisfies (P (c.fold f a)) := by
  exact fold_keeps (I := fun a s => s.StorySatisfies (P a))
      (fun _ _ => Session.storySatisfies_of_none rfl) hmove h hmoves

end Fold

theorem Staged.tells {S E : Type} [Engine S E] {P : E → Prop} (hP : Engine.Maintains P)
    {stage : Stage S E} {c : Course S E} (h : Staged stage c)
    (hkeeps : ∀ move ∈ c.moves, move.Keeps P) : c.now.StorySatisfies P := by
  induction h with
  | begin options memory => exact Session.storySatisfies_of_none rfl
  | push _ _ ih =>
    rw [Course.push, List.forall_mem_cons] at hkeeps
    exact (ih hkeeps.2).move hP hkeeps.1
  | delivered _ ih => exact ih hkeeps

end Parley
