import Parley.Proofs.Course
import Parley.Proofs.Groundwork
import Parley.Proofs.Maintain
import Parley.Proofs.Script.Effects

/-!
This module contains that a scripted story that goes on takes each step of a knot once and in order,
also if it fails in between: at every moment it stands behind the steps whose effects have happened.
-/

namespace Parley

open Script

namespace Faulty

variable {S : Type} {f : Faulty (Story S)}

structure Retries (f : Faulty (Story S)) (name : String) (arguments : List Value) : Prop where
  unbound : f.story.functions.get? name = none → ∀ w, f.deeds w = [] ∧
    Engine.continueOne f w = (.error (.runtime ("function `" ++ name ++ "` is not bound")), f, w)
  bound : ∀ function lookaheadSafe,
    f.story.functions.get? name = some (function, lookaheadSafe) → ∀ w,
      ∃ effects, f.deeds w = .called name arguments (function.call arguments w).1 :: effects

theorem retries_call {name : String} {arguments : List Value}
    {target : Option String} {rest : List Step} (hworks : .continueOne ∉ f.faults)
    (hupcoming : f.story.upcoming = .call name arguments target :: rest)
    : f.Retries name arguments where
  unbound := by
    intro hunbound w
    have hplay : Engine.continueOne f.story w
        = (.error (.runtime ("function `" ++ name ++ "` is not bound")), f.story, w) := by
      change f.story.play w f.story.upcoming = _
      rw [hupcoming, Story.play, hunbound]
    refine ⟨?_, ?_⟩
    . simp [deeds, hworks, hupcoming, Story.deeds, Story.deed, Story.passes,
        Table.contains, hunbound]
    . change f.attemptIn w .continueOne Engine.continueOne = _
      rw [attemptIn_eq, if_neg hworks, hplay]
  bound := by
    intro function lookaheadSafe hbound w
    rw [deeds, if_neg hworks, hupcoming, Story.deeds, Story.deed, hbound]
    exact ⟨_, rfl⟩

theorem deeds_halted (hhalted : Engine.canContinue f = false) (w : World S) : f.deeds w = [] := by
  have hhalted : f.story.canContinue = false := hhalted
  have hnone : f.story.deeds w f.story.upcoming = [] := by
    unfold Story.canContinue at hhalted
    split at hhalted
    . next heq => rw [heq, Story.deeds]
    . next heq =>
      rw [heq]
      rfl
    . contradiction
  rw [deeds, hnone, ite_self]

section Place

theorem place_setVariable (f : Faulty (Story S)) (name : String) (value : Value) (w : World S)
    : (Engine.setVariable f name value w).2.1.story.place = f.story.place := by
  exact attemptIn_keeps (P := fun story : Story S => story.place = f.story.place) rfl rfl

theorem place_observe (f : Faulty (Story S)) (name : String) (observer : Observer)
    : (Engine.observe f name observer).2.story.place = f.story.place := by
  exact attempt_keeps (P := fun story : Story S => story.place = f.story.place) rfl rfl

theorem place_bind (f : Faulty (Story S)) (function : Function S) (lookaheadSafe : Bool)
    : (Engine.bind f function lookaheadSafe).2.story.place = f.story.place := by
  exact attempt_keeps (P := fun story : Story S => story.place = f.story.place) rfl rfl

end Place

end Faulty

namespace Session

variable {S : Type} {s s' : Session S (Faulty (Story S))} {story : Story S} {effects : List Effect}

/--
What the story of a session does if the session goes on by one step.
-/
def stepDeeds (s : Session S (Faulty (Story S))) : List Effect :=
  s.runner.story.elim [] (·.deeds s.world.unwritten)

def deeds (s : Session S (Faulty (Story S))) : Move S (Faulty (Story S)) → List Effect
  | .perform request => if s.goesOn request then (s.arranged request).stepDeeds else []
  | _ => []

/--
Whether a session becomes another one as its story does all this and nothing else: either nothing
happens, or the story goes on and its continuation has these effects.
-/
inductive Plays (s : Session S (Faulty (Story S)))
    : List Effect → Session S (Faulty (Story S)) → Prop where
  | rests {s' : Session S (Faulty (Story S))} (same : Resembles s' s) : Plays s [] s'
  | goesOn {s' : Session S (Faulty (Story S))} {f : Faulty (Story S)}
      {effects : List Effect} {ended : Except EngineError Line × Faulty (Story S) × World S}
      (story : s.runner.story = some f) (continues : f.Continues s.world.unwritten effects ended)
      (same : Resembles s' (s.absorb ended.2.1 ended.2.2)) : Plays s effects s'

theorem Plays.resembling (h : s.Plays effects s') {t : Session S (Faulty (Story S))}
    (ht : Resembles t s')
    : s.Plays effects t := by
  cases h with
  | rests hsame => exact .rests (ht.trans hsame)
  | goesOn hstory hcontinues hsame => exact .goesOn hstory hcontinues (ht.trans hsame)

theorem plays_step (s : Session S (Faulty (Story S))) : s.Plays s.stepDeeds s.step.2 := by
  unfold stepDeeds step
  cases hstory : s.runner.story with
  | none => exact .rests .refl
  | some f =>
    dsimp only [Option.elim]
    have hcontinues := f.continues s.world.unwritten
    split
    . refine .goesOn hstory hcontinues ?_
      generalize Engine.continueOne f s.world.unwritten = ended
      obtain ⟨_ | line, f', world⟩ := ended
      . exact .refl
      . exact ⟨rfl, rfl, rfl⟩
    . next hhalted =>
      rw [Faulty.deeds_halted (by simpa using hhalted)]
      have hcleared : Resembles (s.mapRunner (·.clearContent)) s := resembles_mapRunner rfl
      split
      . exact .rests hcleared
      . exact .rests ⟨rfl, rfl, rfl⟩

theorem plays_perform (s : Session S (Faulty (Story S))) (request : Operation S (Faulty (Story S)))
    : (s.arranged request).Plays (s.deeds (.perform request)) (s.perform request).2 := by
  have houtline : (s.arranged request).Plays (s.deeds (.perform request)) (s.outline request) := by
    rw [outline, deeds]
    split
    . exact plays_step _
    . exact .rests .refl
  exact houtline.resembling (resembles_perform request)

/--
Whether a story has come this far from where another one stood, with these effects.
-/
def Reached (story : Story S) (effects : List Effect) (f : Faulty (Story S)) : Prop :=
  story.Covers effects f.story

theorem Reached.of_place {f f' : Faulty (Story S)} (h : Reached story effects f)
    (hplace : f'.story.place = f.story.place) : Reached story effects f' := by
  have hcovers := Story.Covers.trans h (Story.covers_place hplace)
  rw [List.append_nil] at hcovers
  exact hcovers

end Session

/--
Whether a request leaves a story in its knot, apart from going on: it is none that takes a choice,
goes back, loads a state or releases the story, and does not move the story behind the runner's
back.
-/
def Operation.Stays {S : Type} : Operation S (Faulty (Story S)) → Prop
  | .choose .. | .tryChoose .. | .reset | .rewind | .load _ | .stop | .tearDown => False
  | .touch act => ∀ f world, (act f world).1.story.place = f.story.place
  | _ => True

def Move.Stays {S : Type} : Move S (Faulty (Story S)) → Prop
  | .perform request => request.Stays
  | .release => False
  | _ => True

namespace Session

variable {S : Type} {s s' : Session S (Faulty (Story S))} {story : Story S} {effects : List Effect}

section Arranged

variable {request : Operation S (Faulty (Story S))}

theorem arranged_start (hactive : s.runner.story.isSome = true) (f : Faulty (Story S))
    (autoAdvance : Bool)
    : s.arranged (.start f autoAdvance) = s := by
  rw [arranged, Option.isNone_eq_false_iff.mpr hactive]
  rfl

theorem present_arranged (hactive : s.runner.story.isSome = true) (hstays : request.Stays)
    : (s.arranged request).runner.story.isSome = true := by
  have hR := Engine.respects_true (S := S) (E := Faulty (Story S))
  cases request with
  | choose | tryChoose | reset | rewind | load | stop | tearDown => exact hstays.elim
  | start f autoAdvance =>
    rw [arranged_start hactive]
    exact hactive
  | setVariable | trySetVariable => exact (onlyStory_trySetVariable hR _ _).present.trans hactive
  | observe => exact (onlyStory_observe hR _ _).present.trans hactive
  | observeAll => exact (onlyStory_observeAll hR _ _).present.trans hactive
  | bind => exact (onlyStory_bind hR _ _).present.trans hactive
  | touch act =>
    have honly : OnlyStory (fun _ _ => True) s (s.touch act).2 :=
      onlyStory_touch (by simp) (by simp)
    exact honly.present.trans hactive
  | _ => exact hactive

theorem StorySatisfies.arranged_reached (h : s.StorySatisfies (Reached story effects))
    (hactive : s.runner.story.isSome = true) (hstays : request.Stays)
    : (s.arranged request).StorySatisfies (Reached story effects) := by
  cases request with
  | choose | tryChoose | reset | rewind | load | stop | tearDown => exact hstays.elim
  | start f autoAdvance =>
    rw [arranged_start hactive]
    exact h
  | setVariable | trySetVariable =>
    exact h.trySetVariable fun _ _ hf => hf.of_place (Faulty.place_setVariable ..)
  | observe => exact h.observe fun _ hf => hf.of_place (Faulty.place_observe ..)
  | observeAll => exact h.observeAll fun _ _ hf => hf.of_place (Faulty.place_observe ..)
  | bind => exact h.bind fun _ hf => hf.of_place (Faulty.place_bind ..)
  | touch act =>
    exact h.onlyStory (onlyStory_touch (fun _ => id) fun f world hf => hf.of_place (hstays f world))
  | remember change => exact h.of_story rfl
  | _ => exact h

end Arranged

/--
Whether a session has a story that has come this far from where another one stood, with these
effects.
-/
def Reaches (s : Session S (Faulty (Story S))) (story : Story S) (effects : List Effect) : Prop :=
  s.runner.story.isSome = true ∧ s.StorySatisfies (Reached story effects)

theorem Reaches.of_story (h : s.Reaches story effects) (hstory : s'.runner.story = s.runner.story)
    : s'.Reaches story effects := by
  refine ⟨?_, h.2.of_story hstory⟩
  rw [hstory]
  exact h.1

theorem Plays.reaches {effects' : List Effect} (h : s.Plays effects' s')
    (hreaches : s.Reaches story effects)
    : s'.Reaches story (effects ++ effects') := by
  cases h with
  | rests hsame =>
    rw [List.append_nil]
    exact hreaches.of_story hsame.story
  | @goesOn _ f _ ended hstory hcontinues hsame =>
    have hstory' : s'.runner.story = some ended.2.1 := hsame.story
    refine ⟨?_, storySatisfies_of_some hstory' ((hreaches.2 f hstory).trans hcontinues.covers)⟩
    rw [hstory']
    rfl

theorem Reaches.move (h : s.Reaches story effects) {move : Move S (Faulty (Story S))}
    (hstays : move.Stays)
    : (s.move move).Reaches story (effects ++ s.deeds move) := by
  cases move with
  | perform request =>
    exact (plays_perform s request).reaches
        ⟨present_arranged h.1 hstays, h.2.arranged_reached h.1 hstays⟩
  | release => exact hstays.elim
  | _ =>
    rw [deeds, List.append_nil]
    . exact h.of_story (resembles_aside (by simp) (by simp)).story
    . simp

end Session

/--
Whether a course is a part of another one: it begins where some moves of the other one end, and
makes the moves that come next.
-/
def Course.Part {S E : Type} [Engine S E] (c part : Course S E) : Prop :=
  ∃ before, part.start = (Course.mk c.start before).now ∧ c.Extends ⟨c.start, part.moves ++ before⟩

def Course.deeds {S : Type} (c : Course S (Faulty (Story S))) : List Effect :=
  c.fold (fun s move effects => effects ++ s.deeds move) []

/--
Whether a story that stands here stays in its knot during a course: it is there from the start, or
it is what the first request leaves there before it goes on.
-/
inductive Course.Dwells {S : Type} : Course S (Faulty (Story S)) → Faulty (Story S) → Prop where
  | here {c : Course S (Faulty (Story S))} {f : Faulty (Story S)}
      (stays : ∀ move ∈ c.moves, move.Stays) (story : c.start.runner.story = some f) : Dwells c f
  | after {c : Course S (Faulty (Story S))} {f : Faulty (Story S)}
      {moves : List (Move S (Faulty (Story S)))} {request : Operation S (Faulty (Story S))}
      (first : c.moves = moves ++ [.perform request]) (stays : ∀ move ∈ moves, move.Stays)
      (story : (c.start.arranged request).runner.story = some f) : Dwells c f

namespace Session

variable {S : Type} {story : Story S}

theorem reaches_self {s : Session S (Faulty (Story S))} {f : Faulty (Story S)}
    (hstory : s.runner.story = some f)
    : s.Reaches f.story [] := by
  refine ⟨?_, storySatisfies_of_some hstory (Story.covers_place rfl)⟩
  rw [hstory]
  rfl

-- By induction on the moves, the latest of which comes first.
theorem Reaches.onwards {start : Session S (Faulty (Story S))}
    {first moves : List (Move S (Faulty (Story S)))}
    (h : (Course.mk start first).now.Reaches story (Course.mk start first).deeds)
    (hstays : ∀ move ∈ moves, move.Stays)
    : (Course.mk start (moves ++ first)).now.Reaches story
        (Course.mk start (moves ++ first)).deeds := by
  induction moves with
  | nil => exact h
  | cons move moves ih =>
    rw [List.forall_mem_cons] at hstays
    exact (ih hstays.2).move hstays.1

theorem reaches_dwells {c : Course S (Faulty (Story S))} {f : Faulty (Story S)} (h : c.Dwells f)
    : c.now.Reaches f.story c.deeds := by
  obtain ⟨start, moves⟩ := c
  cases h with
  | here hstays hstory =>
    have hstart : (Course.mk start []).now.Reaches f.story (Course.mk start []).deeds :=
      reaches_self hstory
    have hreaches := hstart.onwards hstays
    rw [List.append_nil] at hreaches
    exact hreaches
  | @after moves request hfirst hstays hstory =>
    have hstart : (Course.mk start [.perform request]).now.Reaches f.story
        (Course.mk start [.perform request]).deeds :=
      (plays_perform start request).reaches (reaches_self hstory)
    cases hfirst
    exact hstart.onwards hstays

theorem Reaches.covers {s : Session S (Faulty (Story S))} {effects : List Effect}
    (h : s.Reaches story effects)
    : ∃ f, s.runner.story = some f ∧ story.Covers effects f.story := by
  obtain ⟨hactive, htells⟩ := h
  obtain ⟨f, hstory⟩ := Option.isSome_iff_exists.mp hactive
  exact ⟨f, hstory, htells f hstory⟩

variable (options : LoadOptions) (memory : S) (bound : Nat) (host : Program S (Faulty (Story S)))

theorem run_takes_once
    : ((Session.new options memory).course bound host).now
        =
      ((Session.new options memory).run bound host).2 ∧
        (∀ (f : Faulty (Story S)) w, f.Continues w (f.deeds w) (Engine.continueOne f w)) ∧
        (∀ (f : Faulty (Story S)) name arguments target rest, .continueOne ∉ f.faults →
          f.story.upcoming = .call name arguments target :: rest → f.Retries name arguments) ∧
        (∀ (s : Session S (Faulty (Story S))) request,
          (s.arranged request).Plays (s.deeds (.perform request)) (s.perform request).2) ∧
        ∀ part f, ((Session.new options memory).course bound host).Part part → part.Dwells f →
          ∃ f', part.now.runner.story = some f' ∧ f.story.Covers part.deeds f'.story := by
  refine ⟨(staged_course options memory bound host).1, Faulty.continues, ?_, plays_perform, ?_⟩
  . intro f name arguments target rest hworks hupcoming
    exact Faulty.retries_call hworks hupcoming
  . intro part f _ hdwells
    exact (reaches_dwells hdwells).covers

/--
A story that calls a function between two steps that show what they do.
-/
def errand : Story Unit :=
  .new .empty [[.set "x" (.int 1), .call "f" [] (some "x"), .line ⟨"done", []⟩]]

def errandBoy : Function Unit where
  name := "f"
  parameters := none
  body _ memory := (some (.int 2), memory)

/--
A host that binds a function only after a story has failed to call it.
-/
def mending : Program Unit (Faulty (Story Unit)) :=
  Routine.program do
    Routine.perform (.start ⟨errand, []⟩ true)
    Routine.perform (.bind errandBoy false)
    Routine.perform .advance

theorem run_takes_once_mending
    : let c := (Session.new {} ()).course 3 mending
      (∃ f, c.now.runner.story = some f ∧ errand.Covers
        [.assigned "x" (.int 1), .called "f" [] (some (.int 2)), .assigned "x" (.int 2),
          .shown ⟨"done", []⟩]
        f.story) ∧
        (Faulty.mk (errand.at 1) []).Retries "f" [] := by
  intro c
  obtain ⟨_, _, hretries, _, hcovers⟩ := run_takes_once {} () 3 mending
  have hmoves : c.moves
      = [.dispatch false, .take, .dispatch true, .perform .advance,
          .perform (.bind errandBoy false), .perform .advance, .dispatch false, .take,
          .dispatch true] ++
        [.perform (.start ⟨errand, []⟩ false)] := rfl
  refine ⟨?_, hretries _ "f" [] (some "x") _ (by simp) rfl⟩
  have hdeeds : c.deeds
      = [.assigned "x" (.int 1), .called "f" [] (some (.int 2)), .assigned "x" (.int 2),
        .shown ⟨"done", []⟩] := rfl
  have hpart : c.Part c := ⟨[], rfl, rfl, by simp⟩
  rw [← hdeeds]
  refine hcovers c ⟨errand, []⟩ hpart (.after hmoves ?_ rfl)
  simp [Move.Stays, Operation.Stays]

end Session

end Parley
