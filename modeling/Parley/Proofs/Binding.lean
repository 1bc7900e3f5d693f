import Parley.Proofs.Course
import Parley.Proofs.Function
import Parley.Proofs.Maintain
import Parley.Proofs.Script.Steps

/-!
This module contains which function a scripted story calls and what comes of the call. It is the
function that was bound last under its name, and a call without a value leaves the variables alone
and does not stop the story.
-/

namespace Parley

namespace Script.Story

variable {S : Type} {s : Story S}

theorem functions_play (w : World S) (steps : List Step)
    : (s.play w steps).2.1.functions = s.functions := by
  obtain ⟨_, _, hframe⟩ := play_frame (s := s) w steps
  rw [hframe]

theorem functions_choose (index : Nat) : (s.choose index).2.functions = s.functions := by
  unfold choose
  split
  . rfl
  . rfl

theorem functions_load (text : String) : (s.load text).2.functions = s.functions := by
  unfold load
  split
  . rfl
  . rfl

theorem assignResult_none (target : Option String) (w : World S)
    : s.assignResult target none w = (s, w) := by
  cases target with
  | none => rfl
  | some name => rfl

section Call

variable {before rest : List Step} {name : String} {arguments : List Value} {target : Option String}
  {f : Function S} {lookaheadSafe : Bool}

theorem continueOne_call (hupcoming : s.upcoming = .call name arguments target :: rest)
    (hbound : s.functions.get? name = some (f, lookaheadSafe)) (w : World S)
    : let called := f.call arguments w
      let assigned := s.assignResult target called.1 called.2
      Engine.continueOne s w = Engine.continueOne assigned.1.next assigned.2 := by
  have hpasses : s.passes (.call name arguments target) = true := by
    simp [passes, Table.contains, hbound]
  rw [continueOne_pass hupcoming hpasses]
  simp only [pass, hbound]

/--
Whether a call on the way to the next line is one of a function. After the steps before it the story
goes on from where it would without the call, with the value stored where it should be, and with
nothing stored if there is no value.
-/
def Invokes (s : Story S) (before : List Step) (arguments : List Value) (target : Option String)
    (f : Function S)
    : Prop :=
  ∀ w : World S,
    let passed := s.passAll w before
    let called := f.call arguments passed.2
    let assigned := passed.1.assignResult target called.1 called.2
    Engine.continueOne s w = Engine.continueOne assigned.1.next assigned.2 ∧
      (called.1 = none → Engine.continueOne s w = Engine.continueOne passed.1.next called.2)

theorem invokes_bound (hupcoming : s.upcoming = before ++ .call name arguments target :: rest)
    (hpasses : ∀ step ∈ before, s.passes step = true)
    (hbound : s.functions.get? name = some (f, lookaheadSafe))
    : s.Invokes before arguments target f := by
  intro w passed called assigned
  have hbound' : passed.1.functions.get? name = some (f, lookaheadSafe) := by
    rw [functions_passAll, hbound]
  have hcall : Engine.continueOne s w = Engine.continueOne assigned.1.next assigned.2 := by
    rw [continueOne_passAll hupcoming hpasses]
    exact continueOne_call (upcoming_passAll hupcoming hpasses w) hbound' passed.2
  refine ⟨hcall, ?_⟩
  intro hnone
  have hassigned : assigned = (passed.1, called.2) := by
    change passed.1.assignResult target called.1 called.2 = _
    rw [hnone, assignResult_none]
  rw [hcall, hassigned]

end Call

end Script.Story

namespace Session

open Script

variable {S : Type} {s : Session S (Story S)} {name : String} {bound : Option (Function S × Bool)}

/--
What is bound under a name after one more move: a function that is bound takes the place of the one
before it, and a story that is started, or that the host changes behind the runner's back, has its
own.
-/
def binding (name : String) (s : Session S (Story S)) (move : Move S (Story S))
    (bound : Option (Function S × Bool)) : Option (Function S × Bool) :=
  match move with
  | .perform (.bind f lookaheadSafe) => if name = f.name then some (f, lookaheadSafe) else bound
  | .perform (.start story _) => if s.runner.story.isNone then story.functions.get? name else bound
  | .perform (.touch act) => (s.touch act).2.runner.story.elim bound (·.functions.get? name)
  | _ => bound

def Binds (name : String) (bound : Option (Function S × Bool)) (story : Story S) : Prop :=
  story.functions.get? name = bound

theorem Binds.of_functions {story story' : Story S} (h : Binds name bound story)
    (hfunctions : story'.functions = story.functions) : Binds name bound story' := by
  unfold Binds
  rw [hfunctions]
  exact h

theorem carries_binds : Engine.Carries (Binds name bound : Story S → Prop) := by
  intro story world h
  exact h.of_functions (Story.functions_play world story.upcoming)

theorem StorySatisfies.binds_bind (h : s.StorySatisfies (Binds name bound)) (f : Function S)
    (lookaheadSafe : Bool)
    : (s.bind f lookaheadSafe).StorySatisfies
        (Binds name (s.binding name (.perform (.bind f lookaheadSafe)) bound)) := by
  unfold Session.bind
  split
  . next hnone => exact storySatisfies_of_none hnone
  . next story hstory =>
    have hbind : Engine.bind story f lookaheadSafe
        = (.ok (), { story with functions := story.functions.set f.name (f, lookaheadSafe) }) := rfl
    rw [hbind]
    refine storySatisfies_of_some rfl ?_
    unfold Binds binding
    rw [← h story hstory]
    simp only [Table.get?_set, beq_iff_eq]

theorem StorySatisfies.binding (h : s.StorySatisfies (Binds name bound)) (move : Move S (Story S))
    : (s.move move).StorySatisfies (Binds name (s.binding name move bound)) := by
  cases move with
  | perform request =>
    cases request with
    | bind f lookaheadSafe => exact storySatisfies_perform (h.binds_bind f lookaheadSafe)
    | start story =>
      refine storySatisfies_perform ⟨carries_binds, ?_⟩
      unfold Session.binding
      split
      . rfl
      . exact h
    | touch act =>
      apply storySatisfies_perform
      intro story hstory
      rw [Session.binding, hstory]
      rfl
    | choose index =>
      exact storySatisfies_perform
          (h.readies ⟨carries_binds, fun _ hs => hs.of_functions (Story.functions_choose index)⟩)
    | tryChoose index =>
      exact storySatisfies_perform
          (h.readies ⟨carries_binds, fun _ hs => hs.of_functions (Story.functions_choose index)⟩)
    | load text =>
      exact storySatisfies_perform
          (h.readies fun _ hs => hs.of_functions (Story.functions_load text))
    | reset | setVariable | trySetVariable =>
      exact storySatisfies_perform (h.readies fun _ _ hs => hs.of_functions rfl)
    | rewind | observe => exact storySatisfies_perform (h.readies fun _ hs => hs.of_functions rfl)
    | observeAll => exact storySatisfies_perform (h.readies fun _ _ hs => hs.of_functions rfl)
    | advance | tryAdvance => exact storySatisfies_perform (h.readies carries_binds)
    | _ => exact storySatisfies_perform (h.readies trivial)
  | _ => exact h.aside (by simp)

end Session

def Course.bound? {S : Type} (c : Course S (Script.Story S)) (name : String)
    : Option (Function S × Bool) :=
  c.fold (Session.binding name) none

namespace Session

open Script

variable {S α : Type} [Returned α] {kinds : List Kind} (function : String)
    (body : Arguments kinds → S → α × S) (options : LoadOptions) (memory : S) (bound : Nat)
    (host : Program S (Story S))

theorem run_calls_bound
    : ((Session.new options memory).course bound host).now
        =
      ((Session.new options memory).run bound host).2 ∧
        (∀ arguments (w : World S),
          Function.Obeys function body arguments w
            ((Function.typed function body).call arguments w)) ∧
        ∀ past, ((Session.new options memory).course bound host).Extends past →
          ∀ story, past.now.runner.story = some story → ∀ name,
            story.functions.get? name = past.bound? name ∧
            story.lookaheadSafe? name = (past.bound? name).map (·.2) ∧
            ∀ f lookaheadSafe, past.bound? name = some (f, lookaheadSafe) →
              ∀ before arguments target rest,
                story.upcoming = before ++ .call name arguments target :: rest →
                (∀ step ∈ before, story.passes step = true) →
                story.Invokes before arguments target f := by
  obtain ⟨hrun, ⟨_, hstaged⟩, _⟩ := staged_course options memory bound host
  refine ⟨hrun, Function.obeys_typed function body, ?_⟩
  intro past hpast story hstory name
  obtain ⟨_, hpast⟩ := hstaged.of_extends hpast
  have hbound : story.functions.get? name = past.bound? name :=
    hpast.tells_fold (P := Binds name) (Q := fun _ => True) (fun _ move _ _ h => h.binding move)
      none (fun _ _ => trivial) story hstory
  refine ⟨hbound, ?_, ?_⟩
  . rw [Story.lookaheadSafe?, hbound]
  . intro f lookaheadSafe hf before arguments target rest hupcoming hpasses
    exact Story.invokes_bound hupcoming hpasses (hbound.trans hf)

/--
A host that binds one name twice, the second time for an argument that the call of the story does
not have.
-/
def rebinding : Program Unit (Story Unit) :=
  Routine.program do
    let steps : List Step := [.call "f" [.string "one"] (some "x"), .line ⟨"done", []⟩]
    Routine.perform (.start (.new (.ofList [("x", .int 0)]) [steps]) false)
    Routine.perform
      (.bind (.typed "f" fun (xs : Arguments [.string]) memory => (xs.1, memory)) true)
    Routine.perform (.bind (.typed "f" fun (xs : Arguments [.int]) memory => (xs.1, memory)) false)

theorem run_calls_rebinding
    : let c := (Session.new {} ()).course 2 rebinding
      let f := Function.typed "f" fun (xs : Arguments [.int]) memory => (xs.1, memory)
      ∃ story, c.now.runner.story = some story ∧ story.lookaheadSafe? "f" = some false ∧
        Engine.continueOne story ⟨(), []⟩
          = Engine.continueOne story.next (f.call [.string "one"] ⟨(), []⟩).2 ∧
        ∃ message, Function.Explains "f" [.int] [.string "one"] message ∧
          f.call [.string "one"] ⟨(), []⟩ = (none, ⟨(), [.log .warn message]⟩) := by
  intro c f
  obtain ⟨_, hobeys, hbinds⟩ :=
    run_calls_bound "f" (fun (xs : Arguments [.int]) memory => (xs.1, memory)) {} () 2 rebinding
  obtain ⟨_, hsafe, hinvokes⟩ := hbinds c ⟨rfl, List.suffix_rfl⟩ _ rfl "f"
  have hfails : ∀ xs : Arguments [.int], ¬xs.Converts [.string "one"] := by
    rintro ⟨x, _⟩ ⟨_, hconverts⟩
    simp [Value.coerce, Arguments.values] at hconverts
  obtain ⟨message, hexplains, hcall⟩ := (hobeys [.string "one"] ⟨(), []⟩).refuses hfails
  have hnone : (f.call [.string "one"] ⟨(), []⟩).1 = none := congrArg (·.1) hcall
  have hinvokes :=
    hinvokes f false rfl [] [.string "one"] (some "x") [.line ⟨"done", []⟩] rfl (by simp) ⟨(), []⟩
  exact ⟨_, rfl, hsafe, hinvokes.2 hnone, message, hexplains, hcall⟩

end Session

end Parley
