import Parley.Proofs.Player.Play

/-!
This module contains desks at which everything that goes over the terminal is taped, in the order in
which it does. The tape only listens: a player does at such a desk what it does without the tape.
-/

namespace Parley.Player

inductive Act where
  | printed (text : String)
  | complained (text : String)
  /-- A line was asked for. There was none at the end of the input. -/
  | asked (line : Option String)
  | opened (file : String)
  | wrote (file content : String)
  | picked (number : Nat)

def Act.isQuestion : Act → Bool
  | .asked _ => true
  | _ => false

structure Tape (F : Type) where
  desk : Desk F
  /-- All that went over the terminal, from the first to the last. -/
  acts : List Act := []

variable {F : Type}

namespace Tape

def questions (t : Tape F) : Nat :=
  t.acts.countP Act.isQuestion

def taping {α : Type} (act : StateM (Desk F) α) (note : α → Act) : StateM (Tape F) α :=
  modifyGet fun t =>
    let (a, desk) := act.run t.desk
    (a, ⟨desk, t.acts ++ [note a]⟩)

instance [FileSystem F] : Terminal (StateM (Tape F)) where
  print text := taping (Terminal.print text) fun _ => .printed text
  complain text := taping (Terminal.complain text) fun _ => .complained text
  readLine := taping Terminal.readLine .asked
  readFile name := taping (Terminal.readFile name) fun _ => .opened name
  writeFile name content := taping (Terminal.writeFile name content) fun _ => .wrote name content
  pick count := taping (Terminal.pick count) .picked

end Tape

section SameUntaped

variable {α β : Type}

/--
Whether what is done at a desk with a tape is what is done at the desk without it.
-/
def SameUntaped (F : Type) (x : ExceptT Failure (StateM (Tape F)) α)
    (y : ExceptT Failure (StateM (Desk F)) α) : Prop :=
  ∀ t, y.run.run t.desk = ((x.run.run t).1, (x.run.run t).2.desk)

variable {x : ExceptT Failure (StateM (Tape F)) α} {y : ExceptT Failure (StateM (Desk F)) α}

theorem sameUntaped_pure (a : α) : SameUntaped F (pure a) (pure a) := by
  intro t
  rfl

theorem sameUntaped_throw (failure : Failure)
    : SameUntaped F (throw failure : ExceptT Failure (StateM (Tape F)) α) (throw failure) := by
  intro t
  rfl

theorem SameUntaped.bind {f : α → ExceptT Failure (StateM (Tape F)) β}
    {g : α → ExceptT Failure (StateM (Desk F)) β} (h : SameUntaped F x y)
    (hf : ∀ a, SameUntaped F (f a) (g a)) : SameUntaped F (x >>= f) (y >>= g) := by
  intro t
  simp only [ExceptT.run_bind, StateT.run_bind]
  rw [h t]
  generalize x.run.run t = ended
  obtain ⟨_ | a, t'⟩ := ended
  . rfl
  . exact hf a t'

theorem SameUntaped.map (h : SameUntaped F x y) (f : α → β)
    : SameUntaped F (f <$> x) (f <$> y) := by
  rw [map_eq_pure_bind, map_eq_pure_bind]
  exact h.bind fun a => sameUntaped_pure (f a)

theorem sameUntaped_taping (act : StateM (Desk F) α) (note : α → Act)
    : SameUntaped F (ExceptT.lift (Tape.taping act note)) (ExceptT.lift act) := by
  intro t
  rfl

variable [FileSystem F]

theorem sameUntaped_contentOf (file : String)
    : SameUntaped F (contentOf file) (contentOf file) := by
  apply (sameUntaped_taping (Terminal.readFile file) fun _ => .opened file).bind
  intro result
  cases result with
  | error reason => exact sameUntaped_throw _
  | ok content => exact sameUntaped_pure content

theorem sameUntaped_readCommand (choices : List Choice) (prompts : Nat)
    : SameUntaped F (readCommand choices prompts) (readCommand choices prompts) := by
  induction prompts with
  | zero => exact sameUntaped_throw _
  | succ prompts ih =>
    apply (sameUntaped_taping (Terminal.print (promptText choices)) fun _ =>
        .printed (promptText choices)).bind
    intro _
    apply (sameUntaped_taping Terminal.readLine .asked).bind
    intro line?
    cases line? with
    | none => exact sameUntaped_pure none
    | some line =>
      dsimp only
      cases Entry.ofLine choices.length line.toList with
      | accepted command => exact sameUntaped_pure _
      | blank => exact ih
      | refused refusal =>
        exact (sameUntaped_taping (Terminal.complain _) fun _ => .complained _).bind fun _ => ih

theorem sameUntaped_pickCommand (choices : List Choice)
    : SameUntaped F (pickCommand choices) (pickCommand choices) := by
  apply (sameUntaped_taping (Terminal.pick choices.length) .picked).bind
  intro index
  exact (sameUntaped_taping (Terminal.print _) fun _ => .printed _).bind fun _ => sameUntaped_pure _

variable {E : Type} [Engine String E]

theorem sameUntaped_act (bound : Nat) (s : Session String E) (routine : Routine String E Unit)
    : SameUntaped F (act bound s routine) (act bound s routine) := by
  unfold act
  split
  . exact sameUntaped_throw _
  . exact (sameUntaped_taping (Terminal.print _) fun _ => .printed _).bind fun _ =>
        sameUntaped_pure _

theorem sameUntaped_obey (bound : Nat) (s : Session String E) (command : Command)
    : SameUntaped F (obey bound s command) (obey bound s command) := by
  cases command with
  | choose index => exact (sameUntaped_act _ _ _).map some
  | exit => exact sameUntaped_pure none
  | help =>
    exact (sameUntaped_taping (Terminal.print _) fun _ => .printed _).bind fun _ =>
        sameUntaped_pure _
  | load file =>
    apply (sameUntaped_contentOf file).bind
    intro content
    cases s.load content with
    | mk result s =>
      cases result with
      | error error => exact sameUntaped_throw _
      | ok _ =>
        exact (sameUntaped_taping (Terminal.print _) fun _ => .printed _).bind fun _ =>
            (sameUntaped_act _ _ _).map some
  | save file =>
    unfold obey
    cases s.save with
    | mk saved s =>
      cases saved with
      | none => exact sameUntaped_throw _
      | some content =>
        apply (sameUntaped_taping (Terminal.writeFile file content) fun _ =>
            .wrote file content).bind
        intro result
        cases result with
        | error reason => exact sameUntaped_throw _
        | ok _ =>
          exact (sameUntaped_taping (Terminal.print _) fun _ => .printed _).bind fun _ =>
              sameUntaped_pure _
  | reset => exact (sameUntaped_act _ _ _).map some
  | rewind => exact (sameUntaped_act _ _ _).map some

theorem sameUntaped_playOn (auto : Bool) (bound : Nat) (s : Session String E) (turns : Nat)
    : SameUntaped F (playOn auto bound s turns) (playOn auto bound s turns) := by
  induction turns generalizing s with
  | zero => exact sameUntaped_throw _
  | succ turns ih =>
    have hanswer : ∀ command,
        SameUntaped F (answer auto bound s turns command) (answer auto bound s turns command) := by
      intro command
      cases command with
      | none => exact sameUntaped_pure s
      | some command =>
        apply (sameUntaped_obey bound s command).bind
        intro left
        cases left with
        | none => exact sameUntaped_pure s
        | some s => exact ih s
    rw [playOn_succ, playOn_succ]
    split
    . exact sameUntaped_pure s
    . cases auto with
      | true => exact ((sameUntaped_pickCommand _).map some).bind hanswer
      | false => exact (sameUntaped_readCommand _ _).bind hanswer

theorem sameUntaped_playStory (settings : Settings) (bound : Nat) (opening : Routine String E Unit)
    : SameUntaped F (playStory settings bound opening) (playStory settings bound opening) := by
  apply (sameUntaped_act bound _ _).bind
  intro s
  dsimp only
  split
  . exact sameUntaped_throw _
  . apply (sameUntaped_playOn settings.auto bound s bound).bind
    intro s
    exact (sameUntaped_act bound s _).bind fun _ => sameUntaped_pure ()

variable {I : Type} [Ink.Runtime String I]

theorem sameUntaped_play (settings : Settings) (bound : Nat)
    : SameUntaped F (play I settings bound : ExceptT Failure (StateM (Tape F)) Unit)
        (play I settings bound) := by
  apply (sameUntaped_contentOf settings.file).bind
  intro content
  cases sourceOf settings content with
  | error failure => exact sameUntaped_throw failure
  | ok source => exact sameUntaped_playStory settings bound _

/--
What the player comes to at a desk is what it comes to at the same desk with a tape.
-/
theorem run_untaped (parse : List String → Request) (arguments : List String) (bound : Nat)
    (t : Tape F)
    : (runWith I parse arguments bound : StateM (Desk F) Nat).run t.desk
        =
      (((runWith I parse arguments bound : StateM (Tape F) Nat).run t).1,
        ((runWith I parse arguments bound : StateM (Tape F) Nat).run t).2.desk) := by
  unfold runWith
  cases parse arguments with
  | play settings =>
    dsimp only
    rw [StateT.run_bind, StateT.run_bind, sameUntaped_play settings bound t]
    generalize (play (m := StateM (Tape F)) I settings bound).run.run t = played
    obtain ⟨_ | _, t'⟩ := played
    . rfl
    . rfl
  | help | version | misuse => rfl

end SameUntaped

end Parley.Player
