import Parley.Proofs.Choices
import Parley.Proofs.Faulty
import Parley.Proofs.Maintain
import Parley.Proofs.Script.Steps

/-!
This module contains which choices of a scripted story are taken, and that the story counts them
rightly: how often a knot was visited is how often a choice that leads to it was taken, since the
story was started or reset.
-/

namespace Parley

namespace Script.Story

variable {S : Type} {s : Story S}

def visits (s : Story S) (knot : Nat) : UInt32 :=
  (s.state.visits.get? knot).getD 0

def visiting (s : Story S) (knot : Nat) : Story S :=
  { s with
    state := { s.state with knot, step := 0, visits := s.state.visits.update knot 0 (· + 1) } }

theorem visits_visiting (knot other : Nat)
    : (s.visiting knot).visits other
        = if other = knot then s.visits other + 1 else s.visits other := by
  unfold visits visiting
  simp only [Table.update, Table.get?_set, beq_iff_eq]
  split
  . next heq => rw [heq, Option.getD_some]
  . rfl

theorem visits_play (w : World S) (steps : List Step) : (s.play w steps).2.1.visits = s.visits := by
  obtain ⟨_, _, hframe⟩ := play_frame (s := s) w steps
  rw [hframe]
  rfl

/--
Whether the visits of a story are those to these knots, each as often as it occurs.
-/
def Visited (knots : List Nat) (s : Story S) : Prop :=
  ∀ knot, s.visits knot = UInt32.ofNat (knots.count knot)

theorem Visited.of_visits {knots : List Nat} {s' : Story S} (h : s.Visited knots)
    (hvisits : s'.visits = s.visits)
    : s'.Visited knots := by
  intro knot
  rw [hvisits]
  exact h knot

theorem visited_nil (h : ∀ knot, s.visits knot = 0) : s.Visited [] := by
  intro knot
  rw [h knot, List.count_nil]
  rfl

theorem Visited.visiting {knots : List Nat} (h : s.Visited knots) (knot : Nat)
    : (s.visiting knot).Visited (knot :: knots) := by
  intro other
  rw [visits_visiting, h other, List.count_cons]
  by_cases heq : other = knot
  . simp [heq]
  . simp [heq, Ne.symm heq]

end Script.Story

namespace Faulty

variable {S : Type}

theorem choose_scripted {f : Faulty (Script.Story S)} {index : Nat} {option : String × Nat}
    (hoption : f.story.options[index]? = some option)
    : Engine.choose f index
        =
      if .chooseChoice ∈ f.faults then
        (.error (injected .chooseChoice), f)
      else
        (.ok (), { f with story := f.story.visiting option.2 }) := by
  have hchoose : Engine.choose f.story index = (.ok (), f.story.visiting option.2) := by
    change f.story.choose index = _
    unfold Script.Story.choose
    rw [hoption]
    rfl
  change f.attempt .chooseChoice (Engine.choose · index) = _
  rw [attempt_eq, hchoose]

end Faulty

namespace Session

open Script

variable {S : Type} {s s' : Session S (Faulty (Story S))} {f : Faulty (Story S)}

section Commit

theorem commit_scripted (hstory : s.runner.story = some f) (index : Nat)
    : s.commit index
        =
      match f.story.options[index]? with
      | none =>
        if f.story.options.length = 0 then
          (.error .noActiveChoices, s)
        else
          (.error (.choiceOutOfRange index f.story.options.length), s)
      | some option =>
        if .chooseChoice ∈ f.faults then
          (.error (.engine (Faulty.injected .chooseChoice)), s)
        else
          (.ok (), s.mapRunner
            ({ · with story := some { f with story := f.story.visiting option.2 } })) := by
  have hlength : (Engine.choices f).length = f.story.options.length := Story.length_choices
  have hsame : s.mapRunner ({ · with story := some f }) = s := by
    unfold mapRunner
    rw [← hstory]
  unfold commit
  rw [hstory]
  dsimp only
  rw [hlength]
  cases hoption : f.story.options[index]? with
  | none =>
    have hle : f.story.options.length ≤ index := List.getElem?_eq_none_iff.mp hoption
    simp [hle]
  | some option =>
    have hlt : index < f.story.options.length := (List.getElem?_eq_some_iff.mp hoption).1
    rw [if_neg (by omega), if_neg (by omega), Faulty.choose_scripted hoption]
    by_cases hfault : .chooseChoice ∈ f.faults
    . simp only [hfault, if_true, hsame, mapError_error]
    . simp only [hfault, if_false, mapError_ok]

end Commit

def Led (s : Session S (Faulty (Story S))) (index : Nat)
    (s' : Session S (Faulty (Story S))) : Prop :=
  ∃ f options option, s.runner.story = some f ∧ f.story.current? = some (.choices options) ∧
    options[index]? = some option ∧
    s' = s.mapRunner ({ · with story := some { f with story := f.story.visiting option.2 } })

/--
Whether the answer to a choice is the right one for as many choices as the story offers.
-/
structure AnswersChoice (s : Session S (Faulty (Story S))) (index : Nat)
    (result : Except RunnerError Unit) (s' : Session S (Faulty (Story S))) : Prop where
  none : result = .error .noActiveChoices ↔ s.offered.length = 0
  range : result = .error (.choiceOutOfRange index s.offered.length) ↔
    0 < s.offered.length ∧ s.offered.length ≤ index
  taken : result = .ok () ↔ index < s.offered.length
  refused : s.offered.length ≤ index → s' = s
  led : index < s.offered.length → s.Led index s'

theorem answersChoice_commit (hstory : s.runner.story = some f) (hfault : .chooseChoice ∉ f.faults)
    (index : Nat)
    : s.AnswersChoice index (s.commit index).1 (s.commit index).2 := by
  have hlength : s.offered.length = f.story.options.length := by
    unfold offered
    rw [hstory]
    exact Story.length_choices
  rw [commit_scripted hstory]
  cases hoption : f.story.options[index]? with
  | none =>
    have hle : f.story.options.length ≤ index := List.getElem?_eq_none_iff.mp hoption
    by_cases hzero : f.story.options.length = 0
    . rw [if_pos hzero]
      constructor
      . simp [hlength, hzero]
      . simp [hlength, hzero]
      . simp [hlength, hzero]
      . exact fun _ => rfl
      . omega
    . rw [if_neg hzero]
      constructor
      . simp [hlength, hzero]
      . simp [hlength, hle]
        omega
      . simp [hlength, hle]
      . exact fun _ => rfl
      . omega
  | some option =>
    have hlt : index < f.story.options.length := (List.getElem?_eq_some_iff.mp hoption).1
    have hnonempty : f.story.options ≠ [] := by
      intro hnil
      rw [hnil] at hlt
      contradiction
    dsimp only
    rw [if_neg hfault]
    constructor
    . simp [hlength]
      omega
    . simp [hlength, hlt]
    . simp [hlength, hlt]
    . omega
    . exact fun _ => ⟨f, _, option, hstory, Story.current_of_options hnonempty, hoption, rfl⟩

theorem request_tryChoose (hstory : s.runner.story = some f) (hpaused : s.runner.paused = false)
    (hfault : .chooseChoice ∉ f.faults) (index : Nat)
    : ∃ result s', s.AnswersChoice index result s' ∧
        ∀ bound, s.request bound (.tryChoose index false) = (some result, s') := by
  refine ⟨_, _, answersChoice_commit hstory hfault index, ?_⟩
  intro bound
  change outcome (Run.tryChoose (Run.emitWith (Run.drain bound)) index false) s = _
  generalize hended : s.commit index = ended
  obtain ⟨_ | _, s'⟩ := ended
  . simp [Run.tryChoose, hpaused, hended]
  . rw [Run.tryChoose_taken hpaused hended]
    rfl

/--
Whether a move puts a story at its start and forgets its visits: a start that is not refused, or a
reset that does not fail.
-/
def renews (s : Session S (Faulty (Story S))) : Move S (Faulty (Story S)) → Bool
  | .perform (.start ..) => s.runner.story.isNone
  | .perform .reset => s.runner.story.any fun f => (Engine.reset f s.world.unwritten).1.isOk
  | _ => false

def goal? (s : Session S (Faulty (Story S))) (index : Nat) : Option Nat :=
  if s.commits index then s.runner.story.bind fun f => f.story.options[index]?.map (·.2) else none

/--
The knot that a move leads to by taking a choice, whether or not going on from there fails.
-/
def leads (s : Session S (Faulty (Story S))) : Move S (Faulty (Story S)) → Option Nat
  | .perform (.choose index _) | .perform (.tryChoose index _) => s.goal? index
  | _ => none

/--
The knots that choices led to since the story was new, after one more move.
-/
def tally (s : Session S (Faulty (Story S))) (move : Move S (Faulty (Story S))) (knots : List Nat)
    : List Nat :=
  if s.renews move then [] else (s.leads move).toList ++ knots

end Session

/--
Whether a move brings in only stories without visits, loads no state, and takes no visits away or
adds them behind the runner's back.
-/
def Move.SparesVisits {S : Type} : Move S (Faulty (Script.Story S)) → Prop
  | .perform (.start f _) => ∀ knot, f.story.visits knot = 0
  | .perform (.load _) => False
  | .perform (.touch act) => ∀ f world, (act f world).1.story.visits = f.story.visits
  | _ => True

/--
The knots that the choices of a run led to since the story was started or reset, the latest first.
-/
def Course.chosen {S : Type} (c : Course S (Faulty (Script.Story S))) : List Nat :=
  c.fold Session.tally []

namespace Session

open Script

variable {S : Type} {s s' : Session S (Faulty (Story S))} {f : Faulty (Story S)} {knots : List Nat}

def Counted (knots : List Nat) (f : Faulty (Story S)) : Prop :=
  f.story.Visited knots

theorem carries_counted : Engine.Carries (Counted knots : Faulty (Story S) → Prop) := by
  intro f world h
  exact Faulty.attemptIn_keeps h (h.of_visits (Story.visits_play world f.story.upcoming))

theorem commit_cases (hstory : s.runner.story = some f) (hpaused : s.runner.paused = false)
    (index : Nat)
    : s.goal? index = none ∧ (s.commit index).2 = s ∨
        ∃ knot, s.goal? index = some knot ∧
          (s.commit index).2.runner.story = some { f with story := f.story.visiting knot } := by
  unfold goal? commits
  rw [commit_scripted hstory, hpaused, hstory, Option.bind_some]
  cases hoption : f.story.options[index]? with
  | none =>
    left
    dsimp only
    split
    . exact ⟨rfl, rfl⟩
    . exact ⟨rfl, rfl⟩
  | some option =>
    by_cases hfault : .chooseChoice ∈ f.faults
    . left
      simp [hfault, Except.isOk, Except.toBool]
    . right
      refine ⟨option.2, ?_, ?_⟩
      . simp [hfault, Except.isOk, Except.toBool]
      . simp [hfault, mapRunner]

theorem StorySatisfies.commit (h : s.StorySatisfies (Counted knots)) (index : Nat)
    : (if s.runner.paused then s else (s.commit index).2).StorySatisfies
        (Counted ((s.goal? index).toList ++ knots)) := by
  cases hpaused : s.runner.paused with
  | true =>
    have hgoal : s.goal? index = none := by
      simp [goal?, commits, hpaused]
    rw [if_pos rfl, hgoal]
    exact h
  | false =>
    rw [if_neg (by simp)]
    cases hstory : s.runner.story with
    | none =>
      apply storySatisfies_of_none
      simp [Session.commit, hstory]
    | some f =>
      rcases commit_cases hstory hpaused index with ⟨hgoal, hcommit⟩ | ⟨knot, hgoal, hcommit⟩
      . rw [hgoal, hcommit]
        exact h
      . rw [hgoal]
        exact storySatisfies_of_some hcommit ((h f hstory).visiting knot)

theorem counted_reset (h : s.StorySatisfies (Counted knots)) (hstory : s.runner.story = some f)
    : Counted (s.tally (.perform .reset) knots) (Engine.reset f s.world.unwritten).2.1 := by
  have hengine : Engine.reset f s.world.unwritten
      = f.attemptIn s.world.unwritten .resetState Engine.reset := rfl
  unfold tally renews leads
  rw [hstory, Option.any_some, hengine]
  unfold Faulty.attemptIn Faulty.works
  by_cases hfault : .resetState ∈ f.faults
  . simp only [hfault, if_true]
    exact h f hstory
  . simp only [hfault, if_false]
    exact Story.visited_nil fun _ => rfl

theorem StorySatisfies.tally (h : s.StorySatisfies (Counted knots))
    {move : Move S (Faulty (Story S))} (hspares : move.SparesVisits)
    : (s.move move).StorySatisfies (Counted (s.tally move knots)) := by
  cases move with
  | perform request =>
    cases request with
    | choose index => exact storySatisfies_perform ⟨carries_counted, h.commit index⟩
    | tryChoose index => exact storySatisfies_perform ⟨carries_counted, h.commit index⟩
    | start f =>
      refine storySatisfies_perform ⟨carries_counted, ?_⟩
      unfold Session.tally renews
      split
      . exact Story.visited_nil hspares
      . exact h
    | reset => exact storySatisfies_perform fun f hstory => counted_reset h hstory
    | rewind =>
      exact storySatisfies_perform
          (h.readies fun f hf => Faulty.attempt_keeps hf (hf.of_visits rfl))
    | setVariable | trySetVariable =>
      exact storySatisfies_perform
          (h.readies fun f world hf => Faulty.attemptIn_keeps hf (hf.of_visits rfl))
    | observe =>
      exact storySatisfies_perform
          (h.readies fun f hf => Faulty.attempt_keeps hf (hf.of_visits rfl))
    | observeAll =>
      exact storySatisfies_perform
          (h.readies fun f name hf => Faulty.attempt_keeps hf (hf.of_visits rfl))
    | bind =>
      exact storySatisfies_perform
          (h.readies fun f hf => Faulty.attempt_keeps hf (hf.of_visits rfl))
    | load => exact hspares.elim
    | touch act =>
      exact storySatisfies_perform (h.readies fun f world hf => hf.of_visits (hspares f world))
    | advance | tryAdvance => exact storySatisfies_perform (h.readies carries_counted)
    | _ => exact storySatisfies_perform (h.readies trivial)
  | _ => exact h.aside (by simp)

variable (options : LoadOptions) (memory : S) (bound : Nat) (host : Program S (Faulty (Story S)))

theorem run_counts
    : ((Session.new options memory).course bound host).now
        =
      ((Session.new options memory).run bound host).2 ∧
        ∀ past, ((Session.new options memory).course bound host).Extends past →
          (∀ f, past.now.runner.story = some f → past.now.runner.paused = false →
            .chooseChoice ∉ f.faults →
            ∀ index, ∃ result s', past.now.AnswersChoice index result s' ∧
              ∀ limit, past.now.request limit (.tryChoose index false) = (some result, s')) ∧
          ((∀ move ∈ past.moves, move.SparesVisits) → past.chosen.length < 2 ^ 32 →
            ∀ f, past.now.runner.story = some f → ∀ knot,
              (f.story.visits knot).toNat = past.chosen.count knot) := by
  obtain ⟨hrun, ⟨_, hstaged⟩, _⟩ := staged_course options memory bound host
  refine ⟨hrun, ?_⟩
  intro past hpast
  refine ⟨?_, ?_⟩
  . intro f hstory hpaused hfault index
    exact request_tryChoose hstory hpaused hfault index
  . intro hspares hfew f hstory knot
    obtain ⟨_, hpast⟩ := hstaged.of_extends hpast
    have hcounted := hpast.tells_fold (P := Counted) (fun _ _ _ hcount h => h.tally hcount) []
        hspares f hstory knot
    have hcounted : f.story.visits knot = UInt32.ofNat (past.chosen.count knot) := hcounted
    have hsize : past.chosen.count knot < UInt32.size :=
      Nat.lt_of_le_of_lt List.count_le_length hfew
    rw [hcounted, UInt32.toNat_ofNat_of_lt' hsize]

/--
A host that goes to and fro, and in between asks for a choice that there is not.
-/
def wandering : Program Unit (Faulty (Story Unit)) :=
  Routine.program do
    let knots : List (List Step) :=
      [[.choices [("stay", 0), ("go", 1)]], [.choices [("return", 0)]]]
    Routine.perform (.start ⟨.new .empty knots, []⟩ false)
    Routine.perform (.choose 1 false)
    Routine.perform (.choose 1 false)
    Routine.perform (.choose 0 true)

theorem run_counts_wandering
    : let c := (Session.new {} ()).course 3 wandering
      (∃ f, c.now.runner.story = some f ∧ (f.story.visits 0).toNat = c.chosen.count 0 ∧
          (f.story.visits 1).toNat = c.chosen.count 1) ∧
        c.chosen = [0, 1] ∧
        ∃ result s', c.now.AnswersChoice 2 result s' ∧
          c.now.request 1 (.tryChoose 2 false) = (some result, s') := by
  have hmoves : ((Session.new {} ()).course 3 wandering).moves
      = [.dispatch false, .take, .dispatch true, .perform (.choose 0 true),
          .perform (.choose 1 false), .perform (.choose 1 false), .dispatch false, .take,
          .dispatch true, .perform (.start ⟨.new .empty
            [[.choices [("stay", 0), ("go", 1)]], [.choices [("return", 0)]]], []⟩ false)] := rfl
  have hspares : ∀ move ∈ ((Session.new {} ()).course 3 wandering).moves, move.SparesVisits := by
    rw [hmoves]
    simp [Move.SparesVisits, Story.visits, Story.new, Story.initial]
  have hchosen : ((Session.new {} ()).course 3 wandering).chosen = [0, 1] := by
    decide +kernel
  have hpast := (run_counts {} () 3 wandering).2 _ ⟨rfl, List.suffix_rfl⟩
  have hfew : ((Session.new {} ()).course 3 wandering).chosen.length < 2 ^ 32 := by
    rw [hchosen]
    decide
  have hvisits := hpast.2 hspares hfew _ rfl
  refine ⟨⟨_, rfl, hvisits 0, hvisits 1⟩, hchosen, ?_⟩
  obtain ⟨result, s', hanswers, hrequest⟩ := hpast.1 _ rfl rfl (by simp) 2
  exact ⟨result, s', hanswers, hrequest 1⟩

end Session

end Parley
