import Parley.Proofs.Observers
import Parley.Proofs.Value

/-!
This module contains that variables are read as they were written: what is read under a name is what
was stored under it last, by whatever part of a run, and only a value of the kind that is asked for
is given. Which names there are is up to the story, since a host that sets variables neither adds
nor removes one.
-/

namespace Parley

open Script

/--
A change to the variables of a story: a value is stored under one name, or all variables are
replaced.
-/
inductive Write where
  | one (name : String) (value : Value)
  | all (values : String → Option Value)

/--
What a write leaves under a name, if it concerns that name.
-/
def Write.left? (name : String) : Write → Option (Option Value)
  | .one other value => if other = name then some (some value) else none
  | .all values => some (values name)

def Write.each (assignments : List (String × Value)) : List Write :=
  assignments.map fun (name, value) => .one name value

/--
The variables after some writes: under each name what the latest write that concerns it has left
there.
-/
def overwrite (values : String → Option Value) (writes : List Write) (name : String)
    : Option Value :=
  (writes.reverse.findSome? (·.left? name)).getD (values name)

theorem Write.each_append (assignments assignments' : List (String × Value))
    : each (assignments ++ assignments') = each assignments ++ each assignments' := by
  exact List.map_append

section Overwrite

variable {values : String → Option Value}

theorem overwrite_overwrite (writes writes' : List Write)
    : overwrite (overwrite values writes) writes' = overwrite values (writes ++ writes') := by
  funext name
  unfold overwrite
  rw [List.reverse_append, List.findSome?_append]
  cases writes'.reverse.findSome? (·.left? name) with
  | _ => rfl

theorem overwrite_one (name : String) (value : Value)
    : overwrite values [.one name value]
        = fun other => if other = name then some value else values other := by
  funext other
  by_cases hname : other = name
  . simp [overwrite, Write.left?, hname]
  . simp [overwrite, Write.left?, hname, Ne.symm hname]

end Overwrite

namespace Script

namespace Story

variable {S : Type} {s : Story S}

def values (s : Story S) (name : String) : Option Value :=
  s.state.values.get? name

theorem values_assign (name : String) (value : Value) (w : World S)
    : (s.assign name value w).1.values = overwrite s.values [.one name value] := by
  rw [overwrite_one]
  funext other
  simp [values, assign, Table.get?_set]

theorem values_load (text : String)
    : (s.load text).2.values
        =
      match State.ofText? text with
      | .ok state => state.values.get?
      | .error _ => s.values := by
  unfold load
  cases State.ofText? text with
  | _ => rfl

end Story

theorem Happen.values {S : Type} {now later : Story S × World S} {effects : List Effect}
    (h : Happen now effects later)
    : later.1.values = overwrite now.1.values
        (Write.each (effects.filterMap Effect.assignment?)) := by
  induction h with
  | nil now => rfl
  | @cons s w effect effects next later hfirst _ ih =>
    rw [ih]
    cases hfirst with
    | assigned name value =>
      rw [Story.values_assign, overwrite_overwrite]
      rfl
    | _ => rfl

end Script

namespace Faulty

variable {S : Type} {f : Faulty (Story S)}

def withValues (f : Faulty (Story S)) (values : Table String Value) : Faulty (Story S) :=
  { f with story := { f.story with state := { f.story.state with values } } }

theorem Continues.values {w : World S} {effects : List Effect}
    {ended : Except EngineError Line × Faulty (Story S) × World S} (h : f.Continues w effects ended)
    : ended.2.1.story.values = overwrite f.story.values
        (Write.each (effects.filterMap Effect.assignment?)) := by
  cases h with
  | injected _ => rfl
  | played _ hcontinues =>
    obtain ⟨_, _, htakes⟩ := hcontinues
    exact htakes.happen.values

end Faulty

namespace Session

variable {S : Type} {s s' : Session S (Faulty (Story S))}

theorem variableValue_some {f : Faulty (Story S)} (hstory : s.runner.story = some f)
    : s.variableValue = f.story.values := by
  funext name
  rw [variableValue, hstory]
  rfl

theorem variableValue_none (hstory : s.runner.story = none) : s.variableValue = fun _ => none := by
  funext name
  rw [variableValue, hstory]
  rfl

theorem variableValue_of_story (hstory : s'.runner.story = s.runner.story)
    : s'.variableValue = s.variableValue := by
  funext name
  rw [variableValue, variableValue, hstory]

theorem variableValue_withStory {f f' : Faulty (Story S)} (hstory : s.runner.story = some f)
    (hvalues : f'.story.values = f.story.values)
    : (s.mapRunner ({ · with story := some f' })).variableValue = s.variableValue := by
  rw [variableValue_some hstory, ← hvalues]
  rfl

theorem variableValue_touch {act : Faulty (Story S) → World S → Faulty (Story S) × World S}
    (hvalues : ∀ f w, (act f w).1.story.values = f.story.values)
    : (s.touch act).2.variableValue = s.variableValue := by
  unfold touch
  split
  . rfl
  . next f hstory =>
    rw [variableValue_some hstory, ← hvalues f s.world.unwritten]
    rfl

theorem variableValue_commit (index : Nat)
    : (s.commit index).2.variableValue = s.variableValue := by
  cases hstory : s.runner.story with
  | none =>
    unfold commit
    rw [hstory]
  | some f =>
    rw [commit_scripted hstory]
    split
    . split
      . rfl
      . rfl
    . split
      . rfl
      . exact variableValue_withStory hstory rfl

theorem variableValue_observe (name : String) (observer : Observer)
    : (s.observe name observer).variableValue = s.variableValue := by
  unfold observe
  split
  . rfl
  . next f hstory =>
    have hobserve : (Engine.observe f name observer).2.story.values = f.story.values :=
      Faulty.attempt_keeps (P := fun story : Story S => story.values = f.story.values) rfl rfl
    split
    . split
      . next heq =>
        rw [heq] at hobserve
        exact variableValue_withStory hstory hobserve
      . next heq =>
        rw [heq] at hobserve
        exact variableValue_withStory hstory hobserve
    . rfl

theorem variableValue_observeAll (names : List String) (observer : Observer)
    : (s.observeAll names observer).variableValue = s.variableValue := by
  unfold observeAll
  induction names generalizing s with
  | nil => rfl
  | cons name names ih => exact ih.trans (variableValue_observe name observer)

theorem variableValue_bind (function : Function S) (lookaheadSafe : Bool)
    : (s.bind function lookaheadSafe).variableValue = s.variableValue := by
  unfold Session.bind
  split
  . rfl
  . next f hstory =>
    have hbind : (Engine.bind f function lookaheadSafe).2.story.values = f.story.values :=
      Faulty.attempt_keeps (P := fun story : Story S => story.values = f.story.values) rfl rfl
    split
    . next heq =>
      rw [heq] at hbind
      exact variableValue_withStory hstory hbind
    . next heq =>
      rw [heq] at hbind
      exact variableValue_withStory hstory hbind

section Set

variable {name : String} {value : Value} {result : Except RunnerError Unit}

/--
How it comes out to give a value to a variable: the first of these ways that is open is taken, and
only a variable that there is can be set.
-/
inductive Stores (s : Session S (Faulty (Story S))) (name : String) (value : Value)
    : Except RunnerError Unit → Session S (Faulty (Story S)) → Prop where
  | idle (idle : s.runner.story = none) : Stores s name value (.error .noActiveStory) s
  | absent {f : Faulty (Story S)} (story : s.runner.story = some f)
      (absent : f.story.values name = none)
      : Stores s name value (.error (.unknownVariable name)) s
  | injected {f : Faulty (Story S)} {s' : Session S (Faulty (Story S))}
      (story : s.runner.story = some f) (present : (f.story.values name).isSome = true)
      (fault : .setVariable ∈ f.faults) (runner : s'.runner = s.runner)
      : Stores s name value (.error (.engine (Faulty.injected .setVariable))) s'
  | stored {f : Faulty (Story S)} {s' : Session S (Faulty (Story S))}
      (story : s.runner.story = some f) (present : (f.story.values name).isSome = true)
      (works : .setVariable ∉ f.faults)
      (runner : s'.runner =
        { s.runner with
          story := some { f with story := (f.story.assign name value s.world.unwritten).1 } })
      : Stores s name value (.ok ()) s'

theorem stores_trySetVariable (name : String) (value : Value)
    : s.Stores name value (s.trySetVariable name value).1 (s.trySetVariable name value).2 := by
  unfold trySetVariable
  cases hstory : s.runner.story with
  | none => exact .idle hstory
  | some f =>
    dsimp only
    split
    . next hpresent =>
      have hpresent : (f.story.values name).isSome = true := hpresent
      rw [Faulty.setVariable_scripted]
      by_cases hfault : .setVariable ∈ f.faults
      . simp only [hfault, if_true]
        refine .injected hstory hpresent hfault ?_
        rw [absorb, ← hstory]
      . simp only [hfault, if_false]
        exact .stored hstory hpresent hfault rfl
    . next habsent =>
      have habsent : ¬(f.story.values name).isSome = true := habsent
      exact .absent hstory (by simpa using habsent)

theorem Stores.values (h : s.Stores name value result s')
    : s'.variableValue = overwrite s.variableValue
        (if result.isOk then [.one name value] else []) := by
  cases h with
  | injected _ _ _ hrunner => exact variableValue_of_story (congrArg (·.story) hrunner)
  | stored hstory _ _ hrunner =>
    rw [variableValue_some (congrArg (·.story) hrunner), Story.values_assign,
      variableValue_some hstory]
    rfl
  | _ => rfl

theorem Stores.isOk_iff (h : s.Stores name value result s')
    : result = .ok () ↔
        (s.variableValue name).isSome = true ∧ ∀ f ∈ s.runner.story, .setVariable ∉ f.faults := by
  cases h with
  | idle hidle => simp [variableValue_none hidle]
  | absent hstory habsent => simp [variableValue_some hstory, habsent]
  | injected hstory hpresent hfault => simp [hstory, hfault]
  | stored hstory hpresent hworks => simp [variableValue_some hstory, hstory, hpresent, hworks]

-- What is set was there before, so that the names stay the same.
theorem Stores.present (h : s.Stores name value result s') (other : String)
    : (s'.variableValue other).isSome = (s.variableValue other).isSome := by
  rw [h.values]
  cases h with
  | stored hstory hpresent =>
    have hone : (if (Except.ok () : Except RunnerError Unit).isOk then [Write.one name value]
        else []) = [.one name value] := rfl
    rw [hone, overwrite_one]
    by_cases hname : other = name
    . simp [hname, variableValue_some hstory, hpresent]
    . simp [hname]
  | _ => rfl

end Set

section Write

/--
The writes of a move that replace all variables: a story that is started brings its own, and so does
a state that is loaded, the start of the story gives back the default values, and without a story
there are no variables.
-/
def replacements (s : Session S (Faulty (Story S))) : Move S (Faulty (Story S)) → List Write
  | .perform (.start f _) => if s.runner.story.isNone then [.all f.story.values] else []
  | .perform .reset =>
    s.runner.story.elim [] fun f =>
      if .resetState ∈ f.faults then [] else [.all f.story.defaults.get?]
  | .perform (.load text) =>
    s.runner.story.elim [] fun f =>
      if .loadState ∈ f.faults then
        []
      else
        match State.ofText? text with
        | .ok state => [.all state.values.get?]
        | .error _ => []
  | .perform (.touch act) => [.all (s.touch act).2.variableValue]
  | .perform .stop | .perform .tearDown | .release => [.all fun _ => none]
  | _ => []

def writes (s : Session S (Faulty (Story S))) (move : Move S (Faulty (Story S))) : List Write :=
  s.replacements move ++ Write.each (s.assignments move)

theorem writes_reset
    : (s.arranged .reset).variableValue
        =
      overwrite s.variableValue (s.replacements (.perform .reset)) := by
  rw [arranged, replacements, touch]
  cases hstory : s.runner.story with
  | none => rfl
  | some f =>
    have hreset : Engine.reset f s.world.unwritten
        = if .resetState ∈ f.faults then
            (.error (Faulty.injected .resetState), f, s.world.unwritten)
          else
            (.ok (), { f with story := { f.story with state := Story.initial f.story.defaults } },
              s.world.unwritten) :=
      f.attemptIn_eq s.world.unwritten .resetState Engine.reset
    dsimp only [Option.elim]
    rw [hreset]
    split
    . exact variableValue_of_story hstory.symm
    . rfl

theorem writes_load (text : String)
    : (s.load text).2.variableValue = overwrite s.variableValue
        (s.replacements (.perform (.load text))) := by
  rw [load, replacements]
  cases hstory : s.runner.story with
  | none => rfl
  | some f =>
    have hload : Engine.load f text
        = if .loadState ∈ f.faults then (.error (Faulty.injected .loadState), f)
          else ((f.story.load text).1, { f with story := (f.story.load text).2 }) :=
      f.attempt_eq .loadState (Engine.load · text)
    dsimp only [Option.elim]
    rw [hload]
    split
    . exact variableValue_withStory hstory rfl
    . have hvalues := f.story.values_load text
      cases hread : State.ofText? text with
      | ok state =>
        rw [hread] at hvalues
        exact hvalues
      | error fault =>
        rw [hread] at hvalues
        exact variableValue_withStory hstory hvalues

theorem writes_arranged (request : Operation S (Faulty (Story S)))
    : (s.arranged request).variableValue
        =
      overwrite s.variableValue
        (s.replacements (.perform request) ++ Write.each (s.sets (.perform request))) := by
  have hset : ∀ name value, (s.trySetVariable name value).2.variableValue
      = overwrite s.variableValue
        (Write.each (s.sets (.perform (.trySetVariable name value)))) := by
    intro name value
    rw [(stores_trySetVariable name value).values, sets]
    cases (s.trySetVariable name value).1 with
    | _ => rfl
  cases request with
  | choose index | tryChoose index =>
    rw [arranged]
    split
    . rfl
    . exact variableValue_commit index
  | start f autoAdvance =>
    rw [arranged, replacements]
    split
    . rfl
    . rfl
  | reset =>
    have hsets : Write.each (s.sets (.perform .reset)) = [] := rfl
    rw [hsets, List.append_nil]
    exact writes_reset
  | rewind =>
    exact variableValue_touch fun f _ =>
      Faulty.attempt_keeps (P := fun story : Story S => story.values = f.story.values) rfl rfl
  | load text =>
    have hsets : Write.each (s.sets (.perform (.load text))) = [] := rfl
    rw [hsets, List.append_nil]
    exact writes_load text
  | setVariable name value | trySetVariable name value => exact hset name value
  | observe name observer => exact variableValue_observe name observer
  | observeAll names observer => exact variableValue_observeAll names observer
  | bind function lookaheadSafe => exact variableValue_bind function lookaheadSafe
  | _ => rfl

theorem Plays.values {effects : List Effect} (h : s.Plays effects s')
    : s'.variableValue = overwrite s.variableValue
        (Write.each (effects.filterMap Effect.assignment?)) := by
  cases h with
  | rests hsame => exact variableValue_of_story hsame.story
  | goesOn hstory hcontinues hsame =>
    rw [variableValue_of_story hsame.story, variableValue_some hstory, ← hcontinues.values]
    rfl

theorem writes_perform (request : Operation S (Faulty (Story S)))
    : (s.perform request).2.variableValue
        =
      overwrite s.variableValue (s.writes (.perform request)) := by
  rw [(plays_perform s request).values, writes_arranged, overwrite_overwrite,
    List.append_assoc, ← Write.each_append]
  rfl

theorem writes_move (move : Move S (Faulty (Story S)))
    : (s.move move).variableValue = overwrite s.variableValue (s.writes move) := by
  cases move with
  | perform request => exact writes_perform request
  | release => rfl
  | _ => exact variableValue_of_story (resembles_aside (by simp) (by simp)).story

end Write

section Read

variable {name : String} {kind : Kind}

/--
Whether a session reads a variable as one under whose name this is stored, if anything is: only a
value of the kind that is asked for is given, and none is converted.
-/
structure ReadsVariable (s : Session S (Faulty (Story S))) (name : String) (kind : Kind)
    (stored : Option Value) : Prop where
  value : s.variableValue name = stored
  ok : ∀ x : kind.Carrier, s.tryReadVariable name kind = .ok x ↔ stored = some (.ofCarrier x)
  mismatch : s.tryReadVariable name kind = .error (.typeMismatch name kind) ↔
    ∃ value, stored = some value ∧ value.kind ≠ kind
  unknown : s.tryReadVariable name kind = .error (.unknownVariable name) ↔
    s.runner.status ≠ .idle ∧ stored = none
  idle : s.tryReadVariable name kind = .error .noActiveStory ↔ s.runner.status = .idle
  given : ∀ x : kind.Carrier, stored = some (.ofCarrier x) → (s.readVariable name kind).1 = x
  fallback : (∀ x : kind.Carrier, stored ≠ some (.ofCarrier x)) →
      (s.readVariable name kind).1 = kind.fallback

/--
How it comes out to read a variable under whose name this is stored, if anything is.
-/
inductive Gives (s : Session S (Faulty (Story S))) (name : String) (kind : Kind)
    : Option Value → Except RunnerError kind.Carrier → Prop where
  | idle (idle : s.runner.status = .idle) : Gives s name kind none (.error .noActiveStory)
  | absent (active : s.runner.status ≠ .idle)
      : Gives s name kind none (.error (.unknownVariable name))
  | other {value : Value} (active : s.runner.status ≠ .idle) (other : value.kind ≠ kind)
      : Gives s name kind (some value) (.error (.typeMismatch name kind))
  | given (active : s.runner.status ≠ .idle) (x : kind.Carrier)
      : Gives s name kind (some (.ofCarrier x)) (.ok x)

theorem gives_tryReadVariable (s : Session S (Faulty (Story S))) (name : String) (kind : Kind)
    : s.Gives name kind (s.variableValue name) (s.tryReadVariable name kind) := by
  unfold tryReadVariable
  cases hstory : s.runner.story with
  | none =>
    rw [variableValue_none hstory]
    exact .idle (Runner.status_eq_idle.mpr hstory)
  | some f =>
    have hactive : s.runner.status ≠ .idle := by
      rw [ne_eq, Runner.status_eq_idle, hstory]
      simp
    have hscalar : Engine.scalar? f name = f.story.values name := rfl
    have hdeclared : Engine.hasVariable f name = (f.story.values name).isSome := rfl
    rw [variableValue_some hstory]
    dsimp only
    rw [hscalar, hdeclared]
    cases f.story.values name with
    | none => exact .absent hactive
    | some value =>
      dsimp only
      cases hvalue : value.get? kind with
      | none => exact .other hactive (Value.get?_eq_none_iff.mp hvalue)
      | some x =>
        rw [Value.get?_eq_some_iff.mp hvalue]
        exact .given hactive x

theorem Gives.ok_iff {stored : Option Value} {result : Except RunnerError kind.Carrier}
    (h : s.Gives name kind stored result) (x : kind.Carrier)
    : result = .ok x ↔ stored = some (.ofCarrier x) := by
  cases h with
  | idle | absent => simp
  | @other value _ hother =>
    have hdiffers : value ≠ .ofCarrier x := by
      rintro rfl
      exact hother (Value.kind_ofCarrier x)
    simp [hdiffers]
  | given _ y =>
    rw [Option.some_inj, ← Value.get?_eq_some_iff]
    simp

theorem readsVariable_variable (s : Session S (Faulty (Story S))) (name : String) (kind : Kind)
    : s.ReadsVariable name kind (s.variableValue name) := by
  have hgives := s.gives_tryReadVariable name kind
  have hok := hgives.ok_iff
  generalize hstored : s.variableValue name = stored at hgives hok ⊢
  generalize hread : s.tryReadVariable name kind = result at hgives hok
  refine ⟨hstored, ?_, ?_, ?_, ?_, ?_, ?_⟩
  . rw [hread]
    exact hok
  . rw [hread]
    cases hgives with
    | _ => simp [*]
  . rw [hread]
    cases hgives with
    | _ => simp [*]
  . rw [hread]
    cases hgives with
    | _ => simp [*]
  . intro x hvalue
    rw [readVariable, hread, (hok x).mpr hvalue]
  . intro hnone
    rw [readVariable, hread]
    cases result with
    | ok x => exact absurd ((hok x).mp rfl) (hnone x)
    | error error => rfl

end Read

section Admit

variable {name : String} {value : Value} {result : Except RunnerError Unit}

/--
Whether a session lets a host set a variable as one of those that the story has, and no other: that
the variable is there is all that counts, nothing but its value changes, and the names stay the
same.
-/
structure Admits (s : Session S (Faulty (Story S))) (name : String) (value : Value) : Prop where
  succeeds : (s.trySetVariable name value).1 = .ok () ↔
    (s.variableValue name).isSome = true ∧ ∀ f ∈ s.runner.story, .setVariable ∉ f.faults
  stored : (s.trySetVariable name value).1 = .ok () →
    (s.trySetVariable name value).2.variableValue
      = fun other => if other = name then some value else s.variableValue other
  frame : (s.trySetVariable name value).1 = .ok () → ∃ f values, s.runner.story = some f ∧
    (s.trySetVariable name value).2.runner = { s.runner with story := some (f.withValues values) }
  refused : (s.trySetVariable name value).1 ≠ .ok () →
      (s.trySetVariable name value).2.runner = s.runner
  names : ∀ other,
      ((s.trySetVariable name value).2.variableValue other).isSome = (s.variableValue other).isSome
  same : (s.setVariable name value).runner = (s.trySetVariable name value).2.runner

theorem Stores.frame (h : s.Stores name value result s')
    : (result = .ok () → ∃ f values, s.runner.story = some f ∧
          s'.runner = { s.runner with story := some (f.withValues values) }) ∧
        (result ≠ .ok () → s'.runner = s.runner) := by
  cases h with
  | idle | absent => exact ⟨by simp, fun _ => rfl⟩
  | injected _ _ _ hrunner => exact ⟨by simp, fun _ => hrunner⟩
  | stored hstory _ _ hrunner => exact ⟨fun _ => ⟨_, _, hstory, hrunner⟩, by simp⟩

theorem runner_setVariable (s : Session S (Faulty (Story S))) (name : String) (value : Value)
    : (s.setVariable name value).runner = (s.trySetVariable name value).2.runner := by
  unfold setVariable
  cases hstory : s.runner.story with
  | none => simp [trySetVariable, hstory]
  | some f =>
    generalize s.trySetVariable name value = ended
    obtain ⟨error | _, s'⟩ := ended
    . cases error with
      | _ => rfl
    . rfl

theorem admits_variable (s : Session S (Faulty (Story S))) (name : String) (value : Value)
    : s.Admits name value := by
  have hstores := s.stores_trySetVariable name value
  refine ⟨hstores.isOk_iff, ?_, hstores.frame.1, hstores.frame.2, hstores.present,
    s.runner_setVariable name value⟩
  intro hok
  rw [hstores.values, hok]
  exact overwrite_one name value

end Admit

end Session

namespace Course

variable {S : Type}

def writes (c : Course S (Faulty (Story S))) : List Write :=
  c.fold (fun s move writes => writes ++ s.writes move) []

/--
What was stored under a name last in a run, if anything is stored there.
-/
def stored (c : Course S (Faulty (Story S))) : String → Option Value :=
  overwrite (fun _ => none) c.writes

end Course

namespace Session

variable {S : Type} (options : LoadOptions) (memory : S) (bound : Nat)
    (host : Program S (Faulty (Story S)))

theorem run_reads_latest
    : ((Session.new options memory).course bound host).now
        =
      ((Session.new options memory).run bound host).2 ∧
        (∀ (f : Faulty (Story S)) w, f.Continues w (f.deeds w) (Engine.continueOne f w)) ∧
        ∀ past, ((Session.new options memory).course bound host).Extends past →
          (∀ name kind, past.now.ReadsVariable name kind (past.stored name)) ∧
            ∀ name value, past.now.Admits name value := by
  obtain ⟨hrun, ⟨_, hstaged⟩, _⟩ := staged_course options memory bound host
  refine ⟨hrun, Faulty.continues, ?_⟩
  intro past hpast
  obtain ⟨_, hpast⟩ := hstaged.of_extends hpast
  have hstored : past.now.variableValue = past.stored := by
    apply hpast.fold_keeps (I := fun writes s => s.variableValue = overwrite (fun _ => none) writes)
      (Q := fun _ => True)
    . intro _ _
      rfl
    . intro s move writes _ hvalues
      rw [writes_move, hvalues, overwrite_overwrite]
    . intro _ _
      trivial
  refine ⟨?_, past.now.admits_variable⟩
  intro name kind
  rw [← hstored]
  exact past.now.readsVariable_variable name kind

/--
A host that sets a variable to a text and then lets the story go on, which sets it to a number and
then fails.
-/
def trading : Program Unit (Faulty (Story Unit)) :=
  Routine.program do
    let steps : List Step := [.set "gold" (.int 1), .call "f" [] (some "gold"), .line ⟨"done", []⟩]
    Routine.perform (.start ⟨.new (.ofList [("gold", .int 0)]) [steps], []⟩ false)
    Routine.perform (.setVariable "gold" (.string "much"))
    Routine.perform (.setVariable "silver" (.int 5))
    Routine.perform .advance

theorem run_reads_trading
    : let s := ((Session.new {} ()).run 2 trading).2
      s.variableValue "gold" = some (.int 1) ∧ s.tryReadVariable "gold" .int = .ok 1 ∧
        s.tryReadVariable "gold" .string = .error (.typeMismatch "gold" .string) ∧
        (s.readVariable "gold" .string).1 = "" ∧
        s.tryReadVariable "silver" .int = .error (.unknownVariable "silver") ∧
        (s.trySetVariable "gold" (.bool true)).1 = .ok () := by
  intro s
  obtain ⟨hrun, _, hpast⟩ := run_reads_latest {} () 2 trading
  obtain ⟨hreads, hadmits⟩ := hpast _ ⟨rfl, List.suffix_rfl⟩
  rw [hrun] at hreads hadmits
  have hgold : ((Session.new {} ()).course 2 trading).stored "gold" = some (.int 1) := rfl
  have hsilver : ((Session.new {} ()).course 2 trading).stored "silver" = none := rfl
  have hint := hreads "gold" .int
  have hstring := hreads "gold" .string
  have hunknown := hreads "silver" .int
  rw [hgold] at hint hstring
  rw [hsilver] at hunknown
  refine ⟨hint.value, (hint.ok 1).mpr rfl,
    hstring.mismatch.mpr ⟨_, rfl, by simp [Value.kind]⟩, ?_, ?_, ?_⟩
  . apply hstring.fallback
    intro x
    simp [Value.ofCarrier]
  . have hactive : s.runner.status ≠ .idle := by decide
    exact hunknown.unknown.mpr ⟨hactive, rfl⟩
  . refine (hadmits "gold" (.bool true)).succeeds.mpr ⟨?_, ?_⟩
    . rw [hint.value]
      rfl
    . rintro f ⟨⟩
      exact List.not_mem_nil

end Session

end Parley
