import Parley.Proofs.Continuity
import Parley.Proofs.Visits

/-!
This module contains that the observers of variables are told of each assignment: what they were
told in a run is for each value that was stored, in order, one call of each observer that was
registered for the variable before, in the order of their registrations.
-/

namespace Parley

open Script

/--
What observers are told of assignments, made one after the other, if these are the observers of each
variable.
-/
def notices (watchers : String → List Observer) (assignments : List (String × Value))
    : List (Observer × String × Value) :=
  assignments.flatMap fun (name, value) =>
    (watchers name).map fun observer => (observer, name, value)

section Notices

variable {watchers : String → List Observer}

theorem notices_nil : notices watchers [] = [] := rfl

theorem notices_append (assignments assignments' : List (String × Value))
    : notices watchers (assignments ++ assignments')
        =
      notices watchers assignments ++ notices watchers assignments' := by
  exact List.flatMap_append

theorem notices_one (name : String) (value : Value)
    : notices watchers [(name, value)]
        = (watchers name).map fun observer => (observer, name, value) := by
  exact List.flatMap_singleton ..

end Notices

/--
The observers of each variable after some registrations, in order.
-/
def joined (watchers : String → List Observer) (registrations : List (String × Observer))
    (name : String)
    : List Observer :=
  watchers name ++ (registrations.filter (·.1 = name)).map (·.2)

section Joined

variable {watchers : String → List Observer}

theorem joined_nil : joined watchers [] = watchers := by
  funext name
  exact List.append_nil _

theorem joined_joined (registrations registrations' : List (String × Observer))
    : joined (joined watchers registrations) registrations'
        =
      joined watchers (registrations ++ registrations') := by
  funext name
  unfold joined
  rw [List.filter_append, List.map_append, List.append_assoc]

end Joined

theorem Function.told_call {S : Type} (f : Function S) (arguments : List Value) (w : World S)
    : (f.call arguments w).2.told = w.told := by
  have hrun : ∀ arguments, (f.run arguments w).2.told = w.told := by
    intro arguments
    have hcalled : (Record.called f.name arguments (f.body arguments w.memory).1).change?
        = none := rfl
    unfold run
    rw [World.told_record, hcalled, Option.toList_none, List.append_nil]
    rfl
  unfold call
  split
  . exact hrun arguments
  . split
    . split
      . exact hrun _
      . exact w.told_log ..
    . exact w.told_log ..

namespace Script

def Effect.assignment? : Effect → Option (String × Value)
  | .assigned name value => some (name, value)
  | _ => none

namespace Story

variable {S : Type} {s : Story S}

def watchers (s : Story S) (name : String) : List Observer :=
  (s.observers.get? name).getD []

def enlist (s : Story S) (name : String) (observer : Observer) : Story S :=
  { s with observers := s.observers.update name [] (· ++ [observer]) }

theorem watchers_enlist (name : String) (observer : Observer) (other : String)
    : (s.enlist name observer).watchers other
        =
      if other = name then s.watchers other ++ [observer] else s.watchers other := by
  unfold watchers enlist Table.update
  rw [Table.get?_set]
  by_cases hname : other = name
  . simp [hname]
  . simp [hname]

theorem told_assign (name : String) (value : Value) (w : World S)
    : (s.assign name value w).2.told = w.told ++ notices s.watchers [(name, value)] := by
  rw [notices_one]
  exact w.told_notify ..

end Story

theorem Happen.told {S : Type} {now later : Story S × World S} {effects : List Effect}
    (h : Happen now effects later)
    : later.2.told = now.2.told ++ notices now.1.watchers
        (effects.filterMap Effect.assignment?) := by
  induction h with
  | nil now => rw [List.filterMap_nil, notices_nil, List.append_nil]
  | @cons s w effect effects next later hfirst _ ih =>
    rw [ih]
    cases hfirst with
    | assigned name value =>
      have hwatchers : (s.assign name value w).1.watchers = s.watchers := rfl
      rw [hwatchers, Story.told_assign, List.append_assoc, ← notices_append]
      rfl
    | called hbound arguments =>
      rw [Function.told_call]
      rfl
    | reported message severity =>
      rw [World.told_log]
      rfl
    | shown line => rfl

end Script

namespace Faulty

variable {S : Type} {f : Faulty (Story S)}

theorem Continues.told {w : World S} {effects : List Effect}
    {ended : Except EngineError Line × Faulty (Story S) × World S} (h : f.Continues w effects ended)
    : ended.2.1.story.watchers = f.story.watchers ∧
        ended.2.2.told = w.told ++ notices f.story.watchers
          (effects.filterMap Effect.assignment?) := by
  cases h with
  | injected _ => exact ⟨rfl, (List.append_nil _).symm⟩
  | played _ hcontinues =>
    obtain ⟨_, _, htakes⟩ := hcontinues
    obtain ⟨values, hframe⟩ := htakes.happen.frame
    have hobservers := congrArg (·.watchers) hframe
    exact ⟨hobservers, htakes.happen.told⟩

theorem watchers_load (f : Faulty (Story S)) (text : String)
    : (Engine.load f text).2.story.watchers = f.story.watchers := by
  have hload : (f.story.load text).2.watchers = f.story.watchers := by
    unfold Story.load
    split
    . rfl
    . rfl
  exact attempt_keeps (P := fun story : Story S => story.watchers = f.story.watchers) rfl hload

theorem watchers_bind (f : Faulty (Story S)) (function : Function S) (lookaheadSafe : Bool)
    : (Engine.bind f function lookaheadSafe).2.story.watchers = f.story.watchers := by
  exact attempt_keeps (P := fun story : Story S => story.watchers = f.story.watchers) rfl rfl

theorem watchers_rewind (f : Faulty (Story S))
    : (Engine.rewind f).2.story.watchers = f.story.watchers := by
  exact attempt_keeps (P := fun story : Story S => story.watchers = f.story.watchers) rfl rfl

theorem watchers_reset (f : Faulty (Story S)) (w : World S)
    : (Engine.reset f w).2.1.story.watchers = f.story.watchers := by
  exact attemptIn_keeps (P := fun story : Story S => story.watchers = f.story.watchers) rfl rfl

theorem world_reset (f : Faulty (Story S)) (w : World S) : (Engine.reset f w).2.2 = w := by
  change (f.attemptIn w .resetState Engine.reset).2.2 = w
  rw [attemptIn_eq]
  split
  . rfl
  . rfl

theorem setVariable_scripted (f : Faulty (Story S)) (name : String) (value : Value) (w : World S)
    : Engine.setVariable f name value w
        =
      if .setVariable ∈ f.faults then
        (.error (injected .setVariable), f, w)
      else
        let assigned := f.story.assign name value w
        (.ok (), { f with story := assigned.1 }, assigned.2) := by
  exact f.attemptIn_eq w .setVariable fun story w => Engine.setVariable story name value w

theorem observe_scripted (f : Faulty (Story S)) (name : String) (observer : Observer)
    : Engine.observe f name observer
        =
      if .observeVariable ∈ f.faults then
        (.error (injected .observeVariable), f)
      else
        (.ok (), { f with story := f.story.enlist name observer }) := by
  exact f.attempt_eq .observeVariable (Engine.observe · name observer)

end Faulty

namespace Session

variable {S : Type} {s s' : Session S (Faulty (Story S))}

def watchers (s : Session S (Faulty (Story S))) (name : String) : List Observer :=
  s.runner.story.elim [] (·.story.watchers name)

theorem watchers_of_story (hstory : s'.runner.story = s.runner.story)
    : s'.watchers = s.watchers := by
  unfold watchers
  rw [hstory]

theorem watchers_some {f : Faulty (Story S)} (hstory : s.runner.story = some f)
    : s.watchers = f.story.watchers := by
  unfold watchers
  rw [hstory]
  rfl

theorem watchers_none (hstory : s.runner.story = none) : s.watchers = fun _ => [] := by
  unfold watchers
  rw [hstory]
  rfl

/--
Whether the same observers are registered in two sessions, and the same changes were told.
-/
structure Still (s s' : Session S (Faulty (Story S))) : Prop where
  watchers : s'.watchers = s.watchers
  told : s'.told = s.told

section Still

theorem Still.refl : s.Still s := by
  exact ⟨rfl, rfl⟩

theorem Resembles.still (h : Resembles s' s) : s.Still s' := by
  exact ⟨watchers_of_story h.story, h.told⟩

theorem still_withStory {f f' : Faulty (Story S)} (hstory : s.runner.story = some f)
    (hwatchers : f'.story.watchers = f.story.watchers)
    : s.Still (s.mapRunner ({ · with story := some f' })) where
  watchers := by
    rw [watchers_some hstory, ← hwatchers]
    rfl
  told := rfl

theorem still_touch {act : Faulty (Story S) → World S → Faulty (Story S) × World S}
    (hwatchers : ∀ f w, (act f w).1.story.watchers = f.story.watchers)
    (htold : ∀ f w, (act f w).2.told = w.told)
    : s.Still (s.touch act).2 := by
  unfold touch
  split
  . exact .refl
  . next f hstory =>
    refine ⟨?_, ?_⟩
    . rw [watchers_some hstory, ← hwatchers f s.world.unwritten]
      rfl
    . rw [told_absorb, htold, World.told_unwritten, List.append_nil]

theorem still_commit (index : Nat) : s.Still (s.commit index).2 := by
  cases hstory : s.runner.story with
  | none =>
    unfold commit
    rw [hstory]
    exact .refl
  | some f =>
    rw [commit_scripted hstory]
    split
    . split
      . exact .refl
      . exact .refl
    . split
      . exact .refl
      . exact still_withStory hstory rfl

theorem still_load (text : String) : s.Still (s.load text).2 := by
  unfold load
  split
  . exact ⟨rfl, told_log ..⟩
  . next hstory => exact still_withStory hstory (Faulty.watchers_load ..)

theorem still_bind (function : Function S) (lookaheadSafe : Bool)
    : s.Still (s.bind function lookaheadSafe) := by
  unfold Session.bind
  split
  . exact .refl
  . next f hstory =>
    have hbind := f.watchers_bind function lookaheadSafe
    split
    . next heq =>
      rw [heq] at hbind
      exact still_withStory hstory hbind
    . next heq =>
      rw [heq] at hbind
      have hstill := still_withStory hstory hbind
      exact ⟨hstill.watchers, (told_log ..).trans hstill.told⟩

end Still

section Set

/--
The assignment that a move makes by itself: that of a variable that is set with success.
-/
def sets (s : Session S (Faulty (Story S))) : Move S (Faulty (Story S)) → List (String × Value)
  | .perform (.setVariable name value) | .perform (.trySetVariable name value) =>
    if (s.trySetVariable name value).1.isOk then [(name, value)] else []
  | _ => []

theorem trySetVariable_tells (name : String) (value : Value)
    : (s.trySetVariable name value).2.watchers = s.watchers ∧
        (s.trySetVariable name value).2.told
          = s.told ++ notices s.watchers (s.sets (.perform (.trySetVariable name value))) := by
  unfold sets trySetVariable
  cases hstory : s.runner.story with
  | none => exact ⟨rfl, (List.append_nil _).symm⟩
  | some f =>
    dsimp only
    split
    . rw [Faulty.setVariable_scripted, watchers_some hstory]
      by_cases hfault : .setVariable ∈ f.faults
      . simp only [hfault, if_true]
        refine ⟨rfl, ?_⟩
        rw [told_absorb, World.told_unwritten]
        rfl
      . simp only [hfault, if_false]
        refine ⟨rfl, ?_⟩
        rw [told_absorb, Story.told_assign, World.told_unwritten]
        rfl
    . exact ⟨rfl, (List.append_nil _).symm⟩

end Set

section Register

/--
Whether an observer is registered with success if it is to observe a variable.
-/
def registers (s : Session S (Faulty (Story S))) (observer : Observer) (name : String) : Bool :=
  s.runner.story.any fun f => Engine.hasVariable f name && (Engine.observe f name observer).1.isOk

/--
What is logged when an observer is to observe a variable and is not registered.
-/
def complaint? (s : Session S (Faulty (Story S))) (observer : Observer) (name : String)
    : Option Record :=
  s.runner.story.bind fun f =>
    if Engine.hasVariable f name then
      match (Engine.observe f name observer).1 with
      | .ok _ => none
      | .error error =>
        some (.log .error ("Failed to observe the variable `" ++ name ++ "`: " ++ error.message))
    else
      some (.log .warn
        ("The active story can not observe the variable `" ++ name ++
          "` because it doesn't exist."))

/--
What comes of the registration of an observer for several variables.
-/
structure Enlists (s : Session S (Faulty (Story S))) (observer : Observer) (names : List String)
    (s' : Session S (Faulty (Story S))) : Prop where
  watchers : s'.watchers = joined s.watchers
      ((names.filter (s.registers observer)).map (·, observer))
  told : s'.told = s.told
  chronicle : s'.world.chronicle = s.world.chronicle ++ names.filterMap (s.complaint? observer)
  same : s'.registers observer = s.registers observer ∧
      s'.complaint? observer = s.complaint? observer

theorem registers_same (observer : Observer) {f : Faulty (Story S)}
    (hstory : s.runner.story = some f) (f' : Faulty (Story S)) (hstory' : s'.runner.story = some f')
    (hfaults : f'.faults = f.faults) (hvalues : f'.story.state.values = f.story.state.values)
    : s'.registers observer = s.registers observer ∧
        s'.complaint? observer = s.complaint? observer := by
  have hdeclared : ∀ name, Engine.hasVariable f' name = Engine.hasVariable f name := by
    intro name
    change f'.story.state.values.contains name = f.story.state.values.contains name
    rw [hvalues]
  have hobserve : ∀ name,
      (Engine.observe f' name observer).1 = (Engine.observe f name observer).1 := by
    intro name
    rw [Faulty.observe_scripted, Faulty.observe_scripted, hfaults]
    split
    . rfl
    . rfl
  refine ⟨?_, ?_⟩
  . funext name
    simp only [registers, hstory, hstory', Option.any_some, hdeclared, hobserve]
  . funext name
    simp only [complaint?, hstory, hstory', Option.bind_some, hdeclared, hobserve]

section Enlists

variable {observer : Observer}

theorem enlists_nil : s.Enlists observer [] s where
  watchers := joined_nil.symm
  told := rfl
  chronicle := (List.append_nil _).symm
  same := ⟨rfl, rfl⟩

theorem Enlists.append {names names' : List String} {t : Session S (Faulty (Story S))}
    (h : s.Enlists observer names t) (h' : t.Enlists observer names' s')
    : s.Enlists observer (names ++ names') s' where
  watchers := by
    rw [h'.watchers, h.watchers, h.same.1, joined_joined, List.filter_append, List.map_append]
  told := h'.told.trans h.told
  chronicle := by
    rw [h'.chronicle, h.chronicle, h.same.2, List.filterMap_append, List.append_assoc]
  same := ⟨h'.same.1.trans h.same.1, h'.same.2.trans h.same.2⟩

theorem enlists_refused {f : Faulty (Story S)} {name : String} {level : Level} {message : String}
    (hstory : s.runner.story = some f) (hregisters : s.registers observer name = false)
    (hcomplaint : s.complaint? observer name = some (.log level message))
    : s.Enlists observer [name] ((s.mapRunner ({ · with story := some f })).log level message) := by
  refine ⟨?_, told_log .., ?_, registers_same observer hstory f rfl rfl rfl⟩
  . rw [List.filter_singleton, hregisters]
    exact (watchers_some hstory).symm.trans joined_nil.symm
  . rw [List.filterMap_cons, hcomplaint]
    exact World.chronicle_record ..

theorem enlists_granted {f : Faulty (Story S)} {name : String} (hstory : s.runner.story = some f)
    (hregisters : s.registers observer name = true) (hcomplaint : s.complaint? observer name = none)
    : s.Enlists observer [name]
        (s.mapRunner
          ({ · with story := some { f with story := f.story.enlist name observer } })) := by
  refine ⟨?_, rfl, ?_,
    registers_same observer hstory { f with story := f.story.enlist name observer } rfl rfl rfl⟩
  . funext other
    rw [List.filter_singleton, hregisters, watchers_some hstory]
    change (f.story.enlist name observer).watchers other = _
    rw [Story.watchers_enlist, joined]
    by_cases hname : other = name
    . simp [hname]
    . simp [hname, Ne.symm hname]
  . rw [List.filterMap_cons, hcomplaint]
    exact (List.append_nil _).symm

end Enlists

theorem enlists_observe (observer : Observer) (name : String)
    : s.Enlists observer [name] (s.observe name observer) := by
  unfold observe
  cases hstory : s.runner.story with
  | none =>
    have hregisters : s.registers observer name = false := by
      rw [registers, hstory, Option.any_none]
    have hcomplaint : s.complaint? observer name = none := by
      rw [complaint?, hstory, Option.bind_none]
    refine ⟨?_, rfl, ?_, ⟨rfl, rfl⟩⟩
    . simp [hregisters, joined_nil]
    . simp [hcomplaint]
  | some f =>
    dsimp only
    cases hdeclared : Engine.hasVariable f name with
    | false =>
      have hregisters : s.registers observer name = false := by simp [registers, hstory, hdeclared]
      have hsame : s.mapRunner ({ · with story := some f }) = s := by
        unfold mapRunner
        rw [← hstory]
      have hcomplaint : s.complaint? observer name
          = some (.log .warn ("The active story can not observe the variable `" ++ name ++
            "` because it doesn't exist.")) := by
        simp [complaint?, hstory, hdeclared]
      have hrefused := enlists_refused hstory hregisters hcomplaint
      rw [hsame] at hrefused
      exact hrefused
    | true =>
      rw [if_pos rfl, Faulty.observe_scripted]
      by_cases hfault : .observeVariable ∈ f.faults
      . simp only [hfault, if_true]
        apply enlists_refused hstory
        . simp [registers, hstory, hdeclared, Faulty.observe_scripted, hfault, Except.isOk,
            Except.toBool]
        . simp [complaint?, hstory, hdeclared, Faulty.observe_scripted, hfault]
      . simp only [hfault, if_false]
        apply enlists_granted hstory
        . simp [registers, hstory, hdeclared, Faulty.observe_scripted, hfault, Except.isOk,
            Except.toBool]
        . simp [complaint?, hstory, hdeclared, Faulty.observe_scripted, hfault]

theorem enlists_observeAll (observer : Observer) (names : List String)
    : s.Enlists observer names (s.observeAll names observer) := by
  unfold observeAll
  induction names generalizing s with
  | nil => exact enlists_nil
  | cons name names ih => exact (enlists_observe observer name).append ih

end Register

section Watch

def registrations (s : Session S (Faulty (Story S)))
    : Move S (Faulty (Story S)) → List (String × Observer)
  | .perform (.observe name observer) =>
    if s.registers observer name then [(name, observer)] else []
  | .perform (.observeAll names observer) => (names.filter (s.registers observer)).map (·, observer)
  | _ => []

/--
The observers of each variable after a move, if these were its observers before. They go with the
story, and a story that is started, or that the host changes behind the runner's back, has its own.
-/
def registered (s : Session S (Faulty (Story S))) (move : Move S (Faulty (Story S)))
    (watchers : String → List Observer) : String → List Observer :=
  match move with
  | .perform (.start f _) => if s.runner.story.isNone then f.story.watchers else watchers
  | .perform (.touch act) => (s.touch act).2.watchers
  | .perform .stop | .perform .tearDown | .release => fun _ => []
  | _ => joined watchers (s.registrations move)

def whispered (s : Session S (Faulty (Story S)))
    : Move S (Faulty (Story S)) → List (Observer × String × Value)
  | .perform (.touch act) => s.runner.story.elim [] fun f => (act f s.world.unwritten).2.told
  | _ => []

/--
The assignments of a move, in order: that of a variable that is set, and those of the steps that the
story takes.
-/
def assignments (s : Session S (Faulty (Story S))) (move : Move S (Faulty (Story S)))
    : List (String × Value) :=
  s.sets move ++ (s.deeds move).filterMap Effect.assignment?

theorem Plays.tells {effects : List Effect} (h : s.Plays effects s')
    : s'.watchers = s.watchers ∧
        s'.told = s.told ++ notices s.watchers (effects.filterMap Effect.assignment?) := by
  cases h with
  | rests hsame => exact ⟨hsame.still.watchers, hsame.told.trans (List.append_nil _).symm⟩
  | goesOn hstory hcontinues hsame =>
    obtain ⟨hwatchers, htold⟩ := hcontinues.told
    rw [World.told_unwritten, List.nil_append] at htold
    refine ⟨?_, ?_⟩
    . rw [hsame.still.watchers, watchers_some hstory, ← hwatchers]
      rfl
    . rw [hsame.told, told_absorb, htold, watchers_some hstory]

theorem still_choose (index : Nat)
    : s.Still (if s.runner.paused then s else (s.commit index).2) := by
  split
  . exact .refl
  . exact still_commit index

theorem Enlists.registrations {name : String} {observer : Observer}
    (h : s.Enlists observer [name] s')
    : s'.watchers = joined s.watchers (s.registrations (.perform (.observe name observer))) := by
  rw [h.watchers, List.filter_singleton, Session.registrations]
  cases s.registers observer name with
  | true => rfl
  | false => rfl

/--
Whether a session is what a request leaves if these assignments are made.
-/
structure Leaves (s : Session S (Faulty (Story S))) (request : Operation S (Faulty (Story S)))
    (assignments : List (String × Value)) (s' : Session S (Faulty (Story S))) : Prop where
  watchers : s'.watchers = s.registered (.perform request) s.watchers
  told : s'.told = s.told ++ s.whispered (.perform request) ++ notices s'.watchers assignments

section Leaves

variable {request : Operation S (Faulty (Story S))}

theorem leaves_quiet (hwatchers : s'.watchers = s.registered (.perform request) s.watchers)
    (htold : s'.told = s.told) (hwhispered : s.whispered (.perform request) = [])
    : s.Leaves request [] s' where
  watchers := hwatchers
  told := by
    rw [htold, hwhispered, notices_nil, List.append_nil, List.append_nil]

theorem Still.leaves (h : s.Still s')
    (hregistered : s.registered (.perform request) s.watchers = joined s.watchers [])
    (hwhispered : s.whispered (.perform request) = []) : s.Leaves request [] s' := by
  refine leaves_quiet ?_ h.told hwhispered
  rw [h.watchers, hregistered, joined_nil]

theorem leaves_start (f : Faulty (Story S)) (autoAdvance : Bool)
    : s.Leaves (.start f autoAdvance) [] (s.arranged (.start f autoAdvance)) := by
  rw [arranged]
  split
  . next hidle =>
    refine leaves_quiet ?_ rfl rfl
    rw [registered, if_pos hidle]
    rfl
  . next hactive =>
    refine leaves_quiet ?_ rfl rfl
    rw [registered, if_neg hactive]

theorem leaves_set (name : String) (value : Value)
    : s.Leaves (.trySetVariable name value) (s.sets (.perform (.trySetVariable name value)))
        (s.trySetVariable name value).2 := by
  obtain ⟨hwatchers, htold⟩ := trySetVariable_tells (s := s) name value
  refine ⟨?_, ?_⟩
  . exact hwatchers.trans joined_nil.symm
  . have hwhispered : s.whispered (.perform (.trySetVariable name value)) = [] := rfl
    rw [htold, hwatchers, hwhispered, List.append_nil]

theorem leaves_touch (act : Faulty (Story S) → World S → Faulty (Story S) × World S)
    : s.Leaves (.touch act) [] (s.touch act).2 := by
  refine ⟨rfl, ?_⟩
  rw [notices_nil, List.append_nil, whispered, touch]
  cases s.runner.story with
  | none => exact (List.append_nil _).symm
  | some f => exact told_absorb ..

end Leaves

theorem leaves_arranged (request : Operation S (Faulty (Story S)))
    : s.Leaves request (s.sets (.perform request)) (s.arranged request) := by
  cases request with
  | choose index | tryChoose index => exact (still_choose index).leaves rfl rfl
  | start f autoAdvance => exact leaves_start f autoAdvance
  | reset =>
    exact (still_touch Faulty.watchers_reset fun f w => by rw [Faulty.world_reset]).leaves rfl rfl
  | rewind =>
    exact (still_touch (fun f _ => Faulty.watchers_rewind f) fun _ _ => rfl).leaves rfl rfl
  | stop | tearDown => exact leaves_quiet rfl rfl rfl
  | setVariable name value =>
    have hset := leaves_set (s := s) name value
    exact ⟨hset.watchers, hset.told⟩
  | trySetVariable name value => exact leaves_set name value
  | observe name observer =>
    have henlists := enlists_observe (s := s) observer name
    exact leaves_quiet henlists.registrations henlists.told rfl
  | observeAll names observer =>
    have henlists := enlists_observeAll (s := s) observer names
    exact leaves_quiet henlists.watchers henlists.told rfl
  | bind function lookaheadSafe => exact (still_bind function lookaheadSafe).leaves rfl rfl
  | load text => exact (still_load text).leaves rfl rfl
  | touch act => exact leaves_touch act
  | remember change => exact Still.leaves ⟨rfl, rfl⟩ rfl rfl
  | _ => exact Still.refl.leaves rfl rfl

theorem leaves_perform (request : Operation S (Faulty (Story S)))
    : s.Leaves request (s.assignments (.perform request)) (s.perform request).2 := by
  have harranged := leaves_arranged (s := s) request
  obtain ⟨hwatchers, htold⟩ := (plays_perform s request).tells
  refine ⟨hwatchers.trans harranged.watchers, ?_⟩
  rw [htold, hwatchers, harranged.told, assignments, notices_append, List.append_assoc]

theorem Leaves.still {request : Operation S (Faulty (Story S))} (h : s.Leaves request [] s')
    (hregistered : s.registered (.perform request) s.watchers = joined s.watchers [])
    (hwhispered : s.whispered (.perform request) = []) : s.Still s' where
  watchers := by
    rw [h.watchers, hregistered, joined_nil]
  told := by
    rw [h.told, hwhispered, notices_nil, List.append_nil, List.append_nil]

structure Watch where
  watchers : String → List Observer := fun _ => []
  told : List (Observer × String × Value) := []

/--
What observers were told after one more move, in which each assignment is told to the observers that
its variable has.
-/
def watch (s : Session S (Faulty (Story S))) (move : Move S (Faulty (Story S)))
    (seen : Watch) : Watch :=
  let watchers := s.registered move seen.watchers
  { watchers, told := seen.told ++ s.whispered move ++ notices watchers (s.assignments move) }

structure Watched (seen : Watch) (s : Session S (Faulty (Story S))) : Prop where
  watchers : s.watchers = seen.watchers
  told : s.told = seen.told

section Watched

variable {seen : Watch}

theorem Watched.perform (h : Watched seen s) (request : Operation S (Faulty (Story S)))
    : Watched (s.watch (.perform request) seen) (s.perform request).2 := by
  have hleaves := leaves_perform (s := s) request
  have hwatchers : (s.perform request).2.watchers
      = s.registered (.perform request) seen.watchers := by
    rw [hleaves.watchers, h.watchers]
  refine ⟨hwatchers, ?_⟩
  rw [hleaves.told, hwatchers, h.told]
  rfl

theorem Watched.release (h : Watched seen s) : Watched (s.watch .release seen) s.release := by
  have hsame : s.watch .release seen = ⟨fun _ => [], seen.told ++ [] ++ []⟩ := rfl
  rw [hsame, List.append_nil, List.append_nil]
  exact ⟨watchers_none rfl, resembles_release.told.trans h.told⟩

theorem Watched.aside (h : Watched seen s) {move : Move S (Faulty (Story S))}
    (hrequest : ∀ request, move ≠ .perform request) (hrelease : move ≠ .release)
    : Watched (s.watch move seen) (s.move move) := by
  have hstill := (resembles_aside (s := s) hrequest hrelease).still
  have hsame : s.watch move seen = ⟨joined seen.watchers [], seen.told ++ [] ++ []⟩ := by
    cases move with
    | perform request => exact absurd rfl (hrequest request)
    | release => exact absurd rfl hrelease
    | _ => rfl
  rw [hsame, joined_nil, List.append_nil, List.append_nil]
  exact ⟨hstill.watchers.trans h.watchers, hstill.told.trans h.told⟩

theorem Watched.move (h : Watched seen s) (move : Move S (Faulty (Story S)))
    : Watched (s.watch move seen) (s.move move) := by
  cases move with
  | perform request => exact h.perform request
  | release => exact h.release
  | _ => exact h.aside (by simp) (by simp)

end Watched

end Watch

end Session

def Course.watch {S : Type} (c : Course S (Faulty (Story S))) : Session.Watch :=
  c.fold Session.watch {}

namespace Session

variable {S : Type} (options : LoadOptions) (memory : S) (bound : Nat)
    (host : Program S (Faulty (Story S)))

theorem run_tells_observers
    : ((Session.new options memory).course bound host).now
        =
      ((Session.new options memory).run bound host).2 ∧
        (∀ (f : Faulty (Story S)) w, f.Continues w (f.deeds w) (Engine.continueOne f w)) ∧
        ∀ past, ((Session.new options memory).course bound host).Extends past →
          past.now.told = past.watch.told ∧ past.now.watchers = past.watch.watchers ∧
          (∀ names observer, (past.now.perform (.observeAll names observer)).2.world.chronicle
            = past.now.world.chronicle ++ names.filterMap (past.now.complaint? observer)) ∧
          past.now.Still (past.now.perform .reset).2 ∧ past.now.Still (past.now.perform .rewind).2 ∧
          ∀ text, past.now.Still (past.now.perform (.load text)).2 := by
  obtain ⟨hrun, ⟨_, hstaged⟩, _⟩ := staged_course options memory bound host
  refine ⟨hrun, Faulty.continues, ?_⟩
  intro past hpast
  obtain ⟨_, hpast⟩ := hstaged.of_extends hpast
  have hwatched : Watched past.watch past.now :=
    hpast.fold_keeps (I := Watched) (Q := fun _ => True) (fun _ _ => ⟨rfl, rfl⟩)
      (fun _ move _ _ h => h.move move) (fun _ _ => trivial)
  refine ⟨hwatched.told, hwatched.watchers, ?_, ?_, ?_, ?_⟩
  . intro names observer
    exact (enlists_observeAll observer names).chronicle
  . exact Leaves.still (leaves_perform .reset) rfl rfl
  . exact Leaves.still (leaves_perform .rewind) rfl rfl
  . intro text
    exact Leaves.still (leaves_perform (.load text)) rfl rfl

/--
A host that lets two observers know of a variable, one of them also of a variable that there is not,
sets the variable and goes on to a call of a function that is not bound.
-/
def spying : Program Unit (Faulty (Story Unit)) :=
  Routine.program do
    let steps : List Step := [.set "gold" (.int 1), .call "f" [] (some "gold"), .line ⟨"done", []⟩]
    Routine.perform (.start ⟨.new (.ofList [("gold", .int 0)]) [steps], []⟩ false)
    Routine.perform (.observe "gold" ⟨"first", 0⟩)
    Routine.perform (.observeAll ["gold", "silver"] ⟨"second", 1⟩)
    Routine.perform (.setVariable "gold" (.int 5))
    Routine.perform .advance

theorem run_tells_spying
    : let s := ((Session.new {} ()).run 2 spying).2
      s.told = [(⟨"first", 0⟩, "gold", .int 5), (⟨"second", 1⟩, "gold", .int 5),
        (⟨"first", 0⟩, "gold", .int 1), (⟨"second", 1⟩, "gold", .int 1)] ∧
        s.watchers "gold" = [⟨"first", 0⟩, ⟨"second", 1⟩] ∧
        (s.perform (.observeAll ["silver", "gold"] ⟨"first", 0⟩)).2.world.chronicle
          = s.world.chronicle
          ++ [.log .warn
            "The active story can not observe the variable `silver` because it doesn't exist."] ∧
        s.Still (s.perform .reset).2 := by
  intro s
  obtain ⟨hrun, _, htells⟩ := run_tells_observers {} () 2 spying
  obtain ⟨htold, hwatchers, hcomplaints, hreset, _⟩ := htells _ ⟨rfl, List.suffix_rfl⟩
  rw [hrun] at htold hwatchers hcomplaints hreset
  refine ⟨htold.trans rfl, congrFun hwatchers "gold", ?_, hreset⟩
  exact (hcomplaints _ _).trans rfl

end Session

end Parley
