import Parley.Proofs.Oblivious
import Parley.Proofs.Script.Steps

/-!
This module contains that a reset is a fresh start. Of what happened to a story nothing is left but
the observers of its variables and the functions bound to it, so that a session goes on after a
reset just as it would have done had the story been started anew.
-/

namespace Parley

namespace World

variable {S : Type} {w w' : World S}

theorem journal_record (h : w'.journal = w.journal) (entry : Record)
    : (w'.record entry).journal = (w.record entry).journal := by
  rw [record_journal, record_journal, h]

theorem journal_notify (h : w'.journal = w.journal) (observers : List Observer) (name : String)
    (value : Value)
    : (w'.notify observers name value).journal = (w.notify observers name value).journal := by
  unfold notify
  induction observers generalizing w w' with
  | nil => exact h
  | cons observer observers ih => exact ih (journal_record h _)

end World

theorem Function.Stateless.journal_call {S : Type} {f : Function S} (hf : f.Stateless)
    (arguments : List Value) {w w' : World S} (h : w'.journal = w.journal)
    : (f.call arguments w').2.journal = (f.call arguments w).2.journal := by
  have hrun : ∀ arguments, (f.run arguments w').2.journal = (f.run arguments w).2.journal := by
    intro arguments
    simp only [Function.run, World.record_journal, h, hf arguments w'.memory w.memory]
  unfold Function.call
  split
  . exact hrun arguments
  . split
    . split
      . exact hrun _
      . exact World.journal_record h _
    . exact World.journal_record h _

namespace Script.Story

variable {S : Type} {s : Story S}

def Stateless (s : Story S) : Prop :=
  ∀ name f, (s.functions.get? name).map (·.1) = some f → f.Stateless

theorem Stateless.play (h : s.Stateless) (w w' : World S) (hjournal : w'.journal = w.journal)
    (steps : List Step)
    : (s.play w' steps).1 = (s.play w steps).1 ∧ (s.play w' steps).2.1 = (s.play w steps).2.1 ∧
        (s.play w' steps).2.2.journal = (s.play w steps).2.2.journal ∧
        (s.play w steps).2.1.Stateless := by
  induction steps generalizing s w w' with
  | nil => exact ⟨rfl, rfl, hjournal, h⟩
  | cons step rest ih =>
    cases step with
    | line line => exact ⟨rfl, rfl, hjournal, h⟩
    | choices options => exact ⟨rfl, rfl, hjournal, h⟩
    | set name value =>
      exact ih (s := (s.assign name value w).1.next) h _ _ (World.journal_notify hjournal _ _ _)
    | report message severity => exact ih (s := s.next) h _ _ (World.journal_record hjournal _)
    | call name arguments target =>
      simp only [Story.play]
      cases hs : s.functions.get? name with
      | none => exact ⟨rfl, rfl, hjournal, h⟩
      | some bound =>
        obtain ⟨f, lookaheadSafe⟩ := bound
        have hf := h name f (by rw [hs]; rfl)
        have hcall := hf.call arguments w' w
        have hwritten := hf.journal_call arguments hjournal
        dsimp only
        generalize f.call arguments w = called at hcall hwritten ⊢
        generalize f.call arguments w' = called' at hcall hwritten ⊢
        obtain ⟨result, v⟩ := called
        obtain ⟨result', v'⟩ := called'
        dsimp only at hcall hwritten ⊢
        rw [hcall]
        cases target with
        | none => exact ih (s := s.next) h _ _ hwritten
        | some name =>
          cases result with
          | none => exact ih (s := s.next) h _ _ hwritten
          | some value =>
            exact ih (s := (s.assign name value v).1.next) h _ _
                (World.journal_notify hwritten _ _ _)

theorem Stateless.bind (h : s.Stateless) {f : Function S} (hf : f.Stateless) (lookaheadSafe : Bool)
    : (Engine.bind s f lookaheadSafe).2.Stateless := by
  intro name g hg
  have hg : ((s.functions.set f.name (f, lookaheadSafe)).get? name).map (·.1) = some g := hg
  rw [Table.get?_set] at hg
  split at hg
  . cases hg
    exact hf
  . exact h name g hg

theorem oblivious_stateless : Engine.Oblivious (Stateless : Story S → Prop) where
  continueOne story h := by
    constructor
    . intro world
      exact (h.play world world rfl _).2.2.2
    . intro memory memory'
      obtain ⟨hresult, hstory, hjournal, _⟩ := h.play ⟨memory, []⟩ ⟨memory', []⟩ rfl story.upcoming
      exact ⟨hresult, hstory, hjournal⟩
  choose story index h := by
    change (story.choose index).2.Stateless
    unfold Story.choose
    split
    . exact h
    . exact h
  reset story h := ⟨fun _ => h, fun _ _ => ⟨rfl, rfl, rfl⟩⟩
  rewind story h := h
  setVariable story name value h := by
    refine ⟨fun _ => h, fun memory memory' => ⟨rfl, rfl, ?_⟩⟩
    have hjournal : (⟨memory', []⟩ : World S).journal = (⟨memory, []⟩ : World S).journal := rfl
    exact World.journal_notify hjournal _ _ _
  observe story name observer h := h
  bind story f lookaheadSafe hf h := h.bind hf lookaheadSafe
  load story text h := by
    change (story.load text).2.Stateless
    unfold Story.load
    split
    . exact h
    . exact h

/--
A story at its start, with the observers and the functions of another one.
-/
def anew (first story : Story S) : Story S :=
  { (new first.defaults first.knots : Story S) with
    observers := story.observers, functions := story.functions }

/--
Whether a story has the knots and the declared variables of the one that was started.
-/
def Stems (begun : Option (Story S)) (story : Story S) : Prop :=
  ∃ first, begun = some first ∧ story.knots = first.knots ∧ story.defaults = first.defaults

theorem script_play (w : World S) (steps : List Step)
    : (s.play w steps).2.1.knots = s.knots ∧ (s.play w steps).2.1.defaults = s.defaults := by
  obtain ⟨_, _, hframe⟩ := play_frame (s := s) w steps
  rw [hframe]
  exact ⟨rfl, rfl⟩

theorem maintains_stems (begun : Option (Story S)) : Engine.Maintains (Stems begun) where
  continueOne story world h := by
    obtain ⟨first, hbegun, hknots, hdefaults⟩ := h
    obtain ⟨hknots', hdefaults'⟩ := script_play (s := story) world story.upcoming
    exact ⟨first, hbegun, hknots'.trans hknots, hdefaults'.trans hdefaults⟩
  choose story index h := by
    change Stems begun (story.choose index).2
    unfold Story.choose
    split
    . exact h
    . exact h
  reset story world h := h
  rewind story h := h
  setVariable story name value world h := h
  observe story name observer h := h
  bind story function lookaheadSafe h := h
  load story text h := by
    change Stems begun (story.load text).2
    unfold Story.load
    split
    . exact h
    . exact h

end Script.Story

namespace Session

variable {S E : Type}

def begins (s : Session S E) : Move S E → Option E
  | .perform (.start story _) => if s.runner.story.isNone then some story else none
  | _ => none

def Quiescent (s : Session S E) : Prop :=
  s.runner.dispatching = false ∧ s.runner.pending = []

end Session

def Runner.begun {S E : Type} (story : E) (options : LoadOptions)
    (registry : Registry (Handler S E))
    : Runner S E :=
  { story := some story, options, registry }

def Course.begun? {S E : Type} [Engine S E] (c : Course S E) : Option E :=
  go c.start c.moves
where
  go (start : Session S E) : List (Move S E) → Option E
    | [] => none
    | move :: before => ((Course.mk start before).now.begins move).or (go start before)

/--
Whether a move, if it changes the story behind the runner's back, leaves its knots and its declared
variables alone.
-/
def Move.Spares {S : Type} : Move S (Script.Story S) → Prop
  | .perform (.touch act) => ∀ story world,
    (act story world).1.knots = story.knots ∧ (act story world).1.defaults = story.defaults
  | _ => True

section Begun

open Script Session

variable {S : Type} {s : Session S (Story S)} {c : Course S (Story S)}

theorem Session.StorySatisfies.stems {begun : Option (Story S)}
    (h : s.StorySatisfies (Story.Stems begun)) {move : Move S (Story S)} (hspares : move.Spares)
    : (s.move move).StorySatisfies (Story.Stems ((s.begins move).or begun)) := by
  cases move with
  | perform request =>
    cases request with
    | start story autoAdvance =>
      refine storySatisfies_perform ⟨(Story.maintains_stems _).continueOne, ?_⟩
      rw [begins]
      split
      . exact ⟨story, rfl, rfl, rfl⟩
      . exact h
    | touch act =>
      apply StorySatisfies.move (Story.maintains_stems begun) h
      rintro story world ⟨first, hbegun, hknots, hdefaults⟩
      obtain ⟨hknots', hdefaults'⟩ := hspares story world
      exact ⟨first, hbegun, hknots'.trans hknots, hdefaults'.trans hdefaults⟩
    | _ => exact StorySatisfies.move (Story.maintains_stems begun) h trivial
  | _ => exact StorySatisfies.move (Story.maintains_stems begun) h trivial

theorem Staged.stems {stage : Stage S (Story S)} (h : Staged stage c)
    (hspares : ∀ move ∈ c.moves, move.Spares) : c.now.StorySatisfies (Story.Stems c.begun?) := by
  induction h with
  | begin options memory => exact storySatisfies_of_none rfl
  | push _ _ ih =>
    rw [Course.push, List.forall_mem_cons] at hspares
    exact (ih hspares.2).stems hspares.1
  | delivered _ ih => exact ih hspares

end Begun

namespace Run

open Session

variable {S E : Type} [Engine S E] {s : Session S E}

theorem drain_nil (hpending : s.runner.pending = []) (bound : Nat)
    : outcome (drain (bound + 1)) s = (some (), s) := by
  simp [drain, hpending]

theorem emitWith_unheard (hrest : s.Quiescent) {event : Event}
    (hunheard : s.runner.registry.handlers event.kind = []) {bound : Nat} (hbound : 2 ≤ bound)
    : ∃ s', outcome (emitWith (drain bound) event) s = (some (), s') ∧ s'.runner = s.runner := by
  obtain ⟨hdispatching, hpending⟩ := hrest
  obtain ⟨bound, rfl⟩ := Nat.exists_eq_add_of_le' hbound
  have hqueued : ((s.enqueue event).dispatch true).runner.pending = [event] := by
    change s.runner.pending ++ [event] = [event]
    rw [hpending, List.nil_append]
  have hhandlers : ((s.enqueue event).dispatch true).runner.registry.handlers event.kind
      = [] := hunheard
  generalize hbusy : (s.enqueue event).dispatch true = busy at hqueued hhandlers
  have htaken : busy.take.runner.pending = [] := by
    rw [take_eq hqueued]
    rfl
  have hdrain : outcome (drain (bound + 2)) busy = (some (), busy.take) := by
    unfold drain
    simp only [outcome_bind, outcome_get, hqueued, outcome_set, hhandlers, deliver, outcome_pure]
    rw [← take_eq hqueued, drain_nil htaken]
  refine ⟨busy.take.dispatch false, ?_, ?_⟩
  . rw [emitWith_outside event hdispatching]
    simp [settle, hbusy, hdrain]
  . rw [take_eq hqueued, ← hbusy]
    change { s.runner with pending := [], dispatching := false } = s.runner
    rw [← hdispatching, ← hpending]

end Run

namespace Session

section Unheard

variable {S E : Type} [Engine S E] {s : Session S E} {bound : Nat}

omit [Engine S E] in
theorem Quiescent.begun (h : s.Quiescent) (story : E)
    : { s.runner.clearContent with story := some story, paused := false }
        =
      Runner.begun story s.runner.options s.runner.registry := by
  unfold Runner.begun Runner.clearContent
  rw [h.1, h.2]

theorem emit_begun {story : E} {options : LoadOptions} {registry : Registry (Handler S E)}
    (hrunner : s.runner = Runner.begun story options registry) (event : Event)
    (hunheard : registry.handlers event.kind = []) (hbound : 2 ≤ bound)
    : ∃ s', outcome (Run.emitWith (Run.drain bound) event) s = (some (), s') ∧
        s'.runner = Runner.begun story options registry := by
  rw [← hrunner]
  apply Run.emitWith_unheard _ _ hbound
  . unfold Quiescent
    rw [hrunner]
    exact ⟨rfl, rfl⟩
  . rw [hrunner]
    exact hunheard

theorem request_start_unheard (story : E) (hrest : s.Quiescent) (hidle : s.runner.story = none)
    (hunheard : s.runner.registry.handlers .started = []) (hbound : 2 ≤ bound)
    : ∃ s', s.request bound (.start story false) = (some (), s') ∧
        s'.runner = Runner.begun story s.runner.options s.runner.registry := by
  have hadopt : (s.adopt story).runner = Runner.begun story s.runner.options s.runner.registry :=
    hrest.begun story
  obtain ⟨s', hemit, hrunner⟩ := emit_begun hadopt .started hunheard hbound
  refine ⟨s', ?_, hrunner⟩
  change outcome (Run.start (Run.emitWith (Run.drain bound)) story false) s = _
  simp [Run.start, hidle, hemit]

end Unheard

open Script

variable {S : Type} {s t : Session S (Story S)} {story : Story S}

theorem perform_reset (hstory : s.runner.story = some story)
    : ∃ s' : Session S (Story S), s.perform .reset = (some (), s'.enqueue .restarted) ∧
        s'.runner
          = { s.runner.clearContent with story := some (story.anew story), paused := false } := by
  rw [perform_eq]
  simp only [Run.operation, Run.reset, outcome_bind, outcome_get, hstory]
  exact ⟨_, rfl, rfl⟩

theorem request_reset (hrest : s.Quiescent) (hstory : s.runner.story = some story)
    (hunheard : s.runner.registry.handlers .restarted = []) {bound : Nat} (hbound : 2 ≤ bound)
    : ∃ s', s.request bound .reset = (some (), s') ∧
        s'.runner = Runner.begun (story.anew story) s.runner.options s.runner.registry := by
  change ∃ s', outcome (Run.reset (Run.emitWith (Run.drain bound))) s = _ ∧ _
  simp only [Run.reset, outcome_bind, outcome_get, hstory]
  exact emit_begun (hrest.begun (story.anew story)) .restarted hunheard hbound

theorem account_begun (hstory : story.Stateless) {options : LoadOptions}
    {registry : Registry (Handler S (Story S))} (hregistry : registry.Stateless Story.Stateless)
    (hs : s.runner = Runner.begun story options registry)
    (ht : t.runner = Runner.begun story options registry) (bound : Nat)
    {requests : List (Operation S (Story S))}
    (hrequests : ∀ request ∈ requests, request.Stateless Story.Stateless)
    : s.account bound requests = t.account bound requests := by
  have htwin : Twin Story.Stateless t s := by
    constructor
    . rw [hs, ht]
    . exact storySatisfies_of_some (by rw [ht]; rfl) hstory
    . rw [ht]
      exact hregistry
  exact htwin.account Story.oblivious_stateless bound hrequests

variable (options : LoadOptions) (memory : S) (bound : Nat) (host : Program S (Story S))

-- The runner that was never reset may have reached its start in any way, with any memory of its
-- host.
theorem run_resets_afresh (past : Course S (Story S))
    (hpast : ((Session.new options memory).course bound host).Extends past)
    (hspares : ∀ move ∈ past.moves, move.Spares) (story : Story S)
    (hstory : past.now.runner.story = some story)
    : ∃ first, past.begun? = some first ∧
        (∃ s, past.now.perform .reset = (some (), s) ∧ s.runner.story = some (first.anew story) ∧
          s.runner.status = .active ∧ s.runner.paused = false ∧ s.runner.line = none ∧
          s.runner.choices = []) ∧
        (past.now.Quiescent → past.now.runner.registry.handlers .restarted = [] →
          past.now.runner.registry.handlers .started = [] → ∀ limit, 2 ≤ limit →
            ∃ s, past.now.request limit .reset = (some (), s) ∧
              s.runner = Runner.begun (first.anew story) past.now.runner.options
                past.now.runner.registry ∧
              ∀ t : Session S (Story S), t.Quiescent → t.runner.story = none →
                t.runner.options = past.now.runner.options →
                t.runner.registry = past.now.runner.registry →
                  ∃ t', t.request limit (.start (first.anew story) false) = (some (), t') ∧
                    t'.runner = s.runner ∧
                    (story.Stateless → past.now.runner.registry.Stateless Story.Stateless →
                      ∀ limit (requests : List (Operation S (Story S))),
                        (∀ request ∈ requests, request.Stateless Story.Stateless) →
                          s.account limit requests = t'.account limit requests)) := by
  obtain ⟨_, ⟨_, hstaged⟩, _⟩ := staged_course options memory bound host
  obtain ⟨_, hpast⟩ := hstaged.of_extends hpast
  obtain ⟨first, hbegun, hknots, hdefaults⟩ := hpast.stems hspares story hstory
  have hanew : story.anew story = first.anew story := by
    unfold Story.anew
    rw [hknots, hdefaults]
  refine ⟨first, hbegun, ?_, ?_⟩
  . obtain ⟨s, hreset, hrunner⟩ := perform_reset hstory
    have henqueue : (s.enqueue .restarted).runner
        = { s.runner with pending := s.runner.pending ++ [.restarted] } :=
      rfl
    rw [hanew] at hrunner
    refine ⟨_, hreset, ?_⟩
    rw [henqueue, hrunner]
    exact ⟨rfl, rfl, rfl, rfl, rfl⟩
  . intro hrest hrestarted hstarted limit hlimit
    obtain ⟨s, hreset, hrunner⟩ := request_reset hrest hstory hrestarted hlimit
    rw [hanew] at hrunner
    refine ⟨s, hreset, hrunner, ?_⟩
    intro t hrest' hidle hoptions hregistry
    obtain ⟨t', hstart, hrunner'⟩ := request_start_unheard (first.anew story) hrest' hidle
      (by rw [hregistry, hstarted]) hlimit
    rw [hoptions, hregistry] at hrunner'
    refine ⟨t', hstart, hrunner'.trans hrunner.symm, ?_⟩
    intro hstateless hhandlers limit requests hrequests
    have hfresh : (first.anew story).Stateless := hstateless
    exact account_begun hfresh hhandlers hrunner hrunner' limit hrequests

def noting : Handler Unit (Story Unit) := fun _ => .perform (.note "noted") fun _ => .done

def straying : Program Unit (Story Unit) :=
  .subscribe .newLine noting fun _ => .perform (.start tour true) fun _ =>
    .perform (.setVariable "x" (.int 7)) fun _ => .done

def strayed : Course Unit (Story Unit) :=
  (Session.new {} ()).course 3 straying

def waiting : Session Unit (Story Unit) :=
  ((Session.new {} ()).subscribe .newLine noting).2

theorem run_resets_strayed
    : ∃ s t, strayed.now.request 2 .reset = (some (), s) ∧
        waiting.request 2 (.start (tour.anew tour) false) = (some (), t) ∧
        s.runner = t.runner ∧
        s.account 3 [.advance, .tryChoose 0 true, .variableValue "x"]
          = t.account 3 [.advance, .tryChoose 0 true, .variableValue "x"] := by
  have hmoves : ∀ move ∈ strayed.moves, move.Spares := by
    have hstrayed : strayed.moves
        = [.perform (.setVariable "x" (.int 7)), .dispatch false, .leave ⟨0⟩,
            .perform (.note "noted"), .enter ⟨0⟩ (.newLine ⟨"one", []⟩), .take, .dispatch true,
            .perform .advance, .dispatch false, .take, .dispatch true,
            .perform (.start tour false), .subscribe .newLine noting] := rfl
    rw [hstrayed]
    simp [Move.Spares]
  have hregistry : strayed.now.runner.registry.Stateless Story.Stateless := by
    intro kind entry hentry
    have hhandlers : strayed.now.runner.registry.handlers kind
        = if kind = .newLine then [(⟨0⟩, noting)] else [] := rfl
    rw [hhandlers] at hentry
    split at hentry
    . rw [List.mem_singleton.mp hentry]
      exact fun _ => ⟨trivial, fun _ => trivial⟩
    . simp at hentry
  obtain ⟨first, hbegun, _, hafresh⟩ :=
    run_resets_afresh {} () 3 straying strayed ⟨rfl, List.suffix_rfl⟩ hmoves
      { tour.next with state := { tour.next.state with values := ⟨[("x", .int 7)]⟩ } } rfl
  have hfirst : first = tour := by
    have htour : strayed.begun? = some tour := rfl
    rw [htour] at hbegun
    exact (Option.some.inj hbegun).symm
  rw [hfirst] at hafresh
  obtain ⟨s, hreset, _, hstart⟩ := hafresh ⟨rfl, rfl⟩ rfl rfl 2 (by decide)
  obtain ⟨t, hbegin, hrunner, haccount⟩ := hstart waiting ⟨rfl, rfl⟩ rfl rfl rfl
  refine ⟨s, t, hreset, hbegin, hrunner.symm, ?_⟩
  apply haccount stateless_tour hregistry
  simp [Operation.Stateless]

end Session

end Parley
