import Parley.Proofs.Ink.Lawful
import Parley.Proofs.Player.Direct
import Parley.Proofs.Run

/-!
This module contains that the session of a player shows just what the naive player prints: each line
is announced, shown by the handler and followed by the next one, until the story stands still.
-/

namespace Parley.Player

variable {E : Type} [Engine String E] {P : E → Prop}

def stage : Registry (Handler String E) :=
  ((Registry.empty (H := Handler String E)).subscribe .newLine fun event =>
    (showLine event).program).2

/--
Whether the session of a player is at a story and has shown a text.
-/
structure Shows (P : E → Prop) (s : Session String E) (story : E) (text : String) : Prop where
  isStory : P story
  holds : s.runner.story = some story
  paused : s.runner.paused = false
  registry : s.runner.registry = stage
  memory : s.world.memory = text

/--
Whether a session waits for the delivery of what it came upon. It is at the line that was read from
a story, or where the story stands still or has failed.
-/
inductive AwaitsDelivery (P : E → Prop) (s : Session String E)
    : List Line → Option EngineError → E → (shown : String) → Prop where
  | line {line : Line} {lines : List Line} {failure : Option EngineError}
      {story final : E} {shown : String} (shows : Shows P s story shown)
      (pending : s.runner.pending = [.newLine line]) (dispatching : s.runner.dispatching = true)
      (rest : Direct.Segment story lines failure final)
      : AwaitsDelivery P s (line :: lines) failure final shown
  | still {event : Event} {story : E} {shown : String} (shows : Shows P s story shown)
      (pending : s.runner.pending = [event]) (dispatching : s.runner.dispatching = true)
      (kind : event.kind ≠ .newLine) (still : Engine.canContinue story = false)
      (choices : s.runner.choices = Engine.choices story) : AwaitsDelivery P s [] none story shown
  | failed {error : EngineError} {story : E} {shown : String} (shows : Shows P s story shown)
      (pending : s.runner.pending = []) (dispatching : s.runner.dispatching = true)
      : AwaitsDelivery P s [] (some error) story shown

/--
Whether the session of a player is at a story and waits for what it is told to do.
-/
structure Awaits (P : E → Prop) (s : Session String E) (story : E) (text : String) : Prop
    extends Shows P s story text where
  pending : s.runner.pending = []
  dispatching : s.runner.dispatching = false

/--
Whether the session of a player waits where the lines of its story have led it, with what is shown
there unless the story has failed.
-/
structure Halts (P : E → Prop) (s : Session String E) (failure : Option EngineError) (story : E)
    (text : String) : Prop
    extends Awaits P s story text where
  still : failure = none → Engine.canContinue story = false
  choices : failure = none → s.runner.choices = Engine.choices story

abbrev delivered (s : Session String E) : Session String E :=
  s.mapRunner ({ · with dispatching := false })

omit [Engine String E] in
theorem Shows.congr {s s' : Session String E} {story : E} {text : String} (h : Shows P s story text)
    (hrunner : s'.runner = s.runner) (hmemory : s'.world.memory = s.world.memory)
    : Shows P s' story text := by
  obtain ⟨hstory, hholds, hpaused, hregistry, hshown⟩ := h
  rw [← hrunner] at hholds hpaused hregistry
  exact ⟨hstory, hholds, hpaused, hregistry, hmemory.trans hshown⟩

omit [Engine String E] in
theorem Awaits.congr {s s' : Session String E}
    {story : E} {text : String} (h : Awaits P s story text) (hrunner : s'.runner = s.runner)
    (hmemory : s'.world.memory = s.world.memory) : Awaits P s' story text := by
  refine ⟨h.toShows.congr hrunner hmemory, ?_, ?_⟩
  . rw [hrunner, h.pending]
  . rw [hrunner, h.dispatching]

omit [Engine String E] in
theorem Awaits.printed {s : Session String E} {story : E} {text : String}
    (h : Awaits P s story text)
    : Awaits P { s with world := ⟨"", []⟩ } story "" :=
  ⟨⟨h.isStory, h.holds, h.paused, h.registry, rfl⟩, h.pending, h.dispatching⟩

omit [Engine String E] in
theorem Awaits.led {s : Session String E} {story behind : E}
    {text : String} (h : Awaits P s story text) (hbehind : P behind)
    : Awaits P (s.mapRunner ({ · with story := some behind })) behind text :=
  ⟨⟨hbehind, rfl, h.paused, h.registry, h.memory⟩, h.pending, h.dispatching⟩

theorem Shows.commit {s : Session String E} {story chosen : E} {text : String}
    {index : Nat} {result : Except EngineError Unit} (h : Shows P s story text)
    (hindex : index < (Engine.choices story).length)
    (hchosen : Engine.choose story index = (result, chosen))
    : s.commit index
        =
      (result.mapError .engine, s.mapRunner ({ · with story := some chosen })) := by
  unfold Session.commit
  rw [h.holds]
  dsimp only
  rw [if_neg (by omega), if_neg (by omega), hchosen]

theorem Shows.load {s : Session String E} {story loaded : E}
    {text content : String} {result : Except EngineError Unit} (h : Shows P s story text)
    (hloaded : Engine.load story content = (result, loaded))
    : s.load content = (result, s.mapRunner ({ · with story := some loaded })) := by
  unfold Session.load
  rw [h.holds]
  dsimp only
  rw [hloaded]

section AwaitsDelivery

variable {s : Session String E} {lines : List Line} {failure : Option EngineError} {final : E}
    {shown : String}

theorem AwaitsDelivery.record (h : AwaitsDelivery P s lines failure final shown) (entry : Record)
    : AwaitsDelivery P (s.record entry) lines failure final shown := by
  cases h with
  | line shows pending dispatching rest =>
    exact .line (shows.congr rfl rfl) pending dispatching rest
  | still shows pending dispatching kind still choices =>
    exact .still (shows.congr rfl rfl) pending dispatching kind still choices
  | failed shows pending dispatching => exact .failed (shows.congr rfl rfl) pending dispatching

theorem AwaitsDelivery.registry (h : AwaitsDelivery P s lines failure final shown)
    : s.runner.registry = stage := by
  cases h with
  | line shows => exact shows.registry
  | still shows => exact shows.registry
  | failed shows => exact shows.registry

end AwaitsDelivery

open Run

abbrev never : Session String E → Prop := fun _ => False

/--
Whether a program, in which every request causes fewer than `bound` events, ends with a session that
satisfies `post`.
-/
abbrev Completes (bound : Nat) (s : Session String E) (p : Program String E)
    (post : Session String E → Prop) : Prop :=
  Ends (program (emitWith (Run.drain bound)) p) s (fun _ => post) never

/--
Whether the next step of a session comes upon an event, which then waits for its delivery, or upon a
failure.
-/
inductive Finds (P : E → Prop) (s : Session String E)
    : List Line → Option EngineError → E → (shown : String) → Prop where
  | event {event : Event} {s' : Session String E} {lines : List Line}
      {failure : Option EngineError} {final : E} {shown : String} (step : s.step = (.ok event, s'))
      (dispatching : s'.runner.dispatching = s.runner.dispatching)
      (pending : s'.runner.pending = [])
      (delivery : ∀ s'', s''.runner = { s'.runner with pending := [event], dispatching := true } →
        s''.world.memory = s'.world.memory → AwaitsDelivery P s'' lines failure final shown)
      : Finds P s lines failure final shown
  | failure {error : RunnerError} {s' : Session String E} {failed : EngineError} {final : E}
      {shown : String} (step : s.step = (.error error, s'))
      (dispatching : s'.runner.dispatching = s.runner.dispatching)
      (pending : s'.runner.pending = []) (shows : Shows P s' final shown)
      : Finds P s [] (some failed) final shown

theorem finds_still {s : Session String E} {story : E} {shown : String} (h : Shows P s story shown)
    (hpending : s.runner.pending = []) (hstill : Engine.canContinue story = false)
    : Finds P s [] none story shown := by
  have hdelivery : ∀ {event : Event} {s' s'' : Session String E} {choices : List Choice},
      event.kind ≠ .newLine →
      s'.runner = { s.runner with line := none, choices } → s'.world.memory = s.world.memory →
      choices = Engine.choices story →
      s''.runner = { s'.runner with pending := [event], dispatching := true } →
      s''.world.memory = s'.world.memory → AwaitsDelivery P s'' [] none story shown := by
    intro event s' s'' choices hkind hcleared hmemory hchoices hrunner hmemory'
    rw [hcleared] at hrunner
    refine .still ⟨h.isStory, ?_, ?_, ?_, (hmemory'.trans hmemory).trans h.memory⟩ ?_ ?_
        hkind hstill ?_
    all_goals rw [hrunner]
    . exact h.holds
    . exact h.paused
    . exact h.registry
    . exact hchoices
  cases hchoices : Engine.choices story with
  | nil =>
    have hstep : s.step = (.ok .ended, s.mapRunner (·.clearContent)) := by
      unfold Session.step
      rw [h.holds]
      dsimp only
      rw [if_neg (by simp [hstill]), hchoices]
    exact .event hstep rfl hpending fun s'' => hdelivery (by decide) rfl rfl hchoices.symm
  | cons choice choices =>
    have hstep : s.step = (.ok (.newChoices (choice :: choices)),
        s.mapRunner ({ · with line := none, choices := choice :: choices })) := by
      unfold Session.step
      rw [h.holds]
      dsimp only
      rw [if_neg (by simp [hstill]), hchoices]
    exact .event hstep rfl hpending fun s'' =>
        hdelivery (by simp [Event.kind]) rfl rfl hchoices.symm

variable (hP : Engine.Secluded P)

include hP

omit [Engine String E] hP in
theorem shows_aloof {α : Type} {act : World String → α × E × World String} {s : Session String E}
    {story behind : E} {shown : String} {world : World String} {a : α}
    (hact : Engine.Aloof act ∧ ∀ w, P (act w).2.1) (h : Shows P s story shown)
    (hdone : act Direct.nowhere = (a, behind, world))
    : ∃ world', act s.world.unwritten = (a, behind, world') ∧
        Shows P (s.absorb behind world') behind shown := by
  obtain ⟨⟨hsame, hmemory⟩, hkeeps⟩ := hact
  obtain ⟨hresult, hstory⟩ := hsame Direct.nowhere s.world.unwritten
  replace hkeeps := hkeeps s.world.unwritten
  replace hmemory := (hmemory s.world.unwritten).trans h.memory
  rw [hdone] at hresult hstory
  generalize act s.world.unwritten = done at *
  obtain ⟨a', behind', world'⟩ := done
  dsimp only at hresult hstory hkeeps hmemory
  subst hresult hstory
  exact ⟨world', rfl, hkeeps, rfl, h.paused, h.registry, hmemory⟩

theorem finds_segment {s : Session String E} {story final : E}
    {shown : String} {lines : List Line} {failure : Option EngineError} (h : Shows P s story shown)
    (hpending : s.runner.pending = []) (hsegment : Direct.Segment story lines failure final)
    : Finds P s lines failure final shown := by
  cases hsegment with
  | still hstill => exact finds_still h hpending hstill
  | @fails _ _ error _ hcontinue hfailed =>
    obtain ⟨world, hgoes, hshows⟩ := shows_aloof (hP.continueOne _ h.isStory) h hfailed
    have hstep : s.step = (.error (.engine error), s.absorb final world) := by
      unfold Session.step
      rw [h.holds]
      dsimp only
      rw [if_pos hcontinue, hgoes]
    exact .failure hstep rfl hpending hshows
  | @line _ behind _ line _ _ _ hcontinue hline hrest =>
    obtain ⟨world, hgoes, hshows⟩ := shows_aloof (hP.continueOne _ h.isStory) h hline
    have hstep : s.step = (.ok (.newLine line),
        (s.absorb behind world).mapRunner ({ · with line := some line, choices := [] })) := by
      unfold Session.step
      rw [h.holds]
      dsimp only
      rw [if_pos hcontinue, hgoes]
    refine .event hstep rfl hpending ?_
    intro s'' hrunner hmemory
    refine .line ⟨hshows.isStory, ?_, ?_, ?_, hmemory.trans hshows.memory⟩ ?_ ?_ hrest
    all_goals rw [hrunner]
    . rfl
    . exact h.paused
    . exact h.registry

theorem ends_advance_within {s : Session String E} {story final : E} {shown : String}
    {lines : List Line} {failure : Option EngineError} (h : Shows P s story shown)
    (hpending : s.runner.pending = []) (hdispatching : s.runner.dispatching = true)
    (hsegment : Direct.Segment story lines failure final) (drain : Run String E Unit)
    : Ends (advance (emitWith drain)) s
        (fun _ s' => AwaitsDelivery P s' lines failure final shown) never := by
  unfold advance tryAdvance emitWith
  simp only [ends_bind, ends_get, h.paused, Bool.false_eq_true, if_false]
  cases finds_segment hP h hpending hsegment with
  | @event event s' _ _ _ _ hstep hdispatching' hpending' hdelivery =>
    have hunderway : (s'.enqueue event).runner.dispatching = true :=
      hdispatching'.trans hdispatching
    simp only [hstep, ends_bind, ends_set, ends_modify, ends_get]
    rw [if_pos hunderway]
    simp only [ends_pure, reporting]
    apply hdelivery
    . rw [Session.enqueue_runner, hpending', List.nil_append, ← hunderway]
      rfl
    . rfl
  | @failure error s' _ _ _ hstep hdispatching' hpending' hshows =>
    simp only [hstep, ends_bind, ends_set, ends_pure, reporting, report, ends_modify]
    obtain ⟨_, hrunner, hmemory⟩ := Session.report_frame (s := s') error
    refine .failed (hshows.congr hrunner hmemory) ?_ ?_
    . rw [hrunner, hpending']
    . rw [hrunner, hdispatching', hdispatching]

omit [Engine String E] hP in
theorem handlers_stage (kind : EventKind)
    : (stage (E := E)).handlers kind
        =
      if kind = .newLine then [(⟨0⟩, fun event => (showLine event).program)] else [] := rfl

theorem ends_showLine {s : Session String E} {story final : E} {shown : String} {lines : List Line}
    {failure : Option EngineError} (h : Shows P s story shown)
    (hpending : s.runner.pending = []) (hdispatching : s.runner.dispatching = true)
    (hsegment : Direct.Segment story lines failure final) (drain : Run String E Unit) (line : Line)
    : Ends (program (emitWith drain) (showLine (.newLine line)).program) s
        (fun _ s' => AwaitsDelivery P s' lines failure final (shown ++ lineText line)) never := by
  obtain ⟨hstory, hholds, hpaused, hregistry, hmemory⟩ := h
  have hshows : Shows P (s.remember (· ++ lineText line)) story (shown ++ lineText line) :=
    ⟨hstory, hholds, hpaused, hregistry, congrArg (· ++ lineText line) hmemory⟩
  change Ends (do
    operation (emitWith drain) (.remember (· ++ lineText line))
    operation (emitWith drain) .advance
    pure ()) s _ _
  unfold operation
  simp only [ends_bind, ends_modify, ends_pure]
  exact ends_advance_within hP hshows hpending hdispatching hsegment drain

omit hP in
theorem ends_drain_unheard {s : Session String E} {event : Event} {bound : Nat} (hbound : 1 < bound)
    (hpending : s.runner.pending = [event]) (hhandlers : s.runner.registry.handlers event.kind = [])
    : Ends (Run.drain bound) s
        (fun _ s' => s'.runner = { s.runner with pending := [] } ∧
          s'.world.memory = s.world.memory) never := by
  obtain ⟨bound, rfl⟩ : ∃ k, bound = k + 2 := ⟨bound - 2, by omega⟩
  unfold Run.drain
  simp only [ends_bind, ends_get]
  rw [hpending]
  dsimp only
  rw [hhandlers]
  unfold deliver Run.drain
  simp only [ends_bind, ends_set, ends_pure, ends_get]
  exact ⟨rfl, rfl⟩

theorem ends_drain {s : Session String E} {final : E} {shown : String} {lines : List Line}
    {failure : Option EngineError} {bound : Nat} (h : AwaitsDelivery P s lines failure final shown)
    (hbound : lines.length + 1 < bound)
    : Ends (Run.drain bound) s
        (fun _ s' => Halts P (delivered s') failure final (shown ++ Direct.textOf lines))
          never := by
  -- Each delivery takes one off the bound, and a line leaves the session at what comes next in its
  -- story.
  induction bound generalizing s lines shown with
  | zero => omega
  | succ bound ih =>
    cases h with
    | @line line lines _ story _ _ hshows hpending hdispatching hrest =>
      rw [List.length_cons] at hbound
      unfold Run.drain
      simp only [ends_bind, ends_get]
      rw [hpending]
      dsimp only
      rw [hshows.registry, handlers_stage,
        if_pos (show (Event.newLine line).kind = .newLine from rfl)]
      unfold deliver
      simp only [ends_bind, ends_set, ends_modify, ends_get]
      have hentered : ∀ entry entry',
          Shows P (((s.mapRunner ({ · with pending := [] })).record entry).record entry')
          story shown :=
        fun _ _ => ⟨hshows.isStory, hshows.holds, hshows.paused, hshows.registry, hshows.memory⟩
      apply (ends_showLine hP (hentered _ _) (Eq.refl []) hdispatching hrest
          (Run.drain bound) line).imp
      intro _ s' hdelivery
      replace hdelivery := hdelivery.record (.left ⟨0⟩)
      have hregistry : (s'.record (.left ⟨0⟩)).runner.registry.isEmpty = false := by
        rw [hdelivery.registry]
        rfl
      rw [hregistry, if_neg Bool.false_ne_true]
      unfold deliver
      rw [ends_pure, Direct.textOf, ← String.append_assoc]
      exact ih hdelivery (by omega)
    | @still event story shown hshows hpending hdispatching hkind hstill hchoices =>
      have hhandlers : s.runner.registry.handlers event.kind = [] := by
        rw [hshows.registry, handlers_stage, if_neg hkind]
      rw [List.length_nil] at hbound
      apply (ends_drain_unheard (by omega) hpending hhandlers).imp
      rintro _ s' ⟨hrunner, hmemory⟩
      rw [Direct.textOf, String.append_empty]
      unfold delivered Session.mapRunner
      rw [hrunner]
      exact ⟨⟨⟨hshows.isStory, hshows.holds, hshows.paused,
        hshows.registry, hmemory.trans hshows.memory⟩, rfl, rfl⟩, fun _ => hstill,
          fun _ => hchoices⟩
    | failed hshows hpending hdispatching =>
      unfold Run.drain
      simp only [ends_bind, ends_get]
      rw [hpending]
      dsimp only
      rw [ends_pure, Direct.textOf, String.append_empty]
      exact ⟨⟨⟨hshows.isStory, hshows.holds, hshows.paused, hshows.registry, hshows.memory⟩,
        hpending, rfl⟩, by simp, by simp⟩

omit hP in
theorem ends_emit {s : Session String E} {story : E} {shown : String} {event : Event} {bound : Nat}
    (h : Awaits P s story shown) (hkind : event.kind ≠ .newLine) (hbound : 1 < bound)
    : Ends (emitWith (Run.drain bound) event) s (fun _ s' => Awaits P s' story shown) never := by
  unfold emitWith
  simp only [ends_bind, ends_modify, ends_get]
  rw [if_neg (by simp [h.dispatching])]
  simp only [ends_bind, ends_modify]
  have hqueued : ((s.enqueue event).mapRunner ({ · with dispatching := true })).runner.pending
      = [event] := by
    change s.runner.pending ++ [event] = [event]
    rw [h.pending, List.nil_append]
  have hhandlers : s.runner.registry.handlers event.kind = [] := by
    rw [h.registry, handlers_stage, if_neg hkind]
  apply (ends_drain_unheard hbound hqueued hhandlers).imp
  rintro _ s' ⟨hrunner, hmemory⟩
  refine h.congr ?_ hmemory
  unfold Session.mapRunner
  rw [hrunner, ← h.pending, ← h.dispatching]
  rfl

theorem ends_advance {s : Session String E} {story final : E} {shown : String} {lines : List Line}
    {failure : Option EngineError} {bound : Nat} (h : Awaits P s story shown)
    (hsegment : Direct.Segment story lines failure final) (hbound : lines.length + 1 < bound)
    : Ends (advance (emitWith (Run.drain bound))) s
        (fun _ s' => Halts P s' failure final (shown ++ Direct.textOf lines)) never := by
  unfold advance tryAdvance emitWith
  simp only [ends_bind, ends_get, h.paused, Bool.false_eq_true, if_false]
  cases finds_segment hP h.toShows h.pending hsegment with
  | @event event s' _ _ _ _ hstep hdispatching' hpending' hdelivery =>
    simp only [hstep, ends_bind, ends_set, ends_modify, ends_get]
    rw [if_neg
        (show ¬(s'.enqueue event).runner.dispatching = true by simp [hdispatching', h.dispatching])]
    simp only [ends_bind, ends_modify, ends_pure, reporting]
    have hqueued : ((s'.enqueue event).mapRunner ({ · with dispatching := true })).runner
        = { s'.runner with pending := [event], dispatching := true } := by
      unfold Session.mapRunner
      rw [Session.enqueue_runner, hpending', List.nil_append]
    exact ends_drain hP (hdelivery _ hqueued rfl) hbound
  | @failure error s' _ _ _ hstep hdispatching' hpending' hshows =>
    simp only [hstep, ends_bind, ends_set, ends_pure, reporting, report, ends_modify]
    obtain ⟨_, hrunner, hmemory⟩ := Session.report_frame (s := s') error
    rw [Direct.textOf, String.append_empty]
    refine ⟨⟨hshows.congr hrunner hmemory, ?_, ?_⟩, by simp, by simp⟩
    . rw [hrunner, hpending']
    . rw [hrunner, hdispatching', h.dispatching]

theorem ends_start {s : Session String E} {story final : E}
    {lines : List Line} {failure : Option EngineError} {bound : Nat} (hstory : P story)
    (hidle : s.runner.story = none) (hregistry : s.runner.registry = stage)
    (hpending : s.runner.pending = []) (hdispatching : s.runner.dispatching = false)
    (hsegment : Direct.Segment story lines failure final) (hbound : lines.length + 1 < bound)
    : Ends (start (emitWith (Run.drain bound)) story true) s
        (fun _ s' => Halts P s' failure final (s.world.memory ++ Direct.textOf lines)) never := by
  have hadopted : Awaits P (s.adopt story) story s.world.memory :=
    ⟨⟨hstory, rfl, rfl, hregistry, rfl⟩, hpending, hdispatching⟩
  unfold start
  simp only [ends_bind, ends_get, hidle, Option.isSome_none, Bool.false_eq_true, if_false,
    if_true, ends_set]
  apply (ends_emit hadopted (by decide) (by omega)).imp
  intro _ s' hstarted
  exact ends_advance hP hstarted hsegment hbound

theorem ends_choose {s : Session String E} {story chosen final : E} {shown : String}
    {lines : List Line} {failure : Option EngineError} {bound index : Nat}
    (h : Awaits P s story shown) (hindex : index < (Engine.choices story).length)
    (hchosen : Engine.choose story index = (.ok (), chosen))
    (hsegment : Direct.Segment chosen lines failure final) (hbound : lines.length + 1 < bound)
    : Ends (operation (emitWith (Run.drain bound)) (.choose index true)) s
        (fun _ s' => Halts P s' failure final (shown ++ Direct.textOf lines)) never := by
  have hcommit : s.commit index = (.ok (), s.mapRunner ({ · with story := some chosen })) :=
    h.commit hindex hchosen
  have hstory : P chosen := by
    have := hP.choose story index h.isStory
    rwa [hchosen] at this
  have hawaits : Awaits P (s.mapRunner ({ · with story := some chosen })) chosen shown :=
    h.led hstory
  have hadvance := ends_advance hP hawaits hsegment hbound
  unfold advance at hadvance
  rw [ends_bind] at hadvance
  unfold operation tryChoose
  simp only [ends_bind, ends_get, h.paused, Bool.false_eq_true, if_false, if_true,
    hcommit, ends_set]
  exact hadvance

omit hP in
theorem ends_choose_failed {s s' : Session String E} {story behind : E}
    {shown : String} {index : Nat} {error : RunnerError} (h : Awaits P s story shown)
    (hcommit : s.commit index = (.error error, s')) (hbehind : Awaits P s' behind shown)
    (emit : Event → Run String E Unit)
    : Ends (operation emit (.choose index true)) s
        (fun _ s'' => Awaits P s'' behind shown) never := by
  unfold operation tryChoose
  simp only [ends_bind, ends_get, h.paused, Bool.false_eq_true, if_false, hcommit, ends_set,
    ends_pure, reporting, report, ends_modify]
  obtain ⟨_, hrunner, hmemory⟩ := Session.report_frame (s := s') error
  exact hbehind.congr hrunner hmemory

theorem ends_reset {s : Session String E} {story start : E} {result : Except EngineError Unit}
    {world : World String} {shown : String} {bound : Nat} (h : Awaits P s story shown)
    (hstart : Engine.reset story Direct.nowhere = (result, start, world)) (hbound : 1 < bound)
    : Ends (reset (emitWith (Run.drain bound))) s (fun _ s' => Awaits P s' start shown) never := by
  obtain ⟨world', hreset, hshows⟩ := shows_aloof (hP.reset story h.isStory) h.toShows hstart
  unfold reset
  simp only [ends_bind, ends_get, h.holds, hreset]
  cases result with
  | error error =>
    simp only [ends_bind, ends_set, report, ends_modify]
    obtain ⟨_, hrunner, hmemory⟩ :=
      Session.report_frame (s := s.absorb start world') (.engine error)
    have hawaits : Awaits P (s.absorb start world') start shown :=
      ⟨hshows, h.pending, h.dispatching⟩
    exact hawaits.congr hrunner hmemory
  | ok _ =>
    simp only [ends_bind, ends_set]
    apply ends_emit _ (by decide) hbound
    exact ⟨⟨hshows.isStory, rfl, rfl, hshows.registry, hshows.memory⟩, h.pending, h.dispatching⟩

theorem ends_rewind {s : Session String E} {story start : E} {result : Except EngineError Unit}
    {shown : String} (h : Awaits P s story shown) (hstart : Engine.rewind story = (result, start))
    : Ends (rewind (S := String) (E := E)) s (fun _ s' => Awaits P s' start shown) never := by
  have hstory : P start := by
    have := hP.rewind story h.isStory
    rwa [hstart] at this
  have hawaits : Awaits P (s.mapRunner fun r => { r.clearContent with story := some start })
      start shown :=
    ⟨⟨hstory, rfl, h.paused, h.registry, h.memory⟩, h.pending, h.dispatching⟩
  unfold rewind
  simp only [ends_bind, ends_get, h.holds, hstart, ends_set]
  cases result with
  | error error =>
    obtain ⟨_, hrunner, hmemory⟩ := Session.report_frame
      (s := s.mapRunner fun r => { r.clearContent with story := some start }) (.engine error)
    exact hawaits.congr hrunner hmemory
  | ok _ => exact hawaits

omit hP in
theorem ends_stop {s : Session String E} {story : E} {shown : String} {bound : Nat}
    (h : Awaits P s story shown) (hbound : 1 < bound)
    : Ends (stop (emitWith (Run.drain bound))) s (fun _ s' => s'.world.memory = shown) never := by
  have hstopping : Awaits P (s.record .stopping) story shown := h.congr rfl rfl
  unfold stop
  simp only [ends_bind, ends_get, h.holds, Option.isSome_some, if_true, ends_modify]
  apply (ends_emit hstopping (by decide) hbound).imp
  intro _ s' hstopped
  exact hstopped.memory

omit hP in
theorem completes_perform {s : Session String E} {bound : Nat} {request : Operation String E}
    {next : request.Reply → Program String E} {post : Session String E → Prop}
    (h : Ends (operation (emitWith (Run.drain bound)) request) s
      (fun reply s' => Completes bound s' (next reply) post) never)
    : Completes bound s (.perform request next) post := by
  unfold Completes program
  rwa [ends_bind]

section Halts

variable {s : Session String E} {story final : E} {lines : List Line} {failure : Option EngineError}
    {bound : Nat}

theorem completes_advance (h : Awaits P s story "")
    (hsegment : Direct.Segment story lines failure final) (hbound : lines.length + 1 < bound)
    : Completes bound s (Routine.perform .advance).program
        (Halts P · failure final (Direct.textOf lines)) := by
  apply completes_perform
  have hadvance := ends_advance hP h hsegment hbound
  rwa [String.empty_append] at hadvance

theorem completes_choose {chosen : E} {index : Nat} (h : Awaits P s story "")
    (hindex : index < (Engine.choices story).length)
    (hchosen : Engine.choose story index = (.ok (), chosen))
    (hsegment : Direct.Segment chosen lines failure final) (hbound : lines.length + 1 < bound)
    : Completes bound s (Routine.perform (.choose index true)).program
        (Halts P · failure final (Direct.textOf lines)) := by
  apply completes_perform
  have hchoose := ends_choose hP h hindex hchosen hsegment hbound
  rwa [String.empty_append] at hchoose

theorem completes_reset {start : E} {result : Except EngineError Unit} {world : World String}
    (h : Awaits P s story "") (hstart : Engine.reset story Direct.nowhere = (result, start, world))
    (hsegment : Direct.Segment start lines failure final) (hbound : lines.length + 1 < bound)
    : Completes bound s
        (do
          Routine.perform .reset
          Routine.perform .advance : Routine String E Unit).program
        (Halts P · failure final (Direct.textOf lines)) := by
  apply completes_perform
  apply (ends_reset hP h hstart (by omega)).imp
  intro _ s' hawaits
  exact completes_advance hP hawaits hsegment hbound

theorem completes_rewind {start : E} {result : Except EngineError Unit}
    (h : Awaits P s story "") (hstart : Engine.rewind story = (result, start))
    (hsegment : Direct.Segment start lines failure final) (hbound : lines.length + 1 < bound)
    : Completes bound s
        (do
          Routine.perform .rewind
          Routine.perform .advance : Routine String E Unit).program
        (Halts P · failure final (Direct.textOf lines)) := by
  apply completes_perform
  apply (ends_rewind hP h hstart).imp
  intro _ s' hawaits
  exact completes_advance hP hawaits hsegment hbound

end Halts

omit hP in
theorem run?_of_completes {s : Session String E} {bound : Nat} {p : Program String E}
    {post : Session String E → Prop} (h : Completes bound s p post)
    : ∃ s', s.run? bound p = some s' ∧ post s' := by
  unfold Completes Ends at h
  unfold Session.run? Session.run
  generalize (program (emitWith (Run.drain bound)) p).run.run s = ended at h
  obtain ⟨_ | _, s'⟩ := ended
  . cases h
  . exact ⟨s', rfl, h⟩

end Parley.Player
