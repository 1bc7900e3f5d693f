import Parley.Proofs.Abreast
import Parley.Proofs.Save

/-!
This module contains that loading a saved state brings back where the story stood and nothing else,
and that from there the story goes on as it would have done from the save.
-/

namespace Parley

/--
Whether what a function returns depends on its arguments alone.
-/
def Function.Stateless {S : Type} (f : Function S) : Prop :=
  ∀ arguments memory memory', (f.body arguments memory).1 = (f.body arguments memory').1

theorem Function.Stateless.call {S : Type} {f : Function S}
    (h : f.Stateless) (arguments : List Value) (w w' : World S)
    : (f.call arguments w).1 = (f.call arguments w').1 := by
  unfold Function.call Function.run
  split
  . exact h arguments w.memory w'.memory
  . split
    . split
      . exact h _ w.memory w'.memory
      . rfl
    . rfl

namespace Script.Story

variable {S : Type} {s t : Story S}

/--
Whether two stories of one script stand at the same place with the same variables and call the same
functions, which are stateless.
-/
structure Alike (s t : Story S) : Prop where
  knots : t.knots = s.knots
  state : t.state = s.state
  functions : ∀ name, (t.functions.get? name).map (·.1) = (s.functions.get? name).map (·.1)
  stateless : ∀ name f, (s.functions.get? name).map (·.1) = some f → f.Stateless

section Alike

theorem Alike.upcoming (h : Alike s t) : t.upcoming = s.upcoming := by
  unfold Story.upcoming
  rw [h.knots, h.state]

theorem Alike.options (h : Alike s t) : t.options = s.options := by
  unfold Story.options
  rw [h.upcoming]

theorem Alike.withState (h : Alike s t) (state : State) : Alike { s with state } { t with state } :=
  ⟨h.knots, rfl, h.functions, h.stateless⟩

theorem Alike.next (h : Alike s t) : Alike s.next t.next := by
  unfold Story.next
  rw [h.state]
  exact h.withState _

theorem Alike.assign (h : Alike s t) (name : String) (value : Value) (w w' : World S)
    : Alike (s.assign name value w).1 (t.assign name value w').1 := by
  unfold Story.assign
  rw [h.state]
  exact h.withState _

theorem Alike.assignResult (h : Alike s t) (target : Option String)
    (result : Option Value) (w w' : World S)
    : Alike (s.assignResult target result w).1 (t.assignResult target result w').1 := by
  unfold Story.assignResult
  cases target with
  | none => exact h
  | some name =>
    cases result with
    | none => exact h
    | some value => exact h.assign name value w w'

theorem Alike.play (h : Alike s t) (w w' : World S) (steps : List Step)
    : (t.play w' steps).1 = (s.play w steps).1 ∧
        Alike (s.play w steps).2.1 (t.play w' steps).2.1 := by
  induction steps generalizing s t w w' with
  | nil => exact ⟨rfl, h⟩
  | cons step rest ih =>
    cases step with
    | line line => exact ⟨rfl, h.next⟩
    | choices options => exact ⟨rfl, h⟩
    | set name value => exact ih (h.assign name value w w').next _ _
    | report message severity => exact ih h.next _ _
    | call name arguments target =>
      have hfunctions := h.functions name
      have hstateless := h.stateless name
      simp only [Story.play]
      cases hs : s.functions.get? name with
      | none =>
        rw [hs, Option.map_none, Option.map_eq_none_iff] at hfunctions
        rw [hfunctions]
        exact ⟨rfl, h⟩
      | some bound =>
        rw [hs, Option.map_some, Option.map_eq_some_iff] at hfunctions
        obtain ⟨bound', ht, hsame⟩ := hfunctions
        rw [ht]
        rw [hs] at hstateless
        have hcall := (hstateless bound.1 rfl).call arguments w w'
        dsimp only
        rw [hsame]
        generalize bound.1.call arguments w = called at hcall ⊢
        generalize bound.1.call arguments w' = called' at hcall ⊢
        obtain ⟨result, v⟩ := called
        obtain ⟨result', v'⟩ := called'
        dsimp only at hcall ⊢
        rw [← hcall]
        exact ih (h.assignResult target result v v').next _ _

theorem Alike.choose (h : Alike s t) (index : Nat)
    : (t.choose index).1 = (s.choose index).1 ∧ Alike (s.choose index).2 (t.choose index).2 := by
  unfold Story.choose
  rw [h.options]
  cases s.options[index]? with
  | none => exact ⟨rfl, h⟩
  | some option =>
    rw [h.state]
    exact ⟨rfl, h.withState _⟩

end Alike

theorem bisimilar_alike : Engine.Bisimilar fun (s : Story S) _ t _ => Alike s t where
  canContinue h := by
    change canContinue _ = canContinue _
    unfold canContinue
    rw [h.upcoming]
  choices h := by
    change Choice.numbered _ = Choice.numbered _
    rw [h.options]
  continueOne {s m t m'} h := by
    have hplay := h.play ⟨m, []⟩ ⟨m', []⟩ s.upcoming
    have ht : Engine.continueOne t ⟨m', []⟩ = t.play ⟨m', []⟩ s.upcoming := by
      rw [← h.upcoming]
      rfl
    rw [ht]
    exact hplay
  choose h index := h.choose index

end Script.Story

namespace Operation

variable {S E : Type}

/--
Whether a request leaves the story, the pause flag and the bound functions alone and announces
nothing. The observers of variables may change.
-/
def isIdle : Operation S E → Bool
  | .unsubscribe _ | .readVariable .. | .tryReadVariable .. | .variableValue _ | .observe
      .. | .observeAll ..
  | .save | .look | .recall | .remember _ | .note _ | .log .. => true
  | _ => false

end Operation

namespace Move

variable {S E : Type}

def isProgress : Move S E → Bool
  | .perform request => request.isProgress
  | _ => false

def isIdle : Move S E → Bool
  | .perform request => request.isIdle
  | .announce | .release => false
  | _ => true

end Move

namespace Session

section Answers

variable {S E : Type} [Engine S E]

def emits (s : Session S E) (request : Operation S E) : List Event :=
  s.emittedSince (s.perform request).2

/--
The replies to the requests for progress among some moves, with the events that they emit.
-/
def answers (s : Session S E)
    : List (Move S E) → List (((request : Operation S E) × Option request.Reply) × List Event)
  | [] => []
  | .perform request :: moves =>
    if request.isProgress then
      (⟨request, (s.perform request).1⟩, s.emits request) :: (s.perform request).2.answers moves
    else
      (s.perform request).2.answers moves
  | move :: moves => (s.move move).answers moves

end Answers

open Script

variable {S : Type} {s t : Session S (Story S)}

/--
Whether two sessions, neither of which is paused, have stories that are alike.
-/
abbrev Matches : Session S (Story S) → Session S (Story S) → Prop :=
  Abreast fun story _ other _ => story.Alike other

section Idle

variable {s' : Session S (Story S)}

/--
Whether nothing that matters for a match changes: of a story only the observers may.
-/
def KeepsMatch (s s' : Session S (Story S)) : Prop :=
  s'.runner.paused = s.runner.paused ∧
    ∀ story, s.runner.story = some story →
      ∃ observers, s'.runner.story = some { story with observers }

theorem keepsMatch_of_same (hstory : s'.runner.story = s.runner.story)
    (hpaused : s'.runner.paused = s.runner.paused) : KeepsMatch s s' := by
  refine ⟨hpaused, ?_⟩
  intro story hs
  exact ⟨story.observers, hstory.trans hs⟩

theorem KeepsMatch.trans (h : KeepsMatch s s') (h' : KeepsMatch s' t) : KeepsMatch s t := by
  refine ⟨h'.1.trans h.1, ?_⟩
  intro story hs
  obtain ⟨observers, hs'⟩ := h.2 story hs
  obtain ⟨observers', ht⟩ := h'.2 _ hs'
  exact ⟨observers', ht⟩

theorem keepsMatch_of_onlyStory (h : OnlyStory Eq s s') : KeepsMatch s s' := by
  refine ⟨?_, ?_⟩
  . rw [h.runner]
  . intro story hs
    have hstory := h.story
    rw [hs] at hstory
    generalize s'.runner.story = story' at hstory ⊢
    cases hstory with
    | some heq => exact ⟨story.observers, by rw [← heq]⟩

theorem keepsMatch_observe (name : String) (observer : Observer)
    : KeepsMatch s (s.observe name observer) := by
  unfold observe
  split
  . exact keepsMatch_of_same rfl rfl
  . next story hs =>
    split
    . refine ⟨rfl, ?_⟩
      intro story' hs'
      rw [hs] at hs'
      cases hs'
      exact ⟨_, rfl⟩
    . exact keepsMatch_of_same rfl rfl

theorem keepsMatch_observeAll (names : List String) (observer : Observer)
    : KeepsMatch s (s.observeAll names observer) := by
  unfold observeAll
  induction names generalizing s with
  | nil => exact keepsMatch_of_same rfl rfl
  | cons name names ih => exact (keepsMatch_observe name observer).trans ih

theorem keepsMatch_idle {move : Move S (Story S)} (hidle : move.isIdle = true)
    : KeepsMatch s (s.move move) := by
  cases move with
  | perform request =>
    cases request with
    | unsubscribe token =>
      rcases unsubscribe_cases s token with hnone | ⟨_, _, _, hrunner⟩
      . exact keepsMatch_of_same (congrArg (·.runner.story) hnone)
          (congrArg (·.runner.paused) hnone)
      . exact keepsMatch_of_same (congrArg (·.story) hrunner) (congrArg (·.paused) hrunner)
    | readVariable name kind =>
      exact keepsMatch_of_onlyStory (onlyStory_readVariable (fun _ => rfl) name kind)
    | save =>
      have honly : OnlyStory Eq s s.save.2 := onlyStory_save fun _ => rfl
      exact keepsMatch_of_onlyStory honly
    | observe name observer => exact keepsMatch_observe name observer
    | observeAll names observer => exact keepsMatch_observeAll names observer
    | tryReadVariable | variableValue | look | «recall» | remember | note | log =>
      exact keepsMatch_of_same rfl rfl
    | _ => simp [Move.isIdle, Operation.isIdle] at hidle
  | take =>
    cases hpending : s.runner.pending with
    | nil =>
      have htake : s.take = s := by
        simp [take, hpending]
      rw [Session.move, htake]
      exact keepsMatch_of_same rfl rfl
    | cons event rest =>
      rw [Session.move, take_eq hpending]
      exact keepsMatch_of_same rfl rfl
  | announce | release => simp [Move.isIdle] at hidle
  | _ => exact keepsMatch_of_same rfl rfl

theorem Matches.left (h : Matches s t) (hkeeps : KeepsMatch s s') : Matches s' t := by
  obtain ⟨hspaused, htpaused, story, other, hs, ht, halike⟩ := h
  obtain ⟨observers, hs'⟩ := hkeeps.2 story hs
  exact ⟨hkeeps.1.trans hspaused, htpaused, _, other, hs', ht, halike.knots, halike.state,
    halike.functions, halike.stateless⟩

theorem Matches.right {t' : Session S (Story S)} (h : Matches s t) (hkeeps : KeepsMatch t t')
    : Matches s t' := by
  obtain ⟨hspaused, htpaused, story, other, hs, ht, halike⟩ := h
  obtain ⟨observers, ht'⟩ := hkeeps.2 other ht
  exact ⟨hspaused, hkeeps.1.trans htpaused, story, _, hs, ht', halike.knots, halike.state,
    halike.functions, halike.stateless⟩

end Idle

section Answers

theorem answers_idle {move : Move S (Story S)} (hidle : move.isIdle = true)
    (moves : List (Move S (Story S)))
    : s.answers (move :: moves) = (s.move move).answers moves := by
  cases move with
  | perform request =>
    cases request with
    | _ => first | rfl | simp [Move.isIdle, Operation.isIdle] at hidle
  | _ => rfl

theorem answers_progress {request : Operation S (Story S)} (hprogress : request.isProgress = true)
    (moves : List (Move S (Story S)))
    : s.answers (.perform request :: moves) =
        (⟨request, (s.perform request).1⟩, s.emits request) ::
        (s.perform request).2.answers moves := by
  simp [answers, hprogress]

theorem emits_eq {s' : Session S (Story S)} {request : Operation S (Story S)}
    {reply : Option request.Reply} {event : Option Event}
    (hperform : s.perform request = (reply, s'.enqueue? event)) (hs' : s'.history = s.history)
    : s.emits request = event.toList := by
  unfold Session.emits
  rw [hperform]
  apply emittedSince_eq
  rw [emitted_enqueue?, hs']

theorem Matches.perform (h : Matches s t) {request : Operation S (Story S)}
    (hprogress : request.isProgress = true)
    : (s.perform request).1 = (t.perform request).1 ∧ s.emits request = t.emits request ∧
        Matches (s.perform request).2 (t.perform request).2 := by
  obtain ⟨reply, event, s', t', hs, ht, htogether, _⟩ :=
    Abreast.perform Story.bisimilar_alike h hprogress
  have hs : s.perform request = (some reply, s'.enqueue? event) := hs
  have ht : t.perform request = (some reply, t'.enqueue? event) := ht
  rw [emits_eq hs htogether.left.history, emits_eq ht htogether.right.history, hs, ht]
  refine ⟨rfl, rfl, ?_⟩
  cases event with
  | none => exact htogether.abreast
  | some _ => exact ⟨htogether.abreast.left, htogether.abreast.right, htogether.abreast.stories⟩

theorem Matches.refl_right (h : Matches s t) : Matches t t := by
  obtain ⟨_, htpaused, story, other, _, ht, halike⟩ := h
  refine ⟨htpaused, htpaused, other, other, ht, ht, rfl, rfl, fun _ => rfl, ?_⟩
  intro name f hf
  rw [halike.functions] at hf
  exact halike.stateless name f hf

theorem Matches.answers_filter (h : Matches s t) {moves : List (Move S (Story S))}
    (hmoves : ∀ move ∈ moves, move.isProgress = true ∨ move.isIdle = true)
    : s.answers moves = t.answers (moves.filter Move.isProgress) := by
  induction moves generalizing s t with
  | nil => rfl
  | cons move moves ih =>
    rw [List.forall_mem_cons] at hmoves
    obtain ⟨hmove, hmoves⟩ := hmoves
    cases hprogress : move.isProgress with
    | true =>
      cases move with
      | perform request =>
        obtain ⟨hreply, hemits, hmatches⟩ := Matches.perform h hprogress
        rw [List.filter_cons_of_pos hprogress, answers_progress hprogress,
          answers_progress hprogress, hreply, hemits, ih hmatches hmoves]
      | _ => simp [Move.isProgress] at hprogress
    | false =>
      have hidle : move.isIdle = true := hmove.resolve_left (by simp [hprogress])
      rw [List.filter_cons_of_neg (by simp [hprogress]), answers_idle hidle]
      exact ih (h.left (keepsMatch_idle hidle)) hmoves

-- What is idle falls out on both sides, so that the same requests for progress are met side by
-- side.
theorem Matches.answers (h : Matches s t) {ms ns : List (Move S (Story S))}
    (hms : ∀ move ∈ ms, move.isProgress = true ∨ move.isIdle = true)
    (hns : ∀ move ∈ ns, move.isProgress = true ∨ move.isIdle = true)
    (hsame : ms.filter Move.isProgress = ns.filter Move.isProgress)
    : s.answers ms = t.answers ns := by
  rw [h.answers_filter hms, hsame, ← h.refl_right.answers_filter hns]

end Answers

section Restore

variable {story other : Story S}

def putBack (s : Session S (Story S)) (story : Story S) (state : State) : Session S (Story S) :=
  s.mapRunner ({ · with story := some { story with state } })

theorem matches_putBack (hstory : s.runner.story = some story) (hknots : other.knots = story.knots)
    (hpaused : s.runner.paused = false) (hpaused' : t.runner.paused = false)
    (hfunctions : ∀ name,
      (other.functions.get? name).map (·.1) = (story.functions.get? name).map (·.1))
    (hstateless : ∀ name f, (story.functions.get? name).map (·.1) = some f → f.Stateless)
    : Matches s (t.putBack other story.state) := by
  exact ⟨hpaused, hpaused', story, _, hstory, rfl, hknots, rfl, hfunctions, hstateless⟩

theorem rereadValue_eq {v : Value} (hexact : ∀ x, v = .float x → Json.Reader.reread x = .ok x)
    : Json.Reader.rereadValue v = .ok v := by
  cases v with
  | float x =>
    change (Json.Reader.reread x).map Value.float = _
    rw [hexact x rfl]
    rfl
  | _ => rfl

variable (options : LoadOptions) (memory : S) (bound : Nat) (host : Program S (Story S))

-- A number that is read back as it was is finite. The later session may be any, whatever happened
-- since, and between two requests for progress the handlers may do what is idle.
theorem run_restores_saved (past : Course S (Story S))
    (hpast : ((Session.new options memory).course bound host).Extends past)
    (hkeeps : ∀ move ∈ past.moves, move.Keeps Story.Proper) (story : Story S)
    (hstory : past.now.runner.story = some story)
    (hexact : ∀ entry ∈ story.state.values.entries, ∀ x, entry.2 = .float x →
      Json.Reader.reread x = .ok x)
    : ∃ text, past.now.save = (some text, past.now) ∧
        ∀ (later : Session S (Story S)) (other : Story S), later.runner.story = some other →
          other.knots = story.knots →
            later.perform (.load text) = (some (.ok ()), later.putBack other story.state) ∧
            (past.now.runner.paused = false → later.runner.paused = false →
              (∀ name, (other.functions.get? name).map (·.1)
                = (story.functions.get? name).map (·.1)) →
              (∀ name f, (story.functions.get? name).map (·.1) = some f → f.Stateless) →
                ∀ ms ns : List (Move S (Story S)),
                  (∀ move ∈ ms, move.isProgress = true ∨ move.isIdle = true) →
                  (∀ move ∈ ns, move.isProgress = true ∨ move.isIdle = true) →
                  ms.filter Move.isProgress = ns.filter Move.isProgress →
                    past.now.answers ms = (later.putBack other story.state).answers ns) := by
  obtain ⟨_, ⟨_, hstaged⟩, _⟩ := staged_course options memory bound host
  obtain ⟨_, hpast⟩ := hstaged.of_extends hpast
  have hproper := hpast.tells Story.maintains_proper hkeeps story hstory
  have hread : State.ofText? story.state.text = .ok story.state := by
    rw [State.ofText_text hproper.state]
    apply State.reread_eq hproper.state
    intro entry hentry
    exact rereadValue_eq (hexact entry hentry)
  refine ⟨story.state.text, save_eq hstory, ?_⟩
  intro later other hlater hknots
  refine ⟨?_, ?_⟩
  . change (some (later.load story.state.text).1, (later.load story.state.text).2) = _
    rw [load_ok hlater hread]
    rfl
  . intro hpaused hpaused' hfunctions hstateless ms ns hms hns hsame
    exact (matches_putBack hstory hknots hpaused hpaused' hfunctions hstateless).answers
        hms hns hsame

def half : Function Unit :=
  ⟨"half", none, fun _ memory => (some (.int 1), memory)⟩

/--
A story that calls a function on the way to a choice.
-/
def tour : Story Unit where
  knots := [[.line ⟨"one", []⟩, .call "half" [.int 3] (some "x"), .choices [("on", 1)]],
    [.line ⟨"two", []⟩]]
  defaults := ⟨[("x", .float 1.5)]⟩
  state := Story.initial ⟨[("x", .float 1.5)]⟩
  functions := ⟨[("half", half, true)]⟩

def touring : Program Unit (Story Unit) :=
  Routine.program (Routine.perform (.start tour true))

theorem proper_tour : tour.Proper := by
  have hnew : (Story.new tour.defaults tour.knots : Story Unit).Proper := by
    apply Story.proper_new
    . simp [tour, Table.keys]
    . decide
    . simp [tour, Json.Number.wordLimit]
  exact { hnew with }

theorem stateless_tour (name : String) (f : Function Unit)
    (hf : (tour.functions.get? name).map (·.1) = some f) : f.Stateless := by
  by_cases hname : name = "half"
  . rw [hname] at hf
    cases hf
    exact fun _ _ _ => rfl
  . simp [tour, Table.get?, List.lookup_cons, beq_eq_false_iff_ne.mpr hname] at hf

theorem run_restores_tour
    : let c := (Session.new {} ()).course 2 touring
      let later := (((c.now.perform .advance).2.perform (.choose 0 true)).2.perform
        (.setVariable "x" (.int 7))).2
      ∃ text loaded, c.now.save = (some text, c.now) ∧
        later.perform (.load text) = (some (.ok ()), loaded) ∧
        c.now.answers [.perform .tryAdvance, .perform (.tryChoose 0 true)]
          = loaded.answers [.dispatch true, .take, .perform .tryAdvance, .perform .look,
              .perform (.tryChoose 0 true)] := by
  intro c later
  have hmoves : ((Session.new {} ()).course 2 touring).moves
      = [.dispatch false, .take, .dispatch true, .perform .advance, .dispatch false, .take,
          .dispatch true, .perform (.start tour false)] := rfl
  have hkeeps : ∀ move ∈ ((Session.new {} ()).course 2 touring).moves, move.Keeps Story.Proper := by
    rw [hmoves]
    simp [Move.Keeps, proper_tour]
  have hexact : Json.Reader.reread 1.5 = .ok 1.5 := by
    decide +kernel
  obtain ⟨text, hsave, hload⟩ := run_restores_saved {} () 2 touring _ ⟨rfl, List.suffix_rfl⟩ hkeeps
    tour.next rfl (by simp [tour, Story.next, Story.initial, hexact])
  obtain ⟨hperform, hanswers⟩ := hload later _ rfl rfl
  refine ⟨text, _, hsave, hperform, ?_⟩
  apply hanswers rfl rfl (fun _ => rfl)
  . exact stateless_tour
  . decide
  . decide
  . rfl

end Restore

end Session

end Parley
