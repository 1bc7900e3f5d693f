import Parley.Proofs.Course
import Parley.Proofs.Script.Story

namespace Parley

namespace Session

open Script

variable {S : Type} {s : Session S (Story S)} {story : Story S}

theorem save_eq (hstory : s.runner.story = some story) : s.save = (some story.state.text, s) := by
  unfold save
  rw [hstory]
  rfl

theorem load_ok (hstory : s.runner.story = some story) {text : String} {state : State}
    (hread : State.ofText? text = .ok state)
    : s.load text = (.ok (), s.mapRunner ({ · with story := some { story with state } })) := by
  simp only [load, hstory, Engine.load, Story.load, hread]

theorem load_fst (hstory : s.runner.story = some story) (text : String)
    : (s.load text).1 = .ok () ↔ (State.ofText? text).isOk = true := by
  simp only [load, hstory, Engine.load, Story.load]
  cases State.ofText? text with
  | error fault => simp [Except.isOk, Except.toBool]
  | ok state => simp [Except.isOk, Except.toBool]

variable (options : LoadOptions) (memory : S) (bound : Nat) (host : Program S (Story S))

-- The value of every variable may be any of those that its kind has: nothing is said of where they
-- come from.
theorem run_loads_saved (past : Course S (Story S))
    (hpast : ((Session.new options memory).course bound host).Extends past)
    (hkeeps : ∀ move ∈ past.moves, move.Keeps Story.Proper) (story : Story S)
    (hstory : past.now.runner.story = some story)
    : ∃ text, past.now.save = (some text, past.now) ∧
        ((past.now.load text).1 = .ok () ↔
          ∀ entry ∈ story.state.values.entries, entry.2.isFinite = true) := by
  obtain ⟨_, ⟨_, hstaged⟩, _⟩ := staged_course options memory bound host
  obtain ⟨_, hpast⟩ := hstaged.of_extends hpast
  have hproper := hpast.tells Story.maintains_proper hkeeps story hstory
  refine ⟨story.state.text, save_eq hstory, ?_⟩
  rw [load_fst hstory, State.ofText_text hproper.state, State.isOk_reread, List.all_eq_true]

def ledger (x : Float32) : Story Unit :=
  .new ⟨[("x", .float x)]⟩ [[.line ⟨"one", []⟩]]

def saving (x : Float32) : Program Unit (Story Unit) :=
  Routine.program do
    Routine.perform (.start (ledger x) false)
    let _ ← Routine.perform .save

theorem proper_ledger (x : Float32) : (ledger x).Proper := by
  apply Story.proper_new
  . simp [Table.keys]
  . decide
  . simp

theorem run_loads_ledger
    : let c := (Session.new {} ()).course 2 (saving 1.5)
      ∃ text, c.now.save = (some text, c.now) ∧ (c.now.load text).1 = .ok () := by
  have hmoves : ((Session.new {} ()).course 2 (saving 1.5)).moves
      = [.perform .save, .dispatch false, .take, .dispatch true,
          .perform (.start (ledger 1.5) false)] := rfl
  have hkeeps : ∀ move ∈ ((Session.new {} ()).course 2 (saving 1.5)).moves,
      move.Keeps Story.Proper := by
    rw [hmoves]
    simp [Move.Keeps, proper_ledger]
  obtain ⟨text, hsave, hload⟩ :=
    run_loads_saved {} () 2 (saving 1.5) _ ⟨rfl, List.suffix_rfl⟩ hkeeps (ledger 1.5) rfl
  refine ⟨text, hsave, hload.mpr ?_⟩
  decide +kernel

theorem run_refuses_boundless
    : let c := (Session.new {} ()).course 2 (saving (Single.infinite false))
      ∃ text, c.now.save.1 = some text ∧
        (c.now.load text).1
          = .error (.runtime "invalid type: null, expected f32") := by
  refine ⟨_, rfl, ?_⟩
  decide +kernel

end Session
end Parley
