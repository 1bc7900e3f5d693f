import Parley.Proofs.Course
import Parley.Proofs.Script.Steps

/-!
This module contains how the choices that a runner shows are related to those that its story offers
and that it takes a choice from. They are the same until a choice is taken or a state is loaded:
nothing else lets a story move on while choices are shown.
-/

namespace Parley

def Engine.KeepsChoices {S E : Type} [Engine S E] (story story' : E) : Prop :=
  Engine.choices story ≠ [] → Engine.choices story' = Engine.choices story

/--
Whether the stories of a type that offer choices wait until one of them is taken.
-/
structure Engine.Patient {S : outParam Type} (E : Type) [Engine S E] : Prop where
  respects : Engine.Respects (Engine.KeepsChoices : E → E → Prop)
  choose : ∀ (story : E) index error, (Engine.choose story index).1 = .error error →
    Engine.KeepsChoices story (Engine.choose story index).2

namespace Session

open History

variable {S E : Type} [Engine S E] {s s' : Session S E}

def offered (s : Session S E) : List Choice :=
  s.runner.story.elim [] Engine.choices

def commits (s : Session S E) (index : Nat) : Bool :=
  !s.runner.paused && (s.commit index).1.isOk

def takes (s : Session S E) : Move S E → Bool
  | .perform (.choose index _) => s.commits index
  | .perform (.tryChoose index _) => s.commits index
  | _ => false

/--
Whether a move loads a state in which the story offers other choices.
-/
def swaps (s : Session S E) : Move S E → Bool
  | .perform (.load text) => (s.load text).2.offered ≠ s.offered
  | _ => false

/--
Whether a runner shows the choices that its story offers, or none.
-/
def Fresh (s : Session S E) : Prop :=
  s.runner.choices = [] ∨ s.runner.choices = s.offered

section Fresh

theorem Fresh.onlyStory (h : Fresh s) (honly : OnlyStory Engine.KeepsChoices s s') : Fresh s' := by
  have hchoices : s'.runner.choices = s.runner.choices := by
    rw [honly.runner]
  rcases h with hnone | hsame
  . exact Or.inl (hchoices.trans hnone)
  . by_cases hempty : s.offered = []
    . exact Or.inl ((hchoices.trans hsame).trans hempty)
    . right
      rw [hchoices, hsame]
      have hstory := honly.story
      unfold offered at *
      generalize s.runner.story = story at *
      generalize s'.runner.story = story' at *
      cases hstory with
      | none => rfl
      | some hkeeps => exact (hkeeps hempty).symm

omit [Engine S E] in
theorem choices_enqueue? (event : Option Event)
    : (s.enqueue? event).runner.choices = s.runner.choices := by
  cases event with
  | none => rfl
  | some event => rfl

theorem offered_enqueue? (event : Option Event) : (s.enqueue? event).offered = s.offered := by
  cases event with
  | none => rfl
  | some event => rfl

theorem Fresh.of_same (h : Fresh s) (hchoices : s'.runner.choices = s.runner.choices)
    (hstory : s'.runner.story = s.runner.story) : Fresh s' := by
  unfold Fresh offered at *
  rw [hchoices, hstory]
  exact h

theorem Fresh.decided (h : Fresh s) {event : Option Event}
    (hdecides : Decides Engine.KeepsChoices s event s') : Fresh (s'.enqueue? event) := by
  unfold Fresh
  rw [choices_enqueue?, offered_enqueue?]
  cases hdecides with
  | onlyStory honly => exact h.onlyStory honly
  | choices _ hfound _ _ hrunner =>
    right
    simp [offered, hrunner, hfound]
  | line _ _ _ _ hrunner | ended _ _ hrunner | restarted _ _ hrunner | rewound _ _ hrunner =>
    left
    simp [hrunner, Runner.clearContent]
  | started => exact Or.inl rfl
  | tornDown => exact Or.inl rfl
  | paused _ _ hrunner | resumed _ _ hrunner =>
    apply h.of_same
    . rw [hrunner]
    . rw [hrunner]
  | unsubscribed token =>
    rcases unsubscribe_cases s token with hnone | ⟨_, _, _, hrunner⟩
    . rw [hnone]
      exact h
    . apply h.of_same
      . rw [hrunner]
      . rw [hrunner]

-- Choices are fresh as soon as they are announced, whatever was shown before.
theorem fresh_of_offer {event : Option Event} {decided : Session S E}
    (hdecides : Decides Engine.KeepsChoices s event decided)
    (hoffer : offers (decided.enqueue? event).history ≠ offers s.history)
    : Fresh (decided.enqueue? event) := by
  have hdecided : offers decided.history = offers s.history :=
    hdecides.reads (fun _ => rfl) (fun _ => rfl) (fun _ _ => rfl)
  cases event with
  | none => exact absurd hdecided hoffer
  | some event =>
    rw [enqueue?, Option.elim, history_enqueue] at hoffer
    cases event with
    | newChoices choices =>
      unfold Fresh
      rw [choices_enqueue?, offered_enqueue?]
      cases hdecides with
      | choices _ hfound _ _ hrunner =>
        right
        simp [offered, hrunner, hfound]
    | _ => exact absurd hdecided hoffer

theorem Fresh.changes {stopping : Bool} (h : Fresh s)
    (hchanges : Changes Engine.KeepsChoices stopping s s')
    : Fresh s' := by
  apply hchanges.keeps _ h
  intro t t' hchange ht
  cases hchange with
  | decided hdecides => exact ht.decided hdecides
  | stopped => exact Or.inl rfl

theorem fresh_of_offers {stopping : Bool} (hchanges : Changes Engine.KeepsChoices stopping s s')
    (hoffers : offers s'.history ≠ offers s.history) : Fresh s' := by
  have hkeeps : offers s'.history ≠ offers s.history → Fresh s' := by
    apply hchanges.keeps _ fun hne => absurd rfl hne
    intro t t' hchange ih hne
    by_cases heq : offers t.history = offers s.history
    . cases hchange with
      | decided hdecides =>
        rw [← heq] at hne
        exact fresh_of_offer hdecides hne
      | stopped => exact Or.inl rfl
    . cases hchange with
      | decided hdecides => exact (ih heq).decided hdecides
      | stopped => exact Or.inl rfl
  exact hkeeps hoffers

end Fresh

section Perform

theorem commits_eq {index : Nat} (hcommits : s.commits index = true)
    : s.runner.paused = false ∧ ∃ taken, s.commit index = (.ok (), taken) ∧
        offers taken.history = offers s.history := by
  simp only [commits, Bool.and_eq_true, Bool.not_eq_true'] at hcommits
  obtain ⟨hpaused, hok⟩ := hcommits
  have honly : s.OnlyStory (fun _ _ => True) (s.commit index).2 :=
    onlyStory_commit (by simp) (by simp)
  generalize s.commit index = ended at *
  obtain ⟨_ | _, taken⟩ := ended
  . simp [Except.isOk, Except.toBool] at hok
  . exact ⟨hpaused, taken, rfl, by rw [honly.history]⟩

variable (hE : Engine.Patient E)

include hE

theorem onlyStory_of_not_commits {index : Nat} (hcommits : s.commits index = false)
    (hpaused : s.runner.paused = false) : OnlyStory Engine.KeepsChoices s (s.commit index).2 := by
  have hrefl := hE.respects.refl
  simp only [commits, hpaused, Bool.not_false, Bool.true_and] at hcommits
  unfold commit at *
  split
  . exact OnlyStory.refl hrefl
  . next story hs =>
    rw [hs] at hcommits
    dsimp only at *
    split
    . exact OnlyStory.refl hrefl
    . next hsome =>
      split
      . exact OnlyStory.refl hrefl
      . next hin =>
        simp only [hsome, hin, ↓reduceIte] at hcommits
        have hchoose := hE.choose story index
        generalize Engine.choose story index = chosen at *
        obtain ⟨error | _, story'⟩ := chosen
        . exact onlyStory_withStory hs (hchoose error rfl)
        . simp [mapError_ok, Except.isOk, Except.toBool] at hcommits

theorem onlyStory_of_same_offer {text : String} (hsame : (s.load text).2.offered = s.offered)
    : OnlyStory Engine.KeepsChoices s (s.load text).2 := by
  unfold load at hsame ⊢
  split
  . exact onlyStory_note hE.respects.refl rfl
  . next story hs =>
    rw [hs] at hsame
    have hoffered : s.offered = Engine.choices story := by
      simp [offered, hs]
    apply onlyStory_withStory hs
    intro _
    exact hsame.trans hoffered

-- A taken choice may lead the story anywhere. What comes after it is one step.
theorem changes_of_takes {request : Operation S E} (htakes : s.takes (.perform request) = true)
    : ∃ taken, offers taken.history = offers s.history ∧
        Changes Engine.KeepsChoices true taken (s.perform request).2 := by
  cases request with
  | choose index autoAdvance =>
    obtain ⟨hpaused, taken, hchosen, hoffers⟩ := commits_eq htakes
    obtain ⟨reply, s', hdone, hchanges⟩ :=
      ((Run.tried_goOn hE.respects (s := taken) autoAdvance).reporting hE.respects).changes
    have hperform : s.perform (.choose index autoAdvance) = (some reply, s') := by
      rw [perform_eq, ← hdone]
      unfold Run.operation
      rw [outcome_bind, outcome_bind, Run.tryChoose_taken hpaused hchosen]
    refine ⟨taken, hoffers, ?_⟩
    rw [hperform]
    exact hchanges
  | tryChoose index autoAdvance =>
    obtain ⟨hpaused, taken, hchosen, hoffers⟩ := commits_eq htakes
    obtain ⟨reply, s', hdone, hchanges⟩ :=
      ((Run.tried_goOn hE.respects (s := taken) autoAdvance).decided hE.respects).changes
    have hperform : s.perform (.tryChoose index autoAdvance) = (some reply, s') := by
      rw [perform_eq, ← hdone]
      exact Run.tryChoose_taken hpaused hchosen autoAdvance Run.queue
    refine ⟨taken, hoffers, ?_⟩
    rw [hperform]
    exact hchanges
  | _ => simp [takes] at htakes

theorem staysWithin_of_move {request : Operation S E} (htakes : s.takes (.perform request) = false)
    (hswaps : s.swaps (.perform request) = false) (htouch : ∀ act, request ≠ .touch act)
    : Run.StaysWithin Engine.KeepsChoices s request := by
  cases request with
  | choose index autoAdvance => exact onlyStory_of_not_commits hE htakes
  | tryChoose index autoAdvance => exact onlyStory_of_not_commits hE htakes
  | load text =>
    have hsame : (s.load text).2.offered = s.offered := by
      simpa [swaps] using hswaps
    exact onlyStory_of_same_offer hE hsame
  | touch act => exact absurd rfl (htouch act)
  | _ => trivial

theorem fresh_of_offering {request : Operation S E} (htouch : ∀ act, request ≠ .touch act)
    (hoffers : offers (s.perform request).2.history ≠ offers s.history)
    : Fresh (s.perform request).2 := by
  cases htakes : s.takes (.perform request) with
  | true =>
    obtain ⟨taken, htaken, hchanges⟩ := changes_of_takes hE htakes
    rw [← htaken] at hoffers
    exact fresh_of_offers hchanges hoffers
  | false =>
    cases hswaps : s.swaps (.perform request) with
    | true =>
      cases request with
      | load text =>
        have honly : OnlyStory (fun _ _ => True) s (s.load text).2 :=
          onlyStory_load (by simp) (by simp)
        exact absurd (congrArg offers honly.history) hoffers
      | _ => simp [swaps] at hswaps
    | false =>
      obtain ⟨_, s', hperform, hchanges⟩ :=
        changes_perform hE.respects (staysWithin_of_move hE htakes hswaps htouch)
      rw [hperform] at hoffers ⊢
      exact fresh_of_offers hchanges hoffers

theorem Fresh.perform {request : Operation S E} (h : Fresh s) (htouch : ∀ act, request ≠ .touch act)
    (htakes : s.takes (.perform request) = false) (hswaps : s.swaps (.perform request) = false)
    : Fresh (s.perform request).2 := by
  obtain ⟨_, s', hperform, hchanges⟩ :=
    changes_perform hE.respects (staysWithin_of_move hE htakes hswaps htouch)
  rw [hperform]
  exact h.changes hchanges

end Perform

section Aside

variable {move : Move S E} (hmove : ∀ request, move ≠ .perform request)

include hmove

theorem offers_move : offers (s.move move).history = offers s.history := by
  cases move with
  | perform request => exact absurd rfl (hmove request)
  | subscribe kind handler =>
    rw [Session.move, history_subscribe]
    rfl
  | announce =>
    rw [Session.move, history_announce]
    rfl
  | release =>
    rw [Session.move, history_release]
    rfl
  | dispatch underway => rfl
  | take =>
    cases hpending : s.runner.pending with
    | nil =>
      rw [Session.move, take, hpending]
    | cons event rest =>
      rw [Session.move, history_take hpending]
      rfl
  | enter token event =>
    rw [Session.move, history_enter]
    rfl
  | leave token =>
    rw [Session.move, history_leave]
    rfl

theorem Fresh.aside (h : Fresh s) : Fresh (s.move move) := by
  cases move with
  | perform request => exact absurd rfl (hmove request)
  | take =>
    cases hpending : s.runner.pending with
    | nil => simpa [Session.move, take, hpending] using h
    | cons event rest =>
      rw [Session.move, take_eq hpending]
      exact h.of_same rfl rfl
  | release => exact Or.inl rfl
  | _ => exact h.of_same rfl rfl

end Aside

end Session

namespace Move

/--
Whether a move changes the story behind the runner's back.
-/
def touches {S E : Type} : Move S E → Bool
  | .perform (.touch _) => true
  | _ => false

end Move

namespace Course

open Session History

variable {S E : Type} [Engine S E]

/--
The moves since choices were last announced, the latest first, each with the session in which it was
made.
-/
def sinceOffer (c : Course S E) : List (Session S E × Move S E) :=
  go c.start c.moves
where
  go (start : Session S E) : List (Move S E) → List (Session S E × Move S E)
    | [] => []
    | move :: moves =>
      let s := (Course.mk start moves).now
      if offers s.history < offers (s.move move).history then [] else (s, move) :: go start moves

theorem sinceOffer_push (c : Course S E) (move : Move S E)
    : (c.push move).sinceOffer
        =
      if offers c.now.history < offers (c.now.move move).history then
        []
      else
        (c.now, move) :: c.sinceOffer := rfl

end Course

section Staged

open Session History

variable {S E : Type} [Engine S E] (hE : Engine.Patient E)

include hE

theorem Staged.fresh {stage : Stage S E} {c : Course S E} (h : Staged stage c)
    (htouch : ∀ move ∈ c.moves, move.touches = false)
    (htakes : ∀ step ∈ c.sinceOffer, step.1.takes step.2 = false)
    (hswaps : ∀ step ∈ c.sinceOffer, step.1.swaps step.2 = false) : Fresh c.now := by
  induction h with
  | begin options memory => exact Or.inl rfl
  | delivered _ ih => exact ih htouch htakes hswaps
  | @push _ _ c move before _ ih =>
    have htouch' : ∀ request, move = .perform request → ∀ act, request ≠ .touch act := by
      intro request hmove act hrequest
      have := htouch move (List.mem_cons_self ..)
      rw [hmove, hrequest] at this
      simp [Move.touches] at this
    rw [Course.sinceOffer_push] at htakes hswaps
    rw [Course.now_push]
    by_cases hoffers : offers c.now.history < offers (c.now.move move).history
    . cases move with
      | perform request => exact fresh_of_offering hE (htouch' request rfl) (Nat.ne_of_gt hoffers)
      | _ =>
        rw [offers_move (by simp)] at hoffers
        exact absurd hoffers (Nat.lt_irrefl _)
    . simp only [hoffers, ↓reduceIte, List.forall_mem_cons] at htakes hswaps
      have hfresh :=
        ih (fun move hmem => htouch move (List.mem_cons_of_mem _ hmem)) htakes.2 hswaps.2
      cases move with
      | perform request => exact hfresh.perform hE (htouch' request rfl) htakes.1 hswaps.1
      | _ => exact hfresh.aside (by simp)

end Staged

namespace Script.Story

variable {S : Type}

theorem patient : Engine.Patient (Script.Story S) where
  respects := {
    refl := fun _ _ => rfl
    trans := by
      intro story story' story'' h h' hchoices
      have hsame := h hchoices
      rw [← hsame] at hchoices
      exact (h' hchoices).trans hsame
    continueOne := by
      intro story world hchoices
      obtain ⟨options, rest, hupcoming⟩ := upcoming_of_choices hchoices
      have hstays : (story.play world story.upcoming).2.1 = story := by
        rw [hupcoming]
        rfl
      exact congrArg Engine.choices hstays
    reset := by
      intro story world error hfails
      contradiction
    setVariable := fun _ _ _ _ _ => rfl
    observe := fun _ _ _ _ => rfl
    bind := fun _ _ _ _ => rfl }
  choose := by
    intro story index error hfails _
    have hstays : (story.choose index).2 = story := by
      have hfails : (story.choose index).1 = .error error := hfails
      unfold Story.choose at hfails ⊢
      split
      . rfl
      . next heq => simp [heq] at hfails
    exact congrArg Engine.choices hstays

end Script.Story

namespace Session

variable {S : Type} (options : LoadOptions) (memory : S) (bound : Nat)
  (host : Program S (Script.Story S))

-- The story stays where it is while it is paused, rewound choices are gone, and a refused request
-- does nothing, so that all of these may come between the announcement of the choices and a look at
-- them.
theorem run_shows_offered (past : Course S (Script.Story S))
    (hpast : ((Session.new options memory).course bound host).Extends past)
    (htouch : ∀ move ∈ past.moves, move.touches = false)
    (htakes : ∀ step ∈ past.sinceOffer, step.1.takes step.2 = false)
    (hswaps : ∀ step ∈ past.sinceOffer, step.1.swaps step.2 = false)
    : past.now.runner.choices = [] ∨ past.now.runner.choices = past.now.offered := by
  obtain ⟨_, ⟨_, hstaged⟩, _⟩ := staged_course options memory bound host
  obtain ⟨_, hpast⟩ := hstaged.of_extends hpast
  exact hpast.fresh Script.Story.patient htouch htakes hswaps

/--
A host that saves its story at one decision point and loads it again, at the same one or at the
next.
-/
def returning (chooses : Bool) : Program Unit (Script.Story Unit) :=
  Routine.program do
    let knots : List (List Script.Step) := [[.choices [("left", 1)]], [.choices [("right", 0)]]]
    Routine.perform (.start (.new .empty knots) true)
    let text ← Routine.perform .save
    if chooses then
      Routine.perform (.choose 0 true)
    let _ ← Routine.perform (.load (text.getD ""))

theorem run_shows_returning
    : ((Session.new {} ()).course 3 (returning false)).now.runner.choices = [⟨0, "left", []⟩] ∧
        (((Session.new {} ()).course 3 (returning false)).now.runner.choices = [] ∨
          ((Session.new {} ()).course 3 (returning false)).now.runner.choices
            = ((Session.new {} ()).course 3 (returning false)).now.offered) := by
  refine ⟨by decide +kernel, ?_⟩
  exact run_shows_offered {} () 3 (returning false) _ ⟨rfl, List.suffix_rfl⟩ (by decide +kernel)
    (by decide +kernel) (by decide +kernel)

theorem run_shows_stale
    : let c := (Session.new {} ()).course 3 (returning true)
      (∀ move ∈ c.moves, move.touches = false) ∧
        (∀ step ∈ c.sinceOffer, step.1.takes step.2 = false) ∧
        c.now.runner.choices = [⟨0, "right", []⟩] ∧ c.now.offered = [⟨0, "left", []⟩] := by
  decide +kernel

end Session
end Parley
