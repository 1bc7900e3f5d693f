import Mathlib.Logic.Relation
import Parley.Course
import Parley.Proofs.Request

namespace Parley

namespace Session

variable {S E : Type} [Engine S E] {R : E → E → Prop} {s s' : Session S E}

section Moves

omit [Engine S E]

@[simp]
theorem history_announce : s.announce.history = .emitted .stopped :: .stopping :: s.history := by
  unfold announce
  rw [history_enqueue, history_record rfl]

theorem take_eq {event : Event} {rest : List Event} (hqueued : s.runner.pending = event :: rest)
    : s.take = (s.mapRunner ({ · with pending := rest })).record (.delivering event) := by
  simp [take, hqueued]

theorem history_take {event : Event} {rest : List Event}
    (hqueued : s.runner.pending = event :: rest)
    : s.take.history = .delivering event :: s.history := by
  rw [take_eq hqueued, history_record rfl, history_mapRunner]

@[simp]
theorem history_enter (token : Token) (event : Event)
    : (s.enter token event).history = .entered token event s.runner.status :: s.history := by
  exact history_record rfl

@[simp]
theorem history_leave (token : Token) : (s.leave token).history = .left token :: s.history := by
  exact history_record rfl

end Moves

def enqueue? (s : Session S E) (event : Option Event) : Session S E :=
  event.elim s s.enqueue

/--
The steps that a request is made of while its events are queued. A flag says whether there may be
stops among them.
-/
inductive Change (R : E → E → Prop) (stopping : Bool) (s : Session S E) : Session S E → Prop where
  | decided {event : Option Event} {decided : Session S E} (decides : s.Decides R event decided)
      : Change R stopping s (decided.enqueue? event)
  | stopped (stops : stopping = true) (present : s.runner.story.isSome = true)
      : Change R stopping s s.announce.release

def Changes (R : E → E → Prop) (stopping : Bool) : Session S E → Session S E → Prop :=
  Relation.ReflTransGen (Change R stopping)

theorem Changes.keeps {stopping : Bool} {I : Session S E → Prop}
    (hI : ∀ s s', Change R stopping s s' → I s → I s') (h : Changes R stopping s s') (hs : I s)
    : I s' := by
  induction h with
  | refl => exact hs
  | tail _ hchange ih => exact hI _ _ hchange ih

theorem Decides.suffix {event : Option Event} (h : Decides R s event s')
    : s.history <:+ (s'.enqueue? event).history := by
  have hdecided : s.history <:+ s'.history := by
    rcases h.history_cases with heq | heq | heq | ⟨_, heq⟩
    . exact heq ▸ List.suffix_rfl
    all_goals
      rw [heq]
      exact List.suffix_cons _ _
  cases event with
  | none => exact hdecided
  | some event =>
    rw [enqueue?, Option.elim, history_enqueue]
    exact hdecided.trans (List.suffix_cons _ _)

theorem Change.suffix {stopping : Bool} (h : Change R stopping s s')
    : s.history <:+ s'.history := by
  cases h with
  | decided hdecides => exact hdecides.suffix
  | stopped =>
    rw [history_release, history_announce]
    exact (List.suffix_append [_, _, _] _)

end Session

namespace Run

open Session

variable {S E α : Type} [Engine S E] {R : E → E → Prop} {s : Session S E}

def queue (event : Event) : Run S E Unit :=
  modify (·.enqueue event)

omit [Engine S E] in
theorem outcome_announce_queue (event : Option Event) (reply : α)
    : outcome (announce queue event reply) s = (some reply, s.enqueue? event) := by
  cases event with
  | none => rfl
  | some event => rfl

theorem Decided.changes {m : (Event → Run S E Unit) → Run S E α} (h : Decided R s m)
    {stopping : Bool}
    : ∃ reply s', outcome (m queue) s = (some reply, s') ∧ Changes R stopping s s' := by
  obtain ⟨begun, event, decided, reply, honly, hdecides, hm⟩ := h
  refine ⟨reply, decided.enqueue? event, ?_, ?_⟩
  . rw [hm, outcome_announce_queue]
  . have hbegun : Change R stopping s begun := .decided (.onlyStory honly)
    exact (Relation.ReflTransGen.single hbegun).tail (.decided hdecides)

omit [Engine S E] in
theorem keeps_reporting {I : Session S E → Prop} {m : Run S E (Except RunnerError Unit)}
    (hreport : ∀ t error, I t → I (t.report error)) (h : I (outcome m s).2)
    : I (outcome (do reporting (← m)) s).2 := by
  rw [outcome_bind]
  generalize outcome m s = ended at h
  obtain ⟨_ | result, t⟩ := ended
  . exact h
  . cases result with
    | error error => exact hreport t error h
    | ok _ => exact h

omit [Engine S E] in
theorem stop_queue (hpresent : s.runner.story.isSome = true)
    : outcome (stop queue) s = (some (), s.announce.release) := by
  simp [stop, queue, hpresent]
  rfl

omit [Engine S E] in
theorem stop_refused (emit : Event → Run S E Unit) (hidle : s.runner.story.isSome = false)
    : outcome (stop emit) s = (some (), s) := by
  simp [stop, hidle]

theorem start_queue {story : E} (hidle : s.runner.story = none)
    : outcome (start queue story true) s
        =
      outcome (advance queue) ((s.adopt story).enqueue .started) := by
  simp [start, queue, hidle]

theorem start_refused (emit : Event → Run S E Unit) (story : E) (autoAdvance : Bool) {other : E}
    (hpresent : s.runner.story = some other)
    : outcome (start emit story autoAdvance) s = (some (), s.report .alreadyActive) := by
  simp [start, report, hpresent]

end Run

namespace Session

variable {S E : Type} [Engine S E] {R : E → E → Prop} {s : Session S E}

theorem perform_eq (request : Operation S E)
    : s.perform request = outcome (Run.operation Run.queue request) s := rfl

theorem changes_perform (hR : Engine.Respects R) {request : Operation S E}
    (hwithin : Run.StaysWithin R s request)
    : ∃ reply s', s.perform request = (some reply, s') ∧
        Changes R (!Run.isPlain request) s s' := by
  rcases Run.isPlain_cases request with hplain | rfl | ⟨story, rfl⟩
  . exact (Run.decided_operation hR hplain hwithin).changes
  . cases hpresent : s.runner.story.isSome with
    | true =>
      refine ⟨(), s.announce.release, ?_, Relation.ReflTransGen.single (.stopped rfl hpresent)⟩
      exact Run.stop_queue hpresent
    | false =>
      refine ⟨(), s, ?_, Relation.ReflTransGen.refl⟩
      exact Run.stop_refused Run.queue hpresent
  . cases hstory : s.runner.story with
    | none =>
      have hadopt : Change R true s ((s.adopt story).enqueue .started) :=
        .decided (.started story hstory)
      obtain ⟨reply, s', hreply, hchanges⟩ :=
        ((Run.tried_tryAdvance hR).reporting hR (s := (s.adopt story).enqueue .started)).changes
      refine ⟨reply, s', ?_, Relation.ReflTransGen.head hadopt hchanges⟩
      exact (Run.start_queue hstory).trans hreply
    | some other =>
      have hreport : Change R true s (s.report .alreadyActive) :=
        .decided (.onlyStory (onlyStory_report hR.refl .alreadyActive))
      refine ⟨(), s.report .alreadyActive, ?_, Relation.ReflTransGen.single hreport⟩
      exact Run.start_refused Run.queue story true hstory

theorem perform_keeps (I : Session S E → Prop) (request : Operation S E)
    (hI : ∀ t t', Change (fun _ _ => True) (!Run.isPlain request) t t' → I t → I t') (hs : I s)
    : I (s.perform request).2 := by
  obtain ⟨_, s', hperform, hchanges⟩ :=
    changes_perform (s := s) Engine.respects_true (Run.staysWithin_true request)
  rw [hperform]
  exact hchanges.keeps hI hs

theorem suffix_move (move : Move S E) : s.history <:+ (s.move move).history := by
  cases move with
  | perform request =>
    apply perform_keeps (fun t => s.history <:+ t.history) request _ List.suffix_rfl
    intro t t' hchange hsuffix
    exact hsuffix.trans hchange.suffix
  | subscribe kind handler =>
    rw [Session.move, history_subscribe]
    exact List.suffix_cons _ _
  | announce =>
    rw [Session.move, history_announce]
    exact List.suffix_append [_, _] _
  | release =>
    rw [Session.move, history_release]
    exact List.suffix_cons _ _
  | dispatch underway => exact List.suffix_rfl
  | take =>
    cases hpending : s.runner.pending with
    | nil =>
      have htake : (s.move .take).history = s.history := by
        simp [Session.move, take, hpending]
      exact ⟨[], htake.symm⟩
    | cons event rest =>
      rw [Session.move, history_take hpending]
      exact List.suffix_cons _ _
  | enter token event =>
    rw [Session.move, history_enter]
    exact List.suffix_cons _ _
  | leave token =>
    rw [Session.move, history_leave]
    exact List.suffix_cons _ _

end Session
end Parley
