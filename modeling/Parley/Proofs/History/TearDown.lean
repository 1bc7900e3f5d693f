import Parley.Proofs.History.Delivery

/-!
This module contains what a lawful history holds after a teardown. Handlers from before it are
called again in one case only: the handler that tore the runner down while others were still to be
called left a new handler behind.
-/

namespace Parley
namespace History

/--
Whether a teardown, given by what happened before and after it, is defeated: it was the work of a
handler, others were still to be called for the same event, and when the handler returned there was
one that had been subscribed after the teardown.
-/
def Defeated (later past : History) : Prop :=
  ∃ token rest between,
    later = rest ++ .left token :: between ∧ (∀ other, .left other ∉ between) ∧
      inProgress past = [token] ∧ called past ≠ snapshot past ∧ live between ≠ []

theorem Defeated.cons {later past : History} (h : Defeated later past) (entry : Record)
    : Defeated (entry :: later) past := by
  obtain ⟨token, rest, between, hlater, hrest⟩ := h
  exact ⟨token, entry :: rest, between, by simp [hlater], hrest⟩

theorem live_append_tornDown (later past : History)
    : live (later ++ .tornDown :: past) = live later := by
  induction later with
  | nil => rfl
  | cons entry later ih => cases entry <;> simp [live, ih]

theorem Lawful.le_number_of_mem_registered {later past : History}
    (hl : Lawful (later ++ .tornDown :: past)) {kind : EventKind} {token : Token}
    (hmem : token ∈ registered kind (later ++ .tornDown :: past))
    : subscriptions past ≤ token.number := by
  unfold registered at hmem
  rw [live_append_tornDown] at hmem
  exact hl.le_number (subscribed_of_mem_registered hmem)

theorem Lawful.waiting_of_called_ne {h : History} (hl : Lawful h) (hp : inProgress h ≠ [])
    : waiting h ≠ [] ↔ called h ≠ snapshot h := by
  have hd : deserted h = false := by
    rw [Bool.eq_false_iff]
    intro hd
    exact hp (hl.inProgress_of_deserted hd).1
  have := hl.called_append_waiting hd
  rw [← this]
  simp

section Handler

variable {token : Token}

-- While the handler that tore the runner down is at work, nothing is called or delivered.
theorem Lawful.waiting_of_working {between past : History}
    (hl : Lawful (between ++ .tornDown :: past)) (hp : inProgress past = [token])
    (hnone : ∀ other, .left other ∉ between)
    : inProgress (between ++ .tornDown :: past) = [token] ∧
        waiting (between ++ .tornDown :: past) = waiting past := by
  induction between with
  | nil => exact ⟨hp, rfl⟩
  | cons entry between ih =>
    cases hl with
    | cons allowed _ lawful =>
      have hstill := ih lawful (fun other hmem => hnone other (List.mem_cons_of_mem _ hmem))
      cases entry with
      | left other => exact absurd List.mem_cons_self (hnone other)
      | entered =>
        have hidle : inProgress (between ++ .tornDown :: past) = [] := allowed.1
        simp [hstill.1] at hidle
      | delivering =>
        have hidle : inProgress (between ++ .tornDown :: past) = [] := allowed.1
        simp [hstill.1] at hidle
      | _ => exact hstill

-- A delivery that waits for a handler does not go on without calling it.
theorem Lawful.entered_of_waiting {later now : History} (hl : Lawful (later ++ now))
    (hp : inProgress now = []) {others : List Token} (hw : waiting now = token :: others)
    : (∃ event status, .entered token event status ∈ later) ∨
        (inProgress (later ++ now) = [] ∧ waiting (later ++ now) = token :: others) := by
  induction later with
  | nil => exact Or.inr ⟨hp, hw⟩
  | cons entry later ih =>
    cases hl with
    | cons allowed _ lawful =>
      rcases ih lawful with ⟨event, status, hmem⟩ | ⟨hidle, hwait⟩
      . exact Or.inl ⟨event, status, List.mem_cons_of_mem _ hmem⟩
      . cases entry with
        | entered other event status =>
          have hhead : (waiting (later ++ now)).head? = some other := allowed.2.2
          simp only [hwait, List.head?_cons, Option.some.injEq] at hhead
          exact Or.inl ⟨event, status, by simp [hhead]⟩
        | left other =>
          have hworking : inProgress (later ++ now) = [other] := allowed
          simp [hidle] at hworking
        | delivering =>
          have hnone : waiting (later ++ now) = [] := allowed.2.1
          simp [hwait] at hnone
        | _ => exact Or.inr ⟨hidle, hwait⟩

end Handler

theorem Lawful.entered_of_defeated {later past : History} (hl : Lawful (later ++ .tornDown :: past))
    (hw : waiting (later ++ .tornDown :: past) = []) (hd : Defeated later past)
    : ∃ kind token event status,
        .subscribed kind token ∈ past ∧ .entered token event status ∈ later := by
  obtain ⟨token, rest, between, hlater, hnone, hp, hcalled, hlive⟩ := hd
  rw [hlater, List.append_assoc] at hl hw
  have hback := hl.of_append
  have hbetween : Lawful (between ++ .tornDown :: past) := hback.tail
  have hpast : Lawful past := hbetween.of_append.tail
  have hworking := hbetween.waiting_of_working hp hnone
  have hidle : inProgress (.left token :: (between ++ .tornDown :: past)) = [] := by
    simp [inProgress, hworking.1]
  have hwait : waiting (.left token :: (between ++ .tornDown :: past)) = waiting past := by
    simp [waiting, live_append_tornDown, hlive, hworking.2]
  cases hothers : waiting past with
  | nil =>
    have := hpast.waiting_of_called_ne (by simp [hp])
    exact absurd hothers (this.mpr hcalled)
  | cons other others =>
    rw [hothers] at hwait
    have hmem : other ∈ waiting past := by
      simp [hothers]
    obtain ⟨kind, hsubscribed⟩ := subscribed_of_mem_waiting hmem
    rcases hl.entered_of_waiting hidle hwait with ⟨event, status, hmem⟩ | ⟨_, hstill⟩
    . exact ⟨kind, other, event, status, hsubscribed, by simp [hlater, hmem]⟩
    . rw [List.cons_append] at hw
      simp [hw] at hstill

def Underway (later past : History) : Prop :=
  (∃ token, inProgress past = [token]) ∧ (∀ other, .left other ∉ later) ∧
    ∀ token event status, .entered token event status ∉ later

/--
Whether all handlers that are waiting or were called since a teardown are newer than it.
-/
def Renewed (later past : History) : Prop :=
  (∀ token ∈ waiting (later ++ .tornDown :: past), subscriptions past ≤ token.number) ∧
    ∀ token event status, .entered token event status ∈ later → subscriptions past ≤ token.number

theorem Underway.cons {later past : History} {entry : Record} (h : Underway later past)
    (hl : Lawful (entry :: (later ++ .tornDown :: past)))
    : Underway (entry :: later) past ∨ Renewed (entry :: later) past ∨
        Defeated (entry :: later) past := by
  obtain ⟨⟨worker, hp⟩, hleft, hentered⟩ := h
  cases hl with
  | cons allowed _ lawful =>
    have hworking := lawful.waiting_of_working hp hleft
    cases entry with
    | entered =>
      have hidle : inProgress (later ++ .tornDown :: past) = [] := allowed.1
      simp [hworking.1] at hidle
    | delivering =>
      have hidle : inProgress (later ++ .tornDown :: past) = [] := allowed.1
      simp [hworking.1] at hidle
    | left other =>
      have hother : inProgress (later ++ .tornDown :: past) = [other] := allowed
      have hsame : worker = other := by simpa [hworking.1] using hother
      have hcalled : ∀ token event status, .entered token event status ∉ .left other :: later := by
        simpa using hentered
      by_cases hdone : live later = [] ∨ waiting past = []
      . refine Or.inr (Or.inl ⟨?_, fun _ _ _ hmem => absurd hmem (hcalled _ _ _)⟩)
        rcases hdone with hlive | hnone
        . simp [waiting, live_append_tornDown, hlive]
        . simp [waiting, hworking.2, hnone]
      . have hpast : Lawful past := lawful.of_append.tail
        rw [not_or, ← ne_eq (waiting past), hpast.waiting_of_called_ne (by simp [hp])] at hdone
        exact Or.inr (Or.inr ⟨other, [], later, rfl, hleft, hsame ▸ hp, hdone.2, hdone.1⟩)
    | _ => exact Or.inl ⟨⟨worker, hp⟩, by simpa using hleft, by simpa using hentered⟩

theorem Renewed.cons {later past : History} {entry : Record} (h : Renewed later past)
    (hl : Lawful (entry :: (later ++ .tornDown :: past))) : Renewed (entry :: later) past := by
  obtain ⟨hwaiting, hentered⟩ := h
  cases hl with
  | cons allowed _ lawful =>
    cases entry with
    | entered token event status =>
      have hhead : (waiting (later ++ .tornDown :: past)).head? = some token := allowed.2.2
      constructor
      . intro other hmem
        exact hwaiting other (List.mem_of_mem_tail hmem)
      . intro other event' status' hmem
        rcases List.mem_cons.mp hmem with heq | hmem
        . injection heq with heq
          rw [heq]
          exact hwaiting token (List.mem_of_mem_head? hhead)
        . exact hentered other event' status' hmem
    | left other =>
      refine ⟨?_, by simpa using hentered⟩
      intro token hmem
      simp only [List.cons_append, waiting] at hmem
      split at hmem
      . simp at hmem
      . exact hwaiting token hmem
    | delivering event =>
      refine ⟨?_, by simpa using hentered⟩
      intro token hmem
      exact lawful.le_number_of_mem_registered hmem
    | _ => exact ⟨hwaiting, by simpa using hentered⟩

theorem Lawful.after_tornDown {later past : History} (hl : Lawful (later ++ .tornDown :: past))
    : Underway later past ∨ Renewed later past ∨ Defeated later past := by
  induction later with
  | nil =>
    cases hl with
    | cons allowed _ lawful =>
      rcases lawful.inProgress_cases with hidle | hworking
      . have hnone : waiting past = [] := allowed hidle
        refine Or.inr (Or.inl ⟨?_, by simp⟩)
        intro token hmem
        simp [waiting, hnone] at hmem
      . exact Or.inl ⟨hworking, by simp, by simp⟩
  | cons entry later ih =>
    have hbefore : Lawful (later ++ .tornDown :: past) := hl.tail
    rcases ih hbefore with hunderway | hrenewed | hdefeated
    . exact hunderway.cons hl
    . exact Or.inr (Or.inl (hrenewed.cons hl))
    . exact Or.inr (Or.inr (hdefeated.cons entry))

theorem Lawful.entered_after_tornDown_iff {later past : History}
    (hl : Lawful (later ++ .tornDown :: past)) (hw : waiting (later ++ .tornDown :: past) = [])
    : (∃ kind token event status,
          .subscribed kind token ∈ past ∧ .entered token event status ∈ later) ↔
        Defeated later past := by
  constructor
  . rintro ⟨kind, token, event, status, hsubscribed, hentered⟩
    have hpast : Lawful past := hl.of_append.tail
    have hlt := hpast.number_lt hsubscribed
    rcases hl.after_tornDown with ⟨_, _, hnone⟩ | ⟨_, hfresh⟩ | hdefeated
    . exact absurd hentered (hnone token event status)
    . have := hfresh token event status hentered
      omega
    . exact hdefeated
  . exact hl.entered_of_defeated hw

end History
end Parley
