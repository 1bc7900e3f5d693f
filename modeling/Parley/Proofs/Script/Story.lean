import Parley.Proofs.Maintain
import Parley.Proofs.Script.State
import Parley.Script.Story

namespace Parley.Script

open Json

structure Story.Proper {S : Type} (s : Story S) : Prop where
  state : s.state.Proper
  defaults : s.defaults.keys.Nodup
  lengths : ∀ knot ∈ s.knots, knot.length < Number.wordLimit
  targets : ∀ knot ∈ s.knots, ∀ options, .choices options ∈ knot →
    ∀ option ∈ options, option.2 < Number.wordLimit

theorem zero_lt_wordLimit : 0 < Number.wordLimit := by decide

namespace State

variable {s : State}

theorem Proper.assigned (h : s.Proper) (name : String) (value : Value)
    : ({ s with values := s.values.set name value } : State).Proper where
  knot := h.knot
  step := h.step
  visits := h.visits
  visited := h.visited
  values := Table.nodup_set h.values name value

theorem Proper.visiting (h : s.Proper) {knot : Nat} (hknot : knot < Number.wordLimit)
    : ({ s with knot, step := 0, visits := s.visits.update knot 0 (· + 1) } : State).Proper where
  knot := hknot
  step := zero_lt_wordLimit
  visits := Table.nodup_set h.visits _ _
  visited := by
    intro other hother
    rcases Table.mem_keys_set hother with rfl | hother
    . exact hknot
    . exact h.visited other hother
  values := h.values

end State

namespace Story

variable {S : Type} {s : Story S}

theorem upcoming_cons {step : Step} {rest : List Step} (hupcoming : s.upcoming = step :: rest)
    : s.next.upcoming = rest ∧ ∃ knot ∈ s.knots, step ∈ knot ∧ s.state.step < knot.length := by
  unfold upcoming at hupcoming
  refine ⟨?_, ?_⟩
  . change (s.knots.getD s.state.knot []).drop (s.state.step + 1) = rest
    rw [← List.tail_drop, hupcoming, List.tail_cons]
  . have hmem : step ∈ (s.knots.getD s.state.knot []).drop s.state.step := by
      rw [hupcoming]
      exact List.mem_cons_self ..
    have hlength : s.state.step < (s.knots.getD s.state.knot []).length := by
      by_contra hle
      rw [List.drop_eq_nil_of_le (by omega)] at hupcoming
      cases hupcoming
    rw [List.getD_eq_getElem?_getD] at hmem hlength
    cases hknot : s.knots[s.state.knot]? with
    | none => simp [hknot] at hmem
    | some knot =>
      rw [hknot] at hmem hlength
      exact ⟨knot, List.mem_of_getElem? hknot, List.mem_of_mem_drop hmem, hlength⟩

theorem Proper.next (h : s.Proper) {step : Step} {rest : List Step}
    (hupcoming : s.upcoming = step :: rest)
    : s.next.Proper := by
  obtain ⟨_, knot, hknot, _, hlength⟩ := upcoming_cons hupcoming
  have hlimit := h.lengths knot hknot
  have hstep : s.state.step + 1 < Number.wordLimit := by omega
  exact { h with state := { h.state with step := hstep } }

theorem Proper.assign (h : s.Proper) (name : String) (value : Value) (w : World S)
    : (s.assign name value w).1.Proper := by
  exact { h with state := h.state.assigned name value }

theorem Proper.assignResult (h : s.Proper) (target : Option String) (result : Option Value)
    (w : World S)
    : (s.assignResult target result w).1.Proper := by
  unfold Story.assignResult
  split
  . exact h.assign _ _ w
  . exact h

theorem upcoming_assignResult (target : Option String) (result : Option Value) (w : World S)
    : (s.assignResult target result w).1.upcoming = s.upcoming := by
  unfold assignResult
  split
  . rfl
  . rfl

theorem Proper.play (h : s.Proper) (w : World S) {steps : List Step} (hsteps : s.upcoming = steps)
    : (s.play w steps).2.1.Proper := by
  induction steps generalizing s w with
  | nil => exact h
  | cons step rest ih =>
    cases step with
    | line line => exact h.next hsteps
    | choices options => exact h
    | set name value =>
      have hset : (s.assign name value w).1.upcoming = .set name value :: rest := hsteps
      exact ih ((h.assign name value w).next hset) _ (upcoming_cons hset).1
    | report message severity => exact ih (h.next hsteps) _ (upcoming_cons hsteps).1
    | call name arguments target =>
      simp only [Story.play]
      split
      . exact h
      . next function _ _ =>
        generalize function.call arguments w = called
        obtain ⟨result, w⟩ := called
        have hcalled := h.assignResult target result w
        have hupcoming := (upcoming_assignResult target result w).trans hsteps
        exact ih (hcalled.next hupcoming) _ (upcoming_cons hupcoming).1

theorem Proper.choose (h : s.Proper) (index : Nat) : (s.choose index).2.Proper := by
  unfold Story.choose
  split
  . exact h
  . next text knot hoption =>
    have hmem : (text, knot) ∈ s.options := List.mem_of_getElem? hoption
    unfold options at hmem
    split at hmem
    . next options rest hupcoming =>
      obtain ⟨_, steps, hsteps, hchoices, _⟩ := upcoming_cons hupcoming
      have hknot : knot < Number.wordLimit := h.targets steps hsteps options hchoices _ hmem
      exact { h with state := h.state.visiting hknot }
    . cases hmem

theorem Proper.load (h : s.Proper) (text : String) : (s.load text).2.Proper := by
  unfold Story.load
  split
  . next hread => exact { h with state := State.proper_of_ofText hread }
  . exact h

theorem proper_new {defaults : Table String Value} {knots : List (List Step)}
    (hdefaults : defaults.keys.Nodup) (hlengths : ∀ knot ∈ knots, knot.length < Number.wordLimit)
    (htargets : ∀ knot ∈ knots, ∀ options, .choices options ∈ knot →
      ∀ option ∈ options, option.2 < Number.wordLimit)
    : (Story.new defaults knots : Story S).Proper where
  state := {
    knot := zero_lt_wordLimit
    step := zero_lt_wordLimit
    visits := List.nodup_nil
    visited := by
      intro knot hknot
      cases hknot
    values := hdefaults }
  defaults := hdefaults
  lengths := hlengths
  targets := htargets

theorem maintains_proper : Engine.Maintains (Proper : Story S → Prop) where
  continueOne _ world h := h.play world rfl
  choose _ index h := h.choose index
  reset _ _ h :=
    { h with state := (proper_new h.defaults h.lengths h.targets : Proper (S := S) _).state }
  rewind _ h :=
    { h with state := { h.state with knot := zero_lt_wordLimit, step := zero_lt_wordLimit } }
  setVariable _ name value world h := h.assign name value world
  observe _ _ _ h := { h with }
  bind _ _ _ h := { h with }
  load _ text h := h.load text

end Story

end Parley.Script
