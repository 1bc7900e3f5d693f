import Mathlib.Data.List.Forall2
import Parley.Proofs.History.Lawful

namespace Parley
namespace History

/--
Whether an entry comes when it must and, if it is the call of a handler, tells the state of the
runner.
-/
structure Prompt (past : History) (entry : Record) : Prop where
  status : ∀ token event status, entry = .entered token event status →
    (active past = true ↔ status ≠ .idle)
  first : ∀ token event status, entry = .entered token event status → called past = [] →
    past.head? = some (.delivering event)
  stop : ∀ before, past = .emitted .stopped :: .stopping :: before →
    if inProgress before = [] then
      entry = .delivering .stopped ∧ pending before = []
    else
      entry = .stopped true

def AllPrompt (h : History) : Prop :=
  ∀ entry past, entry :: past <:+ h → Prompt past entry

theorem allPrompt_nil : AllPrompt [] := by
  intro entry past hs
  simp at hs

theorem allPrompt_cons {entry : Record} {past : History}
    : AllPrompt (entry :: past) ↔ Prompt past entry ∧ AllPrompt past := by
  constructor
  . intro h
    exact ⟨h entry past List.suffix_rfl, fun _ _ hs => h _ _ (hs.trans (List.suffix_cons _ _))⟩
  . rintro ⟨hentry, hpast⟩ other before hs
    rcases List.suffix_cons_iff.mp hs with heq | hs
    . injection heq with hother hbefore
      rw [hother, hbefore]
      exact hentry
    . exact hpast other before hs

def Announcing (h : History) : Prop :=
  ∃ before, h = .emitted .stopped :: .stopping :: before

section Announcing

variable {entry : Record} {past : History}

theorem not_announcing_cons (hentry : entry ≠ .emitted .stopped) : ¬Announcing (entry :: past) := by
  rintro ⟨before, heq⟩
  injection heq with heq
  exact hentry heq

theorem AllPrompt.cons (h : AllPrompt past) (hpast : ¬Announcing past)
    (hentry : ∀ token event status, entry ≠ .entered token event status)
    : AllPrompt (entry :: past) := by
  rw [allPrompt_cons]
  refine ⟨⟨?_, ?_, ?_⟩, h⟩
  . intro token event status heq
    exact absurd heq (hentry token event status)
  . intro token event status heq
    exact absurd heq (hentry token event status)
  . intro before heq
    exact absurd ⟨before, heq⟩ hpast

end Announcing

theorem Lawful.called_ne_nil {h : History} (hl : Lawful h) (hworking : inProgress h ≠ [])
    : called h ≠ [] := by
  induction hl with
  | nil => simp [inProgress] at hworking
  | @cons entry past allowed _ _ ih =>
    cases entry with
    | entered => simp [called]
    | delivering => exact absurd allowed.1 hworking
    | left token =>
      have hone : inProgress past = [token] := allowed
      simp [inProgress, hone] at hworking
    | _ => exact ih hworking

section Queue

def EmittedAt (h : History) (event : Event) (moment : History) : Prop :=
  ∃ before, moment = .emitted event :: before ∧ moment <:+ h

theorem EmittedAt.cons {past moment : History} {event : Event} (h : EmittedAt past event moment)
    (entry : Record) : EmittedAt (entry :: past) event moment := by
  obtain ⟨before, heq, hs⟩ := h
  exact ⟨before, heq, hs.trans (List.suffix_cons entry past)⟩

theorem pending_queued (h : History) : List.Forall₂ (EmittedAt h) (pending h) (queued h) := by
  induction h with
  | nil => exact .nil
  | cons entry past ih =>
    have hpast : List.Forall₂ (EmittedAt (entry :: past)) (pending past) (queued past) := by
      apply ih.imp
      intro event moment hemitted
      exact hemitted.cons entry
    cases entry with
    | emitted event =>
      apply List.rel_append hpast
      exact .cons ⟨past, rfl, List.suffix_rfl⟩ .nil
    | delivering event =>
      unfold pending queued
      generalize pending past = events at *
      generalize queued past = moments at *
      cases hpast with
      | nil => exact .nil
      | cons _ hrest => exact hrest
    | tornDown => exact .nil
    | _ => exact hpast

theorem Lawful.cause_of_delivering {h past : History} {event : Event} (hl : Lawful h)
    (hs : .delivering event :: past <:+ h)
    : ∃ before, cause (.delivering event :: past) = some (.emitted event :: before) ∧
        .emitted event :: before ∈ queued past ∧ .emitted event :: before <:+ past := by
  have hhead : (pending past).head? = some event := (hl.allowed hs).2.2
  have hqueued := pending_queued past
  unfold cause
  generalize pending past = events at *
  generalize queued past = moments at *
  cases hqueued with
  | nil => simp at hhead
  | cons hemitted _ =>
    obtain ⟨before, heq, hs⟩ := hemitted
    rw [List.head?_cons, Option.some.injEq] at hhead
    rw [hhead] at heq
    exact ⟨before, by simp [heq], by simp [heq], heq ▸ hs⟩

theorem mem_queued_append {later past moment : History} (hmem : moment ∈ queued (later ++ past))
    : moment ∈ queued past ∨ past.length < moment.length := by
  induction later with
  | nil => exact Or.inl hmem
  | cons entry later ih =>
    cases entry with
    | emitted event =>
      simp only [List.cons_append, queued, List.mem_append, List.mem_singleton] at hmem
      rcases hmem with hmem | heq
      . exact ih hmem
      . right
        rw [heq, List.length_cons, List.length_append]
        omega
    | delivering event => exact ih (List.mem_of_mem_tail hmem)
    | tornDown => simp [queued] at hmem
    | _ => exact ih hmem

end Queue

theorem adoptions_le_append (later past : History)
    : adoptions past ≤ adoptions (later ++ past) := by
  induction later with
  | nil => simp
  | cons entry later ih => cases entry <;> simp only [List.cons_append, adoptions] <;> omega

theorem adoptions_lt_append {later past : History} (hreleased : active past = false)
    (hactive : active (later ++ past) = true) : adoptions past < adoptions (later ++ past) := by
  induction later with
  | nil => simp [hreleased] at hactive
  | cons entry later ih =>
    cases entry with
    | adopted =>
      have := adoptions_le_append later past
      simp only [List.cons_append, adoptions]
      omega
    | stopped => simp [active] at hactive
    | tornDown => simp [active] at hactive
    | _ => exact ih hactive

section Stop

variable {before later : History}

-- A stop from outside of any handler has its announcement delivered before anything else happens.
theorem AllPrompt.eq_nil_of_mem_queued
    (hp : AllPrompt (later ++ .emitted .stopped :: .stopping :: before))
    (houtside : inProgress before = [])
    (hmem : .emitted .stopped :: .stopping :: before
      ∈ queued (later ++ .emitted .stopped :: .stopping :: before)) : later = [] := by
  rcases List.eq_nil_or_concat later with hnil | ⟨init, entry, hlater⟩
  . exact hnil
  . rw [hlater, List.concat_append] at hp hmem
    have hstop := (hp entry _ (List.suffix_append _ _)).stop before rfl
    simp only [houtside, ↓reduceIte] at hstop
    obtain ⟨hentry, hpending⟩ := hstop
    have hempty : queued before = [] := by
      have hqueued := pending_queued before
      rw [hpending, List.forall₂_nil_left_iff] at hqueued
      exact hqueued
    rcases mem_queued_append hmem with hwaits | hlt
    . simp [hentry, queued, hempty] at hwaits
    . simp only [List.length_cons] at hlt
      omega

-- A stop out of a handler has released its story before its announcement is delivered.
theorem AllPrompt.concat_of_inProgress
    (hp : AllPrompt (later ++ .emitted .stopped :: .stopping :: before))
    (hinside : inProgress before ≠ []) (hlater : later ≠ [])
    : ∃ init, later = init ++ [.stopped true] := by
  rcases List.eq_nil_or_concat later with hnil | ⟨init, entry, heq⟩
  . exact absurd hnil hlater
  . rw [heq, List.concat_append] at hp
    have hstop := (hp entry _ (List.suffix_append _ _)).stop before rfl
    simp only [hinside, ↓reduceIte] at hstop
    exact ⟨init, by rw [heq, hstop, List.concat_eq_append]⟩

end Stop

theorem AllPrompt.of_suffix {past h : History} (hp : AllPrompt h) (hs : past <:+ h)
    : AllPrompt past := by
  intro entry before hbefore
  exact hp entry before (hbefore.trans hs)

theorem AllPrompt.presence {h past : History} {token : Token} {status : Status} (hp : AllPrompt h)
    (hl : Lawful h) (hs : .entered token .stopped status :: past <:+ h) (hfirst : called past = [])
    : ∃ before, cause past = some (.emitted .stopped :: .stopping :: before) ∧
        active before = true ∧
        (active past = true ↔ status ≠ .idle) ∧
        ((active past = true ∧ adoptions past = adoptions before) ↔ inProgress before = []) := by
  have hprompt := hp _ _ hs
  have hstatus := hprompt.status token .stopped status rfl
  have hhead := hprompt.first token .stopped status rfl hfirst
  obtain ⟨queue, rfl⟩ : ∃ queue, past = .delivering .stopped :: queue := by
    rw [List.head?_eq_some_iff] at hhead
    exact hhead
  have hdelivering : .delivering .stopped :: queue <:+ h := (List.suffix_cons _ _).trans hs
  obtain ⟨emitted, hcause, hmem, hqueue⟩ := hl.cause_of_delivering hdelivering
  have hqueue' : .emitted .stopped :: emitted <:+ h :=
    hqueue.trans ((List.suffix_cons _ _).trans hdelivering)
  obtain ⟨before, rfl⟩ : ∃ before, emitted = .stopping :: before := by
    rw [← List.head?_eq_some_iff]
    cases hl.of_suffix hqueue' with
    | cons _ announces _ => exact announces.mpr rfl
  have hactive : active before = true :=
    hl.allowed ((List.suffix_cons _ _).trans hqueue')
  refine ⟨before, hcause, hactive, hstatus, ?_⟩
  have hidle : inProgress queue = [] := (hl.allowed hdelivering).1
  have hpast := hp.of_suffix ((List.suffix_cons _ _).trans hdelivering)
  obtain ⟨later, rfl⟩ := hqueue
  constructor
  . rintro ⟨hpresent, hsame⟩
    by_contra hinside
    have hlater : later ≠ [] := by
      intro hnil
      rw [hnil] at hidle
      exact hinside hidle
    obtain ⟨init, rfl⟩ := hpast.concat_of_inProgress hinside hlater
    rw [List.append_assoc, List.singleton_append] at hpresent hsame
    have hreleased : active (.stopped true :: .emitted .stopped :: .stopping :: before)
        = false := rfl
    have hlt := adoptions_lt_append hreleased hpresent
    simp only [adoptions] at hlt hsame
    omega
  . intro houtside
    have hnil := hpast.eq_nil_of_mem_queued houtside hmem
    rw [hnil]
    exact ⟨hactive, rfl⟩

end History
end Parley
