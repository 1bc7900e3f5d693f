import Parley.Proofs.History.Lawful

namespace Parley
namespace History

section Events

@[simp]
theorem sinceTearDown_tornDown (past : History) : sinceTearDown (.tornDown :: past) = [] := by
  simp [sinceTearDown]

theorem sinceTearDown_cons {entry : Record} (hentry : entry ≠ .tornDown) (past : History)
    : sinceTearDown (entry :: past) = entry :: sinceTearDown past := by
  simp [sinceTearDown, hentry]

theorem Lawful.emitted_eq {h : History} (hl : Lawful h)
    : emitted (sinceTearDown h) = delivered (sinceTearDown h) ++ pending h := by
  induction hl with
  | nil => rfl
  | @cons entry past allowed _ _ ih =>
    cases entry with
    | tornDown => simp [emitted, delivered, pending]
    | emitted event =>
      rw [sinceTearDown_cons (by simp)]
      simp [emitted, delivered, pending, ih]
    | delivering event =>
      have hhead := allowed.2.2
      rw [sinceTearDown_cons (by simp)]
      cases hpending : pending past with
      | nil => simp [hpending] at hhead
      | cons first rest =>
        simp only [hpending, List.head?_cons, Option.some.injEq] at hhead
        simp [emitted, delivered, pending, ih, hpending, hhead]
    | _ =>
      rw [sinceTearDown_cons (by simp)]
      simpa [emitted, delivered, pending] using ih

theorem Lawful.delivered_sublist_emitted {later past : History}
    (hl : Lawful (later ++ .tornDown :: past))
    : (delivered later ++ pending (later ++ .tornDown :: past)).Sublist (emitted later) := by
  induction later with
  | nil => simp [delivered, emitted, pending]
  | cons entry later ih =>
    cases hl with
    | cons allowed _ lawful =>
      specialize ih lawful
      cases entry with
      | tornDown =>
        simp only [delivered, emitted, pending, List.cons_append, List.append_nil]
        exact (List.sublist_append_left _ _).trans ih
      | emitted event =>
        simp only [delivered, emitted, pending, List.cons_append, ← List.append_assoc]
        exact ih.append_right [event]
      | delivering event =>
        have hhead : (pending (later ++ .tornDown :: past)).head? = some event := allowed.2.2
        cases hpending : pending (later ++ .tornDown :: past) with
        | nil => simp [hpending] at hhead
        | cons first rest =>
          simp only [hpending, List.head?_cons, Option.some.injEq] at hhead
          rw [hpending, hhead] at ih
          simpa [delivered, emitted, pending, hpending] using ih
      | _ => simpa [delivered, emitted, pending] using ih

end Events

section Handlers

theorem Lawful.inProgress_of_deserted {h : History} (hl : Lawful h) (hd : deserted h = true)
    : inProgress h = [] ∧ waiting h = [] := by
  induction hl with
  | nil => simp [deserted] at hd
  | @cons entry past allowed _ lawful ih =>
    cases entry with
    | delivering => simp [deserted] at hd
    | entered =>
      have := (ih hd).2
      simp [Allowed, this] at allowed
    | left token =>
      simp only [Allowed] at allowed
      have hnone : inProgress (.left token :: past) = [] := by
        simp [inProgress, allowed]
      refine ⟨hnone, ?_⟩
      simp only [deserted, Bool.or_eq_true, Bool.and_eq_true] at hd
      rcases hd with hd | hd
      . have := (ih hd).1
        simp [this] at allowed
      . simp [waiting, hd.1]
    | _ => exact ih hd

-- As long as the delivery goes on, those who were called and those who wait are all of the
-- snapshot.
theorem Lawful.called_append_waiting {h : History} (hl : Lawful h) (hd : deserted h = false)
    : called h ++ waiting h = snapshot h := by
  induction hl with
  | nil => rfl
  | @cons entry past allowed _ lawful ih =>
    cases entry with
    | delivering => rfl
    | entered token event status =>
      have hhead := allowed.2.2
      specialize ih hd
      cases hwaiting : waiting past with
      | nil => simp [hwaiting] at hhead
      | cons first rest =>
        simp only [hwaiting, List.head?_cons, Option.some.injEq] at hhead
        rw [hwaiting, hhead] at ih
        simpa [called, waiting, snapshot, hwaiting] using ih
    | left token =>
      simp only [deserted, Bool.or_eq_false_iff] at hd
      specialize ih hd.1
      simp only [called, waiting, snapshot]
      split
      . next hlive =>
        have := hd.2
        simpa [hlive] using this
      . exact ih
    | _ => exact ih hd

theorem Lawful.called_prefix {h : History} (hl : Lawful h)
    : called h <+: snapshot h ∧ (deserted h = true → called h ≠ snapshot h) := by
  induction hl with
  | nil => simp [called, snapshot, deserted]
  | @cons entry past allowed announces lawful ih =>
    cases entry with
    | delivering => simp [called, deserted]
    | entered token event status =>
      have hd : deserted past = false := by
        rw [Bool.eq_false_iff]
        intro hd
        have := (lawful.inProgress_of_deserted hd).2
        simp [Allowed, this] at allowed
      have hwhole := (Lawful.cons allowed announces lawful).called_append_waiting hd
      constructor
      . exact ⟨_, hwhole⟩
      . simp [deserted, hd]
    | left =>
      simp only [called, snapshot, deserted, Bool.or_eq_true, Bool.and_eq_true, decide_eq_true_eq]
      refine ⟨ih.1, ?_⟩
      rintro (hd | hd)
      . exact ih.2 hd
      . exact hd.2
    | _ => exact ih

theorem Lawful.called_eq_snapshot_iff {h : History} (hl : Lawful h) (hw : waiting h = [])
    : called h = snapshot h ↔ deserted h = false := by
  constructor
  . intro heq
    rw [Bool.eq_false_iff]
    intro hd
    exact hl.called_prefix.2 hd heq
  . intro hd
    have := hl.called_append_waiting hd
    simpa [hw] using this

theorem Lawful.snapshot_nodup {h : History} (hl : Lawful h) : (snapshot h).Nodup := by
  induction hl with
  | nil => simp [snapshot]
  | @cons entry past _ _ lawful ih =>
    cases entry with
    | delivering event => exact lawful.registered_nodup event.kind
    | _ => exact ih

end Handlers

section Latest

variable {later past : History} {event : Event}

theorem snapshot_append (hlatest : ∀ other, .delivering other ∉ later)
    : snapshot (later ++ .delivering event :: past) = registered event.kind past := by
  induction later with
  | nil => rfl
  | cons entry later ih =>
    specialize ih fun other hmem => hlatest other (List.mem_cons_of_mem _ hmem)
    cases entry with
    | delivering other => exact absurd List.mem_cons_self (hlatest other)
    | _ => exact ih

theorem occasion_append (hlatest : ∀ other, .delivering other ∉ later)
    : occasion (later ++ .delivering event :: past) = some event := by
  induction later with
  | nil => rfl
  | cons entry later ih =>
    specialize ih fun other hmem => hlatest other (List.mem_cons_of_mem _ hmem)
    cases entry with
    | delivering other => exact absurd List.mem_cons_self (hlatest other)
    | _ => exact ih

theorem Lawful.eq_of_entered (hl : Lawful (later ++ .delivering event :: past))
    (hlatest : ∀ other, .delivering other ∉ later) {token : Token} {other : Event} {status : Status}
    (hmem : .entered token other status ∈ later) : other = event := by
  induction later with
  | nil => simp at hmem
  | cons entry later ih =>
    have hbefore : ∀ other, .delivering other ∉ later :=
      fun other hmem => hlatest other (List.mem_cons_of_mem _ hmem)
    cases hl with
    | cons allowed _ lawful =>
      rcases List.mem_cons.mp hmem with heq | hmem
      . rw [← heq] at allowed
        have hoccasion : occasion (later ++ .delivering event :: past) = some other := allowed.2.1
        rw [occasion_append hbefore] at hoccasion
        injection hoccasion with hoccasion
        exact hoccasion.symm
      . exact ih lawful hbefore hmem

-- Tokens are numbered one after the other, so that a new one is none of those of the snapshot.
theorem Lawful.not_mem_called_of_subscribed (hl : Lawful (later ++ .delivering event :: past))
    (hlatest : ∀ other, .delivering other ∉ later) {kind : EventKind} {token : Token}
    (hmem : .subscribed kind token ∈ later)
    : token ∉ called (later ++ .delivering event :: past) := by
  intro hcalled
  have hpast : Lawful past := hl.of_append.tail
  have hle : subscriptions past ≤ token.number := hl.le_number hmem
  have hregistered := hl.called_prefix.1.subset hcalled
  rw [snapshot_append hlatest] at hregistered
  have hlt := hpast.number_lt (subscribed_of_mem_registered hregistered)
  omega

end Latest

end History
end Parley
