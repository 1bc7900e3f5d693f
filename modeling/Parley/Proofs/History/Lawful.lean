import Mathlib.Data.List.Nodup
import Parley.History

/-!
This module contains the histories that a runner can have. `Lawful` says entry by entry what may
come after what, from the readings of a history alone; that the history of every run is lawful is
shown where runs are.
-/

namespace Parley
namespace History

/--
The handlers of the latest delivery that are still to be called. There are none any more once a
handler leaves no handler subscribed.
-/
def waiting : History → List Token
  | [] => []
  | .delivering event :: past => registered event.kind past
  | .entered .. :: past => (waiting past).tail
  | .left _ :: past => if (live past).isEmpty then [] else waiting past
  | _ :: past => waiting past

/--
Whether an entry does not speak of the latest delivery.
-/
def isAside : Record → Bool
  | .delivering _ | .entered .. | .left _ => false
  | _ => true

section Aside

variable {entry : Record} (hentry : isAside entry = true) (past : History)

include hentry

theorem inProgress_cons : inProgress (entry :: past) = inProgress past := by
  cases entry with
  | delivering | entered | left => simp [isAside] at hentry
  | _ => rfl

theorem waiting_cons : waiting (entry :: past) = waiting past := by
  cases entry with
  | delivering | entered | left => simp [isAside] at hentry
  | _ => rfl

theorem occasion_cons : occasion (entry :: past) = occasion past := by
  cases entry with
  | delivering | entered | left => simp [isAside] at hentry
  | _ => rfl

end Aside

def Allowed (past : History) : Record → Prop
  | .subscribed _ token => token.number = subscriptions past
  | .delivering event =>
    inProgress past = [] ∧ waiting past = [] ∧ (pending past).head? = some event
  | .entered token event _ =>
    inProgress past = [] ∧ occasion past = some event ∧ (waiting past).head? = some token
  | .left token => inProgress past = [token]
  | .adopted => active past = false
  | .stopping => active past = true
  | .stopped released => active past = released
  | .tornDown => inProgress past = [] → waiting past = []
  | _ => True

/--
Histories in which every entry may come after those before it, and in which a stop, and nothing but
a stop, announces at once the end of the session.
-/
inductive Lawful : History → Prop where
  | nil : Lawful []
  | cons {entry : Record} {past : History} (allowed : Allowed past entry)
      (announces : past.head? = some .stopping ↔ entry = .emitted .stopped)
      (lawful : Lawful past) : Lawful (entry :: past)

theorem Lawful.tail {entry : Record} {past : History} (h : Lawful (entry :: past))
    : Lawful past := by
  cases h with
  | cons _ _ lawful => exact lawful

theorem Lawful.of_append {later past : History} (h : Lawful (later ++ past)) : Lawful past := by
  induction later with
  | nil => exact h
  | cons entry later ih => exact ih h.tail

theorem Lawful.of_suffix {past h : History} (hl : Lawful h) (hs : past <:+ h) : Lawful past := by
  obtain ⟨later, rfl⟩ := hs
  exact hl.of_append

theorem Lawful.allowed {entry : Record} {past h : History} (hl : Lawful h)
    (hs : entry :: past <:+ h)
    : Allowed past entry := by
  cases hl.of_suffix hs with
  | cons allowed _ _ => exact allowed

theorem Lawful.inProgress_cases {h : History} (hl : Lawful h)
    : inProgress h = [] ∨ ∃ token, inProgress h = [token] := by
  induction hl with
  | nil => exact Or.inl rfl
  | @cons entry past allowed _ _ ih =>
    cases entry with
    | entered token =>
      have hidle := allowed.1
      exact Or.inr ⟨token, by simp [inProgress, hidle]⟩
    | left token =>
      have hworking : inProgress past = [token] := allowed
      exact Or.inl (by simp [inProgress, hworking])
    | _ => exact ih

section Subscriptions

theorem subscriptions_le_append (later past : History)
    : subscriptions past ≤ subscriptions (later ++ past) := by
  induction later with
  | nil => simp
  | cons entry later ih => cases entry <;> simp only [List.cons_append, subscriptions] <;> omega

theorem subscribed_of_mem_live {h : History} {entry : EventKind × Token} (hmem : entry ∈ live h)
    : .subscribed entry.1 entry.2 ∈ h := by
  induction h with
  | nil => simp [live] at hmem
  | cons act past ih =>
    cases act with
    | subscribed kind token =>
      simp only [live, List.mem_append, List.mem_singleton] at hmem
      rcases hmem with hmem | hmem
      . exact List.mem_cons_of_mem _ (ih hmem)
      . simp [hmem]
    | unsubscribed token =>
      simp only [live, List.mem_filter] at hmem
      exact List.mem_cons_of_mem _ (ih hmem.1)
    | tornDown => simp [live] at hmem
    | _ => exact List.mem_cons_of_mem _ (ih hmem)

theorem subscribed_of_mem_registered {h : History} {kind : EventKind} {token : Token}
    (hmem : token ∈ registered kind h) : .subscribed kind token ∈ h := by
  have hlive : (kind, token) ∈ live h := by
    simpa [registered] using hmem
  exact subscribed_of_mem_live hlive

theorem subscribed_of_mem_waiting {h : History} {token : Token} (hmem : token ∈ waiting h)
    : ∃ kind, .subscribed kind token ∈ h := by
  induction h with
  | nil => simp [waiting] at hmem
  | cons act past ih =>
    have hpast : token ∈ waiting past → ∃ kind, .subscribed kind token ∈ act :: past := by
      intro h
      obtain ⟨kind, hkind⟩ := ih h
      exact ⟨kind, List.mem_cons_of_mem _ hkind⟩
    cases act with
    | delivering event =>
      exact ⟨event.kind, List.mem_cons_of_mem _ (subscribed_of_mem_registered hmem)⟩
    | entered => exact hpast (List.mem_of_mem_tail hmem)
    | left =>
      simp only [waiting] at hmem
      split at hmem
      . simp at hmem
      . exact hpast hmem
    | _ => exact hpast hmem

theorem Lawful.number_lt {h : History} (hl : Lawful h) {kind : EventKind} {token : Token}
    (hmem : .subscribed kind token ∈ h) : token.number < subscriptions h := by
  induction hl with
  | nil => simp at hmem
  | @cons entry past allowed _ _ ih =>
    have hle := subscriptions_le_append [entry] past
    simp only [List.singleton_append] at hle
    rcases List.mem_cons.mp hmem with heq | hmem
    . rw [← heq] at allowed ⊢
      simp only [Allowed] at allowed
      simp only [subscriptions]
      omega
    . have := ih hmem
      omega

theorem Lawful.le_number {later past : History} (hl : Lawful (later ++ past))
    {kind : EventKind} {token : Token} (hmem : .subscribed kind token ∈ later)
    : subscriptions past ≤ token.number := by
  induction later with
  | nil => simp at hmem
  | cons entry later ih =>
    cases hl with
    | cons allowed _ lawful =>
      rcases List.mem_cons.mp hmem with heq | hmem
      . rw [← heq] at allowed
        have hnumber : token.number = subscriptions (later ++ past) := allowed
        rw [hnumber]
        apply subscriptions_le_append
      . exact ih lawful hmem

theorem Lawful.live_increasing {h : History} (hl : Lawful h)
    : (live h).Pairwise fun a b => a.2.number < b.2.number := by
  induction hl with
  | nil => simp [live]
  | @cons entry past allowed _ lawful ih =>
    cases entry with
    | subscribed kind token =>
      simp only [live, List.pairwise_append, List.pairwise_cons, List.not_mem_nil,
        IsEmpty.forall_iff, implies_true, List.Pairwise.nil, and_self, List.mem_singleton, true_and]
      refine ⟨ih, ?_⟩
      intro a ha b hb
      have := lawful.number_lt (subscribed_of_mem_live ha)
      simp only [Allowed] at allowed
      rw [hb, allowed]
      exact this
    | unsubscribed token => exact ih.filter _
    | tornDown => exact List.Pairwise.nil
    | _ => exact ih

theorem Lawful.live_nodup {h : History} (hl : Lawful h) : ((live h).map (·.2)).Nodup := by
  rw [List.nodup_iff_pairwise_ne, List.pairwise_map]
  apply hl.live_increasing.imp
  intro a b hlt heq
  rw [heq] at hlt
  omega

theorem Lawful.registered_nodup {h : History} (hl : Lawful h) (kind : EventKind)
    : (registered kind h).Nodup := by
  exact (List.filter_sublist.map _).nodup hl.live_nodup

end Subscriptions

end History
end Parley
