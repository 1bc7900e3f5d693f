import Mathlib.Data.List.Nodup
import Parley.Registry

namespace Parley
namespace Registry

variable {H : Type}

/--
Whether a registry holds the handlers of a list of subscriptions, kind by kind and in order.
-/
def Tracks (r : Registry H) (live : List (EventKind × Token)) : Prop :=
  ∀ kind, (r.handlers kind).map (·.1) = (live.filter (·.1 = kind)).map (·.2)

theorem tracks_empty : (Registry.empty : Registry H).Tracks [] := by
  intro kind
  rfl

theorem tracks_clear (r : Registry H) : r.clear.Tracks [] := by
  intro kind
  rfl

theorem tracks_subscribe {r : Registry H} {live : List (EventKind × Token)} (h : r.Tracks live)
    (kind : EventKind) (handler : H)
    : (r.subscribe kind handler).2.Tracks (live ++ [(kind, (r.subscribe kind handler).1)]) := by
  intro other
  rw [List.filter_append, List.map_append, ← h other]
  unfold subscribe withHandlers
  by_cases hkind : other = kind
  . simp [hkind]
  . have : kind ≠ other := by
      intro heq
      exact hkind heq.symm
    simp [hkind, this]

theorem isEmpty_iff {r : Registry H} {live : List (EventKind × Token)} (h : r.Tracks live)
    : r.isEmpty = true ↔ live = [] := by
  have hsize : r.isEmpty = true ↔ ∀ kind, r.handlers kind = [] := by
    unfold isEmpty size
    simp only [decide_eq_true_eq, List.length_eq_zero_iff, List.flatMap_eq_nil_iff]
    constructor
    . intro hall kind
      exact hall kind kind.mem_all
    . intro hall kind _
      exact hall kind
  rw [hsize]
  constructor
  . intro hall
    rw [List.eq_nil_iff_forall_not_mem]
    intro entry hmem
    have hnone := h entry.1
    rw [hall entry.1] at hnone
    have hin : entry.2 ∈ (live.filter (·.1 = entry.1)).map (·.2) := by
      apply List.mem_map_of_mem
      simp [hmem]
    rw [← hnone] at hin
    simp at hin
  . intro hlive kind
    have := h kind
    rw [hlive] at this
    simpa using this

theorem mem_of_holds {r : Registry H} {live : List (EventKind × Token)} (h : r.Tracks live)
    {kind : EventKind} {token : Token} (hholds : r.holds kind token = true)
    : (kind, token) ∈ live := by
  have hmem : token ∈ (r.handlers kind).map (·.1) := by
    simpa [holds] using hholds
  rw [h kind] at hmem
  simpa using hmem

section Distinct

structure Distinct (r : Registry H) : Prop where
  nodup : ∀ kind, ((r.handlers kind).map (·.1)).Nodup
  apart : ∀ {kind other token}, r.holds kind token = true → r.holds other token = true →
      kind = other

theorem distinct_of_tracks {r : Registry H} {live : List (EventKind × Token)} (h : r.Tracks live)
    (hnodup : (live.map (·.2)).Nodup) : r.Distinct where
  nodup kind := by
    rw [h kind]
    exact (List.filter_sublist.map _).nodup hnodup
  apart hkind hother := by
    have hsame := List.inj_on_of_nodup_map hnodup (mem_of_holds h hkind) (mem_of_holds h hother) rfl
    exact congrArg (·.1) hsame

theorem filter_of_absent {handlers : List (Token × H)} {token : Token}
    (h : token ∉ handlers.map (·.1))
    : handlers.filter (·.1 ≠ token) = handlers := by
  rw [List.filter_eq_self]
  intro entry hmem
  rw [decide_eq_true_eq]
  rintro rfl
  exact h (List.mem_map_of_mem (f := (·.1)) hmem)

theorem filter_of_not_holds {r : Registry H} {kind : EventKind}
    {token : Token} (h : r.holds kind token = false)
    : (r.handlers kind).filter (·.1 ≠ token) = r.handlers kind := by
  rw [List.filter_eq_self]
  simpa [holds] using h

theorem eraseP_eq_filter {handlers : List (Token × H)} (hnodup : (handlers.map (·.1)).Nodup)
    (token : Token)
    : handlers.eraseP (·.1 = token) = handlers.filter (·.1 ≠ token) := by
  induction handlers with
  | nil => rfl
  | cons entry rest ih =>
    rw [List.map_cons, List.nodup_cons] at hnodup
    by_cases htoken : entry.1 = token
    . rw [htoken] at hnodup
      rw [List.eraseP_cons_of_pos (by simpa using htoken),
        List.filter_cons_of_neg (by simpa using htoken), filter_of_absent hnodup.1]
    . rw [List.eraseP_cons_of_neg (by simpa using htoken),
        List.filter_cons_of_pos (by simpa using htoken), ih hnodup.2]

-- A token stands for one handler, so that it goes away from all kinds and not only from the one
-- where it was found.
theorem handlers_unsubscribe {r : Registry H} (h : r.Distinct) (token : Token) (kind : EventKind)
    : (r.unsubscribe token).2.handlers kind = (r.handlers kind).filter (·.1 ≠ token) := by
  unfold unsubscribe
  split
  . next found hfind =>
    have hholds := List.find?_some hfind
    change (if kind = found then _ else _) = _
    split
    . next heq =>
      rw [← heq]
      exact eraseP_eq_filter (h.nodup kind) token
    . next hne =>
      have hother : r.holds kind token = false := by
        by_contra hkind
        exact hne (h.apart (by simpa using hkind) hholds)
      rw [filter_of_not_holds hother]
  . next hnone =>
    have hkind : r.holds kind token = false := by
      simpa using List.find?_eq_none.mp hnone kind kind.mem_all
    rw [filter_of_not_holds hkind]

end Distinct

theorem tracks_unsubscribe {r r' : Registry H} {live : List (EventKind × Token)} (h : r.Tracks live)
    (hnodup : (live.map (·.2)).Nodup) {token : Token} (hr : r.unsubscribe token = (true, r'))
    : r'.Tracks (live.filter (·.2 ≠ token)) := by
  have hhandlers := handlers_unsubscribe (distinct_of_tracks h hnodup) token
  rw [hr] at hhandlers
  intro kind
  have hfilter : ((r.handlers kind).filter (·.1 ≠ token)).map (·.1)
      = ((r.handlers kind).map (·.1)).filter (· ≠ token) := by
    rw [List.filter_map]
    rfl
  rw [hhandlers kind, hfilter, h kind, List.filter_map, List.filter_filter, List.filter_filter]
  congr 1
  apply List.filter_congr
  intro entry _
  simp [Bool.and_comm]

theorem next_unsubscribe (r : Registry H) (token : Token)
    : (r.unsubscribe token).2.next = r.next := by
  unfold unsubscribe
  split
  . rfl
  . rfl

end Registry
end Parley
