import Parley.Proofs.Registry

/-!
This module contains that a registry is the list of its subscriptions, in their order, whatever is
asked of it. The list is read from the requests and the answers to them alone.
-/

namespace Parley
namespace Registry

inductive Request (H : Type) where
  | subscribe (kind : EventKind) (handler : H)
  | unsubscribe (token : Token)
  | list (kind : EventKind)
  | clear

inductive Exchange (H : Type) where
  | subscribed (kind : EventKind) (handler : H) (token : Token)
  | unsubscribed (token : Token) (found : Bool)
  | listed (kind : EventKind) (handlers : List H)
  | cleared

structure Subscription (H : Type) where
  kind : EventKind
  token : Token
  handler : H

variable {H : Type}

def serve (r : Registry H) : Request H → Exchange H × Registry H
  | .subscribe kind handler =>
    let (token, r) := r.subscribe kind handler
    (.subscribed kind handler token, r)
  | .unsubscribe token =>
    let (found, r) := r.unsubscribe token
    (.unsubscribed token found, r)
  | .list kind => (.listed kind ((r.handlers kind).map (·.2)), r)
  | .clear => (.cleared, r.clear)

/--
Asks a new registry, and gives what was asked and answered with the registry that it has become. The
latest request stands first, and so does the latest answer.
-/
def run : List (Request H) → List (Exchange H) × Registry H
  | [] => ([], empty)
  | request :: before =>
    let (past, r) := run before
    let (exchange, r) := r.serve request
    (exchange :: past, r)

section Readings

def issued : List (Exchange H) → List Token
  | [] => []
  | .subscribed _ _ token :: past => token :: issued past
  | _ :: past => issued past

def live : List (Exchange H) → List (Subscription H)
  | [] => []
  | .subscribed kind handler token :: past => live past ++ [⟨kind, token, handler⟩]
  | .unsubscribed token _ :: past => (live past).filter (·.token ≠ token)
  | .cleared :: _ => []
  | .listed .. :: past => live past

/--
Whether a subscription was made and has neither been taken back nor cleared away since.
-/
def Stands (past : List (Exchange H)) (entry : Subscription H) : Prop :=
  ∃ later before, past = later ++ .subscribed entry.kind entry.handler entry.token :: before ∧
    .cleared ∉ later ∧ ∀ found, .unsubscribed entry.token found ∉ later

theorem stands_cons {exchange : Exchange H} {past : List (Exchange H)} {entry : Subscription H}
    : Stands (exchange :: past) entry ↔
        exchange = .subscribed entry.kind entry.handler entry.token ∨
          exchange ≠ .cleared ∧ (∀ found, exchange ≠ .unsubscribed entry.token found) ∧
          Stands past entry := by
  unfold Stands
  constructor
  . rintro ⟨later, before, heq, hcleared, htaken⟩
    cases later with
    | nil =>
      rw [List.nil_append, List.cons.injEq] at heq
      exact Or.inl heq.1
    | cons latest later =>
      rw [List.cons_append, List.cons.injEq] at heq
      obtain ⟨rfl, heq⟩ := heq
      simp only [List.mem_cons, not_or] at hcleared htaken
      refine Or.inr
          ⟨Ne.symm hcleared.1, ?_, later, before, heq, hcleared.2, fun found => (htaken found).2⟩
      exact fun found => Ne.symm (htaken found).1
  . rintro (rfl | ⟨hcleared, htaken, later, before, rfl, hcleared', htaken'⟩)
    . exact ⟨[], past, rfl, by simp, by simp⟩
    . refine ⟨exchange :: later, before, rfl, ?_, ?_⟩
      . simp [Ne.symm hcleared, hcleared']
      . simp [fun found => Ne.symm (htaken found), htaken']

theorem mem_live {past : List (Exchange H)} {entry : Subscription H}
    : entry ∈ live past ↔ Stands past entry := by
  induction past with
  | nil => simp [live, Stands]
  | cons exchange past ih =>
    obtain ⟨kind, token, handler⟩ := entry
    rw [stands_cons, ← ih]
    cases exchange with
    | subscribed other callback given =>
      simp only [live, List.mem_append, List.mem_singleton, Subscription.mk.injEq,
        Exchange.subscribed.injEq]
      grind
    | unsubscribed given found =>
      have hother : (∀ answer,
          (.unsubscribed given found : Exchange H) ≠ .unsubscribed token answer)
            ↔ token ≠ given := by
        constructor
        . rintro hne rfl
          exact hne found rfl
        . rintro hne _ ⟨⟩
          exact hne rfl
      simp only [live, List.mem_filter, decide_eq_true_eq, hother, reduceCtorEq, ne_eq,
        not_false_eq_true, true_and, false_or]
      exact and_comm
    | listed => simp [live]
    | cleared => simp [live]

end Readings

section Kept

/--
Whether a registry has given out these tokens and holds the subscriptions that are left.
-/
structure KeepsSubscriptions (past : List (Exchange H)) (r : Registry H) : Prop where
  next : r.next = (issued past).length
  issued : (issued past).Pairwise (·.number > ·.number)
  bounded : ∀ token ∈ Registry.issued past, token.number < r.next
  ordered : (live past).Pairwise (·.token.number < ·.token.number)
  known : ∀ entry ∈ live past, entry.token ∈ Registry.issued past
  handlers : ∀ kind, r.handlers kind
    = ((live past).filter (·.kind = kind)).map fun entry => (entry.token, entry.handler)

variable {past : List (Exchange H)} {r : Registry H}

theorem KeepsSubscriptions.distinct (h : KeepsSubscriptions past r) : r.Distinct := by
  have htracks : r.Tracks ((live past).map fun entry => (entry.kind, entry.token)) := by
    intro kind
    rw [h.handlers kind, List.map_map, List.filter_map, List.map_map]
    rfl
  apply distinct_of_tracks htracks
  rw [List.map_map, List.nodup_iff_pairwise_ne, List.pairwise_map]
  apply h.ordered.imp
  rintro entry other hlt heq
  exact Nat.ne_of_lt hlt (congrArg Token.number heq)

theorem KeepsSubscriptions.subscribe (h : KeepsSubscriptions past r) (kind : EventKind)
    (handler : H)
    : KeepsSubscriptions (.subscribed kind handler ⟨r.next⟩ :: past)
        (r.subscribe kind handler).2 where
  next := congrArg (· + 1) h.next
  issued := List.pairwise_cons.mpr ⟨h.bounded, h.issued⟩
  bounded := by
    change ∀ token ∈ ⟨r.next⟩ :: Registry.issued past, token.number < r.next + 1
    rw [List.forall_mem_cons]
    exact ⟨Nat.lt_succ_self _, fun token hmem => Nat.lt_succ_of_lt (h.bounded token hmem)⟩
  ordered := by
    rw [live, List.pairwise_append]
    refine ⟨h.ordered, List.pairwise_singleton _ _, ?_⟩
    intro entry hmem other hother
    rw [List.mem_singleton.mp hother]
    exact h.bounded entry.token (h.known entry hmem)
  known := by
    intro entry hmem
    rw [live, List.mem_append, List.mem_singleton] at hmem
    rcases hmem with hmem | rfl
    . exact List.mem_cons_of_mem _ (h.known entry hmem)
    . exact List.mem_cons_self
  handlers := by
    intro other
    change (if other = kind then r.handlers kind ++ [(⟨r.next⟩, handler)] else r.handlers other) = _
    rw [live, List.filter_append, List.map_append, h.handlers kind, h.handlers other]
    by_cases hkind : other = kind
    . simp [hkind]
    . simp [hkind, Ne.symm hkind]

theorem KeepsSubscriptions.unsubscribe (h : KeepsSubscriptions past r) (token : Token)
    : KeepsSubscriptions (.unsubscribed token (r.unsubscribe token).1 :: past)
        (r.unsubscribe token).2 where
  next := (next_unsubscribe r token).trans h.next
  issued := h.issued
  bounded := by
    rw [next_unsubscribe]
    exact h.bounded
  ordered := h.ordered.filter _
  known entry hmem := h.known entry (List.mem_of_mem_filter hmem)
  handlers := by
    intro kind
    rw [handlers_unsubscribe h.distinct, h.handlers kind, live, List.filter_map, List.filter_filter,
      List.filter_filter]
    congr 1
    apply List.filter_congr
    intro entry _
    simp [Bool.and_comm]

theorem KeepsSubscriptions.serve (h : KeepsSubscriptions past r) (request : Request H)
    : KeepsSubscriptions ((r.serve request).1 :: past) (r.serve request).2 := by
  cases request with
  | subscribe kind handler => exact h.subscribe kind handler
  | unsubscribe token => exact h.unsubscribe token
  | list kind => exact ⟨h.next, h.issued, h.bounded, h.ordered, h.known, h.handlers⟩
  | clear => exact ⟨h.next, h.issued, h.bounded, .nil, by simp [Registry.serve, live], fun _ => rfl⟩

theorem keepsSubscriptions_run (requests : List (Request H))
    : KeepsSubscriptions (run requests).1 (run requests).2 := by
  induction requests with
  | nil =>
    exact ⟨rfl, .nil, by simp [run, Registry.issued], .nil, by simp [run, live], fun _ => rfl⟩
  | cons request before ih => exact ih.serve request

end Kept

section Removal

variable {r : Registry H} {token : Token}

def Removes (r : Registry H) (token : Token) (r' : Registry H) : Prop :=
  ∃ kind front handler back, r.handlers kind = front ++ (token, handler) :: back ∧
    r'.handlers kind = front ++ back ∧
    (∀ other, other ≠ kind → r'.handlers other = r.handlers other) ∧
    r'.next = r.next

theorem unsubscribe_fst : (r.unsubscribe token).1 = true ↔ ∃ kind, r.holds kind token = true := by
  unfold unsubscribe
  split
  . next kind hfind =>
    have hholds := List.find?_some hfind
    simpa using ⟨kind, hholds⟩
  . next hnone =>
    have hkinds := List.find?_eq_none.mp hnone
    simp only [Bool.false_eq_true, false_iff, not_exists]
    exact fun kind => hkinds kind kind.mem_all

theorem unsubscribe_missing (h : (r.unsubscribe token).1 = false)
    : (r.unsubscribe token).2 = r := by
  unfold unsubscribe at h ⊢
  split at h
  . contradiction
  . rfl

theorem removes_unsubscribe (h : r.Distinct) (hfound : (r.unsubscribe token).1 = true)
    : r.Removes token (r.unsubscribe token).2 := by
  obtain ⟨kind, hholds⟩ := unsubscribe_fst.mp hfound
  have hmem : ∃ handler, (token, handler) ∈ r.handlers kind := by
    simpa [holds] using hholds
  obtain ⟨handler, hmem⟩ := hmem
  obtain ⟨front, back, hsplit⟩ := List.append_of_mem hmem
  have hnodup := h.nodup kind
  rw [hsplit, List.map_append, List.map_cons, List.nodup_middle, List.nodup_cons, List.mem_append,
    not_or] at hnodup
  refine ⟨kind, front, handler, back, hsplit, ?_, ?_, next_unsubscribe r token⟩
  . rw [handlers_unsubscribe h, hsplit, List.filter_append, List.filter_cons_of_neg (by simp),
      filter_of_absent hnodup.1.1, filter_of_absent hnodup.1.2]
  . intro other hother
    have hapart : r.holds other token = false := by
      by_contra hother'
      exact hother (h.apart (by simpa using hother') hholds)
    rw [handlers_unsubscribe h, filter_of_not_holds hapart]

/--
Takes the handler of a token out, and looks for it in one kind after the other, in this order.
-/
def unsubscribeAlong (kinds : List EventKind) (r : Registry H) (token : Token)
    : Bool × Registry H :=
  match kinds.find? (r.holds · token) with
  | some kind => (true, r.withHandlers kind ((r.handlers kind).eraseP (·.1 = token)))
  | none => (false, r)

theorem unsubscribeAlong_eq (h : r.Distinct) {kinds : List EventKind}
    (hkinds : ∀ kind, r.handlers kind ≠ [] → kind ∈ kinds) (token : Token)
    : r.unsubscribeAlong kinds token = r.unsubscribe token := by
  have hsame : kinds.find? (r.holds · token) = EventKind.all.find? (r.holds · token) := by
    cases hfind : EventKind.all.find? (r.holds · token) with
    | none =>
      rw [List.find?_eq_none] at hfind ⊢
      exact fun kind _ => hfind kind kind.mem_all
    | some kind =>
      have hholds := List.find?_some hfind
      have hmem : kind ∈ kinds := by
        apply hkinds
        intro hnil
        simp [holds, hnil] at hholds
      cases hother : kinds.find? (r.holds · token) with
      | none => exact absurd hholds (List.find?_eq_none.mp hother kind hmem)
      | some other =>
        have hother := List.find?_some hother
        rw [h.apart hother hholds]
  unfold unsubscribeAlong unsubscribe
  generalize kinds.find? (r.holds · token) = found at hsame ⊢
  subst hsame
  rfl

end Removal

section Size

theorem size_of_handlers {r : Registry H} {live : List (Subscription H)}
    (h : ∀ kind, r.handlers kind = (live.filter (·.kind = kind)).map fun entry =>
      (entry.token, entry.handler))
    : r.size = live.length := by
  have hcount : ∀ kinds : List EventKind,
      (kinds.flatMap r.handlers).length =
      (kinds.map fun kind => live.countP (·.kind = kind)).sum := by
    intro kinds
    simp only [List.length_flatMap, h, List.length_map, List.countP_eq_length_filter]
  rw [size, hcount]
  clear h hcount
  induction live with
  | nil => rfl
  | cons entry live ih =>
    simp only [EventKind.all, List.countP_cons, List.map_cons, List.map_nil, List.sum_cons,
      List.sum_nil] at ih ⊢
    cases entry.kind with
    | _ => simp; omega

end Size

/--
Whether a registry does after these exchanges what the list of the subscriptions that stand would
do.
-/
structure BehavesAsList (past : List (Exchange H)) (r : Registry H) : Prop where
  distinct : (issued past).Nodup
  /-- The next token has never been given out, and its number counts those that were. -/
  fresh : ∀ kind handler, (r.subscribe kind handler).1 ∉ issued past ∧
    (r.subscribe kind handler).1.number = (issued past).length
  standing : ∀ entry, entry ∈ live past ↔ Stands past entry
  ordered : (live past).Pairwise (·.token.number < ·.token.number)
  handlers : ∀ kind, r.handlers kind
    = ((live past).filter (·.kind = kind)).map fun entry => (entry.token, entry.handler)
  found : ∀ token, (r.unsubscribe token).1 = true ↔ ∃ entry, entry.token = token ∧ Stands past entry
  removed : ∀ token, (r.unsubscribe token).1 = true → r.Removes token (r.unsubscribe token).2
  missing : ∀ token, (r.unsubscribe token).1 = false → (r.unsubscribe token).2 = r
  /-- The order in which the kinds are searched for a token makes no difference. -/
  searched : ∀ kinds, (∀ kind, r.handlers kind ≠ [] → kind ∈ kinds) →
    ∀ token, r.unsubscribeAlong kinds token = r.unsubscribe token
  size : r.size = (live past).length
  isEmpty : r.isEmpty = true ↔ r.size = 0

theorem KeepsSubscriptions.found {past : List (Exchange H)} {r : Registry H}
    (h : KeepsSubscriptions past r) (token : Token)
    : (r.unsubscribe token).1 = true ↔ ∃ entry, entry.token = token ∧ Stands past entry := by
  have hholds : ∀ kind, r.holds kind token = true ↔ ∃ entry ∈ live past,
      entry.kind = kind ∧ entry.token = token := by
    intro kind
    simp [holds, h.handlers kind]
  simp only [unsubscribe_fst, hholds, ← mem_live]
  constructor
  . rintro ⟨_, entry, hmem, _, htoken⟩
    exact ⟨entry, htoken, hmem⟩
  . rintro ⟨entry, htoken, hmem⟩
    exact ⟨entry.kind, entry, hmem, rfl, htoken⟩

theorem run_mirrors (requests : List (Request H))
    : let (past, r) := run requests
      BehavesAsList past r := by
  have hrun := keepsSubscriptions_run requests
  generalize run requests = ended at *
  obtain ⟨past, r⟩ := ended
  have hfresh : ∀ kind handler, (r.subscribe kind handler).1 ∉ issued past := by
    intro kind handler hmem
    exact Nat.lt_irrefl _ (hrun.bounded _ hmem)
  constructor
  case distinct =>
    apply hrun.issued.imp
    rintro token other hlt rfl
    exact Nat.lt_irrefl _ hlt
  case fresh => exact fun kind handler => ⟨hfresh kind handler, hrun.next⟩
  case standing => exact fun entry => mem_live
  case ordered => exact hrun.ordered
  case handlers => exact hrun.handlers
  case found => exact hrun.found
  case removed => exact fun token => removes_unsubscribe hrun.distinct
  case missing => exact fun token => unsubscribe_missing
  case searched => exact fun kinds hkinds token => unsubscribeAlong_eq hrun.distinct hkinds token
  case size => exact size_of_handlers hrun.handlers
  case isEmpty => simp [Registry.isEmpty]

end Registry
end Parley
