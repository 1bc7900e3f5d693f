import Parley.Json.Record

namespace Parley.Json

namespace Reader

variable {α β σ κ : Type}

def Yields (reader : Reader α) (post : α → Prop) : Prop :=
  ∀ text a rest, StateT.run reader text = .ok (a, rest) → post a

variable {reader : Reader α} {post : α → Prop}

section Rules

theorem yields_pure {a : α} (h : post a) : Yields (pure a) post := by
  intro text b rest hrun
  cases hrun
  exact h

theorem yields_throw (fault : Fault) : Yields (throw fault) post := by
  intro text a rest hrun
  cases hrun

theorem yields_true (reader : Reader α) : Yields reader fun _ => True := by
  intro text a rest _
  trivial

theorem yields_bind {f : α → Reader β} {mid : α → Prop} {post : β → Prop} (h : Yields reader mid)
    (hf : ∀ a, mid a → Yields (f a) post) : Yields (reader >>= f) post := by
  intro text b rest hrun
  rw [StateT.run_bind] at hrun
  cases hreader : StateT.run reader text with
  | error fault =>
    rw [hreader] at hrun
    cases hrun
  | ok ended =>
    rw [hreader] at hrun
    exact hf ended.1 (h _ _ _ hreader) _ _ _ hrun

-- For the parts of a reader whose results do not matter.
theorem yields_then {f : α → Reader β} {post : β → Prop} (hf : ∀ a, Yields (f a) post)
    : Yields (reader >>= f) post := by
  exact yields_bind (yields_true reader) fun a _ => hf a

theorem yields_invalidType (expected : String) : Yields (invalidType expected) post := by
  unfold invalidType
  refine yields_then ?_
  intro c
  -- Whatever was found, it is refused in the end.
  have hfound : ∀ found : Reader Found, Yields (do
      let found ← found
      throw (.mismatch (.invalidType found expected))) post := by
    intro found
    exact yields_then fun _ => yields_throw _
  split
  . exact yields_then fun _ => hfound _
  . exact yields_then fun _ => hfound _
  . exact yields_then fun _ => hfound _
  . exact yields_then fun _ => hfound _
  . exact hfound _
  . exact hfound _
  . split
    . exact yields_then fun _ => hfound _
    . exact hfound _
  . exact hfound _

theorem Yields.expecting (h : Yields reader post) (starts : Char → Bool) (expected : String)
    : Yields (expecting starts expected reader) post := by
  unfold Reader.expecting
  refine yields_then ?_
  intro c
  split
  . exact yields_throw _
  . split
    . exact h
    . exact yields_invalidType expected

theorem yields_integer (least greatest : Int) (expected : String)
    : Yields (integer least greatest expected) fun n => least ≤ n ∧ n ≤ greatest := by
  unfold integer
  refine yields_then ?_
  intro n
  cases n with
  | int n =>
    dsimp only
    split
    . next hwithin =>
      refine yields_pure ?_
      simpa using hwithin
    . exact yields_throw _
  | real negative d => exact yields_throw _

theorem yields_count : Yields count (· < Number.wordLimit) := by
  unfold count
  refine yields_bind (yields_integer _ _ _) ?_
  intro n hn
  refine yields_pure ?_
  unfold Number.wordLimit
  omega

end Rules

section Members

variable {name : Reader κ} {member : σ → κ → Reader σ} {named : κ → Prop} {I : σ → Prop}

theorem yields_members (hname : Yields name named)
    (hmember : ∀ state key, I state → named key → Yields (member state key) I) {start : σ}
    (hstart : I start) : Yields (members name member start) I := by
  have hgo : ∀ fuel first state, I state → Yields (members.go name member fuel first state) I := by
    intro fuel
    induction fuel with
    | zero =>
      intro first state _
      exact yields_throw _
    | succ fuel ih =>
      intro first state hstate
      unfold members.go
      refine yields_then ?_
      intro another
      split
      . refine yields_bind hname ?_
        intro key hkey
        refine yields_bind (hmember state key hstate hkey) ?_
        exact ih false
      . exact yields_pure hstate
  unfold members
  refine yields_then ?_
  intro n
  exact hgo n true start hstart

end Members

end Reader

namespace Record

open Reader

variable {σ : Type} {r : Record σ} {I : σ → Prop}

theorem yields_readItems (fields : List (Json.Field σ))
    (hfields : ∀ field ∈ fields, ∀ state, I state → Yields (field.read state) I) (count : Nat)
    {state : σ} (hstate : I state) : Yields (r.readItems count fields state) I := by
  induction fields generalizing count state with
  | nil => exact yields_pure hstate
  | cons field fields ih =>
    rw [List.forall_mem_cons] at hfields
    unfold readItems
    refine yields_then ?_
    intro another
    split
    . refine yields_bind (hfields.1 state hstate) ?_
      intro state hstate
      exact ih hfields.2 (count + 1) hstate
    . exact yields_throw _

theorem yields_readMember
    (hfields : ∀ field ∈ r.fields, ∀ state, I state → Yields (field.read state) I) (state : σ)
    (name : String) (hstate : I state) : Yields (r.readMember state name) I := by
  unfold readMember
  split
  . next field hfound =>
    have hfield := hfields field (List.mem_of_find?_eq_some hfound) state hstate
    have hread : Yields (do colon; field.read state) I := yields_then fun _ => hfield
    split
    . exact yields_bind (yields_throw _) fun a (ha : False) => absurd ha id
    . exact hread
  . refine yields_then fun _ => ?_
    refine yields_then fun _ => ?_
    exact yields_pure hstate

theorem yields_read (hfields : ∀ field ∈ r.fields, ∀ state, I state → Yields (field.read state) I)
    {empty : σ} (hempty : I empty) : Yields (r.read empty) I := by
  unfold read
  refine yields_then fun c => ?_
  split
  . exact yields_throw _
  . refine yields_then fun _ => ?_
    refine yields_bind (yields_readItems r.fields hfields 0 hempty) fun state hstate => ?_
    refine yields_then fun _ => ?_
    exact yields_pure hstate
  . refine yields_then fun _ => ?_
    refine yields_bind (yields_members (yields_true _)
      (fun state name hstate _ => yields_readMember hfields state name hstate) hempty)
      fun state hstate => ?_
    have hclose : Yields (do closeObject; return state) I := yields_then fun _ => yields_pure hstate
    split
    . exact yields_bind (yields_throw _) fun a (ha : False) => absurd ha id
    . exact hclose
  . exact yields_invalidType _

end Record

end Parley.Json
