import Parley.Proofs.Player.Session

namespace Parley.Player

variable {F : Type}

def Desk.outcome (d : Desk F) (exit : Nat) : Outcome F :=
  ⟨exit, d.output, d.files⟩

/--
Whether what is done at a desk ends with a result that satisfies `post`, or fails and leaves a desk
that satisfies `fails`.
-/
def Goes {α : Type} (act : ExceptT Failure (StateM (Desk F)) α) (d : Desk F)
    (post : α → Desk F → Prop) (fails : Desk F → Prop) : Prop :=
  match (act.run.run d : Except Failure α × Desk F) with
  | (.ok a, d) => post a d
  | (.error _, d) => fails d

section Goes

variable {α β : Type} {d : Desk F} {fails : Desk F → Prop}

@[simp]
theorem goes_throw {post : α → Desk F → Prop} (failure : Failure)
    : Goes (throw failure) d post fails ↔ fails d := by
  rfl

theorem Goes.mono {act : ExceptT Failure (StateM (Desk F)) α} {post post' : α → Desk F → Prop}
    {fails' : Desk F → Prop} (h : Goes act d post fails) (hpost : ∀ a d, post a d → post' a d)
    (hfails : ∀ d, fails d → fails' d)
    : Goes act d post' fails' := by
  unfold Goes at *
  split at h
  . exact hpost _ _ h
  . exact hfails _ h

theorem Goes.imp {act : ExceptT Failure (StateM (Desk F)) α} {post post' : α → Desk F → Prop}
    (h : Goes act d post fails) (hpost : ∀ a d, post a d → post' a d) : Goes act d post' fails := by
  apply h.mono hpost
  intro d hfails
  exact hfails

variable [FileSystem F]

def Desk.prompted (d : Desk F) (choices : List Choice) : Desk F :=
  { d with lines := d.lines.tail, output := d.output ++ promptText choices }

end Goes

section Command

variable [FileSystem F] {E : Type} [Engine String E] {P : E → Prop} {s : Session String E}
    {d : Desk F} {limit bound : Nat}

variable (hP : Engine.Secluded P)

include hP

end Command

end Parley.Player
