import Parley.Faulty

namespace Parley.Faulty

variable {S E α : Type} {P : E → Prop} {f : Faulty E} {method : Method}

theorem attempt_eq (f : Faulty E) (method : Method) (call : E → Except EngineError Unit × E)
    : f.attempt method call
        =
      if method ∈ f.faults then
        (.error (injected method), f)
      else
        ((call f.story).1, { f with story := (call f.story).2 }) := by
  unfold attempt works
  by_cases hfault : method ∈ f.faults
  . simp only [hfault, if_true]
  . simp only [hfault, if_false]

theorem attemptIn_eq (f : Faulty E) (w : World S) (method : Method)
    (call : E → World S → Except EngineError α × E × World S)
    : f.attemptIn w method call
        =
      if method ∈ f.faults then
        (.error (injected method), f, w)
      else
        ((call f.story w).1, { f with story := (call f.story w).2.1 }, (call f.story w).2.2) := by
  unfold attemptIn works
  by_cases hfault : method ∈ f.faults
  . simp only [hfault, if_true]
  . simp only [hfault, if_false]

theorem attempt_keeps {call : E → Except EngineError Unit × E} (h : P f.story)
    (hcall : P (call f.story).2)
    : P (f.attempt method call).2.story := by
  rw [attempt_eq]
  split
  . exact h
  . exact hcall

theorem attemptIn_keeps {w : World S} {call : E → World S → Except EngineError α × E × World S}
    (h : P f.story) (hcall : P (call f.story w).2.1) : P (f.attemptIn w method call).2.1.story := by
  rw [attemptIn_eq]
  split
  . exact h
  . exact hcall

end Parley.Faulty
