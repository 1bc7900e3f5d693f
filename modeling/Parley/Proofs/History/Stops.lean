import Parley.Proofs.History.Lawful

namespace Parley
namespace History

theorem le_adoptions_of_mem_stops {h : History} {number : Nat} (hmem : number ∈ stops h)
    : number ≤ adoptions h := by
  induction h with
  | nil => simp [stops] at hmem
  | cons entry past ih =>
    cases entry with
    | stopping =>
      rcases List.mem_cons.mp hmem with heq | hmem
      . exact Nat.le_of_eq heq
      . exact ih hmem
    | stopped => exact ih (List.mem_of_mem_tail hmem)
    | adopted =>
      have := ih hmem
      simp only [adoptions]
      omega
    | _ => exact ih hmem

-- Between the beginning of a stop and its announcement, which comes at once, there is one less.
theorem Lawful.announced_eq {h : History} (hl : Lawful h) (ha : active h = true)
    : announced h + (if h.head? = some .stopping then 1 else 0)
        =
      (stops h).count (adoptions h) := by
  induction hl with
  | nil => simp [active] at ha
  | @cons entry past allowed announces _ ih =>
    have hother : entry ≠ .emitted .stopped → past.head? ≠ some .stopping := by
      intro hentry hhead
      exact hentry (announces.mp hhead)
    cases entry with
    | adopted =>
      have hnew : adoptions past + 1 ∉ stops past := by
        intro hmem
        have := le_adoptions_of_mem_stops hmem
        omega
      simp [announced, stops, adoptions, List.count_eq_zero_of_not_mem hnew]
    | stopping =>
      specialize ih allowed
      simp only [hother (by simp), ↓reduceIte, Nat.add_zero] at ih
      simp [announced, stops, adoptions, ih]
    | stopped => simp [active] at ha
    | tornDown => simp [active] at ha
    | emitted event =>
      specialize ih ha
      by_cases hstopped : event = .stopped
      . rw [hstopped] at announces ⊢
        simp only [announces.mpr rfl, ↓reduceIte] at ih
        simp [announced, stops, adoptions, ih]
      . simp only [hother (by simpa using hstopped), ↓reduceIte, Nat.add_zero] at ih
        cases event <;> simp_all [announced, stops, adoptions]
    | _ =>
      specialize ih ha
      simp only [hother (by simp), ↓reduceIte, Nat.add_zero] at ih
      simpa [announced, stops, adoptions] using ih

theorem Lawful.announced_of_stopped {past h : History} (hl : Lawful h)
    (hs : .stopped true :: past <:+ h)
    : announced past = (stops past).count (adoptions past) := by
  cases hl.of_suffix hs with
  | cons allowed announces lawful =>
    have hhead : past.head? ≠ some .stopping := by
      rw [ne_eq, announces]
      simp
    have := lawful.announced_eq allowed
    simpa [hhead] using this

end History
end Parley
