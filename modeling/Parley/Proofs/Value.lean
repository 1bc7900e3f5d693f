import Parley.Value

namespace Parley
namespace Value

variable {v w : Value} {k : Kind}

theorem get?_eq_some_iff {x : k.Carrier} : v.get? k = some x ↔ v = ofCarrier x := by
  cases k with
  | _ => cases v <;> simp [get?, ofCarrier]

theorem get?_eq_none_iff : v.get? k = none ↔ v.kind ≠ k := by
  cases k with
  | _ => cases v <;> simp [get?, kind]

theorem coerce_string (v : Value) : v.coerce .string = some (.string v.text) := by
  cases v <;> rfl

theorem coerce_eq_none
    : v.coerce k = none ↔ k ≠ .string ∧ (v.kind = .string ∨ v.kind = .float ∧ k = .bool) := by
  cases k with
  | string => simp [coerce_string]
  | bool => cases v <;> simp [coerce, truth?, kind]
  | int => cases v <;> simp [coerce, kind]
  | float => cases v <;> simp [coerce, kind]

theorem ofCarrier_of_coerce (h : v.coerce k = some w) : ∃ x : k.Carrier, w = ofCarrier x := by
  cases k with
  | string =>
    rw [coerce_string] at h
    exact ⟨v.text, (Option.some.inj h).symm⟩
  | bool =>
    obtain ⟨b, _, rfl⟩ := Option.map_eq_some_iff.mp h
    exact ⟨b, rfl⟩
  | int =>
    cases v with
    | string => simp [coerce] at h
    | _ => exact ⟨_, (Option.some.inj h).symm⟩
  | float =>
    cases v with
    | string => simp [coerce] at h
    | _ => exact ⟨_, (Option.some.inj h).symm⟩

/--
Whether a value converts to a kind as it should: unless it is text and the kind is another one it
does, to itself if it is of that kind, to its text if the kind is text, and always to a value that
is read as one of that kind.
-/
structure Coerces (v : Value) (k : Kind) : Prop where
  total : v.coerce k = none ↔ v.kind = .string ∧ k ≠ .string
  same : v.kind = k → v.coerce k = some v
  strict : ∀ w, v.coerce k = some w → w.kind = k ∧ (w.get? k).isSome = true
  text : k = .string → v.coerce k = some (.string v.text)

theorem coerces_iff (v : Value) (k : Kind) : v.Coerces k ↔ ¬(v.kind = .float ∧ k = .bool) := by
  constructor
  . rintro h ⟨hv, hk⟩
    have hnone : v.coerce k = none := by
      rw [coerce_eq_none, hk]
      exact ⟨by simp, Or.inr ⟨hv, rfl⟩⟩
    have hstring := (h.total.mp hnone).1
    rw [hv] at hstring
    contradiction
  . intro hne
    constructor
    . rw [coerce_eq_none, or_iff_left hne, and_comm]
    . rintro rfl
      exact coerce_kind v
    . intro w hw
      obtain ⟨x, rfl⟩ := ofCarrier_of_coerce hw
      simp
    . rintro rfl
      exact coerce_string v

-- One is not taken for true when it is a number, although it is when it is a whole number.
theorem not_coerces_one
    : (Value.float 1).coerce .bool = none ∧ (Value.int 1).coerce .bool = some (.bool true) ∧
        ¬(Value.float 1).Coerces .bool := by
  refine ⟨rfl, rfl, ?_⟩
  intro h
  have hstring : (Value.float 1).kind = .string := (h.total.mp rfl).1
  contradiction

end Value
end Parley
