namespace Parley

structure Table (κ α : Type) where
  entries : List (κ × α) := []
deriving Repr

namespace Table

variable {κ α : Type} [BEq κ]

def empty : Table κ α := ⟨[]⟩

def get? (t : Table κ α) (key : κ) : Option α :=
  t.entries.lookup key

def contains (t : Table κ α) (key : κ) : Bool :=
  (t.get? key).isSome

/--
Gives a value to a key. A key that has one keeps its place.
-/
def set (t : Table κ α) (key : κ) (value : α) : Table κ α :=
  ⟨go t.entries⟩
where
  go : List (κ × α) → List (κ × α)
    | [] => [(key, value)]
    | (other, old) :: rest => if key == other then (key, value) :: rest else (other, old) :: go rest

def update (t : Table κ α) (key : κ) (default : α) (f : α → α) : Table κ α :=
  t.set key (f ((t.get? key).getD default))

/--
The table in which later entries of a list replace earlier ones.
-/
def ofList (entries : List (κ × α)) : Table κ α :=
  entries.foldl (fun t (key, value) => t.set key value) empty

def erase (t : Table κ α) (key : κ) : Table κ α :=
  ⟨t.entries.filter fun entry => !(entry.1 == key)⟩

def keys (t : Table κ α) : List κ :=
  t.entries.map (·.1)

def size (t : Table κ α) : Nat :=
  t.entries.length

theorem get?_set [LawfulBEq κ] (t : Table κ α) (key other : κ) (value : α) :
    (t.set key value).get? other = if other == key then some value else t.get? other := by
  obtain ⟨entries⟩ := t
  simp only [get?, set]
  induction entries with
  | nil =>
    by_cases h : other = key
    · simp [set.go, h]
    · simp [set.go, List.lookup_cons, beq_eq_false_iff_ne.mpr h]
  | cons entry rest ih =>
    obtain ⟨k, old⟩ := entry
    simp only [set.go]
    by_cases hk : key = k
    · subst hk
      by_cases ho : other = key
      · simp [ho]
      · simp [List.lookup_cons, beq_eq_false_iff_ne.mpr ho]
    · by_cases ho : other = k
      · subst ho
        simp [Ne.symm hk, hk]
      · simp only [beq_eq_false_iff_ne.mpr hk, Bool.false_eq_true, if_false, List.lookup_cons,
          beq_eq_false_iff_ne.mpr ho]
        exact ih

@[simp]
theorem get?_empty (key : κ) : (empty : Table κ α).get? key = none := rfl

end Table

end Parley
