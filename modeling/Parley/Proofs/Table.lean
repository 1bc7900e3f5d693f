import Parley.Table

namespace Parley

namespace Table

variable {κ α : Type} [BEq κ] [LawfulBEq κ]

section Keys

theorem keys_set_of_mem {t : Table κ α} {key : κ} (hkey : key ∈ t.keys) (value : α)
    : (t.set key value).keys = t.keys := by
  obtain ⟨entries⟩ := t
  simp only [keys, set] at hkey ⊢
  induction entries with
  | nil => simp at hkey
  | cons entry rest ih =>
    obtain ⟨other, old⟩ := entry
    simp only [set.go]
    by_cases heq : key = other
    . simp [heq]
    . simp only [List.map_cons, List.mem_cons, heq, false_or] at hkey
      simp [beq_eq_false_iff_ne.mpr heq, ih hkey]

theorem set_of_not_mem {t : Table κ α} {key : κ} (hkey : key ∉ t.keys) (value : α)
    : t.set key value = ⟨t.entries ++ [(key, value)]⟩ := by
  obtain ⟨entries⟩ := t
  simp only [set, mk.injEq]
  simp only [keys] at hkey
  induction entries with
  | nil => rfl
  | cons entry rest ih =>
    obtain ⟨other, old⟩ := entry
    simp only [List.map_cons, List.mem_cons, not_or] at hkey
    simp only [set.go, beq_eq_false_iff_ne.mpr hkey.1, Bool.false_eq_true, if_false,
      List.cons_append]
    rw [ih hkey.2]

theorem keys_set_of_not_mem {t : Table κ α} {key : κ} (hkey : key ∉ t.keys) (value : α)
    : (t.set key value).keys = t.keys ++ [key] := by
  rw [set_of_not_mem hkey]
  simp [keys]

theorem mem_keys_set {t : Table κ α} {key other : κ} {value : α}
    (h : other ∈ (t.set key value).keys)
    : other = key ∨ other ∈ t.keys := by
  by_cases hkey : key ∈ t.keys
  . rw [keys_set_of_mem hkey] at h
    exact Or.inr h
  . rw [keys_set_of_not_mem hkey, List.mem_append, List.mem_singleton] at h
    exact h.symm

theorem mem_keys_set_iff {t : Table κ α} {key other : κ} {value : α}
    : other ∈ (t.set key value).keys ↔ other = key ∨ other ∈ t.keys := by
  refine ⟨mem_keys_set, ?_⟩
  by_cases hkey : key ∈ t.keys
  . rw [keys_set_of_mem hkey]
    rintro (rfl | hother)
    . exact hkey
    . exact hother
  . rw [keys_set_of_not_mem hkey, List.mem_append, List.mem_singleton]
    exact Or.symm

theorem nodup_set {t : Table κ α} (h : t.keys.Nodup) (key : κ) (value : α)
    : (t.set key value).keys.Nodup := by
  by_cases hkey : key ∈ t.keys
  . rw [keys_set_of_mem hkey]
    exact h
  . rw [keys_set_of_not_mem hkey, List.nodup_append]
    refine ⟨h, by simp, ?_⟩
    intro a ha b hb
    rw [List.mem_singleton.mp hb]
    rintro rfl
    exact hkey ha

theorem eq_empty_of_get? {t : Table κ α} (h : ∀ key, t.get? key = none) : t = .empty := by
  obtain ⟨_ | ⟨⟨key, value⟩, rest⟩⟩ := t
  . rfl
  . have hkey := h key
    simp [get?] at hkey

theorem get?_erase (t : Table κ α) (key other : κ)
    : (t.erase key).get? other = if other == key then none else t.get? other := by
  obtain ⟨entries⟩ := t
  simp only [get?, erase]
  induction entries with
  | nil => simp
  | cons entry rest ih =>
    obtain ⟨k, value⟩ := entry
    by_cases hk : k = key
    . subst hk
      rw [List.filter_cons_of_neg (by simp), ih, List.lookup_cons]
      cases other == k with
      | true => rfl
      | false => rfl
    . rw [List.filter_cons_of_pos (by simp [hk]), List.lookup_cons, List.lookup_cons, ih]
      by_cases ho : other = k
      . subst ho
        simp [hk]
      . simp [beq_eq_false_iff_ne.mpr ho]

end Keys

section Fill

variable {ε ν : Type}

/--
Puts values that may be missing into a table one after the other, up to the first one that is
missing.
-/
def fill (t : Table κ α) (entries : List (κ × Except ε α)) : Except ε (Table κ α) :=
  entries.foldlM (fun t entry => entry.2.map (t.set entry.1)) t

omit [LawfulBEq κ] in
theorem isOk_fill (t : Table κ α) (entries : List (κ × Except ε α))
    : (t.fill entries).isOk = entries.all (·.2.isOk) := by
  unfold fill
  induction entries generalizing t with
  | nil => rfl
  | cons entry rest ih =>
    obtain ⟨key, value⟩ := entry
    rw [List.foldlM_cons, List.all_cons]
    cases value with
    | error e => rfl
    | ok value => exact ih (t.set key value)

theorem fill_append (t : Table κ α) (entries : List (κ × α)) (hnodup : (entries.map (·.1)).Nodup)
    (hfresh : ∀ key ∈ entries.map (·.1), key ∉ t.keys)
    : t.fill (entries.map fun entry => (entry.1, (.ok entry.2 : Except ε α)))
        =
      .ok ⟨t.entries ++ entries⟩ := by
  unfold fill
  induction entries generalizing t with
  | nil =>
    rw [List.append_nil]
    rfl
  | cons entry rest ih =>
    obtain ⟨key, value⟩ := entry
    simp only [List.map_cons, List.nodup_cons, List.forall_mem_cons] at hnodup hfresh
    obtain ⟨hkey, hrest⟩ := hfresh
    rw [List.map_cons, List.foldlM_cons]
    change List.foldlM _ (t.set key value) _ = _
    rw [ih _ hnodup.2]
    . rw [set_of_not_mem hkey, List.append_assoc]
      rfl
    . intro other hother hmem
      rcases mem_keys_set hmem with rfl | hmem
      . exact hnodup.1 hother
      . exact hrest other hother hmem

theorem fill_empty {t : Table κ α} (h : t.keys.Nodup)
    : (empty : Table κ α).fill (t.entries.map fun entry => (entry.1, (.ok entry.2 : Except ε α)))
        =
      .ok t := by
  rw [fill_append]
  . rfl
  . exact h
  . simp [empty, keys]

end Fill

end Table
end Parley
