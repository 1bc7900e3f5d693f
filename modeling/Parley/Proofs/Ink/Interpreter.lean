import Parley.Ink.Story
import Parley.Proofs.Ink.Lawful
import Parley.Proofs.Ink.Unbound
import Parley.Proofs.Table

namespace Parley.Ink.Interpreter

variable {S : Type} {i : Interpreter S}

section Memory

theorem memory_foldl {α : Type} {f : World S → α → World S} (h : ∀ w a, (f w a).memory = w.memory)
    (as : List α) (w : World S) : (as.foldl f w).memory = w.memory := by
  induction as generalizing w with
  | nil => rfl
  | cons a as ih => rw [List.foldl_cons, ih, h]

theorem memory_notify (i : Interpreter S) (w : World S) (name : String) (datum : Datum)
    : (i.notify w name datum).memory = w.memory := by
  unfold notify
  dsimp only
  split
  . apply memory_foldl
    intro w observer
    rfl
  . apply memory_foldl
    intro w observer
    rfl

theorem memory_settle (i : Interpreter S) (m : Machine S)
    : (i.settle m).2.memory = m.world.memory := by
  unfold settle
  dsimp only
  have hlog : ∀ level (messages : List String) (w : World S),
      (messages.foldl (fun w message => w.log level message) w).memory = w.memory := by
    intro level messages w
    apply memory_foldl
    intro w message
    rfl
  rw [memory_foldl, hlog, hlog]
  intro w name
  split
  . exact memory_notify _ _ _ _
  . rfl

end Memory

section Externals

theorem externals_ofText? {text : String} (h : ofText? text = .ok i) : i.externals = .empty := by
  unfold ofText? at h
  cases hdocument : (Document.ofText? text).mapError EngineError.badJson with
  | error error =>
    rw [hdocument] at h
    cases h
  | ok document =>
    rw [hdocument] at h
    change (if _ then _ else _) = _ at h
    split at h
    . cases h
    . split at h
      . cases h
        rfl
      . cases h
        rfl

theorem externals_validate {i' : Interpreter S} (h : i.validate = .ok i')
    : i'.externals = i.externals := by
  unfold validate at h
  split at h
  . cases h
    rfl
  . split at h
    . cases h
      rfl
    . cases h

theorem externals_continueOne (i : Interpreter S) (w : World S)
    : (i.continueOne w).2.1.externals = i.externals := by
  unfold continueOne
  cases hvalid : i.validate with
  | error error => rfl
  | ok i' =>
    have hkept : i'.externals = i.externals := externals_validate hvalid
    dsimp only
    split
    . exact hkept
    . exact hkept

theorem externals_choosePath (i : Interpreter S) (s : State) (path : Path)
    : (i.choosePath s path).2.externals = i.externals := by
  unfold choosePath
  split
  . rfl
  . rfl

theorem externals_choose (i : Interpreter S) (index : Nat)
    : (i.choose index).2.externals = i.externals := by
  unfold choose
  split
  . rfl
  . exact externals_choosePath _ _ _

theorem externals_setVariable (i : Interpreter S) (name : String) (value : Value) (w : World S)
    : (i.setVariable name value w).2.1.externals = i.externals := by
  unfold setVariable
  split
  . rfl
  . rfl

theorem externals_observe (i : Interpreter S) (name : String) (observer : Observer)
    : (i.observe name observer).2.externals = i.externals := by
  unfold observe
  split
  . rfl
  . rfl

end Externals

section Aloof

theorem settle_runLine (hi : i.externals = .empty) (w w' : World S)
    : (i.settle (i.machine w').runLine).1 = (i.settle (i.machine w).runLine).1 ∧
        (i.settle (i.machine w).runLine).2.memory = w.memory := by
  have hwithin : ∀ w', (i.machine w').runLine = (i.machine w).runLine.within w' :=
    fun w' => (Machine.runLine_within (m := i.machine w) hi).1
  refine ⟨?_, ?_⟩
  . rw [hwithin w']
    rfl
  . rw [memory_settle, hwithin w]
    rfl

theorem aloof_continueOne (hi : i.externals = .empty) : Engine.Aloof i.continueOne := by
  cases hvalid : i.validate with
  | error error =>
    apply Engine.aloof_of_eq
    intro w
    unfold continueOne
    rw [hvalid]
  | ok i' =>
    have hi' : i'.externals = .empty := (externals_validate hvalid).trans hi
    by_cases hcontinue : i'.state.canContinue = true
    . have heq : ∀ w, i.continueOne w
          = (.ok (Output.currentText (i'.settle (i'.machine w).runLine).1.state.output),
              i'.settle (i'.machine w).runLine) := by
        intro w
        unfold continueOne
        rw [hvalid]
        dsimp only
        rw [if_pos hcontinue]
      constructor
      case same =>
        intro w w'
        rw [heq, heq, (settle_runLine hi' w w').1]
        exact ⟨rfl, rfl⟩
      case memory =>
        intro w
        rw [heq]
        exact (settle_runLine hi' w w).2
    . apply Engine.aloof_of_eq
      intro w
      unfold continueOne
      rw [hvalid]
      exact if_neg hcontinue

theorem aloof_reset (hi : i.externals = .empty) : Engine.Aloof (Runtime.reset i) := by
  have hwithin : ∀ w w', ({ i.machine w' with state := .blank } : Machine S).declareGlobals
      = ({ i.machine w with state := .blank } : Machine S).declareGlobals.within w' :=
    fun w w' => (Machine.declareGlobals_within (m := { i.machine w with state := .blank }) hi).1
  constructor
  case same =>
    intro w w'
    refine ⟨rfl, ?_⟩
    change (i.reset w').1 = (i.reset w).1
    unfold reset
    rw [hwithin w w']
    rfl
  case memory =>
    intro w
    change (i.reset w).2.memory = w.memory
    unfold reset
    dsimp only
    rw [memory_settle, hwithin w w]
    rfl

end Aloof

instance : Runtime.LawfulBinding S (Interpreter S) where
  bound?_ofText? := by
    intro text i h name
    change i.externals.get? name = none
    rw [externals_ofText? h]
    rfl
  bind_error_iff := by
    intro i name external
    change (∃ error, (i.bind name external).1 = .error error) ↔ i.externals.contains name = true
    unfold bind
    split
    . next hbound => simp [hbound]
    . next hfree => simp [hfree]
  bound?_bind := by
    intro i name hfree external other
    change i.externals.get? name = none at hfree
    change (i.bind name external).2.externals.get? other = _
    unfold bind
    rw [if_neg (by simp [Table.contains, hfree]), Table.get?_set]
    simp only [beq_iff_eq]
    rfl
  unbind_error_iff := by
    intro i name
    change (∃ error, (i.unbind name).1 = .error error) ↔ i.externals.get? name = none
    unfold unbind Table.contains
    split
    . next hbound => simp [Option.isSome_iff_ne_none.mp hbound]
    . next hfree => simpa using hfree
  bound?_unbind := by
    intro i name hbound other
    change i.externals.contains name = true at hbound
    change (i.unbind name).2.externals.get? other = _
    unfold unbind
    rw [if_pos hbound, Table.get?_erase]
    simp only [beq_iff_eq]
    rfl
  bound?_withFallbacks _ _ := rfl
  bound?_continueOne i w := congrArg Table.get? (i.externals_continueOne w)
  bound?_currentTags _ := rfl
  bound?_choose i index := congrArg Table.get? (i.externals_choose index)
  bound?_reset _ _ := rfl
  bound?_choosePath i path := congrArg Table.get? (i.externals_choosePath _ _)
  bound?_setVariable i name value w := congrArg Table.get? (i.externals_setVariable name value w)
  bound?_observe i name observer := congrArg Table.get? (i.externals_observe name observer)
  bound?_load _ _ := rfl

instance : Runtime.LawfulRuntime S (Interpreter S) where
  aloof_continueOne h := aloof_continueOne (Table.eq_empty_of_get? h)
  aloof_reset h := aloof_reset (Table.eq_empty_of_get? h)

end Parley.Ink.Interpreter
