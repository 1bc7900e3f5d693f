import Parley.Ink.Machine

namespace Parley

namespace Ink

variable {S : Type}

def Machine.within (m : Machine S) (w : World S) : Machine S :=
  { m with world := w }

namespace Exec

variable {α β : Type}

/--
Whether two computations end alike in two worlds, and leave each world as it was.
-/
def EndAlike (w : World S) (m : Machine S) (x y : Exec S α) : Prop :=
  y.run.run (m.within w) = ((x.run.run m).1, (x.run.run m).2.within w) ∧
  (x.run.run m).2.externals = .empty

/--
Whether a computation does not depend on the world, as long as no function of the host is bound.
-/
def Secluded (x : Exec S α) : Prop :=
  ∀ m, m.externals = .empty → ∀ w, EndAlike w m x x

section Rules

variable {w : World S} {m : Machine S} {x y : Exec S α}

theorem EndAlike.bind {f g : α → Exec S β} (h : EndAlike w m x y)
    (hf : ∀ a m, m.externals = .empty → EndAlike w m (f a) (g a))
    : EndAlike w m (x >>= f) (y >>= g) := by
  obtain ⟨hrun, hexternals⟩ := h
  unfold EndAlike
  simp only [ExceptT.run_bind, StateT.run_bind]
  rw [hrun]
  cases hx : x.run.run m with
  | mk result m' =>
    rw [hx] at hexternals
    cases result with
    | error message => exact ⟨rfl, hexternals⟩
    | ok a => exact hf a m' hexternals

theorem endAlike_put {m' : Machine S} (h : m'.externals = .empty) (s : State)
    (snapshot : Option State)
    : EndAlike w m (set { m' with state := s, snapshot } : Exec S Unit)
        (set { m' with state := s, snapshot, world := w }) := by
  exact ⟨rfl, h⟩

theorem secluded_pure (a : α) : Secluded (pure a : Exec S α) := by
  intro m hm w
  exact ⟨rfl, hm⟩

theorem secluded_throw (message : String) : Secluded (throw message : Exec S α) := by
  intro m hm w
  exact ⟨rfl, hm⟩

theorem secluded_lift (result : Except String α) : Secluded (liftM result : Exec S α) := by
  cases result with
  | error message => exact secluded_throw message
  | ok a => exact secluded_pure a

theorem Secluded.bind {f : α → Exec S β} (h : Secluded x) (hf : ∀ a, Secluded (f a))
    : Secluded (x >>= f) := by
  intro m hm w
  exact (h m hm w).bind fun a m' hm' => hf a m' hm' w

theorem secluded_get {f : Machine S → Exec S α}
    (h : ∀ m, m.externals = .empty → ∀ w, EndAlike w m (f m) (f (m.within w)))
    : Secluded (get >>= f) := by
  intro m hm w
  exact h m hm w

-- What is looked up in a machine is mostly not its world.
theorem secluded_look {f : Machine S → Exec S α} (hsame : ∀ m w, f (Machine.within m w) = f m)
    (h : ∀ m, m.externals = .empty → Secluded (f m)) : Secluded (get >>= f) := by
  apply secluded_get
  intro m hm w
  rw [hsame m w]
  exact h m hm m hm w

theorem secluded_state {f : State → Exec S α} (h : ∀ s, Secluded (f s))
    : Secluded (state >>= f) := by
  intro m hm w
  exact h m.state m hm w

theorem secluded_change (f : State → State) : Secluded (change f : Exec S Unit) := by
  intro m hm w
  exact ⟨rfl, hm⟩

-- Two ways to the same point, as they are told apart by a condition.
theorem secluded_either {c : Prop} [Decidable c] {f : α → Exec S β} (hx : Secluded x)
    (hy : Secluded y) (hf : ∀ a, Secluded (f a)) : Secluded (if c then x >>= f else y >>= f) := by
  split
  . exact hx.bind hf
  . exact hy.bind hf

theorem secluded_mapM {f : α → Exec S β} (h : ∀ a, Secluded (f a)) (as : List α)
    : Secluded (as.mapM f) := by
  induction as with
  | nil =>
    rw [List.mapM_nil]
    exact secluded_pure _
  | cons a as ih =>
    rw [List.mapM_cons]
    exact (h a).bind fun _ => ih.bind fun _ => secluded_pure _

end Rules

section Operands

theorem secluded_pop : Secluded (pop : Exec S Operand) := by
  apply secluded_state
  intro s
  split
  . exact secluded_throw _
  . exact (secluded_change _).bind fun _ => secluded_pure _

theorem secluded_popMany (n : Nat) : Secluded (popMany n : Exec S (List Operand)) := by
  induction n with
  | zero => exact secluded_pure _
  | succ n ih => exact secluded_pop.bind fun _ => ih.bind fun _ => secluded_pure _

theorem secluded_popData (count : Nat) (message : String)
    : Secluded (popData count message : Exec S (List Datum)) := by
  apply (secluded_popMany count).bind
  intro operands
  apply secluded_mapM
  intro operand
  split
  . exact secluded_pure _
  . exact secluded_throw _

theorem secluded_pushMade (datum : Datum) : Secluded (pushMade datum : Exec S Unit) := by
  exact secluded_change _

theorem secluded_popCondition : Secluded (popCondition : Exec S Bool) := by
  apply secluded_pop.bind
  intro operand
  split
  . exact secluded_lift _
  . exact secluded_pure _

end Operands

section Items

theorem secluded_callHost (name : String) (count : Nat)
    : Secluded (callHost name count : Exec S Unit) := by
  apply secluded_get
  intro m hm w
  have hnone : m.externals.get? name = none := by
    rw [hm]
    rfl
  have hnone' : (m.within w).externals.get? name = none := hnone
  rw [hnone, hnone']
  refine (?_ : Secluded _) m hm w
  dsimp only
  split
  . split
    . exact secluded_change _
    . exact secluded_throw _
  . exact secluded_throw _

theorem secluded_jump (place : Place) (d : Divert) (pointer : Option Pointer)
    : Secluded (jump place d pointer : Exec S Unit) := by
  apply (secluded_change _).bind
  intro _
  split
  . apply secluded_look
    . intro m w
      rfl
    . intro m _
      exact secluded_throw _
  . exact secluded_pure _

theorem secluded_divert (place : Place) (d : Divert) : Secluded (divert place d : Exec S Unit) := by
  unfold divert
  extract_lets go
  have hgo : ∀ x, Secluded (go x) := by
    intro x
    apply secluded_look
    . intro m w
      rfl
    . intro m _
      split
      . exact secluded_jump _ _ _
      . exact secluded_callHost _ _
      . split
        . exact (secluded_lift _).bind fun pointer => secluded_jump _ _ pointer
        . exact secluded_throw _
        . exact secluded_throw _
  clear_value go
  split
  . apply secluded_popCondition.bind
    intro isAllowed
    split
    . exact secluded_pure _
    . exact hgo _
  . exact hgo _

theorem secluded_endString : Secluded (endString : Exec S Unit) := by
  apply secluded_state
  intro s
  exact (secluded_change _).bind fun _ => secluded_pushMade _

theorem secluded_endTag : Secluded (endTag : Exec S Unit) := by
  apply secluded_state
  intro s
  split
  . dsimp only
    split
    . exact (secluded_throw _).bind fun _ => secluded_change _
    . exact secluded_change _
  . exact secluded_change _

theorem secluded_command (c : Command) : Secluded (command c : Exec S Unit) := by
  have hcheck : ∀ (isWrong : State → Bool) (message : String) (f : State → State), Secluded (do
      if isWrong (← state) then
        throw message
      change f : Exec S Unit) := by
    intro isWrong message f
    apply secluded_state
    intro s
    split
    . exact (secluded_throw _).bind fun _ => secluded_change _
    . exact secluded_change _
  cases c with
  | startExpression => exact hcheck (·.thread.top.inExpression) _ _
  | endExpression => exact hcheck (!·.thread.top.inExpression) _ _
  | write =>
    apply secluded_state
    intro s
    split
    . apply secluded_pop.bind
      intro operand
      split
      . exact secluded_change _
      . exact secluded_change _
      . exact secluded_change _
      . exact secluded_pure _
    . exact secluded_pure _
  | drop => exact secluded_pop.bind fun _ => secluded_pure _
  | ret =>
    apply secluded_state
    intro s
    split
    . exact secluded_change _
    . exact secluded_throw _
  | startString => exact (secluded_change _).bind fun _ => hcheck (!·.thread.top.inExpression) _ _
  | endString => exact secluded_endString
  | startTag => exact secluded_change (·.write .startTag)
  | endTag => exact secluded_endTag
  | done => exact secluded_change fun s => { s.goTo none with endsSafely := true }
  | stop => exact secluded_change _

theorem secluded_read (name : String) : Secluded (read name : Exec S Unit) := by
  apply secluded_look
  . intro m w
    rfl
  . intro m _
    split
    . exact secluded_change _
    . exact (secluded_change _).bind fun _ => secluded_pushMade _

theorem secluded_popChoiceText (tags : List String)
    : Secluded (popChoiceText tags : Exec S (String × List String)) := by
  apply secluded_pop.bind
  intro operand
  apply secluded_state
  intro s
  exact (secluded_change _).bind fun _ => secluded_pure _

theorem secluded_offer (place : Place) (c : ChoicePoint)
    : Secluded (offer place c : Exec S Unit) := by
  unfold offer
  apply secluded_either secluded_popCondition (secluded_pure _)
  intro isAllowed
  apply secluded_either (secluded_popChoiceText _) (secluded_pure _)
  intro inner
  apply secluded_either (secluded_popChoiceText _) (secluded_pure _)
  intro start
  apply secluded_look
  . intro m w
    rfl
  . intro m _
    dsimp only
    split
    . exact secluded_change _
    . exact secluded_pure _

theorem secluded_item (place : Place) (i : Item) : Secluded (item place i : Exec S Unit) := by
  apply secluded_state
  intro s
  split
  . exact secluded_command _
  . exact secluded_divert _ _
  . exact secluded_offer _ _
  . exact secluded_read _
  . apply secluded_look
    . intro m w
      rfl
    . intro m _
      exact secluded_pushMade _
  . apply secluded_pop.bind
    intro operand
    split
    . apply secluded_look
      . intro m w
        rfl
      . intro m _
        dsimp only
        split
        . exact secluded_change _
        . exact secluded_throw _
    . exact secluded_throw _
  . apply (secluded_popData _ _).bind
    intro operands
    apply secluded_look
    . intro m w
      rfl
    . intro m _
      split
      . exact secluded_pushMade _
      . exact secluded_throw _
  . split
    . exact secluded_change _
    . exact secluded_change _
  . exact secluded_change _
  . exact secluded_change _
  . exact secluded_change _

end Items

section Steps

theorem secluded_moveOn (bound : Nat) : Secluded (moveOn bound : Exec S Unit) := by
  induction bound with
  | zero =>
    unfold moveOn
    apply secluded_get
    intro m hm w
    dsimp only [Machine.within]
    split
    . exact endAlike_put hm _ _
    . exact (endAlike_put hm _ _).bind fun _ m' hm' => secluded_pure _ m' hm' w
  | succ bound ih =>
    have hbehind : ∀ s : State,
        Secluded (if s.pointer.isSome then moveOn bound else pure () : Exec S Unit) := by
      intro s
      split
      . exact ih
      . exact secluded_pure _
    unfold moveOn
    apply secluded_get
    intro m hm w
    dsimp only [Machine.within]
    split
    . exact endAlike_put hm _ _
    . refine (endAlike_put hm _ _).bind fun _ m' hm' => ?_
      split
      . exact (endAlike_put hm _ _).bind fun _ m' hm' => hbehind _ m' hm' w
      . exact secluded_pure _ m' hm' w

theorem secluded_step : Secluded (step : Exec S Unit) := by
  have hbehind : Secluded (do
      let s ← state
      if s.pointer.isSome then
        moveOn s.thread.callers.length : Exec S Unit) := by
    apply secluded_state
    intro s
    split
    . exact secluded_moveOn _
    . exact secluded_pure _
  apply secluded_get
  intro m hm w
  dsimp only [Machine.within]
  split
  . exact secluded_pure _ m hm w
  . refine (endAlike_put hm _ _).bind fun _ m' hm' => ?_
    refine (?_ : Secluded _) m' hm' w
    split
    . exact (secluded_item _ _).bind fun _ => hbehind
    . exact hbehind

theorem secluded_followDefault : Secluded (followDefault : Exec S Unit) := by
  apply secluded_look
  . intro m w
    rfl
  . intro m _
    dsimp only
    split
    . exact secluded_pure _
    . split
      . apply (secluded_change _).bind
        intro _
        split
        . exact secluded_change _
        . exact secluded_throw _
      . exact secluded_pure _

theorem secluded_restore : Secluded (restore : Exec S Unit) := by
  intro m hm w
  exact ⟨rfl, hm⟩

theorem secluded_advance : Secluded (advance : Exec S Bool) := by
  unfold advance
  apply secluded_step.bind
  intro _
  apply secluded_state
  intro s
  extract_lets stay finish decide
  have hstay : ∀ x, Secluded (stay x) := fun x => secluded_pure _
  clear_value stay
  have hfinish : ∀ x, Secluded (finish x) := by
    intro x
    apply secluded_get
    intro m hm w
    dsimp only [Machine.within]
    split
    . split
      . exact (endAlike_put hm _ _).bind fun _ m' hm' => hstay _ m' hm' w
      . exact (endAlike_put hm _ _).bind fun _ m' hm' => hstay _ m' hm' w
    . exact hstay _ m hm w
  clear_value finish
  have hrestore : Secluded (do restore; return true : Exec S Bool) :=
    secluded_restore.bind fun _ => secluded_pure _
  have hdecide : ∀ x, Secluded (decide x) := by
    intro x
    apply secluded_get
    intro m hm w
    dsimp only [Machine.within]
    split
    . exact secluded_pure _ m hm w
    . split
      . split
        . exact hrestore m hm w
        . split
          . exact hrestore m hm w
          . split
            . exact (endAlike_put hm _ _).bind fun _ m' hm' => hfinish _ m' hm' w
            . exact hfinish _ m hm w
      . exact hfinish _ m hm w
  clear_value decide
  split
  . exact secluded_followDefault.bind hdecide
  . exact hdecide _

theorem secluded_line (bound : Nat) : Secluded (line bound : Exec S Unit) := by
  induction bound with
  | zero => exact secluded_throw _
  | succ bound ih =>
    apply secluded_advance.bind
    intro isComplete
    split
    . exact secluded_pure _
    . apply secluded_state
      intro s
      split
      . exact ih
      . exact secluded_pure _

end Steps

end Exec

namespace Machine

variable {m : Machine S} {w : World S}

/--
Ends a line: goes back to the snapshot, and reports what is missing behind it.
-/
def settled (m : Machine S) (result : Except String Unit) : Machine S :=
  let m :=
    match result with
    | .ok _ => m
    | .error message => m.fail message
  let m := { m with state := m.snapshot.getD m.state, snapshot := none, metUnsafe := false }
  let m :=
    match shortage? m.state with
    | some message => m.fail message
    | none => m
  { m with state := { m.state with endsSafely := false } }

theorem settled_within (result : Except String Unit)
    : (m.within w).settled result = (m.settled result).within w ∧
        (m.settled result).externals = m.externals := by
  unfold settled
  cases result with
  | error message =>
    dsimp only [within, fail]
    split
    . exact ⟨rfl, rfl⟩
    . exact ⟨rfl, rfl⟩
  | ok _ =>
    dsimp only [within, fail]
    split
    . exact ⟨rfl, rfl⟩
    . exact ⟨rfl, rfl⟩

def poised (m : Machine S) : Machine S :=
  { m with
    state := { m.state with output := [], endsSafely := false, changed := [] }
    snapshot := none
    metUnsafe := false }

theorem poised_within : (m.within w).poised = m.poised.within w := rfl

theorem runLine_eq
    : m.runLine = ((Exec.line maxItems).run.run m.poised).2.settled
        ((Exec.line maxItems).run.run m.poised).1 := rfl

theorem runLine_within (hm : m.externals = .empty)
    : (m.within w).runLine = m.runLine.within w ∧ m.runLine.externals = .empty := by
  obtain ⟨hrun, hexternals⟩ := Exec.secluded_line maxItems m.poised hm w
  rw [runLine_eq, runLine_eq, poised_within, hrun]
  obtain ⟨hwithin, hsettled⟩ := settled_within _
  exact ⟨hwithin, hsettled.trans hexternals⟩

theorem declareGlobals_within (hm : m.externals = .empty)
    : (m.within w).declareGlobals = m.declareGlobals.within w ∧
        m.declareGlobals.externals = .empty := by
  unfold declareGlobals
  dsimp only [within]
  split
  . exact ⟨rfl, hm⟩
  . split
    . exact ⟨rfl, hm⟩
    . next s _ =>
      obtain ⟨hwithin, hexternals⟩ := runLine_within (m := { m with state := s }) (w := w) hm
      refine ⟨?_, hexternals⟩
      change (let m := (within { m with state := s } w).runLine
        { m with
          state := { m.state.goTo State.startFrame.pointer with defaults := m.state.globals } }) = _
      rw [hwithin]
      rfl

end Machine

end Ink

end Parley
