import Parley.Proofs.Ink.Interpreter

/-!
This module contains that functions of the host can be bound to an ink story again and again,
although its runtime refuses to bind a name that is bound. The names that are kept are those that
are bound in the runtime, whatever is done to the story in between, so that a name is released just
when the runtime would refuse it.
-/

namespace Parley.Ink.Tale

open Ink.Runtime

variable {S I : Type} [Runtime S I]

inductive Request (S I : Type) [Runtime S I] where
  | bind (function : Function S) (lookaheadSafe : Bool)
  | continueOne (world : World S)
  | choose (index : Nat)
  | reset (world : World S)
  | rewind
  | setVariable (name : String) (value : Value) (world : World S)
  | observe (name : String) (observer : Observer)
  | load (text : String)
  | withFallbacks (allowFallbacks : Bool)
  /-- Lets the runtime do anything else that keeps the functions that are bound. -/
  | work (act : I → I) (keeps : ∀ i : I, bound? (act i) = bound? i)

def serve (t : Tale I) : Request S I → Except EngineError Unit × Tale I
  | .bind function lookaheadSafe => Engine.bind t function lookaheadSafe
  | .continueOne world =>
    let (result, t, _) := Engine.continueOne t world
    (result.map fun _ => (), t)
  | .choose index => Engine.choose (S := S) t index
  | .reset world =>
    let (result, t, _) := Engine.reset t world
    (result, t)
  | .rewind => Engine.rewind (S := S) t
  | .setVariable name value world =>
    let (result, t, _) := Engine.setVariable t name value world
    (result, t)
  | .observe name observer => Engine.observe (S := S) t name observer
  | .load text => Engine.load (S := S) t text
  | .withFallbacks allowFallbacks => (.ok (), t.withFallbacks allowFallbacks)
  | .work act _ => (.ok (), { t with story := act t.story })

structure Exchange (S I : Type) [Runtime S I] where
  request : Request S I
  result : Except EngineError Unit

/--
Asks for one thing after the other, and gives what was asked for with the story that came of it. The
latest request stands first, and so does the latest result.
-/
def run (t : Tale I) : List (Request S I) → List (Exchange S I) × Tale I
  | [] => ([], t)
  | request :: before =>
    let (past, t) := t.run before
    let (result, t) := t.serve request
    (⟨request, result⟩ :: past, t)

theorem requests_run (t : Tale I) (requests : List (Request S I))
    : (t.run requests).1.map (·.request) = requests := by
  induction requests with
  | nil => rfl
  | cons request before ih => exact congrArg (request :: ·) ih

def Request.binding? : Request S I → Option (String × External S)
  | .bind function lookaheadSafe => some (function.name, ⟨function, lookaheadSafe⟩)
  | _ => none

def bindings (requests : List (Request S I)) : List (String × External S) :=
  requests.filterMap (·.binding?)

/--
Whether the names that are kept are those that are bound in the runtime.
-/
def KnowsBound (t : Tale I) : Prop :=
  ∀ name, name ∈ t.bound ↔ (bound? t.story name).isSome

variable [LawfulBinding S I]

section Serve

variable {t : Tale I}

theorem KnowsBound.release (h : t.KnowsBound) (name : String)
    : ∃ i, t.release name = (.ok (), i) ∧ bound? i name = none ∧
        ∀ other, other ≠ name → bound? i other = bound? t.story other := by
  unfold Tale.release
  split
  . next hkept =>
    have hbound : (bound? t.story name).isSome := (h name).mp (List.contains_iff_mem.mp hkept)
    have hreleased := LawfulBinding.bound?_unbind hbound
    have hgranted := LawfulBinding.unbind_error_iff t.story name
    cases hunbind : Runtime.unbind t.story name with
    | mk result i =>
      rw [hunbind] at hreleased hgranted
      cases result with
      | error error => simp [hgranted.mp ⟨error, rfl⟩] at hbound
      | ok _ =>
        refine ⟨i, rfl, ?_, ?_⟩
        . rw [hreleased, if_pos rfl]
        . intro other hne
          rw [hreleased, if_neg hne]
  . next hkept =>
    rw [List.contains_iff_mem, h name, Option.not_isSome_iff_eq_none] at hkept
    exact ⟨t.story, rfl, hkept, fun _ _ => rfl⟩

theorem mem_bound {name other : String}
    : other ∈ (if t.bound.contains name then t.bound else name :: t.bound)
        ↔ other = name ∨ other ∈ t.bound := by
  split
  . next hbound =>
    rw [List.contains_iff_mem] at hbound
    constructor
    . exact Or.inr
    . rintro (rfl | hother)
      . exact hbound
      . exact hother
  . exact List.mem_cons

theorem KnowsBound.bind (h : t.KnowsBound) (function : Function S) (lookaheadSafe : Bool)
    : (t.bind function lookaheadSafe).1 = .ok () ∧ (t.bind function lookaheadSafe).2.KnowsBound ∧
        ∀ name, bound? (t.bind function lookaheadSafe).2.story name
          = if name = function.name then some ⟨function, lookaheadSafe⟩
            else bound? t.story name := by
  obtain ⟨released, hreleased, hfree, hother⟩ := h.release function.name
  have hlatest := LawfulBinding.bound?_bind hfree ⟨function, lookaheadSafe⟩
  have hgranted := LawfulBinding.bind_error_iff released function.name ⟨function, lookaheadSafe⟩
  unfold Tale.bind
  dsimp only
  rw [hreleased]
  dsimp only
  cases hbind : Runtime.bind released function.name ⟨function, lookaheadSafe⟩ with
  | mk result i =>
    rw [hbind] at hlatest hgranted
    replace hlatest : ∀ name, bound? i name
        = if name = function.name then some ⟨function, lookaheadSafe⟩ else bound? t.story name := by
      intro name
      rw [hlatest]
      split
      . rfl
      . next hne => exact hother name hne
    cases result with
    | error error => simp [hfree] at hgranted
    | ok _ =>
      refine ⟨rfl, ?_, hlatest⟩
      intro name
      change name ∈ (if t.bound.contains function.name then t.bound else function.name :: t.bound)
        ↔ (bound? i name).isSome
      rw [mem_bound, h name, hlatest]
      split
      . next hname => simp [hname]
      . next hname => simp [hname]

theorem serve_unbinding {request : Request S I} (h : request.binding? = none)
    : (t.serve request).2.bound = t.bound ∧ bound? (t.serve request).2.story = bound? t.story := by
  cases request with
  | bind function lookaheadSafe => cases h
  | continueOne world => exact ⟨t.kept_continueOne world, t.bound?_continueOne world⟩
  | choose index => exact ⟨rfl, LawfulBinding.bound?_choose t.story index⟩
  | reset world => exact ⟨rfl, LawfulBinding.bound?_reset t.story world⟩
  | rewind => exact ⟨rfl, LawfulBinding.bound?_choosePath t.story startPath⟩
  | setVariable name value world =>
    exact ⟨rfl, LawfulBinding.bound?_setVariable t.story name value world⟩
  | observe name observer => exact ⟨rfl, LawfulBinding.bound?_observe t.story name observer⟩
  | load text => exact ⟨rfl, LawfulBinding.bound?_load t.story text⟩
  | withFallbacks allowFallbacks =>
    exact ⟨rfl, LawfulBinding.bound?_withFallbacks t.story allowFallbacks⟩
  | work act keeps => exact ⟨rfl, keeps t.story⟩

end Serve

/--
Whether, after these requests, every one to bind a function has been granted, and each name is bound
to what was bound to it last.
-/
structure Rebinds (past : List (Exchange S I)) (t : Tale I) : Prop where
  granted : ∀ exchange ∈ past, exchange.request.binding?.isSome = true → exchange.result = .ok ()
  knows : t.KnowsBound
  latest : ∀ name, bound? t.story name = (bindings (past.map (·.request))).lookup name

section Rebinds

variable {past : List (Exchange S I)} {t : Tale I}

theorem Rebinds.unbinding (h : Rebinds past t) {request : Request S I}
    (hrequest : request.binding? = none)
    : Rebinds (⟨request, (t.serve request).1⟩ :: past) (t.serve request).2 := by
  obtain ⟨hkept, hbound⟩ := serve_unbinding (t := t) hrequest
  constructor
  case granted =>
    rw [List.forall_mem_cons]
    refine ⟨?_, h.granted⟩
    intro hbinding
    rw [hrequest] at hbinding
    contradiction
  case knows =>
    unfold KnowsBound
    rw [hkept, hbound]
    exact h.knows
  case latest =>
    intro name
    rw [hbound, List.map_cons, bindings, List.filterMap_cons_none hrequest]
    exact h.latest name

theorem Rebinds.bind (h : Rebinds past t) (function : Function S) (lookaheadSafe : Bool)
    : Rebinds (⟨.bind function lookaheadSafe, (t.bind function lookaheadSafe).1⟩ :: past)
        (t.bind function lookaheadSafe).2 := by
  obtain ⟨hok, hknows, hlatest⟩ := h.knows.bind function lookaheadSafe
  constructor
  case granted =>
    rw [List.forall_mem_cons]
    exact ⟨fun _ => hok, h.granted⟩
  case knows => exact hknows
  case latest =>
    intro name
    have hbindings : bindings (.bind function lookaheadSafe :: past.map (·.request))
        = (function.name, ⟨function, lookaheadSafe⟩) :: bindings (past.map (·.request)) := rfl
    rw [hlatest, List.map_cons, hbindings, List.lookup_cons, h.latest]
    by_cases hname : name = function.name
    . simp [hname]
    . simp [hname, beq_eq_false_iff_ne.mpr hname]

theorem Rebinds.serve (h : Rebinds past t) (request : Request S I)
    : Rebinds (⟨request, (t.serve request).1⟩ :: past) (t.serve request).2 := by
  cases hbinding : request.binding? with
  | none => exact h.unbinding hbinding
  | some binding =>
    cases request with
    | bind function lookaheadSafe => exact h.bind function lookaheadSafe
    | _ => cases hbinding

theorem rebinds_ofText? {text : String} (h : ofText? text = .ok t)
    : Rebinds ([] : List (Exchange S I)) t := by
  obtain ⟨story, hstory, rfl⟩ := ofText?_ok h
  have hnone : ∀ name, bound? story name = none := LawfulBinding.bound?_ofText? hstory
  constructor
  case granted => exact List.forall_mem_nil _
  case knows =>
    intro name
    simp [hnone]
  case latest => exact hnone

end Rebinds

/--
Functions can be bound to a story that was just made in any order and as often as one likes, and
whatever is done to the story in between, although its runtime refuses to bind a name that is bound.
-/
theorem run_rebinds {text : String} {tale : Tale I} (htale : ofText? text = .ok tale)
    (requests : List (Request S I))
    : let (past, t) := tale.run requests
      Rebinds past t ∧
        (∀ name external,
          (∃ error, (Runtime.bind t.story name external).1 = .error error) ↔ name ∈ t.bound) ∧
        ∀ name, (∃ error, (Runtime.unbind t.story name).1 = .error error) ↔ name ∉ t.bound := by
  have hrebinds : Rebinds (tale.run requests).1 (tale.run requests).2 := by
    induction requests with
    | nil => exact rebinds_ofText? htale
    | cons request before ih => exact ih.serve request
  refine ⟨hrebinds, ?_, ?_⟩
  . intro name external
    rw [LawfulBinding.bind_error_iff, hrebinds.knows name]
  . intro name
    rw [LawfulBinding.unbind_error_iff, hrebinds.knows name, Option.not_isSome_iff_eq_none]

/--
A function that gives the host's memory, and one of the same name that gives back what it gets.
-/
def recalling : Function Int32 :=
  ⟨"f", some [], fun _ memory => (some (.int memory), memory)⟩

@[inherit_doc recalling]
def echoing : Function Int32 :=
  ⟨"f", none, fun arguments memory => (arguments.head?, memory)⟩

def callingText : String :=
  "\x7b\"inkVersion\":21,\"root\":[[\"ev\",\x7b\"x()\":\"f\",\"exArgs\":0\x7d,\"out\",\"/ev\"," ++
    "\"\\n\",\"end\",null],\"done\",null],\"listDefs\":\x7b\x7d\x7d"

def rebindings : List (Request Int32 (Interpreter Int32)) :=
  [.bind recalling true, .load "", .bind echoing false, .withFallbacks true, .reset ⟨0, []⟩,
    .continueOne ⟨7, []⟩, .bind recalling false]

theorem run_rebinds_calling
    : ∃ story : Story Int32, ofText? callingText = .ok story ∧
        let (past, t) := story.run rebindings
        Rebinds past t ∧ t.bound = ["f"] ∧ bound? t.story "f" = some ⟨recalling, true⟩ ∧
          ∃ error, (Runtime.bind t.story "f" ⟨echoing, true⟩).1 = .error error := by
  have hread : ((ofText? callingText : Except EngineError (Story Int32)).map fun story =>
      (story.run rebindings).2.bound).toOption = some ["f"] := by
    decide +kernel
  cases hstory : (ofText? callingText : Except EngineError (Story Int32)) with
  | error error =>
    rw [hstory] at hread
    contradiction
  | ok story =>
    have hrun := run_rebinds hstory rebindings
    have hrequests := story.requests_run rebindings
    rw [hstory] at hread
    replace hread : (story.run rebindings).2.bound = ["f"] := Option.some_inj.mp hread
    refine ⟨story, rfl, ?_⟩
    generalize story.run rebindings = ended at *
    obtain ⟨past, t⟩ := ended
    obtain ⟨hrebinds, hrefused, _⟩ := hrun
    have hlatest := hrebinds.latest "f"
    rw [hrequests] at hlatest
    refine ⟨hrebinds, hread, hlatest, ?_⟩
    rw [hrefused]
    exact hread ▸ List.mem_singleton_self "f"

end Parley.Ink.Tale
