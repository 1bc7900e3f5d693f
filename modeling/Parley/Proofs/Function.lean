import Parley.Function
import Parley.Proofs.Value

namespace Parley

def Arguments : List Kind → Type
  | [] => Unit
  | kind :: kinds => kind.Carrier × Arguments kinds

namespace Arguments

variable {kinds : List Kind}

def values : {kinds : List Kind} → Arguments kinds → List Value
  | [], _ => []
  | _ :: _, (x, xs) => Value.ofCarrier x :: values xs

/--
The arguments that are given by the first of some values, if these are of the right kinds.
-/
def ofValues? : (kinds : List Kind) → List Value → Option (Arguments kinds)
  | [], _ => some ()
  | _ :: _, [] => none
  | kind :: kinds, value :: values =>
    (value.get? kind).bind fun x => (ofValues? kinds values).map fun xs => (x, xs)

theorem ofValues?_values (xs : Arguments kinds) : ofValues? kinds xs.values = some xs := by
  induction kinds with
  | nil => rfl
  | cons kind kinds ih =>
    obtain ⟨x, xs⟩ := xs
    rw [values, ofValues?, Value.get?_ofCarrier, ih]
    rfl

def Converts (xs : Arguments kinds) (arguments : List Value) : Prop :=
  arguments.length = kinds.length ∧ List.zipWith Value.coerce kinds arguments = xs.values.map some

-- Of the values that converted ones are, each is of the kind that it was converted to.
theorem exists_values {arguments converted : List Value} (hlength : arguments.length = kinds.length)
    (hconverted : List.zipWith Value.coerce kinds arguments = converted.map some)
    : ∃ xs : Arguments kinds, xs.values = converted := by
  induction kinds generalizing arguments converted with
  | nil =>
    cases converted with
    | nil => exact ⟨(), rfl⟩
    | cons v converted => simp at hconverted
  | cons kind kinds ih =>
    cases arguments with
    | nil => simp at hlength
    | cons value arguments =>
      cases converted with
      | nil => simp at hconverted
      | cons v converted =>
        simp only [List.length_cons, Nat.add_right_cancel_iff] at hlength
        simp only [List.zipWith_cons_cons, List.map_cons, List.cons.injEq] at hconverted
        obtain ⟨x, rfl⟩ := Value.ofCarrier_of_coerce hconverted.1
        obtain ⟨xs, rfl⟩ := ih hlength hconverted.2
        exact ⟨(x, xs), rfl⟩

end Arguments

namespace Function

variable {S α : Type} {kinds : List Kind} {arguments converted : List Value}

/--
Whether a position is the first one whose argument does not convert to the kind of its parameter.
-/
structure Fails (kinds : List Kind) (arguments : List Value) (position : Nat) (kind : Kind)
    (value : Value)
    : Prop where
  expected : kinds[position]? = some kind
  given : arguments[position]? = some value
  fails : value.coerce kind = none
  first : ∀ earlier < position, ∀ kind value,
    kinds[earlier]? = some kind → arguments[earlier]? = some value →
      (value.coerce kind).isSome = true

theorem Fails.cons {position : Nat} {kind kind' : Kind}
    {value value' : Value} (h : Fails kinds arguments position kind value)
    (hconverts : (value'.coerce kind').isSome = true)
    : Fails (kind' :: kinds) (value' :: arguments) (position + 1) kind value where
  expected := by simpa using h.expected
  given := by simpa using h.given
  fails := h.fails
  first := by
    intro earlier hearlier kind value hkind hvalue
    cases earlier with
    | zero =>
      simp only [List.getElem?_cons_zero, Option.some.injEq] at hkind hvalue
      rw [← hkind, ← hvalue]
      exact hconverts
    | succ earlier =>
      rw [List.getElem?_cons_succ] at hkind hvalue
      exact h.first earlier (by omega) kind value hkind hvalue

theorem fails_zero {kind : Kind} {value : Value} (hfails : value.coerce kind = none)
    : Fails (kind :: kinds) (value :: arguments) 0 kind value where
  expected := rfl
  given := rfl
  fails := hfails
  first := by
    intro earlier hearlier
    omega

inductive ConvertsTo (start : Nat) (kinds : List Kind) (arguments : List Value) :
    Except (Nat × Kind × Option Value) (List Value) → Prop where
  | converted {values : List Value}
      (converts : List.zipWith Value.coerce kinds arguments = values.map some)
      : ConvertsTo start kinds arguments (.ok values)
  | failed {position : Nat} {kind : Kind} {value : Value}
      (fails : Fails kinds arguments position kind value)
      : ConvertsTo start kinds arguments (.error (start + position, kind, some value))

theorem convertsTo_convert (start : Nat) (hlength : arguments.length = kinds.length)
    : ConvertsTo start kinds arguments (convert start kinds arguments) := by
  induction kinds generalizing start arguments with
  | nil => exact .converted (by simp)
  | cons kind kinds ih =>
    cases arguments with
    | nil => simp at hlength
    | cons value arguments =>
      simp only [List.length_cons, Nat.add_right_cancel_iff] at hlength
      have hrest := ih (start + 1) hlength
      unfold convert
      cases hcoerce : value.coerce kind with
      | none => exact .failed (fails_zero hcoerce)
      | some v =>
        dsimp only
        generalize convert (start + 1) kinds arguments = rest at hrest
        cases hrest with
        | converted hconverts => exact .converted (by simp [hcoerce, hconverts])
        | @failed position _ _ hfails =>
          have hposition : start + 1 + position = start + (position + 1) := by omega
          rw [hposition]
          exact .failed (hfails.cons (by simp [hcoerce]))

theorem Fails.not_converts {position : Nat} {kind : Kind} {value : Value}
    (h : Fails kinds arguments position kind value) (values : List Value)
    : List.zipWith Value.coerce kinds arguments ≠ values.map some := by
  intro heq
  have hnone : (List.zipWith Value.coerce kinds arguments)[position]? = some none := by
    rw [List.getElem?_zipWith, h.expected, h.given, ← h.fails]
  rw [heq, List.getElem?_map, Option.map_eq_some_iff] at hnone
  obtain ⟨v, _, hv⟩ := hnone
  contradiction

section Typed

variable [Returned α] (name : String) (body : Arguments kinds → S → α × S)

/--
The function whose body takes arguments of the kinds of its parameters.
-/
def typed : Function S where
  name := name
  parameters := some kinds
  body values memory :=
    match Arguments.ofValues? kinds values with
    | some xs => (Returned.toValue (body xs memory).1, (body xs memory).2)
    | none => (none, memory)

/--
Whether a message says why a list of arguments is not passed to a function with parameters of these
kinds.
-/
def Explains (name : String) (kinds : List Kind) (arguments : List Value)
    (message : String) : Prop :=
  (arguments.length ≠ kinds.length →
    message = "External function `" ++ name ++ "` takes " ++ toString kinds.length ++
      " arguments but was called with " ++ toString arguments.length ++ ".") ∧
  (arguments.length = kinds.length → ∃ position kind value,
    Fails kinds arguments position kind value ∧
    message = "External function `" ++ name ++ "` expects a " ++ kind.name ++ " as argument " ++
      toString position ++ ", got " ++ shown (some value) ++ ".")

/--
Whether what comes of a call is right for a body whose arguments have the kinds of the parameters.
The body runs on the converted arguments, and what it returns is the value; or it does not run, and
one warning is logged.
-/
structure Obeys (name : String) (body : Arguments kinds → S → α × S) (arguments : List Value)
    (w : World S) (called : Option Value × World S) : Prop where
  runs : ∀ xs : Arguments kinds, xs.Converts arguments → called
    = (Returned.toValue (body xs w.memory).1,
        { w with memory := (body xs w.memory).2 }.record
          (.called name xs.values (Returned.toValue (body xs w.memory).1)))
  refuses : (∀ xs : Arguments kinds, ¬xs.Converts arguments) →
    ∃ message, Explains name kinds arguments message ∧ called = (none, w.log .warn message)

theorem run_typed (xs : Arguments kinds) (w : World S)
    : (typed name body).run xs.values w
        =
      (Returned.toValue (body xs w.memory).1,
        { w with memory := (body xs w.memory).2 }.record
          (.called name xs.values (Returned.toValue (body xs w.memory).1))) := by
  simp only [run, typed, Arguments.ofValues?_values]

theorem call_typed {arguments : List Value} {xs : Arguments kinds}
    (hconverts : xs.Converts arguments) (w : World S)
    : (typed name body).call arguments w = (typed name body).run xs.values w := by
  obtain ⟨hlength, hconverts⟩ := hconverts
  have hconverted := convertsTo_convert 0 hlength
  change (if arguments.length = kinds.length then _ else _) = _
  rw [if_pos hlength]
  generalize convert 0 kinds arguments = outcome at hconverted
  cases hconverted with
  | @converted values hvalues =>
    have hsame : values = xs.values := by
      rw [hconverts] at hvalues
      exact ((List.map_inj_right fun _ _ => Option.some.inj).mp hvalues).symm
    rw [hsame]
  | failed hfails => exact absurd hconverts (hfails.not_converts xs.values)

theorem call_typed_refused {arguments : List Value}
    (hfails : ∀ xs : Arguments kinds, ¬xs.Converts arguments) (w : World S)
    : ∃ message, Explains name kinds arguments message ∧
        (typed name body).call arguments w = (none, w.log .warn message) := by
  change ∃ message, _ ∧ (if arguments.length = kinds.length then _ else _) = _
  by_cases hlength : arguments.length = kinds.length
  . have hconverted := convertsTo_convert 0 hlength
    rw [if_pos hlength]
    generalize convert 0 kinds arguments = outcome at hconverted
    cases hconverted with
    | converted hvalues =>
      obtain ⟨xs, rfl⟩ := Arguments.exists_values hlength hvalues
      exact absurd ⟨hlength, hvalues⟩ (hfails xs)
    | failed hfails =>
      refine ⟨_, ⟨fun hne => absurd hlength hne, fun _ => ⟨_, _, _, hfails, rfl⟩⟩, ?_⟩
      rw [Nat.zero_add]
      rfl
  . rw [if_neg hlength]
    exact ⟨_, ⟨fun _ => rfl, fun heq => absurd heq hlength⟩, rfl⟩

theorem obeys_typed (arguments : List Value) (w : World S)
    : Obeys name body arguments w ((typed name body).call arguments w) where
  runs := fun xs hconverts => (call_typed name body hconverts w).trans (run_typed name body xs w)
  refuses := fun hfails => call_typed_refused name body hfails w

end Typed

end Function

end Parley
