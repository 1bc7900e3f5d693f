import Mathlib.Tactic.IntervalCases
import Parley.Json.Dialogue
import Parley.Proofs.Json.Number

/-!
This module contains that readers take back the texts that documents are written with. `Reads` says
what a reader makes of one text, whether it is refused or not; each kind of document has one rule
for it, and the rule for objects goes through their members one after the other.
-/

namespace Parley

def Single.isFinite (x : Float32) : Bool :=
  match parts x with
  | .finite .. => true
  | _ => false

def Value.isFinite : Value → Bool
  | .float x => Single.isFinite x
  | _ => true

namespace Json

namespace Reader

variable {α β σ κ : Type} {text rest : List Char}

section Run

@[simp]
theorem ok_bind (x : α) (f : α → Except Fault β) : (Except.ok x >>= f) = f x := rfl

@[simp]
theorem error_bind (fault : Fault) (f : α → Except Fault β)
    : (Except.error fault >>= f) = .error fault := rfl

@[simp]
theorem map_ok (x : α) (f : α → β) : (Except.ok x : Except Fault α).map f = .ok (f x) := rfl

@[simp]
theorem map_error (fault : Fault) (f : α → β) : (Except.error fault).map f = .error fault := rfl

@[simp]
theorem pure_eq_ok (x : α) : (pure x : Except Fault α) = .ok x := rfl

@[simp]
theorem throw_eq_error (fault : Fault) : (throw fault : Except Fault α) = .error fault := rfl

@[simp]
theorem run_peek (c : Char) : StateT.run peek (c :: rest) = .ok (some c, c :: rest) := rfl

@[simp]
theorem run_advance (c : Char) : StateT.run advance (c :: rest) = .ok ((), rest) := rfl

theorem run_peekToken {c : Char} (hc : isBlank c = false)
    : StateT.run peekToken (c :: rest) = .ok (some c, c :: rest) := by
  have hdrop : (c :: rest).dropWhile isBlank = c :: rest := by
    simp [hc]
  simp [peekToken, peek, hdrop]

@[simp]
theorem run_scan (scanner : List Char → Except Fault (α × List Char))
    : StateT.run (scan scanner) text = scanner text := rfl

@[simp]
theorem run_colon : StateT.run colon (':' :: rest) = .ok ((), rest) := by
  simp [colon, run_peekToken (c := ':') (by decide)]

@[simp]
theorem run_closeObject : StateT.run closeObject ('\x7d' :: rest) = .ok ((), rest) := by
  simp [closeObject, run_peekToken (c := '\x7d') (by decide)]

@[simp]
theorem run_anotherMember_close (first : Bool)
    : StateT.run (anotherMember first) ('\x7d' :: rest) = .ok (false, '\x7d' :: rest) := by
  simp [anotherMember, run_peekToken (c := '\x7d') (by decide)]

@[simp]
theorem run_anotherMember_first
    : StateT.run (anotherMember true) ('"' :: rest) = .ok (true, '"' :: rest) := by
  simp [anotherMember, run_peekToken (c := '"') (by decide)]

@[simp]
theorem run_anotherMember_next
    : StateT.run (anotherMember false) (',' :: '"' :: rest) = .ok (true, '"' :: rest) := by
  simp [anotherMember, run_peekToken (c := ',') (by decide), run_peekToken (c := '"') (by decide)]

end Run

/--
Whether a reader that comes upon a text takes exactly this text, or refuses it, whatever goes on
behind it.
-/
def Reads (reader : Reader α) (text : List Char) (result : Except Fault α) : Prop :=
  ∀ rest, Closes rest → StateT.run reader (text ++ rest) = result.map (·, rest)

section Strings

theorem hexQuad_control {n : Nat} (hn : n < 0x20)
    : hexQuad ('0' :: '0' :: Nat.digitChar (n / 16) :: Nat.digitChar (n % 16) :: rest)
        =
      .ok (n, rest) := by
  interval_cases n
  all_goals rfl

theorem escape_control {c : Char} (hc : c.toNat < 0x20)
    : escape
        ('u' :: '0' :: '0' :: Nat.digitChar (c.toNat / 16) :: Nat.digitChar (c.toNat % 16) :: rest)
        =
      .ok (c, rest) := by
  have hlow : ¬(0xdc00 ≤ c.toNat ∧ c.toNat ≤ 0xdfff) := by omega
  have hhigh : ¬(0xd800 ≤ c.toNat ∧ c.toNat ≤ 0xdbff) := by omega
  simp [escape, unicodeEscape, hexQuad_control hc, hlow, hhigh, Char.ofNat_toNat]

theorem stringBody_step (fuel : Nat) (seen : List Char) (c : Char)
    : stringBody.go escape (fuel + 1) seen (Json.escape c ++ rest)
        =
      stringBody.go escape fuel (c :: seen) rest := by
  unfold Json.escape
  split
  all_goals try rfl
  next hquote hslash _ _ _ _ _ =>
    split
    . next hc => simp [stringBody.go, escape_control hc]
    . next hc => simp_all [stringBody.go]

theorem stringBody_go (letters seen : List Char) {fuel : Nat} (hfuel : letters.length < fuel)
    : stringBody.go escape fuel seen (letters.flatMap Json.escape ++ '"' :: rest)
        =
      .ok (String.ofList (seen.reverse ++ letters), rest) := by
  induction letters generalizing seen fuel with
  | nil =>
    obtain ⟨fuel, rfl⟩ := Nat.exists_eq_add_of_lt hfuel
    simp [stringBody.go]
  | cons c letters ih =>
    obtain ⟨fuel, rfl⟩ := Nat.exists_eq_add_of_lt hfuel
    rw [List.flatMap_cons, List.append_assoc, stringBody_step, ih]
    . simp
    . rw [List.length_cons]
      omega

theorem length_le_flatMap_escape (letters : List Char)
    : letters.length ≤ (letters.flatMap Json.escape).length := by
  induction letters with
  | nil => exact Nat.le_refl _
  | cons c letters ih =>
    have hc : 1 ≤ (Json.escape c).length := by
      unfold Json.escape
      split
      all_goals try exact (by decide)
      split
      all_goals exact Nat.le_add_left _ _
    rw [List.flatMap_cons, List.length_append, List.length_cons]
    omega

theorem run_quotedString (s : String)
    : StateT.run quotedString (stringText s ++ rest) = .ok (s, rest) := by
  have hlength := length_le_flatMap_escape s.toList
  have hbody : stringBody escape (s.toList.flatMap Json.escape ++ '"' :: rest) = .ok (s, rest) := by
    unfold stringBody
    rw [stringBody_go]
    . simp
    . rw [List.length_append]
      omega
  simp [quotedString, stringText, hbody]

end Strings

section Rules

variable {reader : Reader α} {result : Except Fault α}

theorem Reads.map (h : Reads reader text result) (f : α → β)
    : Reads (do return f (← reader)) text (result.map f) := by
  intro rest hrest
  rw [StateT.run_bind, h rest hrest]
  cases result with
  | error fault => rfl
  | ok x => rfl

theorem Reads.expecting {starts : Char → Bool} {c : Char} {more : List Char}
    (h : Reads reader (c :: more) result) (hblank : isBlank c = false) (hc : starts c = true)
    (expected : String) : Reads (expecting starts expected reader) (c :: more) result := by
  intro rest hrest
  rw [← h rest hrest]
  simp [Reader.expecting, run_peekToken hblank, hc]

theorem reads_string (expected : String) (s : String)
    : Reads (string expected) (stringText s) (.ok s) := by
  have hquoted : Reads quotedString (stringText s) (.ok s) := by
    intro rest _
    exact run_quotedString s
  exact hquoted.expecting (by decide) (by decide) expected

theorem reads_bool (b : Bool) : Reads bool (characters (.bool b)) (.ok b) := by
  intro rest _
  cases b with
  | true =>
    change StateT.run bool ('t' :: 'r' :: 'u' :: 'e' :: rest) = _
    simp [bool, Reader.expecting, run_peekToken (c := 't') (by decide), word]
  | false =>
    change StateT.run bool ('f' :: 'a' :: 'l' :: 's' :: 'e' :: rest) = _
    simp [bool, Reader.expecting, run_peekToken (c := 'f') (by decide), word]

end Rules

section Numbers

theorem startsNumber_blank {c : Char} (hc : startsNumber c = true) : isBlank c = false := by
  cases hblank : isBlank c with
  | false => rfl
  | true =>
    simp only [isBlank, Bool.or_eq_true, decide_eq_true_eq] at hblank
    rcases hblank with ((rfl | rfl) | rfl) | rfl
    all_goals exact absurd hc (by decide)

theorem reads_number {first : Char} {more : List Char} {n : Number}
    (hfirst : startsNumber first = true) (h : Reads signedNumber (first :: more) (.ok n))
    (expected : String) : Reads (number expected) (first :: more) (.ok n) := by
  exact h.expecting (startsNumber_blank hfirst) hfirst expected

theorem signedNumber_minus {more : List Char} {n : Number}
    (h : ∀ rest, Closes rest → Number.read true (more ++ rest) = .ok (n, rest))
    : Reads signedNumber ('-' :: more) (.ok n) := by
  intro rest hrest
  simp [signedNumber, h rest hrest]

theorem signedNumber_plain {first : Char} {more : List Char}
    {n : Number} (hfirst : first.isDigit = true)
    (h : ∀ rest, Closes rest → Number.read false (first :: more ++ rest) = .ok (n, rest))
    : Reads signedNumber (first :: more) (.ok n) := by
  intro rest hrest
  have hne : first ≠ '-' := by
    rintro rfl
    exact absurd hfirst (by decide)
  have hread := h rest hrest
  rw [List.cons_append] at hread
  simp [signedNumber, hne, hread]

theorem exists_toDigits (n : Nat)
    : ∃ first more, Nat.toDigits 10 n = first :: more ∧ first.isDigit = true := by
  obtain ⟨first, more, hdigits⟩ :=
    List.exists_cons_of_ne_nil (Nat.toDigits_ne_nil (b := 10) (n := n))
  exact ⟨first, more, hdigits, isDigit_toDigits n first (by simp [hdigits])⟩

-- A word of 64 bits holds a whole number with or without sign.
theorem reads_int {n : Int} (hlow : -2 ^ 63 ≤ n) (hhigh : n < 2 ^ 64) (expected : String)
    : Reads (number expected) (characters (.int n)) (.ok (.int n)) := by
  have hword : n.natAbs < Number.wordLimit := by
    unfold Number.wordLimit
    omega
  unfold characters
  rw [toList_toString]
  split
  . next hnegative =>
    have hwhole : Number.whole true n.natAbs = .int n := by
      have hzero : (n.natAbs = 0 || 0x10000000000000000 / 2 < n.natAbs) = false := by
        rw [Bool.or_eq_false_iff, decide_eq_false_iff_not, decide_eq_false_iff_not]
        omega
      have habs : -(n.natAbs : Int) = n := by omega
      unfold Number.whole Number.wordLimit
      rw [if_pos rfl, hzero, Int.ofNat_eq_natCast, habs]
      rfl
    apply reads_number (by decide)
    apply signedNumber_minus
    intro rest hrest
    rw [← hwhole]
    exact Number.read_toDigits hword true hrest
  . next hpositive =>
    have hwhole : Number.whole false n.natAbs = .int n := by
      have habs : (n.natAbs : Int) = n := by omega
      unfold Number.whole
      rw [if_neg Bool.false_ne_true, habs]
    obtain ⟨first, more, hdigits, hfirst⟩ := exists_toDigits n.natAbs
    rw [List.nil_append, hdigits]
    apply reads_number (by simp [startsNumber, hfirst])
    apply signedNumber_plain hfirst
    intro rest hrest
    rw [← hdigits, ← hwhole]
    exact Number.read_toDigits hword false hrest

theorem reads_integer {n least greatest : Int} (hlow : -2 ^ 63 ≤ n) (hhigh : n < 2 ^ 64)
    (hleast : least ≤ n) (hgreatest : n ≤ greatest) (expected : String)
    : Reads (integer least greatest expected) (characters (.int n)) (.ok n) := by
  intro rest hrest
  unfold integer
  rw [StateT.run_bind, reads_int hlow hhigh expected rest hrest]
  simp [hleast, hgreatest]

theorem reads_count {n : Nat} (hn : n < Number.wordLimit)
    : Reads count (characters (.int n)) (.ok n) := by
  unfold Number.wordLimit at hn
  have hinteger : Reads (integer 0 0xffffffffffffffff "usize") (characters (.int n)) (.ok n) :=
    reads_integer (by omega) (by omega) (by omega) (by omega) _
  exact hinteger.map Int.toNat

end Numbers

theorem Reads.run {reader : Reader α} {result : Except Fault α} (h : Reads reader text result)
    : reader.run (String.ofList text) = result := by
  have hread := h [] (by simp [Closes])
  rw [List.append_nil] at hread
  unfold Reader.run
  rw [String.toList_ofList, hread]
  cases result with
  | error fault => rfl
  | ok x => rfl

section Floats

theorem height_parts {x : Float32} {negative : Bool} {d : Dyadic}
    (hparts : Single.parts x = .finite negative d) : d.height ≤ 127 := by
  have hlog : ∀ n : Nat, n < 2 ^ 24 → n.log2 ≤ 23 := by
    intro n hn
    exact Binary.log2_le_of_lt hn
  unfold Single.parts at hparts
  dsimp only at hparts
  split at hparts
  . split at hparts
    all_goals cases hparts
  . split at hparts
    all_goals
      injection hparts with _ hd
      rw [← hd]
      unfold Dyadic.height
      dsimp only
    . have := hlog (x.toBits.toNat % 0x800000) (by omega)
      omega
    . have := hlog (x.toBits.toNat % 0x800000 + 0x800000) (by omega)
      simp only [Int.ofNat_eq_natCast]
      omega

/--
What reading a number back from its JSON text gives.
-/
def reread (x : Float32) : Except Fault Float32 :=
  (carrier .float).run (ofSingle x).text

theorem reads_null : Reads (carrier .float) (characters .null)
    (.error (.mismatch (.invalidType .null "f32"))) := by
  intro rest _
  have hstart : startsNumber 'n' = false := by decide
  change StateT.run (carrier .float) ('n' :: 'u' :: 'l' :: 'l' :: rest) = _
  simp [carrier, number, Reader.expecting, run_peekToken (c := 'n') (by decide), invalidType,
    word, hstart]

theorem reads_finite {x : Float32} {negative : Bool} {d : Dyadic}
    (hparts : Single.parts x = .finite negative d)
    : ∃ y, Reads (carrier .float) (characters (ofSingle x)) (.ok y) := by
  have hshortest : (Decimal.shortest .single .even d).Within 40 :=
    Decimal.within_shortest (height_parts hparts) (by decide) (by decide)
  obtain ⟨e, he, hheight⟩ := hshortest.round (b := .double) (by decide) (by decide) (by decide)
  have hdouble : e.height ≤ 170 := Int.le_trans hheight (by decide)
  obtain ⟨first, more, y, hfirst, htext, hread⟩ := read_realText hdouble
  refine ⟨Single.ofRounded negative (y.round .single), ?_⟩
  have hnumber : Reads (number "f32") (characters (ofSingle x)) (.ok (.real negative y)) := by
    unfold ofSingle
    rw [hparts]
    dsimp only
    rw [he, Option.getD_some, characters, htext]
    cases negative with
    | true =>
      apply reads_number (by decide)
      apply signedNumber_minus
      exact hread true
    | false =>
      apply reads_number (by simp [startsNumber, hfirst])
      apply signedNumber_plain hfirst
      exact hread false
  intro rest hrest
  unfold carrier
  rw [StateT.run_bind, hnumber rest hrest]
  rfl

theorem reads_float (x : Float32)
    : Reads (carrier .float) (characters (ofSingle x)) (reread x) := by
  have hreads : ∃ result, Reads (carrier .float) (characters (ofSingle x)) result := by
    cases hparts : Single.parts x with
    | finite negative d =>
      obtain ⟨y, hy⟩ := reads_finite hparts
      exact ⟨_, hy⟩
    | nan | infinite =>
      unfold ofSingle
      rw [hparts]
      exact ⟨_, reads_null⟩
  obtain ⟨result, hresult⟩ := hreads
  have hrun : reread x = result := hresult.run
  rw [hrun]
  exact hresult

theorem ofSingle_eq_null {x : Float32} (hx : Single.isFinite x = false) : ofSingle x = .null := by
  unfold Single.isFinite at hx
  unfold ofSingle
  cases hparts : Single.parts x with
  | finite negative d =>
    rw [hparts] at hx
    contradiction
  | nan | infinite => rfl

theorem isOk_reread (x : Float32) : (reread x).isOk = Single.isFinite x := by
  cases hfinite : Single.isFinite x with
  | false =>
    have hrun : reread x = .error (.mismatch (.invalidType .null "f32")) := by
      unfold reread
      rw [ofSingle_eq_null hfinite]
      exact reads_null.run
    rw [hrun]
    rfl
  | true =>
    unfold Single.isFinite at hfinite
    split at hfinite
    . next hparts =>
      obtain ⟨y, hy⟩ := reads_finite hparts
      have hrun : reread x = .ok y := hy.run
      rw [hrun]
      rfl
    . contradiction

end Floats

section Values

def rereadValue : Value → Except Fault Value
  | .float x => (reread x).map .float
  | v => .ok v

theorem isOk_rereadValue (v : Value) : (rereadValue v).isOk = v.isFinite := by
  cases v with
  | float x =>
    change ((reread x).map Value.float).isOk = Single.isFinite x
    rw [← isOk_reread]
    cases reread x with
    | error fault => rfl
    | ok y => rfl
  | int | string | bool => rfl

theorem closes_cons {c : Char} (hc : c = ':' ∨ c = ',' ∨ c = '\x7d') : Closes (c :: rest) := by
  intro d hd
  rw [List.head?_cons, Option.mem_some] at hd
  rw [← hd]
  rcases hc with rfl | rfl | rfl
  all_goals decide

theorem run_kind (k : Kind)
    : StateT.run kind (stringText k.tag ++ ':' :: rest) = .ok (k, ':' :: rest) := by
  unfold kind
  rw [StateT.run_bind, reads_string _ k.tag _ (closes_cons (Or.inl rfl))]
  simp [Kind.ofTag?_tag]

theorem reads_tagged {k : Kind} {content : Json} {result : Except Fault k.Carrier}
    (h : Reads (carrier k) (characters content) result)
    : Reads scalar (characters (.object [(k.tag, content)])) (result.map Value.ofCarrier) := by
  intro rest _
  have htext : characters (.object [(k.tag, content)]) ++ rest
      = '\x7b' :: (stringText k.tag ++ ':' :: (characters content ++ '\x7d' :: rest)) := by
    simp [characters, memberTexts, commaSeparated]
  have hcontent := h ('\x7d' :: rest) (closes_cons (Or.inr (Or.inr rfl)))
  rw [htext]
  simp only [scalar, StateT.run_bind, run_peekToken (c := '\x7b') (by decide), ok_bind, run_advance,
    run_kind, run_colon, hcontent]
  cases result with
  | error fault => rfl
  | ok x => simp [run_peekToken (c := '\x7d') (by decide)]

theorem reads_value (v : Value) : Reads scalar (characters (ofValue v)) (rereadValue v) := by
  cases v with
  | int n =>
    have hlow := n.le_toInt
    have hhigh := n.toInt_lt
    have hinteger : Reads (integer (-0x80000000) 0x7fffffff "i32") (characters (.int n.toInt))
        (.ok n.toInt) := by
      apply reads_integer
      all_goals omega
    have hcontent : Reads (carrier .int) (characters (.int n.toInt)) (.ok n) := by
      have hmap := hinteger.map Int32.ofInt
      rw [map_ok, Int32.ofInt_toInt] at hmap
      exact hmap
    exact reads_tagged hcontent
  | float x =>
    have htagged := reads_tagged (reads_float x)
    exact htagged
  | string s =>
    have hcontent : Reads (carrier .string) (characters (.string s)) (.ok s) := by
      unfold characters
      exact reads_string "a string" s
    exact reads_tagged hcontent
  | bool b => exact reads_tagged (k := .bool) (reads_bool b)

end Values

section Members

/--
A member of an object as it is written, with what it does to what was gathered before.
-/
structure Member (σ : Type) where
  text : List Char
  effect : σ → Except Fault σ

variable {name : Reader κ} {step : σ → κ → Reader σ}

/--
Whether a member starts with a name and reads with its effect.
-/
structure Member.Fits (name : Reader κ) (step : σ → κ → Reader σ) (m : Member σ) : Prop where
  quoted : ∃ more, m.text = '"' :: more
  reads : ∀ state, Reads (do let key ← name; step state key) m.text (m.effect state)

theorem commaSeparated_cons (text : List Char) (texts : List (List Char))
    : commaSeparated (text :: texts) = text ++ texts.flatMap (',' :: ·) := by
  induction texts generalizing text with
  | nil => simp [commaSeparated]
  | cons next texts ih =>
    rw [commaSeparated, ih]
    . simp
    . simp

theorem run_member {m : Member σ} (hm : m.Fits name step) (first : Bool) (fuel : Nat) (state : σ)
    (hrest : Closes rest)
    : StateT.run (members.go name step (fuel + 1) first state)
        ((if first then [] else [',']) ++ (m.text ++ rest))
        =
      match m.effect state with
      | .ok state => StateT.run (members.go name step fuel false state) rest
      | .error fault => .error fault := by
  obtain ⟨more, htext⟩ := hm.quoted
  have hanother : StateT.run (anotherMember first)
      ((if first then [] else [',']) ++ (m.text ++ rest))
      = .ok (true, m.text ++ rest) := by
    rw [htext]
    cases first with
    | true => simp
    | false => simp
  have hreads := hm.reads state rest hrest
  rw [StateT.run_bind] at hreads
  simp only [members.go, StateT.run_bind, hanother, ok_bind, if_true]
  cases hname : StateT.run name (m.text ++ rest) with
  | error fault =>
    rw [hname] at hreads
    cases heffect : m.effect state with
    | error fault' =>
      rw [heffect] at hreads
      injection hreads with hfault
      rw [hfault]
      rfl
    | ok state' =>
      rw [heffect] at hreads
      cases hreads
  | ok named =>
    rw [hname, ok_bind] at hreads
    rw [ok_bind, hreads]
    cases m.effect state with
    | error fault => rfl
    | ok state' => rfl

variable {ms : List (Member σ)}

theorem closes_members (texts : List (List Char)) (rest : List Char)
    : Closes (texts.flatMap (',' :: ·) ++ '\x7d' :: rest) := by
  cases texts with
  | nil => exact closes_cons (Or.inr (Or.inr rfl))
  | cons next texts => exact closes_cons (Or.inr (Or.inl rfl))

theorem run_members_rest (hms : ∀ m ∈ ms, m.Fits name step) {fuel : Nat} (hfuel : ms.length < fuel)
    (state : σ)
    : StateT.run (members.go name step fuel false state)
        ((ms.map (·.text)).flatMap (',' :: ·) ++ '\x7d' :: rest)
        =
      (ms.foldlM (fun state (m : Member σ) => m.effect state) state).map (·, '\x7d' :: rest) := by
  induction ms generalizing state fuel with
  | nil =>
    obtain ⟨fuel, rfl⟩ := Nat.exists_eq_add_of_lt hfuel
    simp [members.go]
  | cons m ms ih =>
    obtain ⟨fuel, rfl⟩ := Nat.exists_eq_add_of_lt hfuel
    have hmember := run_member (hms m (List.mem_cons_self ..)) false ((m :: ms).length + fuel) state
      (closes_members (ms.map (·.text)) rest)
    have htext : (List.map (·.text) (m :: ms)).flatMap (',' :: ·) ++ '\x7d' :: rest
        = [','] ++ (m.text ++ ((ms.map (·.text)).flatMap (',' :: ·) ++ '\x7d' :: rest)) := by
      simp
    rw [if_neg Bool.false_ne_true] at hmember
    rw [htext, hmember, List.foldlM_cons]
    cases m.effect state with
    | error fault => rfl
    | ok state' =>
      apply ih
      . intro m hm
        exact hms m (List.mem_cons_of_mem _ hm)
      . rw [List.length_cons]
        omega

theorem length_le_commaSeparated (texts : List (List Char))
    : texts.length ≤ (commaSeparated texts).length + 1 := by
  have hflat : ∀ texts : List (List Char), texts.length ≤ (texts.flatMap (',' :: ·)).length := by
    intro texts
    induction texts with
    | nil => exact Nat.le_refl _
    | cons text texts ih =>
      rw [List.flatMap_cons, List.length_append, List.length_cons, List.length_cons]
      omega
  cases texts with
  | nil => exact Nat.zero_le _
  | cons text texts =>
    have htexts := hflat texts
    rw [commaSeparated_cons, List.length_append, List.length_cons]
    omega

theorem run_members (hms : ∀ m ∈ ms, m.Fits name step) (state : σ)
    : StateT.run (members name step state) (commaSeparated (ms.map (·.text)) ++ '\x7d' :: rest)
        =
      (ms.foldlM (fun state (m : Member σ) => m.effect state) state).map (·, '\x7d' :: rest) := by
  have hrounds : StateT.run (members name step state)
        (commaSeparated (ms.map (·.text)) ++ '\x7d' :: rest)
      = StateT.run (members.go name step
          ((commaSeparated (ms.map (·.text)) ++ '\x7d' :: rest).length + 1) true state)
        (commaSeparated (ms.map (·.text)) ++ '\x7d' :: rest) := rfl
  have hlength := length_le_commaSeparated (ms.map (·.text))
  rw [List.length_map] at hlength
  rw [hrounds]
  generalize hfuel : (commaSeparated (ms.map (·.text)) ++ '\x7d' :: rest).length = fuel
  rw [List.length_append, List.length_cons] at hfuel
  cases ms with
  | nil => simp [members.go, commaSeparated]
  | cons m ms =>
    have hmember := run_member (hms m (List.mem_cons_self ..)) true fuel state
        (closes_members (ms.map (·.text)) rest)
    rw [if_pos rfl, List.nil_append] at hmember
    rw [List.map_cons, commaSeparated_cons, List.append_assoc, hmember, List.foldlM_cons]
    cases m.effect state with
    | error fault => rfl
    | ok state' =>
      apply run_members_rest
      . intro m hm
        exact hms m (List.mem_cons_of_mem _ hm)
      . rw [List.length_cons] at hlength
        omega

end Members

section Fields

variable {r : Record σ} {field : Field σ} {content : Json}

def fieldMember (field : Field σ) (content : Json) (result : σ → Except Fault σ) : Member σ where
  text := stringText field.name ++ ':' :: characters content
  effect state :=
    if field.isFilled state then .error (.mismatch (.duplicateField field.name)) else result state

theorem fits_field {result : σ → Except Fault σ}
    (hfound : r.fields.find? (·.name = field.name) = some field)
    (hread : ∀ state, Reads (field.read state) (characters content) (result state))
    : (fieldMember field content result).Fits quotedString r.readMember := by
  refine ⟨⟨_, rfl⟩, ?_⟩
  intro state rest hrest
  unfold fieldMember
  simp only [List.append_assoc, List.cons_append, StateT.run_bind, run_quotedString, ok_bind,
    Record.readMember, hfound]
  split
  . rfl
  . simp [hread state rest hrest]

theorem reads_record {ms : List (Member σ)} (hms : ∀ m ∈ ms, m.Fits quotedString r.readMember)
    {empty : σ} {result : Except Fault σ}
    (hresult : ms.foldlM (fun state (m : Member σ) => m.effect state) empty = result)
    (hfull : ∀ state, result = .ok state → r.missing? state = none)
    : Reads (r.read empty) ('\x7b' :: (commaSeparated (ms.map (·.text)) ++ ['\x7d'])) result := by
  intro rest _
  have hmembers : StateT.run (Reader.members quotedString r.readMember empty)
        (commaSeparated (ms.map (·.text)) ++ '\x7d' :: rest)
      = result.map (·, '\x7d' :: rest) := by
    rw [run_members hms, hresult]
  simp only [List.cons_append, List.append_assoc, List.nil_append, Record.read, StateT.run_bind,
    run_peekToken (c := '\x7b') (by decide), run_advance, ok_bind, hmembers]
  cases result with
  | error fault => rfl
  | ok state => simp [hfull state rfl]

end Fields

end Reader

end Json

end Parley
