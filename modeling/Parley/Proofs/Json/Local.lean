import Parley.Proofs.Json.Reader

namespace Parley

namespace Json

variable {text rest after : List Char}

namespace Number

section Digits

variable (hafter : ∀ c ∈ after.head?, c.isDigit = false)

include hafter

theorem takeWhile_isDigit_append (text : List Char)
    : (text ++ after).takeWhile Char.isDigit = text.takeWhile Char.isDigit := by
  induction text with
  | nil =>
    cases after with
    | nil => rfl
    | cons c after =>
      have hc : c.isDigit = false := hafter c rfl
      simp [hc]
  | cons c text ih => simp only [List.cons_append, List.takeWhile_cons, ih]

theorem dropWhile_isDigit_append (text : List Char)
    : (text ++ after).dropWhile Char.isDigit = text.dropWhile Char.isDigit ++ after := by
  induction text with
  | nil =>
    cases after with
    | nil => rfl
    | cons c after =>
      have hc : c.isDigit = false := hafter c rfl
      simp [hc]
  | cons c text ih =>
    simp only [List.cons_append, List.dropWhile_cons, ih]
    split
    . rfl
    . rfl

end Digits

theorem finish_append {negative : Bool} {word : Nat} {exponent : Int} {n : Number}
    (h : finish negative word exponent text = .ok (n, rest))
    : finish negative word exponent (text ++ after) = .ok (n, rest ++ after) := by
  unfold finish at h ⊢
  split at h
  . cases h
    rfl
  . cases h

def sign : List Char → Bool × List Char
  | '+' :: rest => (false, rest)
  | '-' :: rest => (true, rest)
  | rest => (false, rest)

theorem sign_append {c : Char} {more : List Char}
    : sign (c :: more ++ after) = ((sign (c :: more)).1, (sign (c :: more)).2 ++ after) := by
  by_cases hplus : c = '+'
  . subst hplus
    rfl
  . by_cases hminus : c = '-'
    . subst hminus
      rfl
    . simp [sign, hplus, hminus]

def readShift (negative : Bool) (word : Nat) (exponent : Int) (minus : Bool) (text : List Char)
    : Except Fault (Number × List Char) :=
  match text.takeWhile Char.isDigit, text with
  | [], [] => .error .endOfValue
  | [], _ :: _ => .error .invalidNumber
  | digits, _ =>
    let shift := Int.ofNat (Decimal.valueFrom 0 digits)
    finish negative word (if minus then exponent - shift else exponent + shift)
      (text.dropWhile Char.isDigit)

theorem readExponent_cons (negative : Bool) (word : Nat) (exponent : Int) (mark : Char)
    (more : List Char)
    : readExponent negative word exponent (mark :: more)
        =
      if mark = 'e' || mark = 'E' then
        readShift negative word exponent (sign more).1 (sign more).2
      else
        finish negative word exponent (mark :: more) := rfl

theorem readShift_append (hafter : Closes after) {negative : Bool} {word : Nat} {exponent : Int}
    {minus : Bool} {n : Number} (h : readShift negative word exponent minus text = .ok (n, rest))
    : readShift negative word exponent minus (text ++ after) = .ok (n, rest ++ after) := by
  unfold readShift at h ⊢
  rw [takeWhile_isDigit_append (Closes.digits hafter),
    dropWhile_isDigit_append (Closes.digits hafter)]
  cases hdigits : text.takeWhile Char.isDigit with
  | nil =>
    rw [hdigits] at h
    cases text with
    | nil => cases h
    | cons _ _ => cases h
  | cons digit digits =>
    rw [hdigits] at h
    exact finish_append h

theorem readExponent_append (hafter : Closes after) {negative : Bool} {word : Nat} {exponent : Int}
    {n : Number} (h : readExponent negative word exponent text = .ok (n, rest))
    : readExponent negative word exponent (text ++ after) = .ok (n, rest ++ after) := by
  cases text with
  | nil =>
    cases after with
    | nil => rwa [List.append_nil, List.append_nil]
    | cons c after =>
      have hc : (c = 'e' || c = 'E') = false := by
        obtain ⟨_, _, he, hE⟩ := hafter c rfl
        simp [he, hE]
      have hfinish : finish negative word exponent ([] ++ c :: after)
          = .ok (n, rest ++ c :: after) :=
        finish_append h
      rw [List.nil_append, readExponent_cons, hc]
      exact hfinish
  | cons mark more =>
    rw [List.cons_append, readExponent_cons] at *
    split at h
    . next hmark =>
      rw [if_pos hmark]
      cases more with
      | nil => cases h
      | cons c more =>
        rw [sign_append]
        exact readShift_append hafter h
    . next hmark =>
      rw [if_neg hmark]
      exact finish_append h

theorem readFraction_append (hafter : Closes after) {negative : Bool} {word : Nat} {exponent : Int}
    {n : Number} (h : readFraction negative word exponent text = .ok (n, rest))
    : readFraction negative word exponent (text ++ after) = .ok (n, rest ++ after) := by
  unfold readFraction at h ⊢
  dsimp only at h ⊢
  rw [takeWhile_isDigit_append (Closes.digits hafter),
    dropWhile_isDigit_append (Closes.digits hafter)]
  split at h
  . cases h
  . next hdigits =>
    rw [if_neg hdigits]
    exact readExponent_append hafter h

/--
Reads what follows the digits of a number, of which those that are left did not fit into the word.
-/
def readRest (negative : Bool) (word : Nat) (left text : List Char)
    : Except Fault (Number × List Char) :=
  match text with
  | '.' :: rest => readFraction negative word left.length rest
  | mark :: _ =>
    if mark = 'e' || mark = 'E' || !left.isEmpty then
      readExponent negative word left.length text
    else
      .ok (whole negative word, text)
  | [] =>
    if left.isEmpty then .ok (whole negative word, text)
    else readExponent negative word left.length text

theorem readRest_cons {mark : Char} (hmark : mark ≠ '.') (negative : Bool) (word : Nat)
    (left rest : List Char)
    : readRest negative word left (mark :: rest)
        =
      if mark = 'e' || mark = 'E' || !left.isEmpty then
        readExponent negative word left.length (mark :: rest)
      else
        .ok (whole negative word, mark :: rest) := by
  unfold readRest
  split
  . next heq =>
    injection heq with heq
    exact absurd heq hmark
  . next heq =>
    injection heq with heq
    rw [heq]
  . next heq => cases heq

theorem readRest_append (hafter : Closes after) {negative : Bool} {word : Nat} {left : List Char}
    {n : Number} (h : readRest negative word left text = .ok (n, rest))
    : readRest negative word left (text ++ after) = .ok (n, rest ++ after) := by
  cases text with
  | nil =>
    cases after with
    | nil => rwa [List.append_nil, List.append_nil]
    | cons c after =>
      obtain ⟨_, hpoint, he, hE⟩ := hafter c rfl
      have hmark : (c = 'e' || c = 'E') = false := by
        simp [he, hE]
      rw [List.nil_append, readRest_cons hpoint, hmark, Bool.false_or]
      unfold readRest at h
      cases left with
      | nil =>
        cases h
        rfl
      | cons digit digits =>
        have hexponent : readExponent negative word ((digit :: digits).length : Nat)
            ([] ++ c :: after)
            = .ok (n, rest ++ c :: after) := readExponent_append hafter h
        exact hexponent
  | cons mark more =>
    by_cases hpoint : mark = '.'
    . subst hpoint
      exact readFraction_append hafter h
    . rw [List.cons_append, readRest_cons hpoint] at *
      split at h
      . next hmark =>
        rw [if_pos hmark]
        exact readExponent_append hafter h
      . next hmark =>
        rw [if_neg hmark]
        cases h
        rfl

theorem read_eq (negative : Bool) (text : List Char)
    : read negative text
        =
      match text.takeWhile Char.isDigit with
      | [] => .error (if (text.dropWhile Char.isDigit).isEmpty then .endOfValue else .invalidNumber)
      | first :: more =>
        if first = '0' && !more.isEmpty then
          .error .invalidNumber
        else
          readRest negative (gather 0 (text.takeWhile Char.isDigit)).1
            (gather 0 (text.takeWhile Char.isDigit)).2 (text.dropWhile Char.isDigit) := rfl

theorem read_append (hafter : Closes after) {negative : Bool}
    {n : Number} (h : read negative text = .ok (n, rest))
    : read negative (text ++ after) = .ok (n, rest ++ after) := by
  rw [read_eq] at h ⊢
  rw [takeWhile_isDigit_append (Closes.digits hafter),
    dropWhile_isDigit_append (Closes.digits hafter)]
  split at h
  . cases h
  . next first more hdigits =>
    split at h
    . cases h
    . next hleading =>
      rw [if_neg hleading]
      exact readRest_append hafter h

end Number

namespace Reader

section Strings

theorem hexQuad_cons (a b c d : Char) (text : List Char)
    : hexQuad (a :: b :: c :: d :: text)
        =
      if (String.ofList [a, b, c, d]).utf8ByteSize < 4 then
        .error .endOfString
      else
        match hexDigit? a, hexDigit? b, hexDigit? c, hexDigit? d with
        | some a, some b, some c, some d => .ok (a * 4096 + b * 256 + c * 16 + d, text)
        | _, _, _, _ => .error .invalidEscape := rfl

theorem hexQuad_eq_ok {n : Nat} (h : hexQuad text = .ok (n, rest))
    : ∃ a b c d, text = a :: b :: c :: d :: rest := by
  unfold hexQuad at h
  split at h
  . cases h
  . split at h
    . split at h
      . cases h
        exact ⟨_, _, _, _, rfl⟩
      . cases h
    . cases h

theorem hexQuad_append {n : Nat} (h : hexQuad text = .ok (n, rest))
    : hexQuad (text ++ after) = .ok (n, rest ++ after) := by
  obtain ⟨a, b, c, d, rfl⟩ := hexQuad_eq_ok h
  simp only [List.cons_append, hexQuad_cons] at h ⊢
  split at h
  . cases h
  . next hbytes =>
    rw [if_neg hbytes]
    split at h
    . cases h
      rfl
    . cases h

theorem unicodeEscape_append {c : Char} (h : unicodeEscape text = .ok (c, rest))
    : unicodeEscape (text ++ after) = .ok (c, rest ++ after) := by
  unfold unicodeEscape at h ⊢
  cases hquad : hexQuad text with
  | error fault =>
    rw [hquad] at h
    cases h
  | ok read =>
    obtain ⟨n, behind⟩ := read
    rw [hquad] at h
    rw [hexQuad_append hquad]
    simp only [ok_bind] at h ⊢
    split at h
    . cases h
    . next hlow =>
      rw [if_neg hlow]
      split at h
      . next hhigh =>
        rw [if_pos hhigh]
        split at h
        . cases h
        . cases h
        . next behind =>
          cases hpair : hexQuad behind with
          | error fault =>
            rw [hpair] at h
            cases h
          | ok read =>
            obtain ⟨m, last⟩ := read
            rw [hpair] at h
            simp only [List.cons_append, hexQuad_append hpair, ok_bind] at h ⊢
            split at h
            . cases h
            . next hsecond =>
              rw [if_neg hsecond]
              rw [pure_eq_ok, Except.ok.injEq, Prod.mk.injEq] at h ⊢
              exact ⟨h.1, congrArg (· ++ after) h.2⟩
        . cases h
      . next hhigh =>
        rw [if_neg hhigh]
        cases h
        rfl

def letter? : Char → Option Char
  | '"' => some '"'
  | '\\' => some '\\'
  | '/' => some '/'
  | 'b' => some '\x08'
  | 'f' => some '\x0c'
  | 'n' => some '\n'
  | 'r' => some '\r'
  | 't' => some '\t'
  | _ => none

theorem escape_letter {mark c : Char} (hc : letter? mark = some c) (text : List Char)
    : escape (mark :: text) = .ok (c, text) := by
  unfold letter? at hc
  split at hc
  all_goals
    cases hc
    try rfl

theorem escape_cons (mark : Char) (text : List Char)
    : escape (mark :: text)
        =
      if mark = 'u' then
        unicodeEscape text
      else
        match letter? mark with
        | some c => .ok (c, text)
        | none => .error .invalidEscape := by
  cases hc : letter? mark with
  | some c =>
    have hu : mark ≠ 'u' := by
      rintro rfl
      cases hc
    rw [escape_letter hc, if_neg hu]
  | none =>
    unfold escape
    split
    all_goals next heq =>
      first
      | cases heq <;> first | rfl | cases hc
      | have hu : mark ≠ 'u' := fun hu => heq text (by rw [hu])
        rw [if_neg hu]

theorem escape_append {c : Char} (h : escape text = .ok (c, rest))
    : escape (text ++ after) = .ok (c, rest ++ after) := by
  cases text with
  | nil => cases h
  | cons mark text =>
    rw [List.cons_append, escape_cons] at *
    split at h
    . next hmark =>
      rw [if_pos hmark]
      exact unicodeEscape_append h
    . next hmark =>
      rw [if_neg hmark]
      cases hletter : letter? mark with
      | none =>
        rw [hletter] at h
        cases h
      | some d =>
        rw [hletter] at h
        cases h
        rfl

theorem stringBody_go_append {fuel fuel' : Nat} (hfuel : fuel ≤ fuel') {seen : List Char}
    {s : String} (h : stringBody.go escape fuel seen text = .ok (s, rest))
    : stringBody.go escape fuel' seen (text ++ after) = .ok (s, rest ++ after) := by
  induction fuel generalizing fuel' seen text with
  | zero => cases h
  | succ fuel ih =>
    obtain ⟨fuel', rfl⟩ := Nat.exists_eq_add_of_lt hfuel
    cases text with
    | nil => cases h
    | cons c text =>
      simp only [List.cons_append, stringBody.go] at h ⊢
      split at h
      . next hquote =>
        rw [if_pos hquote]
        cases h
        rfl
      . next hquote =>
        rw [if_neg hquote]
        split at h
        . next hslash =>
          rw [if_pos hslash]
          split at h
          . next hescape =>
            rw [escape_append hescape]
            exact ih (by omega) h
          . cases h
        . next hslash =>
          rw [if_neg hslash]
          split at h
          . cases h
          . next hcontrol =>
            rw [if_neg hcontrol]
            exact ih (by omega) h

end Strings

section CarriesOver

variable {α β σ κ : Type} {reader reader' : Reader α}

/--
Whether a reader that takes something from a text is followed by another one where the text goes on.
-/
def CarriesOver (reader reader' : Reader α) (text : List Char) : Prop :=
  ∀ a rest, StateT.run reader text = .ok (a, rest) →
    ∀ after, Closes after → StateT.run reader' (text ++ after) = .ok (a, rest ++ after)

theorem carriesOver_pure (a : α) (text : List Char) : CarriesOver (pure a) (pure a) text := by
  intro b rest hrun after _
  cases hrun
  rfl

theorem carriesOver_throw (fault : Fault) (reader' : Reader α) (text : List Char)
    : CarriesOver (throw fault) reader' text := by
  intro a rest hrun
  cases hrun

theorem CarriesOver.bind {f f' : α → Reader β} (h : CarriesOver reader reader' text)
    (hf : ∀ a rest, CarriesOver (f a) (f' a) rest)
    : CarriesOver (reader >>= f) (reader' >>= f') text := by
  intro b last hrun after hafter
  rw [StateT.run_bind] at hrun ⊢
  cases hreader : StateT.run reader text with
  | error fault =>
    rw [hreader] at hrun
    cases hrun
  | ok ended =>
    obtain ⟨a, rest⟩ := ended
    rw [hreader] at hrun
    rw [h a rest hreader after hafter]
    exact hf a rest b last hrun after hafter

theorem carriesOver_advance (c : Char) (rest : List Char)
    : CarriesOver advance advance (c :: rest) := by
  intro a last hrun after _
  cases hrun
  rfl

theorem carriesOver_scan {scanner : List Char → Except Fault (α × List Char)}
    (h : ∀ a rest after, scanner text = .ok (a, rest) → Closes after →
      scanner (text ++ after) = .ok (a, rest ++ after))
    : CarriesOver (scan scanner) (scan scanner) text := by
  intro a rest hrun after hafter
  exact h a rest after hrun hafter

theorem dropWhile_isBlank_append {c : Char} {more : List Char}
    (h : text.dropWhile isBlank = c :: more)
    : (text ++ after).dropWhile isBlank = c :: more ++ after := by
  induction text with
  | nil => cases h
  | cons d text ih =>
    rw [List.dropWhile_cons] at h
    rw [List.cons_append, List.dropWhile_cons]
    split at h
    . next hblank =>
      rw [if_pos hblank]
      exact ih h
    . next hblank =>
      rw [if_neg hblank, ← List.cons_append, h]

theorem run_peekToken_bind (f : Option Char → Reader β)
    : StateT.run (peekToken >>= f) text
        =
      StateT.run (f (text.dropWhile isBlank).head?) (text.dropWhile isBlank) := rfl

theorem CarriesOver.token {f f' : Option Char → Reader β}
    (h : ∀ c more, CarriesOver (f (some c)) (f' (some c)) (c :: more))
    (hend : ∀ b rest, StateT.run (f none) [] ≠ .ok (b, rest))
    : CarriesOver (peekToken >>= f) (peekToken >>= f') text := by
  intro b rest hrun after hafter
  rw [run_peekToken_bind] at hrun ⊢
  cases hdrop : text.dropWhile isBlank with
  | nil =>
    rw [hdrop] at hrun
    exact absurd hrun (hend b rest)
  | cons c more =>
    rw [hdrop] at hrun
    rw [dropWhile_isBlank_append hdrop]
    exact h c more b rest hrun after hafter

theorem carriesOver_word (letters text : List Char)
    : CarriesOver (word letters) (word letters) text := by
  induction letters generalizing text with
  | nil => exact carriesOver_pure () text
  | cons c letters ih =>
    unfold word
    cases text with
    | nil =>
      intro a rest hrun
      cases hrun
    | cons d more =>
      have hpeek : CarriesOver peek peek (d :: more) := by
        intro a rest hrun after _
        cases hrun
        rfl
      intro a rest hrun after hafter
      by_cases hd : d = c
      . subst hd
        simp only [StateT.run_bind, run_peek, ok_bind, if_true, run_advance,
          List.cons_append] at hrun ⊢
        exact ih more a rest hrun after hafter
      . simp [StateT.run_bind, hd] at hrun

theorem carriesOver_quotedString (text : List Char)
    : CarriesOver quotedString quotedString text := by
  cases text with
  | nil =>
    intro a rest hrun
    cases hrun
  | cons c more =>
    unfold quotedString
    apply (carriesOver_advance c more).bind
    intro _ rest
    apply carriesOver_scan
    intro s last after hbody _
    unfold stringBody at hbody ⊢
    apply stringBody_go_append _ hbody
    rw [List.length_append]
    omega

theorem carriesOver_signedNumber (text : List Char)
    : CarriesOver signedNumber signedNumber text := by
  cases text with
  | nil =>
    intro a rest hrun
    cases hrun
  | cons c more =>
    have hread : ∀ negative text,
        CarriesOver (scan (Number.read negative)) (scan (Number.read negative)) text := by
      intro negative text
      apply carriesOver_scan
      intro n rest after h hafter
      exact Number.read_append hafter h
    intro n rest hrun after hafter
    unfold signedNumber at hrun ⊢
    simp only [StateT.run_bind, run_peek, ok_bind, List.cons_append] at hrun ⊢
    split at hrun
    . next hminus =>
      rw [if_pos hminus]
      simp only [StateT.run_bind, run_advance, ok_bind] at hrun ⊢
      exact hread true more n rest hrun after hafter
    . next hminus =>
      rw [if_neg hminus]
      exact hread false (c :: more) n rest hrun after hafter

theorem carriesOver_colon (text : List Char) : CarriesOver colon colon text := by
  unfold colon
  apply CarriesOver.token
  . intro c more
    split
    . exact carriesOver_advance _ _
    . exact carriesOver_throw _ _ _
    . exact carriesOver_throw _ _ _
  . intro b rest hrun
    cases hrun

theorem carriesOver_anotherItem (first : Bool) (text : List Char)
    : CarriesOver (anotherItem first) (anotherItem first) text := by
  unfold anotherItem
  apply CarriesOver.token
  . intro c more
    split
    . exact carriesOver_throw _ _ _
    . exact carriesOver_pure _ _
    . split
      . exact carriesOver_pure _ _
      . split
        . apply (carriesOver_advance _ _).bind
          intro _ rest
          apply CarriesOver.token
          . intro d more
            split
            . exact carriesOver_throw _ _ _
            . exact carriesOver_pure _ _
            . exact carriesOver_throw _ _ _
          . intro b rest hrun
            cases hrun
        . exact carriesOver_throw _ _ _
  . intro b rest hrun
    cases hrun

theorem carriesOver_anotherMember (first : Bool) (text : List Char)
    : CarriesOver (anotherMember first) (anotherMember first) text := by
  unfold anotherMember
  apply CarriesOver.token
  . intro c more
    split
    . exact carriesOver_throw _ _ _
    . exact carriesOver_pure _ _
    . split
      . split
        . exact carriesOver_pure _ _
        . exact carriesOver_throw _ _ _
      . split
        . apply (carriesOver_advance _ _).bind
          intro _ rest
          apply CarriesOver.token
          . intro d more
            split
            . exact carriesOver_pure _ _
            . exact carriesOver_throw _ _ _
            . exact carriesOver_throw _ _ _
            . exact carriesOver_throw _ _ _
          . intro b rest hrun
            cases hrun
        . exact carriesOver_throw _ _ _
  . intro b rest hrun
    cases hrun

theorem carriesOver_closeList (text : List Char) : CarriesOver closeList closeList text := by
  unfold closeList
  apply CarriesOver.token
  . intro c more
    split
    . exact carriesOver_advance _ _
    . apply (carriesOver_advance _ _).bind
      intro _ rest a last hrun
      rw [run_peekToken_bind] at hrun
      split at hrun
      . cases hrun
      . cases hrun
    . exact carriesOver_throw _ _ _
    . exact carriesOver_throw _ _ _
  . intro b rest hrun
    cases hrun

theorem carriesOver_closeObject (text : List Char) : CarriesOver closeObject closeObject text := by
  unfold closeObject
  apply CarriesOver.token
  . intro c more
    split
    . exact carriesOver_advance _ _
    . exact carriesOver_throw _ _ _
    . exact carriesOver_throw _ _ _
    . exact carriesOver_throw _ _ _
  . intro b rest hrun
    cases hrun

theorem carriesOver_items_go {item : Reader α} (hitem : ∀ text, CarriesOver item item text)
    {fuel fuel' : Nat} (hfuel : fuel ≤ fuel') (first : Bool) (text : List Char)
    : CarriesOver (items.go item fuel first) (items.go item fuel' first) text := by
  induction fuel generalizing fuel' first text with
  | zero => exact carriesOver_throw _ _ _
  | succ fuel ih =>
    obtain ⟨fuel', rfl⟩ := Nat.exists_eq_add_of_lt hfuel
    unfold items.go
    apply (carriesOver_anotherItem first text).bind
    intro another rest
    split
    . apply (hitem rest).bind
      intro x rest
      apply (ih (by omega) false rest).bind
      intro xs rest
      exact carriesOver_pure _ _
    . exact carriesOver_pure _ _

theorem carriesOver_items {item : Reader α} (hitem : ∀ text, CarriesOver item item text)
    (text : List Char)
    : CarriesOver (items item) (items item) text := by
  intro xs rest hrun after hafter
  have hrun : StateT.run (items.go item (text.length + 1) true) text = .ok (xs, rest) := hrun
  have hfuel : text.length + 1 ≤ (text ++ after).length + 1 := by
    rw [List.length_append]
    omega
  exact carriesOver_items_go hitem hfuel true text xs rest hrun after hafter

theorem carriesOver_members_go {name : Reader κ}
    {member : σ → κ → Reader σ} (hname : ∀ text, CarriesOver name name text)
    (hmember : ∀ state key text, CarriesOver (member state key) (member state key) text)
    {fuel fuel' : Nat} (hfuel : fuel ≤ fuel') (first : Bool) (state : σ) (text : List Char)
    : CarriesOver (members.go name member fuel first state)
        (members.go name member fuel' first state) text := by
  induction fuel generalizing fuel' first state text with
  | zero => exact carriesOver_throw _ _ _
  | succ fuel ih =>
    obtain ⟨fuel', rfl⟩ := Nat.exists_eq_add_of_lt hfuel
    unfold members.go
    apply (carriesOver_anotherMember first text).bind
    intro another rest
    split
    . apply (hname rest).bind
      intro key rest
      apply (hmember state key rest).bind
      intro state rest
      exact ih (by omega) false state rest
    . exact carriesOver_pure _ _

theorem carriesOver_members {name : Reader κ} {member : σ → κ → Reader σ}
    (hname : ∀ text, CarriesOver name name text)
    (hmember : ∀ state key text, CarriesOver (member state key) (member state key) text) (state : σ)
    (text : List Char)
    : CarriesOver (members name member state) (members name member state) text := by
  intro final rest hrun after hafter
  have hrun : StateT.run (members.go name member (text.length + 1) true state) text
      = .ok (final, rest) := hrun
  have hfuel : text.length + 1 ≤ (text ++ after).length + 1 := by
    rw [List.length_append]
    omega
  exact carriesOver_members_go hname hmember hfuel true state text final rest hrun after hafter

theorem carriesOver_valueWith {inner : Option (Reader Json)}
    (hinner : ∀ reader ∈ inner, ∀ text, CarriesOver reader reader text) (text : List Char)
    : CarriesOver (valueWith inner) (valueWith inner) text := by
  unfold valueWith
  apply CarriesOver.token
  . intro c more
    split
    . exact carriesOver_throw _ _ _
    . exact (carriesOver_word _ _).bind fun _ _ => carriesOver_pure _ _
    . exact (carriesOver_word _ _).bind fun _ _ => carriesOver_pure _ _
    . exact (carriesOver_word _ _).bind fun _ _ => carriesOver_pure _ _
    . exact (carriesOver_quotedString _).bind fun _ _ => carriesOver_pure _ _
    . cases inner with
      | none => exact carriesOver_throw _ _ _
      | some item =>
        apply (carriesOver_advance _ _).bind
        intro _ rest
        apply (carriesOver_items (hinner item rfl) rest).bind
        intro found rest
        exact (carriesOver_closeList rest).bind fun _ _ => carriesOver_pure _ _
    . cases inner with
      | none => exact carriesOver_throw _ _ _
      | some item =>
        apply (carriesOver_advance _ _).bind
        intro _ rest
        have hmember : ∀ found name text,
            CarriesOver (member item found name) (member item found name) text := by
          intro found name text
          apply (carriesOver_colon text).bind
          intro _ rest
          exact (hinner item rfl rest).bind fun _ _ => carriesOver_pure _ _
        apply (carriesOver_members carriesOver_quotedString hmember [] rest).bind
        intro found rest
        exact (carriesOver_closeObject rest).bind fun _ _ => carriesOver_pure _ _
    . split
      . apply (carriesOver_signedNumber _).bind
        intro n rest
        cases n with
        | int n => exact carriesOver_pure _ _
        | real negative d => exact carriesOver_pure _ _
      . exact carriesOver_throw _ _ _
  . intro b rest hrun
    cases hrun

theorem carriesOver_value (depth : Nat) (text : List Char)
    : CarriesOver (value depth) (value depth) text := by
  induction depth generalizing text with
  | zero => exact carriesOver_valueWith (by simp) text
  | succ depth ih =>
    apply carriesOver_valueWith
    intro reader hreader
    cases hreader
    exact ih

end CarriesOver

end Reader

end Json

end Parley
