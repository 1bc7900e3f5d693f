import Mathlib.Data.List.DropRight
import Parley.Proofs.Json.Local

namespace Parley

namespace Json

variable {text rest : List Char}

namespace Number

theorem skipExponent_cons (mark : Char) (more : List Char)
    : skip.skipExponent (mark :: more)
        =
      if mark = 'e' || mark = 'E' then
        if ((sign more).2.takeWhile Char.isDigit).isEmpty then
          .error .invalidNumber
        else
          .ok ((sign more).2.dropWhile Char.isDigit)
      else
        .ok (mark :: more) := by
  cases more with
  | nil => rfl
  | cons c more =>
    by_cases hplus : c = '+'
    . subst hplus
      rfl
    . by_cases hminus : c = '-'
      . subst hminus
        rfl
      . simp [skip.skipExponent, sign, hplus, hminus]

theorem length_sign (text : List Char) : (sign text).2.length ≤ text.length := by
  unfold sign
  split
  . exact Nat.le_succ _
  . exact Nat.le_succ _
  . exact Nat.le_refl _

theorem finish_eq_ok {negative : Bool} {word : Nat} {exponent : Int} {n : Number}
    (h : finish negative word exponent text = .ok (n, rest)) : rest = text := by
  unfold finish at h
  split at h
  . cases h
    rfl
  . cases h

theorem skip_of_readShift {negative : Bool} {word : Nat} {exponent : Int} {minus : Bool}
    {n : Number} (h : readShift negative word exponent minus text = .ok (n, rest))
    : (text.takeWhile Char.isDigit).isEmpty = false ∧ rest = text.dropWhile Char.isDigit := by
  unfold readShift at h
  cases hdigits : text.takeWhile Char.isDigit with
  | nil =>
    rw [hdigits] at h
    cases text with
    | nil => cases h
    | cons _ _ => cases h
  | cons digit digits =>
    rw [hdigits] at h
    exact ⟨rfl, finish_eq_ok h⟩

theorem skip_of_readExponent {negative : Bool} {word : Nat} {exponent : Int} {n : Number}
    (h : readExponent negative word exponent text = .ok (n, rest))
    : skip.skipExponent text = .ok rest ∧ rest.length ≤ text.length := by
  cases text with
  | nil =>
    rw [finish_eq_ok h]
    exact ⟨rfl, Nat.le_refl _⟩
  | cons mark more =>
    rw [skipExponent_cons]
    rw [readExponent_cons] at h
    split at h
    . next hmark =>
      obtain ⟨hdigits, hrest⟩ := skip_of_readShift h
      rw [if_pos hmark, hdigits, hrest]
      refine ⟨rfl, ?_⟩
      have hsign := length_sign more
      have hdrop := (List.dropWhile_suffix Char.isDigit (l := (sign more).2)).length_le
      rw [List.length_cons]
      omega
    . next hmark =>
      rw [if_neg hmark, finish_eq_ok h]
      exact ⟨rfl, Nat.le_refl _⟩

def skipRest : List Char → Except Fault (List Char)
  | '.' :: rest =>
    if (rest.takeWhile Char.isDigit).isEmpty then
      .error .invalidNumber
    else
      skip.skipExponent (rest.dropWhile Char.isDigit)
  | rest => skip.skipExponent rest

theorem skip_eq (text : List Char)
    : skip text
        =
      match text.takeWhile Char.isDigit with
      | [] => .error .invalidNumber
      | first :: more =>
        if first = '0' && !more.isEmpty then
          .error .invalidNumber
        else
          skipRest (text.dropWhile Char.isDigit) := rfl

theorem skipRest_cons {mark : Char} (hmark : mark ≠ '.') (rest : List Char)
    : skipRest (mark :: rest) = skip.skipExponent (mark :: rest) := by
  unfold skipRest
  split
  . next heq =>
    injection heq with heq
    exact absurd heq hmark
  . rfl

theorem skip_of_readRest {negative : Bool} {word : Nat} {left : List Char} {n : Number}
    (h : readRest negative word left text = .ok (n, rest))
    : skipRest text = .ok rest ∧ rest.length ≤ text.length := by
  cases text with
  | nil =>
    unfold readRest at h
    dsimp only at h
    split at h
    . cases h
      exact ⟨rfl, Nat.le_refl _⟩
    . exact skip_of_readExponent h
  | cons mark more =>
    by_cases hpoint : mark = '.'
    . subst hpoint
      have h : readFraction negative word left.length more = .ok (n, rest) := h
      unfold readFraction at h
      dsimp only at h
      split at h
      . cases h
      . next hdigits =>
        obtain ⟨hskip, hlength⟩ := skip_of_readExponent h
        have hdrop := (List.dropWhile_suffix Char.isDigit (l := more)).length_le
        refine ⟨?_, ?_⟩
        . change (if (more.takeWhile Char.isDigit).isEmpty then _ else _) = _
          rw [if_neg hdigits]
          exact hskip
        . rw [List.length_cons]
          omega
    . rw [skipRest_cons hpoint]
      rw [readRest_cons hpoint] at h
      split at h
      . exact skip_of_readExponent h
      . next hmark =>
        cases h
        rw [skipExponent_cons, if_neg]
        . exact ⟨rfl, Nat.le_refl _⟩
        . intro hexponent
          simp [hexponent] at hmark

theorem skip_of_read {negative : Bool} {n : Number} (h : read negative text = .ok (n, rest))
    : skip text = .ok rest ∧ rest.length < text.length := by
  have hlength :=
    congrArg List.length (List.takeWhile_append_dropWhile (p := Char.isDigit) (l := text))
  rw [List.length_append] at hlength
  rw [read_eq] at h
  rw [skip_eq]
  cases hdigits : text.takeWhile Char.isDigit with
  | nil =>
    rw [hdigits] at h
    cases h
  | cons first more =>
    rw [hdigits] at h
    dsimp only at h ⊢
    split at h
    . cases h
    . next hleading =>
      obtain ⟨hskip, hrest⟩ := skip_of_readRest h
      rw [hdigits, List.length_cons] at hlength
      rw [if_neg hleading]
      exact ⟨hskip, by omega⟩

end Number

namespace Reader

section Strings

theorem length_hexQuad {n : Nat} (h : hexQuad text = .ok (n, rest))
    : rest.length < text.length := by
  obtain ⟨a, b, c, d, rfl⟩ := hexQuad_eq_ok h
  simp only [List.length_cons]
  omega

theorem unicodeEscape_cases {c : Char} (h : unicodeEscape text = .ok (c, rest))
    : ∃ n behind, hexQuad text = .ok (n, behind) ∧
        (behind = rest ∨ ∃ m last, behind = '\\' :: 'u' :: last ∧
          hexQuad last = .ok (m, rest)) := by
  unfold unicodeEscape at h
  cases hquad : hexQuad text with
  | error fault =>
    rw [hquad] at h
    cases h
  | ok read =>
    obtain ⟨n, behind⟩ := read
    refine ⟨n, behind, rfl, ?_⟩
    rw [hquad] at h
    simp only [ok_bind] at h
    split at h
    . cases h
    . next hlow =>
      split at h
      . next hhigh =>
        split at h
        . cases h
        . cases h
        . next last =>
          cases hpair : hexQuad last with
          | error fault =>
            rw [hpair] at h
            cases h
          | ok read =>
            obtain ⟨m, behind⟩ := read
            rw [hpair] at h
            simp only [ok_bind] at h
            split at h
            . cases h
            . rw [pure_eq_ok, Except.ok.injEq, Prod.mk.injEq] at h
              rw [h.2] at hpair
              exact Or.inr ⟨m, last, rfl, hpair⟩
        . cases h
      . rw [pure_eq_ok, Except.ok.injEq, Prod.mk.injEq] at h
        exact Or.inl h.2

/--
Whether an escape, after its backslash, is passed over as one escape or, if it stands for a pair, as
two.
-/
def PassesEscape (text rest : List Char) : Prop :=
  (∃ c, skipEscape text = .ok (c, rest)) ∨
    ∃ c d behind, skipEscape text = .ok (c, '\\' :: behind) ∧ skipEscape behind = .ok (d, rest)

theorem skipEscape_of_ne {mark : Char} (hmark : mark ≠ 'u') (text : List Char)
    : skipEscape (mark :: text) = escape (mark :: text) := by
  unfold skipEscape
  split
  . next heq =>
    injection heq with heq
    exact absurd heq hmark
  . rfl

theorem passes_escape {c : Char} (h : escape text = .ok (c, rest)) : PassesEscape text rest := by
  cases text with
  | nil => cases h
  | cons mark text =>
    by_cases hmark : mark = 'u'
    . subst hmark
      have h : unicodeEscape text = .ok (c, rest) := h
      obtain ⟨n, behind, hquad, rfl | ⟨m, last, rfl, hpair⟩⟩ := unicodeEscape_cases h
      . refine Or.inl ⟨'u', ?_⟩
        rw [skipEscape, hquad]
        rfl
      . refine Or.inr ⟨'u', 'u', 'u' :: last, ?_, ?_⟩
        . rw [skipEscape, hquad]
          rfl
        . rw [skipEscape, hpair]
          rfl
    . refine Or.inl ⟨c, ?_⟩
      rw [skipEscape_of_ne hmark, h]

theorem length_skipEscape {c : Char} (h : skipEscape text = .ok (c, rest))
    : rest.length < text.length := by
  cases text with
  | nil => cases h
  | cons mark text =>
    rw [List.length_cons]
    by_cases hmark : mark = 'u'
    . subst hmark
      rw [skipEscape] at h
      cases hquad : hexQuad text with
      | error fault =>
        rw [hquad] at h
        cases h
      | ok read =>
        rw [hquad] at h
        cases h
        have hlength := length_hexQuad hquad
        omega
    . rw [skipEscape_of_ne hmark, escape_cons, if_neg hmark] at h
      split at h
      . cases h
        omega
      . cases h

theorem skip_stringBody_go {fuel : Nat} {seen : List Char}
    {s : String} (h : stringBody.go escape fuel seen text = .ok (s, rest)) {fuel' : Nat}
    (hfuel : text.length < fuel') (seen' : List Char)
    : (∃ s', stringBody.go skipEscape fuel' seen' text = .ok (s', rest)) ∧
        rest.length < text.length := by
  induction fuel generalizing fuel' seen seen' text with
  | zero => cases h
  | succ fuel ih =>
    obtain ⟨fuel', rfl⟩ := Nat.exists_eq_add_of_lt hfuel
    cases text with
    | nil => cases h
    | cons c text =>
      rw [List.length_cons] at hfuel ⊢
      simp only [stringBody.go] at h ⊢
      split at h
      . next hquote =>
        rw [if_pos hquote]
        cases h
        exact ⟨⟨_, rfl⟩, Nat.lt_succ_self _⟩
      . next hquote =>
        rw [if_neg hquote]
        split at h
        . next hslash =>
          rw [if_pos hslash]
          split at h
          . next d behind hescape =>
            rcases passes_escape hescape with ⟨e, hone⟩ | ⟨e, f, last, hfirst, hsecond⟩
            . have hlength := length_skipEscape hone
              obtain ⟨hgo, hrest⟩ :=
                ih h (show behind.length < text.length + 1 + fuel' by omega) (e :: seen')
              rw [hone]
              exact ⟨hgo, by omega⟩
            . have hlength := length_skipEscape hfirst
              have hlength' := length_skipEscape hsecond
              rw [List.length_cons] at hlength
              obtain ⟨hgo, hrest⟩ :=
                ih h (show behind.length < text.length + fuel' by omega) (f :: e :: seen')
              have hfuel : text.length + 1 + fuel' = text.length + fuel' + 1 := by omega
              rw [hfirst, hfuel]
              refine ⟨?_, by omega⟩
              simp only [stringBody.go, if_neg (show '\\' ≠ '"' by decide), if_true, hsecond]
              exact hgo
          . cases h
        . next hslash =>
          rw [if_neg hslash]
          split at h
          . cases h
          . next hcontrol =>
            rw [if_neg hcontrol]
            obtain ⟨hgo, hrest⟩ :=
              ih h (show text.length < text.length + 1 + fuel' by omega) (c :: seen')
            exact ⟨hgo, by omega⟩

theorem skip_quotedString {s : String} (h : StateT.run quotedString ('"' :: text) = .ok (s, rest))
    : (∃ s', stringBody skipEscape text = .ok (s', rest)) ∧ rest.length < text.length := by
  have h : stringBody escape text = .ok (s, rest) := h
  unfold stringBody at h
  exact skip_stringBody_go h (Nat.lt_succ_self _) []

end Strings

section Passes

variable {α σ : Type}

theorem run_word {letters : List Char} (h : StateT.run (word letters) text = .ok ((), rest))
    : text = letters ++ rest := by
  induction letters generalizing text with
  | nil =>
    cases h
    rfl
  | cons c letters ih =>
    unfold word at h
    cases text with
    | nil => cases h
    | cons d text =>
      by_cases hd : d = c
      . subst hd
        simp only [StateT.run_bind, run_peek, ok_bind, if_true, run_advance] at h
        rw [ih h, List.cons_append]
      . simp [StateT.run_bind, hd] at h

theorem ok_of_bind {reader : Reader α} {β : Type} {f : α → Reader β} {b : β}
    (h : StateT.run (reader >>= f) text = .ok (b, rest))
    : ∃ a behind, StateT.run reader text = .ok (a, behind) ∧
        StateT.run (f a) behind = .ok (b, rest) := by
  rw [StateT.run_bind] at h
  cases hreader : StateT.run reader text with
  | error fault =>
    rw [hreader] at h
    cases h
  | ok ended =>
    rw [hreader] at h
    exact ⟨ended.1, ended.2, rfl, h⟩

/--
Whether a value at the start of a text is passed over, inside of any brackets. There are two rounds
for each character.
-/
def Passes (text rest : List Char) : Prop :=
  rest.length < text.length ∧ ∀ opened fuel, 2 * text.length ≤ fuel →
    ∃ fuel', 2 * rest.length ≤ fuel' ∧
      StateT.run (skip.go fuel opened) text = StateT.run (skip.close fuel' opened) rest

theorem length_dropWhile_isBlank (text : List Char)
    : (text.dropWhile isBlank).length ≤ text.length := by
  exact (List.dropWhile_suffix isBlank).length_le

theorem passes_of_start {c : Char} {more : List Char} (hdrop : text.dropWhile isBlank = c :: more)
    (hlength : rest.length ≤ more.length)
    (h : ∀ opened fuel, 2 * more.length + 1 ≤ fuel →
      ∃ fuel', 2 * rest.length ≤ fuel' ∧
        StateT.run (skip.go (fuel + 1) opened) (c :: more)
          = StateT.run (skip.close fuel' opened) rest)
    : Passes text rest := by
  have hstart := length_dropWhile_isBlank text
  rw [hdrop, List.length_cons] at hstart
  refine ⟨by omega, ?_⟩
  intro opened fuel hfuel
  obtain ⟨fuel, rfl⟩ : ∃ k, fuel = k + 1 := ⟨fuel - 1, by omega⟩
  obtain ⟨fuel', hfuel', hgo⟩ := h opened fuel (by omega)
  refine ⟨fuel', hfuel', ?_⟩
  have hidem : (c :: more).dropWhile isBlank = c :: more := by
    rw [← hdrop, List.dropWhile_idempotent]
  rw [← hgo]
  unfold skip.go
  rw [run_peekToken_bind, run_peekToken_bind, hdrop, hidem]

-- A scalar takes one round, and what is left is shorter.
theorem passes_of_scalar {c : Char} {more : List Char} (hdrop : text.dropWhile isBlank = c :: more)
    (hlength : rest.length ≤ more.length)
    (h : ∀ opened fuel, StateT.run (skip.go (fuel + 1) opened) (c :: more)
      = StateT.run (skip.close fuel opened) rest) : Passes text rest := by
  apply passes_of_start hdrop hlength
  intro opened fuel hfuel
  exact ⟨fuel, by omega, h opened fuel⟩

theorem passes_word {c : Char} {letters more : List Char}
    (hdrop : text.dropWhile isBlank = c :: more)
    (hword : StateT.run (word (c :: letters)) (c :: more) = .ok ((), rest))
    (hgo : ∀ fuel opened,
      StateT.run (skip.go (fuel + 1) opened) (c :: more)
        = StateT.run (do word (c :: letters); skip.close fuel opened) (c :: more))
    : Passes text rest := by
  have hmore := run_word hword
  rw [List.cons_append, List.cons.injEq] at hmore
  apply passes_of_scalar hdrop
  . rw [hmore.2, List.length_append]
    omega
  . intro opened fuel
    rw [hgo, StateT.run_bind, hword]
    rfl

theorem run_go_list (fuel : Nat) (opened : List Bracket) (more : List Char)
    : StateT.run (skip.go (fuel + 1) opened) ('[' :: more)
        =
      StateT.run (do
        if (← peekToken) = some ']' then
          advance
          skip.close fuel opened
        else
          skip.into fuel .list opened) more := rfl

theorem passes_of_dropWhile (h : Passes (text.dropWhile isBlank) rest) : Passes text rest := by
  obtain ⟨hlength, hgo⟩ := h
  have hdrop := length_dropWhile_isBlank text
  refine ⟨by omega, ?_⟩
  intro opened fuel hfuel
  obtain ⟨fuel', hfuel', hrun⟩ := hgo opened fuel (by omega)
  refine ⟨fuel', hfuel', ?_⟩
  rw [← hrun]
  obtain ⟨fuel, rfl⟩ : ∃ k, fuel = k + 1 := ⟨fuel - 1, by omega⟩
  unfold skip.go
  rw [run_peekToken_bind, run_peekToken_bind, List.dropWhile_idempotent]

/--
Whether a bracket is closed behind what is left of its items or members.
-/
def Shuts (bracket : Bracket) (text rest : List Char) : Prop :=
  rest.length < text.length ∧ ∀ opened fuel, 2 * text.length ≤ fuel →
    ∃ fuel', 2 * rest.length ≤ fuel' ∧
      StateT.run (skip.close fuel (bracket :: opened)) text
        = StateT.run (skip.close fuel' opened) rest

section Items

theorem anotherItem_cases {first more : Bool}
    (h : StateT.run (anotherItem first) text = .ok (more, rest))
    : (more = false ∧ text.dropWhile isBlank = rest ∧ ∃ last, rest = ']' :: last) ∨
        (more = true ∧ first = true ∧ text.dropWhile isBlank = rest ∧ ∃ c last,
          rest = c :: last ∧ c ≠ ']') ∨
        (more = true ∧ first = false ∧ ∃ behind, text.dropWhile isBlank = ',' :: behind ∧
          rest = behind.dropWhile isBlank) := by
  unfold anotherItem at h
  rw [run_peekToken_bind] at h
  cases hdrop : text.dropWhile isBlank with
  | nil =>
    rw [hdrop] at h
    cases h
  | cons c behind =>
    rw [hdrop] at h
    by_cases hc : c = ']'
    . subst hc
      cases h
      exact Or.inl ⟨rfl, rfl, _, rfl⟩
    . simp only [List.head?_cons] at h
      cases first with
      | true =>
        cases h
        exact Or.inr (Or.inl ⟨rfl, rfl, rfl, c, behind, rfl, hc⟩)
      | false =>
        simp only [Bool.false_eq_true, if_false] at h
        split at h
        . next hcomma =>
          subst hcomma
          rw [StateT.run_bind, run_advance, ok_bind, run_peekToken_bind] at h
          split at h
          . cases h
          . cases h
            exact Or.inr (Or.inr ⟨rfl, rfl, behind, rfl, rfl⟩)
          . cases h
        . cases h

theorem run_close_list {last : List Char} (hdrop : text.dropWhile isBlank = ']' :: last)
    (fuel : Nat) (opened : List Bracket)
    : StateT.run (skip.close (fuel + 1) (.list :: opened)) text
        =
      StateT.run (skip.close fuel opened) last := by
  conv_lhs => unfold skip.close
  rw [run_peekToken_bind, hdrop]
  rfl

theorem run_close_item {more : List Char} (hdrop : text.dropWhile isBlank = ',' :: more)
    (fuel : Nat) (opened : List Bracket)
    : StateT.run (skip.close (fuel + 1) (.list :: opened)) text
        =
      StateT.run (skip.go fuel (.list :: opened)) more := by
  conv_lhs => unfold skip.close
  rw [run_peekToken_bind, hdrop]
  rfl

theorem shuts_items {item : Reader α}
    (hitem : ∀ text x rest, StateT.run item text = .ok (x, rest) → Passes text rest) {fuel : Nat}
    {xs : List α} (h : StateT.run (items.go item fuel false) text = .ok (xs, rest))
    : ∃ last, rest = ']' :: last ∧ Shuts .list text last := by
  induction fuel generalizing text xs with
  | zero => cases h
  | succ fuel ih =>
    have hstart := length_dropWhile_isBlank text
    obtain ⟨more, behind, hanother, h⟩ := ok_of_bind h
    rcases anotherItem_cases hanother with
        ⟨rfl, hdrop, last, rfl⟩ | ⟨rfl, hfalse, _⟩ | ⟨rfl, _, left, hdrop, rfl⟩
    . cases h
      rw [hdrop, List.length_cons] at hstart
      refine ⟨last, rfl, by omega, ?_⟩
      intro opened limit hlimit
      obtain ⟨limit, rfl⟩ : ∃ k, limit = k + 1 := ⟨limit - 1, by omega⟩
      exact ⟨limit, by omega, run_close_list hdrop limit opened⟩
    . cases hfalse
    . obtain ⟨x, behind, hx, h⟩ := ok_of_bind h
      obtain ⟨ys, after, hys, h⟩ := ok_of_bind h
      cases h
      obtain ⟨last, rfl, hlength, hclose⟩ := ih hys
      obtain ⟨hbehind, hgo⟩ := passes_of_dropWhile (hitem _ _ _ hx)
      rw [hdrop, List.length_cons] at hstart
      refine ⟨last, rfl, by omega, ?_⟩
      intro opened limit hlimit
      obtain ⟨limit, rfl⟩ : ∃ k, limit = k + 1 := ⟨limit - 1, by omega⟩
      obtain ⟨limit', hlimit', hrun⟩ := hgo (.list :: opened) limit (by omega)
      obtain ⟨limit'', hlimit'', hrun'⟩ := hclose opened limit' hlimit'
      refine ⟨limit'', hlimit'', ?_⟩
      rw [← hrun', ← hrun]
      exact run_close_item hdrop limit opened

@[simp]
theorem run_closeList : StateT.run closeList (']' :: rest) = .ok ((), rest) := by
  simp [closeList, run_peekToken (c := ']') (by decide)]

theorem run_go_empty {more last : List Char} (hmore : more.dropWhile isBlank = ']' :: last)
    (fuel : Nat) (opened : List Bracket)
    : StateT.run (skip.go (fuel + 1) opened) ('[' :: more)
        =
      StateT.run (skip.close fuel opened) last := by
  rw [run_go_list, run_peekToken_bind, hmore]
  rfl

theorem run_go_items {c : Char} {more last : List Char} (hmore : more.dropWhile isBlank = c :: last)
    (hc : c ≠ ']') (fuel : Nat) (opened : List Bracket)
    : StateT.run (skip.go (fuel + 2) opened) ('[' :: more)
        =
      StateT.run (skip.go fuel (.list :: opened)) (c :: last) := by
  have hidem : (c :: last).dropWhile isBlank = c :: last := by
    rw [← hmore, List.dropWhile_idempotent]
  have hsome : some c ≠ some ']' := by
    simpa using hc
  rw [run_go_list, run_peekToken_bind, hmore, List.head?_cons, if_neg hsome]
  conv_lhs => unfold skip.into
  rw [run_peekToken_bind, hidem]
  rfl

theorem passes_array {item : Reader α}
    (hitem : ∀ text x rest, StateT.run item text = .ok (x, rest) → Passes text rest)
    {more behind : List Char} {xs : List α} (hdrop : text.dropWhile isBlank = '[' :: more)
    (hitems : StateT.run (items item) more = .ok (xs, behind))
    (hclose : StateT.run closeList behind = .ok ((), rest)) : Passes text rest := by
  have hitems : StateT.run (items.go item (more.length + 1) true) more = .ok (xs, behind) := hitems
  obtain ⟨another, start, hanother, hrest⟩ := ok_of_bind hitems
  have hstart := length_dropWhile_isBlank more
  rcases anotherItem_cases hanother with
      ⟨rfl, hmore, last, rfl⟩ | ⟨rfl, _, hmore, c, last, rfl, hc⟩ | ⟨_, hfalse, _⟩
  . cases hrest
    rw [run_closeList] at hclose
    cases hclose
    rw [hmore, List.length_cons] at hstart
    exact passes_of_scalar hdrop (by omega) fun opened fuel => run_go_empty hmore fuel opened
  . obtain ⟨x, after, hx, hrest⟩ := ok_of_bind hrest
    obtain ⟨zs, last', hzs, hrest⟩ := ok_of_bind hrest
    cases hrest
    obtain ⟨final, rfl, hlength, hshut⟩ := shuts_items hitem hzs
    rw [run_closeList] at hclose
    cases hclose
    obtain ⟨hafter, hgo⟩ := hitem _ _ _ hx
    rw [hmore] at hstart
    apply passes_of_start hdrop (by omega)
    intro opened fuel hfuel
    obtain ⟨fuel, rfl⟩ : ∃ k, fuel = k + 1 := ⟨fuel - 1, by omega⟩
    obtain ⟨fuel', hfuel', hrun⟩ := hgo (.list :: opened) fuel (by omega)
    obtain ⟨fuel'', hfuel'', hrun'⟩ := hshut opened fuel' hfuel'
    refine ⟨fuel'', hfuel'', ?_⟩
    rw [← hrun', ← hrun]
    exact run_go_items hmore hc fuel opened
  . cases hfalse

end Items

section Members

theorem anotherMember_cases {first more : Bool}
    (h : StateT.run (anotherMember first) text = .ok (more, rest))
    : (more = false ∧ text.dropWhile isBlank = rest ∧ ∃ last, rest = '\x7d' :: last) ∨
        (more = true ∧ first = true ∧ text.dropWhile isBlank = rest ∧ ∃ last, rest = '"' :: last) ∨
        (more = true ∧ first = false ∧ ∃ behind, text.dropWhile isBlank = ',' :: behind ∧
          rest = behind.dropWhile isBlank ∧ ∃ last, rest = '"' :: last) := by
  unfold anotherMember at h
  rw [run_peekToken_bind] at h
  cases hdrop : text.dropWhile isBlank with
  | nil =>
    rw [hdrop] at h
    cases h
  | cons c behind =>
    rw [hdrop] at h
    by_cases hc : c = '\x7d'
    . subst hc
      cases h
      exact Or.inl ⟨rfl, rfl, _, rfl⟩
    . simp only [List.head?_cons] at h
      cases first with
      | true =>
        simp only [if_true] at h
        split at h
        . next hquote =>
          subst hquote
          cases h
          exact Or.inr (Or.inl ⟨rfl, rfl, rfl, behind, rfl⟩)
        . cases h
      | false =>
        simp only [Bool.false_eq_true, if_false] at h
        split at h
        . next hcomma =>
          subst hcomma
          rw [StateT.run_bind, run_advance, ok_bind, run_peekToken_bind] at h
          split at h
          . next hquote =>
            cases h
            obtain ⟨last, hlast⟩ := List.head?_eq_some_iff.mp hquote
            exact Or.inr (Or.inr ⟨rfl, rfl, behind, rfl, rfl, last, hlast⟩)
          . cases h
          . cases h
          . cases h
        . cases h

theorem colon_eq_ok (h : StateT.run colon text = .ok ((), rest))
    : text.dropWhile isBlank = ':' :: rest := by
  unfold colon at h
  rw [run_peekToken_bind] at h
  cases hdrop : text.dropWhile isBlank with
  | nil =>
    rw [hdrop] at h
    cases h
  | cons c behind =>
    rw [hdrop] at h
    by_cases hc : c = ':'
    . subst hc
      cases h
      rfl
    . simp only [List.head?_cons] at h
      cases h

theorem run_close_object {last : List Char} (hdrop : text.dropWhile isBlank = '\x7d' :: last)
    (fuel : Nat) (opened : List Bracket)
    : StateT.run (skip.close (fuel + 1) (.object :: opened)) text
        =
      StateT.run (skip.close fuel opened) last := by
  conv_lhs => unfold skip.close
  rw [run_peekToken_bind, hdrop]
  rfl

theorem run_close_member {more : List Char} (hdrop : text.dropWhile isBlank = ',' :: more)
    (fuel : Nat) (opened : List Bracket)
    : StateT.run (skip.close (fuel + 1) (.object :: opened)) text
        =
      StateT.run (skip.into fuel .object opened) more := by
  conv_lhs => unfold skip.close
  rw [run_peekToken_bind, hdrop]
  rfl

theorem run_into_member {last : List Char} {name : String} {behind after : List Char}
    (hdrop : text.dropWhile isBlank = '"' :: last)
    (hname : stringBody skipEscape last = .ok (name, behind))
    (hcolon : StateT.run colon behind = .ok ((), after)) (fuel : Nat) (opened : List Bracket)
    : StateT.run (skip.into (fuel + 1) .object opened) text
        =
      StateT.run (skip.go fuel (.object :: opened)) after := by
  conv_lhs => unfold skip.into
  rw [run_peekToken_bind, hdrop]
  simp [hname, hcolon]

variable {item : Reader Json}

theorem passes_member
    (hitem : ∀ text x rest, StateT.run item text = .ok (x, rest) → Passes text rest)
    {last : List Char} {state final : List (String × Json)}
    (h : StateT.run (do let name ← quotedString; member item state name) ('"' :: last)
      = .ok (final, rest))
    : rest.length < last.length ∧ ∀ opened fuel, 2 * last.length ≤ fuel →
        ∃ fuel', 2 * rest.length ≤ fuel' ∧ ∀ text, text.dropWhile isBlank = '"' :: last →
          StateT.run (skip.into (fuel + 1) .object opened) text
            = StateT.run (skip.close fuel' (.object :: opened)) rest := by
  obtain ⟨name, behind, hname, h⟩ := ok_of_bind h
  obtain ⟨⟨name', hskip⟩, hbehind⟩ := skip_quotedString hname
  obtain ⟨_, after, hcolon, h⟩ := ok_of_bind h
  obtain ⟨x, end', hx, h⟩ := ok_of_bind h
  cases h
  obtain ⟨hlength, hgo⟩ := hitem _ _ _ hx
  have hdrop := length_dropWhile_isBlank behind
  rw [colon_eq_ok hcolon, List.length_cons] at hdrop
  refine ⟨by omega, ?_⟩
  intro opened fuel hfuel
  obtain ⟨fuel', hfuel', hrun⟩ := hgo (.object :: opened) fuel (by omega)
  refine ⟨fuel', hfuel', ?_⟩
  intro text htext
  rw [← hrun]
  exact run_into_member htext hskip hcolon fuel opened

theorem shuts_members
    (hitem : ∀ text x rest, StateT.run item text = .ok (x, rest) → Passes text rest) {fuel : Nat}
    {state final : List (String × Json)}
    (h : StateT.run (members.go quotedString (member item) fuel false state) text
      = .ok (final, rest))
    : ∃ last, rest = '\x7d' :: last ∧ Shuts .object text last := by
  induction fuel generalizing text state with
  | zero => cases h
  | succ fuel ih =>
    have hstart := length_dropWhile_isBlank text
    obtain ⟨more, behind, hanother, h⟩ := ok_of_bind h
    rcases anotherMember_cases hanother with
      ⟨rfl, hdrop, last, rfl⟩ | ⟨rfl, hfalse, _⟩ | ⟨rfl, _, left, hdrop, hleft, last, rfl⟩
    . cases h
      rw [hdrop, List.length_cons] at hstart
      refine ⟨last, rfl, by omega, ?_⟩
      intro opened limit hlimit
      obtain ⟨limit, rfl⟩ : ∃ k, limit = k + 1 := ⟨limit - 1, by omega⟩
      exact ⟨limit, by omega, run_close_object hdrop limit opened⟩
    . cases hfalse
    . obtain ⟨name, behind, hname, h⟩ := ok_of_bind h
      obtain ⟨found, after, hmember, h⟩ := ok_of_bind h
      have hname : StateT.run (do let name ← quotedString; member item state name) ('"' :: last)
          = .ok (found, after) := by
        rw [StateT.run_bind, hname]
        exact hmember
      obtain ⟨hafter, hinto⟩ := passes_member hitem hname
      obtain ⟨end', rfl, hlength, hshut⟩ := ih h
      have hleft' := length_dropWhile_isBlank left
      rw [← hleft, List.length_cons] at hleft'
      rw [hdrop, List.length_cons] at hstart
      refine ⟨end', rfl, by omega, ?_⟩
      intro opened limit hlimit
      obtain ⟨limit, rfl⟩ : ∃ k, limit = k + 1 + 1 := ⟨limit - 2, by omega⟩
      obtain ⟨limit', hlimit', hrun⟩ := hinto opened limit (by omega)
      obtain ⟨limit'', hlimit'', hrun'⟩ := hshut opened limit' hlimit'
      refine ⟨limit'', hlimit'', ?_⟩
      rw [← hrun', ← hrun left hleft.symm]
      exact run_close_member hdrop (limit + 1) opened

theorem run_go_object (fuel : Nat) (opened : List Bracket) (more : List Char)
    : StateT.run (skip.go (fuel + 1) opened) ('\x7b' :: more)
        =
      StateT.run (do
        if (← peekToken) = some '\x7d' then
          advance
          skip.close fuel opened
        else
          skip.into fuel .object opened) more := rfl

theorem run_go_empty_object {more last : List Char}
    (hmore : more.dropWhile isBlank = '\x7d' :: last) (fuel : Nat) (opened : List Bracket)
    : StateT.run (skip.go (fuel + 1) opened) ('\x7b' :: more)
        =
      StateT.run (skip.close fuel opened) last := by
  rw [run_go_object, run_peekToken_bind, hmore]
  rfl

theorem run_go_members {more last : List Char} (hmore : more.dropWhile isBlank = '"' :: last)
    (fuel : Nat) (opened : List Bracket)
    : StateT.run (skip.go (fuel + 1) opened) ('\x7b' :: more)
        =
      StateT.run (skip.into fuel .object opened) ('"' :: last) := by
  rw [run_go_object, run_peekToken_bind, hmore]
  rfl

theorem passes_object
    (hitem : ∀ text x rest, StateT.run item text = .ok (x, rest) → Passes text rest)
    {more behind : List Char} {found : List (String × Json)}
    (hdrop : text.dropWhile isBlank = '\x7b' :: more)
    (hmembers : StateT.run (members quotedString (member item) []) more = .ok (found, behind))
    (hclose : StateT.run closeObject behind = .ok ((), rest)) : Passes text rest := by
  have hmembers : StateT.run (members.go quotedString (member item) (more.length + 1) true []) more
      = .ok (found, behind) := hmembers
  obtain ⟨another, start, hanother, hrest⟩ := ok_of_bind hmembers
  have hstart := length_dropWhile_isBlank more
  rcases anotherMember_cases hanother with
    ⟨rfl, hmore, last, rfl⟩ | ⟨rfl, _, hmore, last, rfl⟩ | ⟨_, hfalse, _⟩
  . cases hrest
    rw [run_closeObject] at hclose
    cases hclose
    rw [hmore, List.length_cons] at hstart
    exact passes_of_scalar hdrop (by omega) fun opened fuel => run_go_empty_object hmore fuel opened
  . obtain ⟨name, behind, hname, hrest⟩ := ok_of_bind hrest
    obtain ⟨first, after, hmember, hrest⟩ := ok_of_bind hrest
    have hname : StateT.run (do let name ← quotedString; member item [] name) ('"' :: last)
        = .ok (first, after) := by
      rw [StateT.run_bind, hname]
      exact hmember
    obtain ⟨hafter, hinto⟩ := passes_member hitem hname
    obtain ⟨final, rfl, hlength, hshut⟩ := shuts_members hitem hrest
    rw [run_closeObject] at hclose
    cases hclose
    rw [hmore, List.length_cons] at hstart
    apply passes_of_start hdrop (by omega)
    intro opened fuel hfuel
    obtain ⟨fuel, rfl⟩ : ∃ k, fuel = k + 1 := ⟨fuel - 1, by omega⟩
    obtain ⟨fuel', hfuel', hrun⟩ := hinto opened fuel (by omega)
    obtain ⟨fuel'', hfuel'', hrun'⟩ := hshut opened fuel' hfuel'
    refine ⟨fuel'', hfuel'', ?_⟩
    have hidem : ('"' :: last).dropWhile isBlank = '"' :: last := by
      rw [← hmore, List.dropWhile_idempotent]
    rw [← hrun', ← hrun _ hidem]
    exact run_go_members hmore (fuel + 1) opened
  . cases hfalse

end Members

section Scalars

theorem passes_string {s : String} {more : List Char} (hdrop : text.dropWhile isBlank = '"' :: more)
    (h : StateT.run quotedString ('"' :: more) = .ok (s, rest)) : Passes text rest := by
  obtain ⟨⟨s', hskip⟩, hlength⟩ := skip_quotedString h
  apply passes_of_scalar hdrop (by omega)
  intro opened fuel
  have hgo : StateT.run (skip.go (fuel + 1) opened) ('"' :: more)
      = StateT.run (do let _ ← scan (stringBody skipEscape); skip.close fuel opened) more := rfl
  rw [hgo, StateT.run_bind, run_scan, hskip]
  rfl

def digits : Reader Unit :=
  scan fun text => (Number.skip text).map fun rest => ((), rest)

theorem run_digits (h : Number.skip text = .ok rest) : StateT.run digits text = .ok ((), rest) := by
  unfold digits
  rw [run_scan, h]
  rfl

theorem run_go_digit {c : Char} (hc : c.isDigit = true) (more : List Char) (fuel : Nat)
    (opened : List Bracket)
    : StateT.run (skip.go (fuel + 1) opened) (c :: more)
        =
      StateT.run (do digits; skip.close fuel opened) (c :: more) := by
  have hblank : isBlank c = false := startsNumber_blank (by simp [startsNumber, hc])
  have hminus : c ≠ '-' := by
    rintro rfl
    cases hc
  have hdrop : (c :: more).dropWhile isBlank = c :: more := by
    rw [List.dropWhile_cons, hblank]
    rfl
  unfold skip.go
  rw [run_peekToken_bind, hdrop, List.head?_cons]
  split
  . next heq => cases heq
  iterate 6
    . next heq =>
      cases heq
      cases hc
  . next heq =>
    cases heq
    rw [if_neg hminus, if_pos hc]
    rfl

theorem passes_number {c : Char} {more : List Char}
    {n : Number} (hdrop : text.dropWhile isBlank = c :: more) (hc : startsNumber c = true)
    (h : StateT.run signedNumber (c :: more) = .ok (n, rest)) : Passes text rest := by
  unfold signedNumber at h
  rw [StateT.run_bind, run_peek, ok_bind] at h
  dsimp only [List.head?_cons] at h
  by_cases hminus : c = '-'
  . subst hminus
    have h : Number.read true more = .ok (n, rest) := h
    obtain ⟨hskip, hlength⟩ := Number.skip_of_read h
    apply passes_of_scalar hdrop (by omega)
    intro opened fuel
    have hgo : StateT.run (skip.go (fuel + 1) opened) ('-' :: more)
        = StateT.run (do digits; skip.close fuel opened) more := rfl
    rw [hgo, StateT.run_bind, run_digits hskip]
    rfl
  . have hdigit : c.isDigit = true := by
      simpa [startsNumber, hminus] using hc
    have hsome : some c ≠ some '-' := by
      simpa using hminus
    rw [if_neg hsome] at h
    have h : Number.read false (c :: more) = .ok (n, rest) := h
    obtain ⟨hskip, hlength⟩ := Number.skip_of_read h
    rw [List.length_cons] at hlength
    apply passes_of_scalar hdrop (by omega)
    intro opened fuel
    rw [run_go_digit hdigit, StateT.run_bind, run_digits hskip]
    rfl

end Scalars

theorem passes_valueWith {inner : Option (Reader Json)}
    (hinner : ∀ reader ∈ inner, ∀ text x rest,
      StateT.run reader text = .ok (x, rest) → Passes text rest)
    {x : Json} (h : StateT.run (valueWith inner) text = .ok (x, rest))
    : Passes text rest := by
  unfold valueWith at h
  rw [run_peekToken_bind] at h
  cases hdrop : text.dropWhile isBlank with
  | nil =>
    rw [hdrop] at h
    cases h
  | cons c more =>
    rw [hdrop] at h
    simp only [List.head?_cons] at h
    split at h
    . cases h
    . next heq =>
      cases heq
      obtain ⟨_, _, hword, h⟩ := ok_of_bind h
      cases h
      exact passes_word hdrop hword fun _ _ => rfl
    . next heq =>
      cases heq
      obtain ⟨_, _, hword, h⟩ := ok_of_bind h
      cases h
      exact passes_word hdrop hword fun _ _ => rfl
    . next heq =>
      cases heq
      obtain ⟨_, _, hword, h⟩ := ok_of_bind h
      cases h
      exact passes_word hdrop hword fun _ _ => rfl
    . next heq =>
      cases heq
      obtain ⟨_, _, hstring, h⟩ := ok_of_bind h
      cases h
      exact passes_string hdrop hstring
    . next heq =>
      cases heq
      cases inner with
      | none => cases h
      | some item =>
        obtain ⟨_, _, hadvance, h⟩ := ok_of_bind h
        cases hadvance
        obtain ⟨xs, behind, hitems, h⟩ := ok_of_bind h
        obtain ⟨_, after, hclose, h⟩ := ok_of_bind h
        cases h
        exact passes_array (hinner item rfl) hdrop hitems hclose
    . next heq =>
      cases heq
      cases inner with
      | none => cases h
      | some item =>
        obtain ⟨_, _, hadvance, h⟩ := ok_of_bind h
        cases hadvance
        obtain ⟨found, behind, hmembers, h⟩ := ok_of_bind h
        obtain ⟨_, after, hclose, h⟩ := ok_of_bind h
        cases h
        exact passes_object (hinner item rfl) hdrop hmembers hclose
    . next heq =>
      cases heq
      split at h
      . next hc =>
        obtain ⟨n, behind, hnumber, h⟩ := ok_of_bind h
        have hrest : behind = rest := by
          cases n with
          | int n =>
            cases h
            rfl
          | real negative d =>
            cases h
            rfl
        rw [hrest] at hnumber
        exact passes_number hdrop hc hnumber
      . cases h

theorem passes_value {depth : Nat} {x : Json} (h : StateT.run (value depth) text = .ok (x, rest))
    : Passes text rest := by
  induction depth generalizing text x rest with
  | zero => exact passes_valueWith (by simp) h
  | succ depth ih =>
    apply passes_valueWith _ h
    intro reader hreader text x rest
    cases hreader
    exact ih

theorem run_skip_of_value {depth : Nat} {x : Json}
    (h : StateT.run (value depth) text = .ok (x, rest))
    : StateT.run skip text = .ok ((), rest) := by
  obtain ⟨hlength, hgo⟩ := passes_value h
  obtain ⟨fuel, hfuel, hrun⟩ := hgo [] (2 * (text.length + 1)) (by omega)
  have hskip : StateT.run skip text = StateT.run (skip.go (2 * (text.length + 1)) []) text := rfl
  rw [hskip, hrun]
  unfold skip.close
  rfl

end Passes

end Reader

end Json

end Parley
