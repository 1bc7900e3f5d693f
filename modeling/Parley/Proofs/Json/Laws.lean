import Parley.Proofs.Json.Layout

/-!
This module contains the laws of documents. Whatever is proved of states and assets rests on these
and on the rules for the members of objects: what is printed reads back, only numbers that are not
finite get lost, and a text is read in whichever layout it is written, as long as it is nested no
deeper than allowed.
-/

namespace Parley

namespace Json

open Reader

section Depth

/--
Lists in a list, the innermost of which holds no list.
-/
def lists : Nat → Json
  | 0 => .null
  | depth + 1 => .array [lists depth]

theorem characters_lists (depth : Nat)
    : ∃ c more, characters (lists depth) = c :: more ∧ (c = 'n' ∨ c = '[') := by
  cases depth with
  | zero => exact ⟨'n', _, rfl, Or.inl rfl⟩
  | succ depth => exact ⟨'[', _, rfl, Or.inr rfl⟩

theorem run_items_single {item : Reader Json}
    {c : Char} {more rest : List Char} {result : Except Fault Json} (hc : c = 'n' ∨ c = '[')
    (h : StateT.run item (c :: more) = result.map (·, ']' :: rest))
    : StateT.run (items item) (c :: more) = result.map ([·], ']' :: rest) := by
  have hanother : StateT.run (anotherItem true) (c :: more) = .ok (true, c :: more) := by
    rcases hc with rfl | rfl
    . rfl
    . rfl
  have hrounds : StateT.run (items item) (c :: more)
      = StateT.run (items.go item (more.length + 1 + 1) true) (c :: more) := rfl
  rw [hrounds, items.go, StateT.run_bind, hanother, ok_bind, if_pos rfl, StateT.run_bind, h]
  cases result with
  | error fault => rfl
  | ok j => rfl

theorem reads_lists (depth limit : Nat)
    : Reads (value limit) (characters (lists depth))
        (if depth ≤ limit then .ok (lists depth) else .error .tooDeep) := by
  induction depth generalizing limit with
  | zero =>
    intro rest _
    cases limit with
    | zero => rfl
    | succ limit => rfl
  | succ depth ih =>
    intro rest hrest
    obtain ⟨c, more, htext, hc⟩ := characters_lists depth
    have houter : characters (lists (depth + 1)) ++ rest = '[' :: c :: (more ++ ']' :: rest) := by
      simp [lists, characters, itemTexts, commaSeparated, htext]
    rw [houter]
    cases limit with
    | zero => rfl
    | succ limit =>
      have hinner := ih limit (']' :: rest) (by simp [Closes])
      rw [htext, List.cons_append] at hinner
      have hitems := run_items_single hc hinner
      change StateT.run (do
        let found ← items (value limit)
        closeList
        return Json.array found) (c :: (more ++ ']' :: rest)) = _
      rw [StateT.run_bind, hitems]
      by_cases hdepth : depth ≤ limit
      . rw [if_pos hdepth, if_pos (Nat.succ_le_succ hdepth)]
        rfl
      . rw [if_neg hdepth, if_neg (by omega)]
        rfl

end Depth

/--
What printing and reading documents have to do with each other.
-/
structure Laws : Prop where
  string (expected s : String) : Reads (Reader.string expected) (characters (.string s)) (.ok s)
  key (s : String) (rest : List Char)
    : StateT.run quotedString (stringText s ++ rest) = .ok (s, rest)
  count {n : Nat} (hn : n < Number.wordLimit) : Reads count (characters (.int n)) (.ok n)
  integer {n least greatest : Int} (hlow : -2 ^ 63 ≤ n) (hhigh : n < 2 ^ 64) (hleast : least ≤ n)
    (hgreatest : n ≤ greatest) (expected : String)
    : Reads (integer least greatest expected) (characters (.int n)) (.ok n)
  scalar (v : Value) : Reads scalar (characters (ofValue v)) (rereadValue v)
  /-- A value that cannot be read back is a number that is printed as null. -/
  finite (v : Value) : (rereadValue v).isOk = v.isFinite
  null {x : Float32} (hx : Single.isFinite x = false) : ofSingle x = .null
  nesting (depth limit : Nat)
    : Reads (value limit) (characters (lists depth))
        (if depth ≤ limit then .ok (lists depth) else .error .tooDeep)
  quoted {text : List Char} {s : String} (h : Quotes text s) (expected : String)
    : Takes (Reader.string expected) text s
  quotedValue {text : List Char} {s : String} (h : Quotes text s) (depth : Nat)
    : Takes (value depth) text (.string s)
  /-- What is read on its own is read in front of more text. -/
  accepted {depth : Nat} {text : List Char} {j : Json} (h : Accepts depth text j)
    : Takes (value depth) text j
  skipped {depth : Nat} {text : List Char} {j : Json} (h : Accepts depth text j)
    : Takes skip text ()

theorem laws : Laws where
  string := reads_string
  key s _ := run_quotedString s
  count := reads_count
  integer := reads_integer
  scalar := reads_value
  finite := isOk_rereadValue
  null := ofSingle_eq_null
  nesting := reads_lists
  quoted := takes_string
  quotedValue := takes_value_string
  accepted := Accepts.takes
  skipped := Accepts.takes_skip

end Json
end Parley
