import Parley.Json.Record
import Parley.Proofs.Json.Skip

/-!
This module contains the texts of strings and objects in whichever layout they are written:
characters of a string may stand as escapes, members of an object in any order, and blanks around
everything. The rules say what readers take from such texts.
-/

namespace Parley

namespace Json

open Reader

def Blank (text : List Char) : Prop :=
  ∀ c ∈ text, isBlank c = true

inductive Quad : List Char → Nat → Prop where
  | digits {a b c d : Char} {w x y z : Nat} (ha : hexDigit? a = some w) (hb : hexDigit? b = some x)
      (hc : hexDigit? c = some y) (hd : hexDigit? d = some z)
      : Quad [a, b, c, d] (w * 4096 + x * 256 + y * 16 + z)

/--
Whether the letters between two quotes spell characters. Every character may also be spelled by its
number; one beyond sixteen bits takes a pair of numbers.
-/
inductive Spells : List Char → List Char → Prop where
  | nil : Spells [] []
  | plain {c : Char} {letters chars : List Char} (hquote : c ≠ '"') (hslash : c ≠ '\\')
      (hcontrol : ¬c.toNat < 0x20) (h : Spells letters chars) : Spells (c :: letters) (c :: chars)
  | letter {mark c : Char} {letters chars : List Char} (hmark : letter? mark = some c)
      (h : Spells letters chars) : Spells ('\\' :: mark :: letters) (c :: chars)
  | number {quad letters chars : List Char} {n : Nat}
      (hquad : Quad quad n) (hn : n < 0xd800 ∨ 0xdfff < n) (h : Spells letters chars)
      : Spells ('\\' :: 'u' :: (quad ++ letters)) (Char.ofNat n :: chars)
  | pair {quad quad' letters chars : List Char} {n m : Nat} (hquad : Quad quad n)
      (hquad' : Quad quad' m) (hn : 0xd800 ≤ n ∧ n ≤ 0xdbff) (hm : 0xdc00 ≤ m ∧ m ≤ 0xdfff)
      (h : Spells letters chars)
      : Spells ('\\' :: 'u' :: (quad ++ '\\' :: 'u' :: (quad' ++ letters)))
          (Char.ofNat ((n - 0xd800) * 1024 + (m - 0xdc00) + 0x10000) :: chars)

/--
Whether a text is a string in quotes, with blanks around it.
-/
def Quotes (text : List Char) (s : String) : Prop :=
  ∃ before letters behind, Blank before ∧ Spells letters s.toList ∧ Blank behind ∧
    text = before ++ '"' :: (letters ++ '"' :: behind)

structure Entry where
  name : String
  label : List Char
  content : List Char
  quotes : Quotes label name

def Entry.text (e : Entry) : List Char :=
  e.label ++ ':' :: e.content

def contents (name : String) (entries : List Entry) : List (List Char) :=
  (entries.filter (·.name = name)).map (·.content)

/--
Whether a text is an object of members, with blanks around it.
-/
def Lays (text : List Char) (entries : List Entry) : Prop :=
  ∃ before behind, Blank before ∧ Blank behind ∧
    text = before ++ '\x7b' :: (commaSeparated (entries.map (·.text)) ++ '\x7d' :: behind)

/--
Whether a reader takes all of a text but blanks, whatever goes on behind it.
-/
def Takes {α : Type} (reader : Reader α) (text : List Char) (a : α) : Prop :=
  ∃ behind, Blank behind ∧ ∀ rest, Closes rest →
  StateT.run reader (text ++ rest) = .ok (a, behind ++ rest)

variable {α β σ : Type} {text rest : List Char}

section Blanks

theorem dropWhile_blank {before : List Char} (hbefore : Blank before) {c : Char}
    (hc : isBlank c = false)
    : (before ++ c :: rest).dropWhile isBlank = c :: rest := by
  rw [List.dropWhile_append_of_pos hbefore, List.dropWhile_cons, hc]
  rfl

theorem blank_of_dropWhile (h : (text.dropWhile isBlank).isEmpty = true) : Blank text := by
  rw [List.isEmpty_iff, List.dropWhile_eq_nil_iff] at h
  exact h

theorem run_colon_blank {before : List Char} (hbefore : Blank before)
    : StateT.run colon (before ++ ':' :: rest) = .ok ((), rest) := by
  unfold colon
  rw [run_peekToken_bind, dropWhile_blank hbefore (by decide)]
  rfl

theorem run_anotherMember_blank {before : List Char} (hbefore : Blank before)
    : StateT.run (anotherMember true) (before ++ '"' :: rest) = .ok (true, '"' :: rest) := by
  unfold anotherMember
  rw [run_peekToken_bind, dropWhile_blank hbefore (by decide)]
  rfl

theorem run_anotherMember_comma {before behind : List Char} (hbefore : Blank before)
    (hbehind : Blank behind)
    : StateT.run (anotherMember false) (behind ++ ',' :: (before ++ '"' :: rest))
        =
      .ok (true, '"' :: rest) := by
  unfold anotherMember
  rw [run_peekToken_bind, dropWhile_blank hbehind (by decide), List.head?_cons]
  change StateT.run (do advance; let c ← peekToken; _) _ = _
  rw [StateT.run_bind, run_advance, ok_bind, run_peekToken_bind,
    dropWhile_blank hbefore (by decide)]
  rfl

theorem run_anotherMember_end {behind : List Char} (hbehind : Blank behind) (first : Bool)
    : StateT.run (anotherMember first) (behind ++ '\x7d' :: rest)
        =
      .ok (false, '\x7d' :: rest) := by
  unfold anotherMember
  rw [run_peekToken_bind, dropWhile_blank hbehind (by decide)]
  rfl

end Blanks

section Strings

theorem hexQuad_quad {quad : List Char} {n : Nat} (h : Quad quad n)
    : hexQuad (quad ++ rest) = .ok (n, rest) := by
  cases h with
  | digits ha hb hc hd =>
    rename_i a b c d w x y z
    have hbytes : ¬(String.ofList [a, b, c, d]).utf8ByteSize < 4 := by
      have ha := a.utf8Size_pos
      have hb := b.utf8Size_pos
      have hc := c.utf8Size_pos
      have hd := d.utf8Size_pos
      simp
      omega
    simp only [List.cons_append, List.nil_append, hexQuad_cons, if_neg hbytes, ha, hb, hc, hd]

theorem unicodeEscape_number {quad : List Char} {n : Nat} (h : Quad quad n)
    (hn : n < 0xd800 ∨ 0xdfff < n)
    : unicodeEscape (quad ++ rest) = .ok (Char.ofNat n, rest) := by
  have hlow : ¬(0xdc00 ≤ n ∧ n ≤ 0xdfff) := by omega
  have hhigh : ¬(0xd800 ≤ n ∧ n ≤ 0xdbff) := by omega
  simp [unicodeEscape, hexQuad_quad h, hlow, hhigh]

theorem unicodeEscape_pair {quad quad' : List Char} {n m : Nat} (h : Quad quad n)
    (h' : Quad quad' m) (hn : 0xd800 ≤ n ∧ n ≤ 0xdbff) (hm : 0xdc00 ≤ m ∧ m ≤ 0xdfff)
    : unicodeEscape (quad ++ '\\' :: 'u' :: (quad' ++ rest))
        =
      .ok (Char.ofNat ((n - 0xd800) * 1024 + (m - 0xdc00) + 0x10000), rest) := by
  have hlow : ¬(0xdc00 ≤ n ∧ n ≤ 0xdfff) := by omega
  have hsecond : ¬(m < 0xdc00 ∨ 0xdfff < m) := by omega
  simp [unicodeEscape, hexQuad_quad h, hexQuad_quad h', hlow, hn, hsecond]

theorem stringBody_go_escape {behind : List Char} {c : Char}
    (h : Reader.escape text = .ok (c, behind)) (fuel : Nat) (seen : List Char)
    : stringBody.go Reader.escape (fuel + 1) seen ('\\' :: text)
        =
      stringBody.go Reader.escape fuel (c :: seen) behind := by
  simp only [stringBody.go, if_neg (show '\\' ≠ '"' by decide), if_true, h]

theorem stringBody_go_spells {letters chars : List Char} (h : Spells letters chars)
    (seen : List Char) {fuel : Nat} (hfuel : letters.length < fuel)
    : stringBody.go Reader.escape fuel seen (letters ++ '"' :: rest)
        =
      .ok (String.ofList (seen.reverse ++ chars), rest) := by
  -- One character is read in each round, which leaves the one before it in `seen`.
  have hnext : ∀ (seen chars : List Char) (c : Char),
      seen.reverse ++ c :: chars = (c :: seen).reverse ++ chars := by
    simp
  induction h generalizing seen fuel with
  | nil =>
    obtain ⟨fuel, rfl⟩ := Nat.exists_eq_add_of_lt hfuel
    simp [stringBody.go]
  | @plain c letters chars hquote hslash hcontrol _ ih =>
    obtain ⟨fuel, rfl⟩ : ∃ k, fuel = k + 1 := ⟨fuel - 1, by omega⟩
    rw [List.length_cons] at hfuel
    have hlength : letters.length < fuel := by omega
    rw [hnext, ← ih (c :: seen) hlength]
    simp only [List.cons_append, stringBody.go, if_neg hquote, if_neg hslash, if_neg hcontrol]
  | @letter mark c letters chars hmark _ ih =>
    obtain ⟨fuel, rfl⟩ : ∃ k, fuel = k + 1 := ⟨fuel - 1, by omega⟩
    simp only [List.length_cons] at hfuel
    have hlength : letters.length < fuel := by omega
    rw [hnext, ← ih (c :: seen) hlength]
    exact stringBody_go_escape (escape_letter hmark _) fuel seen
  | @number quad letters chars n hquad hn _ ih =>
    obtain ⟨fuel, rfl⟩ : ∃ k, fuel = k + 1 := ⟨fuel - 1, by omega⟩
    simp only [List.length_cons, List.length_append] at hfuel
    have hlength : letters.length < fuel := by omega
    rw [hnext, ← ih (Char.ofNat n :: seen) hlength]
    apply stringBody_go_escape
    change Reader.escape ('u' :: (quad ++ letters ++ '"' :: rest)) = _
    rw [List.append_assoc]
    exact unicodeEscape_number hquad hn
  | @pair quad quad' letters chars n m hquad hquad' hn hm _ ih =>
    obtain ⟨fuel, rfl⟩ : ∃ k, fuel = k + 1 := ⟨fuel - 1, by omega⟩
    simp only [List.length_cons, List.length_append] at hfuel
    have hlength : letters.length < fuel := by omega
    rw [hnext, ← ih _ hlength]
    apply stringBody_go_escape
    change Reader.escape ('u' :: (quad ++ '\\' :: 'u' :: (quad' ++ letters) ++ '"' :: rest)) = _
    rw [List.append_assoc, List.cons_append, List.cons_append, List.append_assoc]
    exact unicodeEscape_pair hquad hquad' hn hm

theorem run_quotedString_spells {letters : List Char} {s : String} (h : Spells letters s.toList)
    : StateT.run quotedString ('"' :: (letters ++ '"' :: rest)) = .ok (s, rest) := by
  have hbody : stringBody Reader.escape (letters ++ '"' :: rest) = .ok (s, rest) := by
    unfold stringBody
    rw [stringBody_go_spells h]
    . simp
    . rw [List.length_append]
      omega
  exact hbody

end Strings

section Plain

theorem quad_control {n : Nat} (hn : n < 0x20)
    : Quad ['0', '0', Nat.digitChar (n / 16), Nat.digitChar (n % 16)] n := by
  have hdigit : ∀ k < 16, hexDigit? (Nat.digitChar k) = some k := by decide
  have hquad : Quad ['0', '0', Nat.digitChar (n / 16), Nat.digitChar (n % 16)]
      (0 * 4096 + 0 * 256 + n / 16 * 16 + n % 16) :=
    .digits (by decide) (by decide) (hdigit _ (by omega)) (hdigit _ (by omega))
  have hn : 0 * 4096 + 0 * 256 + n / 16 * 16 + n % 16 = n := by omega
  rwa [hn] at hquad

theorem spells_escape {letters chars : List Char} (c : Char) (h : Spells letters chars)
    : Spells (Json.escape c ++ letters) (c :: chars) := by
  unfold Json.escape
  split
  . exact .letter rfl h
  . exact .letter rfl h
  . exact .letter rfl h
  . exact .letter rfl h
  . exact .letter rfl h
  . exact .letter rfl h
  . exact .letter rfl h
  . next hquote hslash _ _ _ _ _ =>
    split
    . next hcontrol =>
      have hnumber := Spells.number (quad_control hcontrol) (by omega) h
      rw [Char.ofNat_toNat] at hnumber
      exact hnumber
    . next hcontrol => exact .plain hquote hslash hcontrol h

theorem spells_flatMap_escape (chars : List Char) : Spells (chars.flatMap Json.escape) chars := by
  induction chars with
  | nil => exact .nil
  | cons c chars ih => exact spells_escape c ih

theorem quotes_stringText (s : String) : Quotes (stringText s) s := by
  refine ⟨[], s.toList.flatMap Json.escape, [], ?_, spells_flatMap_escape _, ?_, rfl⟩
  . simp [Blank]
  . simp [Blank]

def Entry.of (name : String) (content : List Char) : Entry :=
  ⟨name, stringText name, content, quotes_stringText name⟩

theorem lays_commaSeparated (entries : List Entry)
    : Lays ('\x7b' :: (commaSeparated (entries.map (·.text)) ++ ['\x7d'])) entries := by
  refine ⟨[], [], ?_, ?_, rfl⟩
  . simp [Blank]
  . simp [Blank]

end Plain

section Takes

theorem takes_string {s : String} (h : Quotes text s) (expected : String)
    : Takes (Reader.string expected) text s := by
  obtain ⟨before, letters, behind, hbefore, hspells, hbehind, rfl⟩ := h
  refine ⟨behind, hbehind, ?_⟩
  intro rest _
  have htext : before ++ '"' :: (letters ++ '"' :: behind) ++ rest
      = before ++ '"' :: (letters ++ '"' :: (behind ++ rest)) := by
    simp
  unfold Reader.string expecting
  rw [htext, run_peekToken_bind, dropWhile_blank hbefore (by decide)]
  exact run_quotedString_spells hspells

theorem takes_value_string {s : String} (h : Quotes text s) (depth : Nat)
    : Takes (value depth) text (.string s) := by
  obtain ⟨before, letters, behind, hbefore, hspells, hbehind, rfl⟩ := h
  refine ⟨behind, hbehind, ?_⟩
  intro rest _
  have htext : before ++ '"' :: (letters ++ '"' :: behind) ++ rest
      = before ++ '"' :: (letters ++ '"' :: (behind ++ rest)) := by
    simp
  have hwith : ∀ inner,
      StateT.run (valueWith inner) (before ++ '"' :: (letters ++ '"' :: (behind ++ rest)))
      = .ok (.string s, behind ++ rest) := by
    intro inner
    unfold valueWith
    rw [run_peekToken_bind, dropWhile_blank hbefore (by decide)]
    change StateT.run (do return Json.string (← quotedString)) _ = _
    rw [StateT.run_bind, run_quotedString_spells hspells]
    rfl
  rw [htext]
  cases depth with
  | zero => exact hwith _
  | succ depth => exact hwith _

/--
Whether a text is read as a value that is nested no deeper than allowed.
-/
def Accepts (depth : Nat) (text : List Char) (j : Json) : Prop :=
  (value depth).run (String.ofList text) = .ok j

theorem Accepts.run_value {depth : Nat} {j : Json} (h : Accepts depth text j)
    : ∃ behind, Blank behind ∧ StateT.run (value depth) text = .ok (j, behind) := by
  unfold Accepts Reader.run at h
  rw [String.toList_ofList] at h
  cases hvalue : StateT.run (value depth) text with
  | error fault =>
    rw [hvalue] at h
    cases h
  | ok read =>
    obtain ⟨x, behind⟩ := read
    rw [hvalue] at h
    dsimp only at h
    split at h
    . next hblank =>
      cases h
      exact ⟨behind, blank_of_dropWhile hblank, rfl⟩
    . cases h

theorem Accepts.takes {depth : Nat} {j : Json} (h : Accepts depth text j)
    : Takes (value depth) text j := by
  obtain ⟨behind, hbehind, hrun⟩ := h.run_value
  refine ⟨behind, hbehind, ?_⟩
  intro rest hrest
  exact carriesOver_value depth text j behind hrun rest hrest

theorem Accepts.takes_skip {depth : Nat} {j : Json} (h : Accepts depth text j)
    : Takes skip text () := by
  obtain ⟨behind, hbehind, hrun⟩ := h.takes
  refine ⟨behind, hbehind, ?_⟩
  intro rest hrest
  exact run_skip_of_value (hrun rest hrest)

theorem Takes.run {reader : Reader α} {a : α} (h : Takes reader text a)
    : reader.run (String.ofList text) = .ok a := by
  obtain ⟨behind, hbehind, hrun⟩ := h
  have hnil := hrun [] (by simp [Closes])
  have hblank : (behind.dropWhile isBlank).isEmpty = true := by
    rw [List.isEmpty_iff, List.dropWhile_eq_nil_iff]
    exact hbehind
  rw [List.append_nil, List.append_nil] at hnil
  unfold Reader.run
  rw [String.toList_ofList, hnil]
  exact if_pos hblank

theorem Takes.bind {reader : Reader α} {a : α} (h : Takes reader text a) {f : α → Reader β} {b : β}
    (hf : f a = pure b) : Takes (reader >>= f) text b := by
  obtain ⟨behind, hbehind, hrun⟩ := h
  refine ⟨behind, hbehind, ?_⟩
  intro rest hrest
  rw [StateT.run_bind, hrun rest hrest, ok_bind, hf]
  rfl

end Takes

section Members

variable {step : σ → String → Reader σ}

/--
Whether a member is read and leads from one state to the next.
-/
def Steps (step : σ → String → Reader σ) (state : σ) (e : Entry) (state' : σ) : Prop :=
  ∃ reader, step state e.name = (do colon; reader) ∧ Takes reader e.content state'

theorem run_entry {e : Entry} {state state' : σ} (hstep : Steps step state e state') {first : Bool}
    {start : List Char}
    (hanother : ∀ before more, Blank before →
      StateT.run (anotherMember first) (start ++ (before ++ '"' :: more)) = .ok (true, '"' :: more))
    : ∃ behind, Blank behind ∧ ∀ fuel rest, Closes rest →
        StateT.run (members.go quotedString step (fuel + 1) first state) (start ++ (e.text ++ rest))
          = StateT.run (members.go quotedString step fuel false state') (behind ++ rest) := by
  obtain ⟨reader, hreader, behind, hbehind, hrun⟩ := hstep
  obtain ⟨before, letters, after, hbefore, hspells, hafter, hlabel⟩ := e.quotes
  refine ⟨behind, hbehind, ?_⟩
  intro fuel rest hrest
  have htext : start ++ (e.text ++ rest)
      = start ++ (before ++ '"' :: (letters ++ '"' :: (after ++ ':' :: (e.content ++ rest)))) := by
    simp [Entry.text, hlabel]
  rw [htext]
  simp only [members.go, StateT.run_bind, hanother _ _ hbefore, ok_bind, if_true,
    run_quotedString_spells hspells, hreader, run_colon_blank hafter, hrun rest hrest]

-- What holds of the members that are left and of the state is kept by each of them.
variable {I : List Entry → σ → Prop}

theorem run_entries_rest
    (hstep : ∀ e entries state, I (e :: entries) state →
      ∃ state', Steps step state e state' ∧ I entries state')
    {entries : List Entry} {state : σ} (h : I entries state)
    : ∃ final, I [] final ∧ ∀ fuel behind rest, entries.length < fuel → Blank behind →
        StateT.run (members.go quotedString step fuel false state)
          (behind ++ ((entries.map (·.text)).flatMap (',' :: ·) ++ '\x7d' :: rest))
            = .ok (final, '\x7d' :: rest) := by
  induction entries generalizing state with
  | nil =>
    refine ⟨state, h, ?_⟩
    intro fuel behind rest hfuel hbehind
    obtain ⟨fuel, rfl⟩ := Nat.exists_eq_add_of_lt hfuel
    simp [members.go, run_anotherMember_end hbehind]
  | cons e entries ih =>
    obtain ⟨state', hstate', h⟩ := hstep e entries state h
    obtain ⟨final, hfinal, hrun⟩ := ih h
    refine ⟨final, hfinal, ?_⟩
    intro fuel behind rest hfuel hbehind
    obtain ⟨fuel, rfl⟩ := Nat.exists_eq_add_of_lt hfuel
    have hanother : ∀ before more, Blank before →
        StateT.run (anotherMember false) (behind ++ [','] ++ (before ++ '"' :: more))
          = .ok (true, '"' :: more) := by
      intro before more hbefore
      rw [List.append_assoc]
      exact run_anotherMember_comma hbefore hbehind
    obtain ⟨behind', hbehind', hentry⟩ := run_entry hstate' hanother
    have htext : behind ++ (((e :: entries).map (·.text)).flatMap (',' :: ·) ++ '\x7d' :: rest)
        = behind ++ [','] ++
          (e.text ++ ((entries.map (·.text)).flatMap (',' :: ·) ++ '\x7d' :: rest)) := by
      simp
    rw [htext, hentry _ _ (closes_members _ _)]
    apply hrun _ _ _ _ hbehind'
    rw [List.length_cons]
    omega

theorem run_entries
    (hstep : ∀ e entries state, I (e :: entries) state →
      ∃ state', Steps step state e state' ∧ I entries state')
    {entries : List Entry} {state : σ} (h : I entries state)
    : ∃ final, I [] final ∧ ∀ rest, StateT.run (members quotedString step state)
        (commaSeparated (entries.map (·.text)) ++ '\x7d' :: rest)
          = .ok (final, '\x7d' :: rest) := by
  have hrounds : ∀ text, StateT.run (members quotedString step state) text
      = StateT.run (members.go quotedString step (text.length + 1) true state) text :=
    fun text => rfl
  cases entries with
  | nil =>
    refine ⟨state, h, ?_⟩
    intro rest
    simp [hrounds, members.go, commaSeparated]
  | cons e entries =>
    obtain ⟨state', hstate', h⟩ := hstep e entries state h
    obtain ⟨final, hfinal, hrun⟩ := run_entries_rest hstep h
    have hanother : ∀ before more, Blank before →
        StateT.run (anotherMember true) ([] ++ (before ++ '"' :: more)) = .ok (true, '"' :: more) :=
      fun before more hbefore => run_anotherMember_blank hbefore
    obtain ⟨behind, hbehind, hentry⟩ := run_entry hstate' hanother
    refine ⟨final, hfinal, ?_⟩
    intro rest
    have hlength := length_le_commaSeparated ((e :: entries).map (·.text))
    rw [List.length_map, List.length_cons] at hlength
    rw [hrounds, List.length_append, List.length_cons]
    rw [List.map_cons, commaSeparated_cons, List.append_assoc] at *
    simp only [List.nil_append] at hentry
    rw [hentry _ _ (closes_members _ _)]
    apply hrun _ _ _ _ hbehind
    omega

theorem takes_value_object {inner : Reader Json} {I : List Entry → List (String × Json) → Prop}
    (hstep : ∀ e entries found, I (e :: entries) found →
      ∃ found', Steps (member inner) found e found' ∧ I entries found') {entries : List Entry}
        (h : I entries [])
    (hlays : Lays text entries)
    : ∃ found, I [] found ∧ Takes (valueWith (some inner)) text (.object found) := by
  obtain ⟨before, behind, hbefore, hbehind, rfl⟩ := hlays
  obtain ⟨found, hfound, hrun⟩ := run_entries hstep h
  refine ⟨found, hfound, behind, hbehind, ?_⟩
  intro rest _
  unfold valueWith
  rw [List.append_assoc, List.cons_append, run_peekToken_bind, dropWhile_blank hbefore (by decide),
    List.append_assoc, List.cons_append]
  change StateT.run (do
    advance
    let found ← members quotedString (member inner) []
    closeObject
    return Json.object found) _ = _
  rw [StateT.run_bind, run_advance, ok_bind, StateT.run_bind, hrun, ok_bind, StateT.run_bind,
    run_closeObject]
  rfl

end Members

section Records

variable {r : Record σ} {e : Entry} {state : σ}

theorem steps_field {name : String} {get : σ → Option α} {set : σ → α → σ} {reader : Reader α}
    {x : α} (hfind : r.fields.find? (·.name = e.name) = some (.of name get set reader))
    (hopen : get state = none) (h : Takes reader e.content x)
    : Steps r.readMember state e (set state x) := by
  have hfilled : (Field.of name get set reader).isFilled state = false := by
    change (get state).isSome = false
    rw [hopen]
    rfl
  refine ⟨(Field.of name get set reader).read state, ?_, h.bind rfl⟩
  unfold Record.readMember
  rw [hfind]
  dsimp only
  rw [hfilled]
  rfl

theorem steps_unknown (hfind : r.fields.find? (·.name = e.name) = none)
    (h : Takes skip e.content ())
    : Steps r.readMember state e state := by
  refine ⟨do skip; return state, ?_, h.bind rfl⟩
  unfold Record.readMember
  rw [hfind]

theorem takes_record {empty : σ} {I : List Entry → σ → Prop}
    (hstep : ∀ e entries state, I (e :: entries) state →
      ∃ state', Steps r.readMember state e state' ∧ I entries state')
    (hfull : ∀ final, I [] final → r.missing? final = none) {entries : List Entry}
    (h : I entries empty)
    (hlays : Lays text entries) : ∃ final, I [] final ∧ Takes (r.read empty) text final := by
  obtain ⟨before, behind, hbefore, hbehind, rfl⟩ := hlays
  obtain ⟨final, hfinal, hrun⟩ := run_entries hstep h
  refine ⟨final, hfinal, behind, hbehind, ?_⟩
  intro rest _
  unfold Record.read
  rw [List.append_assoc, List.cons_append, run_peekToken_bind, dropWhile_blank hbefore (by decide),
    List.append_assoc, List.cons_append]
  change StateT.run (advance >>= _) _ = _
  rw [StateT.run_bind, run_advance, ok_bind]
  change StateT.run (members quotedString r.readMember empty >>= _) _ = _
  rw [StateT.run_bind, hrun, ok_bind]
  dsimp only
  rw [hfull final hfinal]
  dsimp only
  rw [StateT.run_bind]
  rw [run_closeObject]
  rfl

end Records

end Json

end Parley
