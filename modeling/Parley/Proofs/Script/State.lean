import Parley.Proofs.Json.Laws
import Parley.Proofs.Json.Yields
import Parley.Proofs.Table
import Parley.Script.State

namespace Parley

namespace Script.State

open Json Json.Reader

variable {κ α : Type} {rest : List Char}

section Entries

variable [BEq κ]

/--
An entry of a table as it is written: the text and the value of its key, the document for its value,
and what that document reads back as.
-/
structure Entry (κ α : Type) where
  name : String
  key : κ
  content : Json
  result : Except Fault α

def Entry.member (e : Entry κ α) : Member (Table κ α) where
  text := stringText e.name ++ ':' :: characters e.content
  effect table := e.result.map (table.set e.key)

theorem memberTexts_eq (members : List (String × Json))
    : memberTexts members = members.map fun m => stringText m.1 ++ ':' :: characters m.2 := by
  induction members with
  | nil => rfl
  | cons m members ih =>
    obtain ⟨name, value⟩ := m
    rw [memberTexts, ih]
    rfl

variable {key : Reader κ} {value : Reader α} {es : List (Entry κ α)}

def readEntry (value : Reader α) (table : Table κ α) (k : κ) : Reader (Table κ α) := do
  colon
  return table.set k (← value)

theorem fits_entries
    (hkey : ∀ e ∈ es, ∀ rest,
      StateT.run key (stringText e.name ++ ':' :: rest) = .ok (e.key, ':' :: rest))
    (hvalue : ∀ e ∈ es, Reads value (characters e.content) e.result)
    : ∀ m ∈ es.map Entry.member, m.Fits key (readEntry value) := by
  intro m hm
  obtain ⟨e, he, rfl⟩ := List.mem_map.mp hm
  refine ⟨⟨_, rfl⟩, ?_⟩
  intro table rest hrest
  have hreads := hvalue e he rest hrest
  unfold Entry.member readEntry
  rw [List.append_assoc, List.cons_append]
  simp only [StateT.run_bind, hkey e he, ok_bind, run_colon, hreads]
  cases e.result with
  | error fault => rfl
  | ok x => rfl

theorem reads_entries
    (hkey : ∀ e ∈ es, ∀ rest,
      StateT.run key (stringText e.name ++ ':' :: rest) = .ok (e.key, ':' :: rest))
    (hvalue : ∀ e ∈ es, Reads value (characters e.content) e.result)
    : Reads (entries key value) (characters (.object (es.map fun e => (e.name, e.content))))
        ((Table.empty).fill (es.map fun e => (e.key, e.result))) := by
  have htexts : memberTexts (es.map fun e => (e.name, e.content))
      = (es.map Entry.member).map (·.text) := by
    rw [memberTexts_eq, List.map_map, List.map_map]
    rfl
  unfold characters
  rw [htexts]
  apply Reads.expecting _ (by decide) (by decide)
  intro rest _
  have hmembers : StateT.run (members key (readEntry value) .empty)
        (commaSeparated ((es.map Entry.member).map (·.text)) ++ '\x7d' :: rest)
      = ((Table.empty).fill (es.map fun e => (e.key, e.result))).map (·, '\x7d' :: rest) := by
    rw [run_members (fits_entries hkey hvalue), List.foldlM_map, Table.fill, List.foldlM_map]
    rfl
  unfold readEntry at hmembers
  simp only [List.cons_append, List.append_assoc, List.nil_append, StateT.run_bind, run_advance,
    ok_bind, hmembers]
  cases (Table.empty).fill (es.map fun e => (e.key, e.result)) with
  | error fault => rfl
  | ok table => simp

end Entries

section Keys

theorem escape_digit {c : Char} (hc : c.isDigit = true) : Json.escape c = [c] := by
  unfold Json.escape
  split
  all_goals try exact absurd hc (by decide)
  have hlow : ¬c.toNat < 0x20 := by
    simp only [Char.isDigit, Bool.and_eq_true, decide_eq_true_eq, ge_iff_le,
      UInt32.le_iff_toNat_le] at hc
    have hzero : UInt32.toNat '0'.val = 0x30 := by decide
    have hvalue : c.toNat = c.val.toNat := rfl
    omega
  rw [if_neg hlow]

theorem escape_digits {digits : List Char} (hdigits : ∀ c ∈ digits, c.isDigit = true)
    : digits.flatMap Json.escape = digits := by
  induction digits with
  | nil => rfl
  | cons c digits ih =>
    rw [List.forall_mem_cons] at hdigits
    rw [List.flatMap_cons, escape_digit hdigits.1, ih hdigits.2]
    rfl

theorem characters_nat (n : Nat) : characters (.int n) = Nat.toDigits 10 n := by
  unfold characters
  rw [toList_toString, if_neg (by omega)]
  rfl

theorem stringText_toString (n : Nat)
    : stringText (toString n) = '"' :: (characters (.int n) ++ ['"']) := by
  have hnat : (toString n).toList = Nat.toDigits 10 n := by
    rw [Nat.toString_eq_ofList_toDigits, String.toList_ofList]
  unfold stringText
  rw [hnat, characters_nat, escape_digits (isDigit_toDigits n)]

theorem run_countKey {n : Nat} (hn : n < Number.wordLimit)
    : StateT.run countKey (stringText (toString n) ++ rest) = .ok (n, rest) := by
  obtain ⟨first, more, hdigits, hfirst⟩ := exists_toDigits n
  have hquote : Closes ('"' :: rest) := by
    intro c hc
    rw [List.head?_cons, Option.mem_some] at hc
    rw [← hc]
    decide
  have hcount := laws.count hn ('"' :: rest) hquote
  have hint : characters (.int n) = first :: more := by
    rw [characters_nat, hdigits]
  have hstarts : startsNumber first = true := by
    simp [startsNumber, hfirst]
  rw [hint, List.cons_append] at hcount
  rw [stringText_toString, hint]
  simp [countKey, hstarts, hcount]

theorem reads_visits (n : UInt32) : Reads visitCount (characters (.int n.toNat)) (.ok n) := by
  have hn := n.toNat_lt
  have hinteger : Reads (integer 0 0xffffffff "u32") (characters (.int n.toNat)) (.ok n.toNat) := by
    apply laws.integer
    all_goals omega
  have hmap := hinteger.map fun k => UInt32.ofNat k.toNat
  rw [map_ok, Int.toNat_natCast, UInt32.ofNat_toNat] at hmap
  exact hmap

end Keys

/--
Whether the numbers of a state are words and no key of its tables is repeated.
-/
structure Proper (s : State) : Prop where
  knot : s.knot < Number.wordLimit
  step : s.step < Number.wordLimit
  visits : s.visits.keys.Nodup
  visited : ∀ knot ∈ s.visits.keys, knot < Number.wordLimit
  values : s.values.keys.Nodup

def rereadValues (s : State) : Except Fault (Table String Value) :=
  (Table.empty).fill (s.values.entries.map fun entry => (entry.1, rereadValue entry.2))

def reread (s : State) : Except Fault State :=
  s.rereadValues.map fun values => { s with values }

section Text

variable {s : State}

theorem reads_visitTable (h : s.Proper)
    : Reads (entries countKey visitCount) (characters (.object
        (s.visits.entries.map fun (knot, n) => (toString knot, .int n.toNat)))) (.ok s.visits) := by
  let es : List (Entry Nat UInt32) :=
    s.visits.entries.map fun e => ⟨toString e.1, e.1, .int e.2.toNat, .ok e.2⟩
  have hreads : Reads (entries countKey visitCount)
      (characters (.object (es.map fun e => (e.name, e.content))))
      ((Table.empty).fill (es.map fun e => (e.key, e.result))) := by
    apply reads_entries
    . intro entry hentry rest
      obtain ⟨e, he, rfl⟩ := List.mem_map.mp hentry
      exact run_countKey (h.visited e.1 (List.mem_map_of_mem he))
    . intro entry hentry
      obtain ⟨e, _, rfl⟩ := List.mem_map.mp hentry
      exact reads_visits e.2
  rw [List.map_map, List.map_map] at hreads
  rw [← Table.fill_empty h.visits]
  exact hreads

theorem reads_valueTable
    : Reads (entries quotedString scalar) (characters (.object
        (s.values.entries.map fun (name, value) => (name, ofValue value)))) s.rereadValues := by
  let es : List (Entry String Value) :=
    s.values.entries.map fun e => ⟨e.1, e.1, ofValue e.2, rereadValue e.2⟩
  have hreads : Reads (entries quotedString scalar)
      (characters (.object (es.map fun e => (e.name, e.content))))
      ((Table.empty).fill (es.map fun e => (e.key, e.result))) := by
    apply reads_entries
    . intro entry hentry rest
      obtain ⟨e, _, rfl⟩ := List.mem_map.mp hentry
      exact laws.key e.1 _
    . intro entry hentry
      obtain ⟨e, _, rfl⟩ := List.mem_map.mp hentry
      exact laws.scalar e.2
  rw [List.map_map, List.map_map] at hreads
  exact hreads

/--
The members of the object that stands for a state; its variables are given by what they read back
as.
-/
def members (s : State) (values : Except Fault (Table String Value)) : List (Member Draft) :=
  [fieldMember record.fields[0] (.int s.knot) fun draft => .ok { draft with knot := some s.knot },
    fieldMember record.fields[1] (.int s.step) fun draft => .ok { draft with step := some s.step },
    fieldMember record.fields[2]
      (.object (s.visits.entries.map fun (knot, n) => (toString knot, .int n.toNat)))
      fun draft => .ok { draft with visits := some s.visits },
    fieldMember record.fields[3]
      (.object (s.values.entries.map fun (name, value) => (name, ofValue value)))
      fun draft => values.map fun t => { draft with values := some t }]

theorem fits_members (h : s.Proper)
    : ∀ m ∈ s.members s.rereadValues, m.Fits quotedString record.readMember := by
  unfold members
  rw [List.forall_mem_cons, List.forall_mem_cons, List.forall_mem_cons, List.forall_mem_cons]
  refine ⟨?_, ?_, ?_, ?_, by simp⟩
  . apply fits_field rfl
    intro draft
    exact (laws.count h.knot).map _
  . apply fits_field rfl
    intro draft
    exact (laws.count h.step).map _
  . apply fits_field rfl
    intro draft
    exact (reads_visitTable h).map _
  . apply fits_field rfl
    intro draft
    exact reads_valueTable.map _

theorem foldlM_members (values : Except Fault (Table String Value))
    : (s.members values).foldlM (fun draft (m : Member Draft) => m.effect draft) {}
        =
      values.map fun t => ⟨some s.knot, some s.step, some s.visits, some t⟩ := by
  cases values with
  | error fault => rfl
  | ok t => rfl

theorem reads_state (h : s.Proper) : Reads read (characters s.toJson) s.reread := by
  have hrecord : Reads (record.read {})
      ('\x7b' :: (commaSeparated ((s.members s.rereadValues).map (·.text)) ++ ['\x7d']))
      (s.rereadValues.map fun t => ⟨some s.knot, some s.step, some s.visits, some t⟩) := by
    apply reads_record (fits_members h) (foldlM_members s.rereadValues)
    intro draft hdraft
    cases hvalues : s.rereadValues with
    | error fault =>
      rw [hvalues] at hdraft
      cases hdraft
    | ok t =>
      rw [hvalues] at hdraft
      cases hdraft
      rfl
  have hmap := hrecord.map fun draft => ({
    knot := draft.knot.getD 0
    step := draft.step.getD 0
    visits := draft.visits.getD .empty
    values := draft.values.getD .empty } : State)
  unfold reread
  generalize s.rereadValues = values at *
  cases values with
  | error fault => exact hmap
  | ok t => exact hmap

theorem ofText_text (h : s.Proper) : ofText? s.text = s.reread := by
  exact (reads_state h).run

theorem isOk_reread : s.reread.isOk = s.values.entries.all (·.2.isFinite) := by
  have hfill := Table.isOk_fill (.empty : Table String Value)
    (s.values.entries.map fun entry => (entry.1, rereadValue entry.2))
  rw [List.all_map] at hfill
  simp only [Function.comp_def, laws.finite] at hfill
  rw [← hfill]
  unfold reread rereadValues
  cases (Table.empty : Table String Value).fill _ with
  | error fault => rfl
  | ok t => rfl

theorem reread_eq (h : s.Proper)
    (hexact : ∀ entry ∈ s.values.entries, rereadValue entry.2 = .ok entry.2)
    : s.reread = .ok s := by
  have hmap : (s.values.entries.map fun entry => (entry.1, rereadValue entry.2))
      = s.values.entries.map fun entry => (entry.1, .ok entry.2) := by
    apply List.map_congr_left
    intro entry hentry
    rw [hexact entry hentry]
  unfold reread rereadValues
  rw [hmap, Table.fill_empty h.values]
  rfl

end Text

section Yields

theorem yields_entries {key : Reader κ} {named : κ → Prop} [BEq κ] [LawfulBEq κ] (value : Reader α)
    (hkey : Yields key named)
    : Yields (entries key value) fun t => t.keys.Nodup ∧ ∀ k ∈ t.keys, named k := by
  have hstart : (Table.empty : Table κ α).keys.Nodup ∧
      ∀ k ∈ (Table.empty : Table κ α).keys, named k := by
    simp [Table.empty, Table.keys]
  apply Yields.expecting
  refine yields_then fun _ => ?_
  let I : Table κ α → Prop := fun t => t.keys.Nodup ∧ ∀ k ∈ t.keys, named k
  refine yields_bind (yields_members (I := I) hkey ?_ hstart) fun t ht => ?_
  . intro t k ht hk
    refine yields_then fun _ => ?_
    refine yields_then fun x => ?_
    refine yields_pure ⟨Table.nodup_set ht.1 k x, ?_⟩
    intro other hother
    rcases Table.mem_keys_set hother with rfl | hother
    . exact hk
    . exact ht.2 other hother
  . refine yields_then fun _ => ?_
    exact yields_pure ht

theorem yields_countKey : Yields countKey (· < Number.wordLimit) := by
  unfold countKey
  refine yields_then fun _ => ?_
  refine yields_then fun c => ?_
  split
  . split
    . refine yields_bind yields_count fun n hn => ?_
      refine yields_then fun c => ?_
      split
      . exact yields_then fun _ => yields_pure hn
      . exact yields_bind (yields_throw _) fun _ (h : False) => absurd h id
    . exact yields_bind (yields_throw _) fun _ (h : False) => absurd h id
  . exact yields_bind (yields_throw _) fun _ (h : False) => absurd h id

structure Draft.Proper (d : Draft) : Prop where
  knot : ∀ n ∈ d.knot, n < Number.wordLimit
  step : ∀ n ∈ d.step, n < Number.wordLimit
  visits : ∀ t ∈ d.visits, t.keys.Nodup ∧ ∀ k ∈ t.keys, k < Number.wordLimit
  values : ∀ t ∈ d.values, t.keys.Nodup

theorem yields_fields
    : ∀ field ∈ record.fields, ∀ d, Draft.Proper d → Yields (field.read d) Draft.Proper := by
  unfold record
  simp only [List.forall_mem_cons, List.not_mem_nil, false_imp_iff, implies_true, and_true]
  refine ⟨?_, ?_, ?_, ?_⟩
  . intro d hd
    refine yields_bind yields_count fun n hn => ?_
    exact yields_pure { hd with knot := by simpa using hn }
  . intro d hd
    refine yields_bind yields_count fun n hn => ?_
    exact yields_pure { hd with step := by simpa using hn }
  . intro d hd
    refine yields_bind (yields_entries visitCount yields_countKey) fun t ht => ?_
    exact yields_pure { hd with visits := by simpa using ht }
  . intro d hd
    refine yields_bind (yields_entries scalar (yields_true _)) fun t ht => ?_
    exact yields_pure { hd with values := by simpa using ht.1 }

theorem yields_read : Yields read Proper := by
  refine yields_bind (Record.yields_read yields_fields ?_) fun d hd => ?_
  . exact ⟨by simp, by simp, by simp, by simp⟩
  . have hword : ∀ n : Option Nat,
        (∀ k ∈ n, k < Number.wordLimit) → n.getD 0 < Number.wordLimit := by
      intro n hn
      cases n with
      | none => decide
      | some n => exact hn n rfl
    have hvisits : (d.visits.getD .empty).keys.Nodup ∧
        ∀ k ∈ (d.visits.getD .empty).keys, k < Number.wordLimit := by
      cases hvisits : d.visits with
      | none => simp [Table.empty, Table.keys]
      | some t => exact hd.visits t hvisits
    have hvalues : (d.values.getD .empty).keys.Nodup := by
      cases hvalues : d.values with
      | none => simp [Table.empty, Table.keys]
      | some t => exact hd.values t hvalues
    exact yields_pure ⟨hword d.knot hd.knot, hword d.step hd.step, hvisits.1, hvisits.2, hvalues⟩

theorem proper_of_ofText {text : String} {s : State} (h : ofText? text = .ok s) : s.Proper := by
  unfold ofText? Reader.run at h
  split at h
  . cases h
  . next hrun =>
    split at h
    . cases h
      exact yields_read _ _ _ hrun
    . cases h

end Yields

end Script.State
end Parley
