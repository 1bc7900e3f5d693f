import Mathlib.Data.List.Dedup
import Parley.Asset
import Parley.Proofs.Table

namespace Parley

def Asset.ofText? (text : String) : Except Json.Fault (String × Asset) := do
  let envelope ← Envelope.read.run (withoutByteOrderMark text)
  let asset ← envelope.asset?.mapError .mismatch
  return (envelope.id, asset)

namespace Library

open Json

variable {A : Type}

theorem resolve_insert (l : Library A) (id : String) (asset : A) (other : String)
    : (l.insert id asset).2.resolve other
        = if other = id then ⟨id, some asset⟩ else l.resolve other := by
  unfold insert resolve
  dsimp only
  rw [Table.get?_set]
  by_cases h : other = id
  . simp [h]
  . simp [h]

variable [Shelved A]

theorem load_eq (l : Library A) (text : String)
    : l.load text
        =
      match Asset.ofText? text with
      | .error fault => (.error fault, l)
      | .ok (id, asset) =>
        (.ok ⟨id, some (Shelved.ofAsset asset)⟩, (l.insert id (Shelved.ofAsset asset)).2) := by
  unfold load Asset.ofText?
  cases Asset.Envelope.read.run (withoutByteOrderMark text) with
  | error fault => rfl
  | ok envelope =>
    dsimp only [bind, Except.bind]
    cases envelope.asset? with
    | error mismatch => rfl
    | ok asset => rfl

theorem load_cases {l l' : Library A} {text : String} {result : Except Fault (Reference A)}
    (h : l.load text = (result, l'))
    : (∃ fault, result = .error fault ∧ l' = l) ∨
        ∃ id asset, result = .ok (l.insert id asset).1 ∧ l' = (l.insert id asset).2 := by
  rw [load_eq] at h
  split at h
  . next fault _ =>
    cases h
    exact Or.inl ⟨fault, rfl, rfl⟩
  . next id asset _ =>
    cases h
    exact Or.inr ⟨id, Shelved.ofAsset asset, rfl, rfl⟩

inductive Request (A : Type) where
  | load (text : String)
  | insert (id : String) (asset : A)
  | resolve (id : String)

inductive Exchange (A : Type) where
  | loaded (text : String) (result : Except Fault (Reference A))
  | inserted (id : String) (asset : A) (reference : Reference A)
  | resolved (id : String) (reference : Reference A)

def serve (l : Library A) : Request A → Exchange A × Library A
  | .load text =>
    let (result, l) := l.load text
    (.loaded text result, l)
  | .insert id asset =>
    let (reference, l) := l.insert id asset
    (.inserted id asset reference, l)
  | .resolve id => (.resolved id (l.resolve id), l)

/--
Asks a library without assets, and gives what was asked and answered with the library that it has
become. The latest request stands first, and so does the latest answer.
-/
def run : List (Request A) → List (Exchange A) × Library A
  | [] => ([], {})
  | request :: before =>
    let (past, l) := run before
    let (exchange, l) := l.serve request
    (exchange :: past, l)

def Exchange.stored? : Exchange A → Option (String × A)
  | .loaded text _ =>
    (Asset.ofText? text).toOption.map fun (id, asset) => (id, Shelved.ofAsset asset)
  | .inserted id asset _ => some (id, asset)
  | .resolved .. => none

/--
What was put into a library under each identifier, the latest first.
-/
def stored (past : List (Exchange A)) : List (String × A) :=
  past.filterMap (·.stored?)

/--
Whether an answer is what it should be after the requests before it.
-/
def Exchange.Answers (before : List (Exchange A)) : Exchange A → Prop
  | .loaded text result =>
    result = (Asset.ofText? text).map fun (id, asset) => ⟨id, some (Shelved.ofAsset asset)⟩
  | .inserted id asset reference => reference = ⟨id, some asset⟩
  | .resolved id reference => reference = ⟨id, (stored before).lookup id⟩

/--
Whether a library holds the latest of the assets that were put into it, and has given the right
answers.
-/
structure KeepsAssets (past : List (Exchange A)) (l : Library A) : Prop where
  latest : ∀ id, l.assets.get? id = (stored past).lookup id
  nodup : l.assets.keys.Nodup
  keys : ∀ id, id ∈ l.assets.keys ↔ id ∈ (stored past).map (·.1)
  answered : ∀ exchange before, exchange :: before <:+ past → exchange.Answers before

section KeepsAssets

variable {past : List (Exchange A)} {l : Library A} {exchange : Exchange A}

theorem answered_cons (h : KeepsAssets past l)
    (hanswers : exchange.Answers past) {later : Exchange A} {before : List (Exchange A)}
    (hsuffix : later :: before <:+ exchange :: past) : later.Answers before := by
  rcases List.suffix_cons_iff.mp hsuffix with heq | hsuffix
  . cases heq
    exact hanswers
  . exact h.answered later before hsuffix

theorem KeepsAssets.put (h : KeepsAssets past l) {id : String} {asset : A}
    (hput : exchange.stored? = some (id, asset)) (hanswers : exchange.Answers past)
    : KeepsAssets (exchange :: past) (l.insert id asset).2 := by
  have hstored : stored (exchange :: past) = (id, asset) :: stored past := by
    rw [stored, List.filterMap_cons, hput]
    rfl
  constructor
  case latest =>
    intro other
    change (l.assets.set id asset).get? other = _
    rw [Table.get?_set, hstored, List.lookup_cons, h.latest]
    cases other == id with
    | true => rfl
    | false => rfl
  case nodup => exact Table.nodup_set h.nodup id asset
  case keys =>
    intro other
    change other ∈ (l.assets.set id asset).keys ↔ _
    rw [Table.mem_keys_set_iff, hstored, List.map_cons, List.mem_cons, h.keys]
  case answered => exact fun later before hsuffix => answered_cons h hanswers hsuffix

theorem KeepsAssets.keep (h : KeepsAssets past l) (hput : exchange.stored? = none)
    (hanswers : exchange.Answers past)
    : KeepsAssets (exchange :: past) l := by
  have hstored : stored (exchange :: past) = stored past := by
    rw [stored, List.filterMap_cons, hput]
    rfl
  constructor
  case latest => rw [hstored]; exact h.latest
  case nodup => exact h.nodup
  case keys => rw [hstored]; exact h.keys
  case answered => exact fun later before hsuffix => answered_cons h hanswers hsuffix

theorem KeepsAssets.serve (h : KeepsAssets past l) (request : Request A)
    : KeepsAssets ((l.serve request).1 :: past) (l.serve request).2 := by
  cases request with
  | load text =>
    simp only [Library.serve, load_eq]
    cases hread : Asset.ofText? text with
    | error fault =>
      have hanswers : (Exchange.loaded text (.error fault) : Exchange A).Answers past := by
        rw [Exchange.Answers, hread]
        rfl
      exact h.keep (by rw [Exchange.stored?, hread]; rfl) hanswers
    | ok found =>
      have hanswers : (Exchange.loaded text
          (.ok ⟨found.1, some (Shelved.ofAsset found.2)⟩) : Exchange A).Answers past := by
        rw [Exchange.Answers, hread]
        rfl
      exact h.put (by rw [Exchange.stored?, hread]; rfl) hanswers
  | insert id asset => exact h.put rfl rfl
  | resolve id =>
    have hanswers : (Exchange.resolved id (l.resolve id)).Answers past := by
      rw [Exchange.Answers, resolve, h.latest]
    exact h.keep rfl hanswers

end KeepsAssets

section Refused

end Refused

end Library
end Parley
