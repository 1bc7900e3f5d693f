import Parley.Ink.Source
import Parley.Ink.Story
import Parley.Proofs.Json.Laws
import Parley.Proofs.Library

/-!
This module contains that an envelope is loaded whichever way it is written, and that a story is the
same by whichever way it is reached: as an asset of the library, as an asset of its own, or as a
document.
-/

namespace Parley

namespace Json

theorem lookup_insert {α : Type} (name : String) (value : α) (found : List (String × α))
    (other : String)
    : (insert name value found).lookup other
        = if other = name then some value else found.lookup other := by
  have hne : other ≠ name → ∀ rest, ((name, value) :: rest).lookup other = rest.lookup other := by
    intro h rest
    rw [List.lookup_cons, beq_eq_false_iff_ne.mpr h]
  by_cases h : other = name
  . rw [if_pos h, h]
    induction found with
    | nil => exact List.lookup_cons_self
    | cons entry found ih =>
      obtain ⟨next, old⟩ := entry
      unfold insert
      split
      . exact List.lookup_cons_self
      . next hnext =>
        split
        . exact List.lookup_cons_self
        . rw [List.lookup_cons, beq_eq_false_iff_ne.mpr hnext]
          exact ih
  . rw [if_neg h]
    induction found with
    | nil => exact hne h []
    | cons entry found ih =>
      obtain ⟨next, old⟩ := entry
      unfold insert
      split
      . next hnext =>
        rw [hne h, List.lookup_cons, beq_eq_false_iff_ne.mpr (hnext ▸ h)]
      . split
        . exact hne h _
        . rw [List.lookup_cons, List.lookup_cons, ih]

def Valid (depth : Nat) (text : List Char) : Prop :=
  ∃ j, Accepts depth text j

/--
Whether a member is written once, and what it holds.
-/
def WrittenOnce (entries : List Entry) (name : String) (content : List Char → Prop) : Prop :=
  ∃ text, contents name entries = [text] ∧ content text

def OthersValid (entries : List Entry) (names : List String) (depth : Nat) : Prop :=
  ∀ e ∈ entries, e.name ∉ names → Valid depth e.content

/--
Whether a member that is written once is either still to be read or in its place.
-/
def Pending {α : Type} (content : List Char → α → Prop) (x : α) (filled : Option α)
    (left : List (List Char))
    : Prop :=
  (filled = some x ∧ left = []) ∨ (filled = none ∧ ∃ text, left = [text] ∧ content text x)

section Pending

variable {α : Type} {content : List Char → α → Prop} {x : α} {filled : Option α} {name : String}
    {e : Entry} {entries : List Entry}

theorem contents_cons_of_eq (he : e.name = name)
    : contents name (e :: entries) = e.content :: contents name entries := by
  simp [contents, he]

theorem contents_cons_of_ne (he : e.name ≠ name)
    : contents name (e :: entries) = contents name entries := by
  simp [contents, he]

theorem Pending.skip (h : Pending content x filled (contents name (e :: entries)))
    (he : e.name ≠ name)
    : Pending content x filled (contents name entries) := by
  rwa [contents_cons_of_ne he] at h

theorem Pending.take (h : Pending content x filled (contents name (e :: entries)))
    (he : e.name = name)
    : filled = none ∧ content e.content x ∧ Pending content x (some x) (contents name entries) := by
  rw [contents_cons_of_eq he] at h
  rcases h with ⟨_, hleft⟩ | ⟨hfilled, text, hleft, htext⟩
  . cases hleft
  . rw [List.cons.injEq] at hleft
    rw [hleft.1]
    exact ⟨hfilled, htext, Or.inl ⟨rfl, hleft.2⟩⟩

theorem Pending.full (h : Pending content x filled []) : filled = some x := by
  rcases h with ⟨hfilled, _⟩ | ⟨_, text, hleft, _⟩
  . exact hfilled
  . cases hleft

end Pending

end Json

namespace Asset

open Json

def StoryContent (story : String) (text : List Char) : Prop :=
  ∃ entries, Lays text entries ∧ WrittenOnce entries "Story" (Quotes · story) ∧
    OthersValid entries ["Story"] (Reader.maxDepth - 2)

def Encloses (id typeName : String) (content : List Char → Prop) (text : List Char) : Prop :=
  ∃ entries, Lays text entries ∧ WrittenOnce entries "ID" (Quotes · id) ∧
    WrittenOnce entries "TypeName" (Quotes · typeName) ∧ WrittenOnce entries "Data" content ∧
    OthersValid entries ["ID", "TypeName", "Data"] Reader.maxDepth

section Envelope

structure Remains (id typeName : String) (data : Json) (entries : List Entry)
    (draft : Envelope.Draft) : Prop where
  id : Pending Quotes id draft.id (contents "ID" entries)
  typeName : Pending Quotes typeName draft.typeName (contents "TypeName" entries)
  data : Pending (Takes (Reader.value (Reader.maxDepth - 1))) data draft.data
      (contents "Data" entries)
  others : OthersValid entries ["ID", "TypeName", "Data"] Reader.maxDepth

variable {id typeName : String} {data : Json} {e : Entry} {entries : List Entry}
    {draft : Envelope.Draft}

theorem steps_envelope (h : Remains id typeName data (e :: entries) draft)
    : ∃ draft', Steps Envelope.record.readMember draft e draft' ∧
        Remains id typeName data entries draft' := by
  obtain ⟨hid, htype, hdata, hothers⟩ := h
  have hothers' : OthersValid entries ["ID", "TypeName", "Data"] Reader.maxDepth :=
    fun e he => hothers e (List.mem_cons_of_mem _ he)
  by_cases hname : e.name = "ID"
  . obtain ⟨hopen, hquotes, hid⟩ := hid.take hname
    refine ⟨_, steps_field (by rw [hname]; rfl) hopen (laws.quoted hquotes _), hid, htype.skip ?_,
      hdata.skip ?_, hothers'⟩
    . simp [hname]
    . simp [hname]
  . by_cases htypeName : e.name = "TypeName"
    . obtain ⟨hopen, hquotes, htype⟩ := htype.take htypeName
      refine ⟨_, steps_field (by rw [htypeName]; rfl) hopen (laws.quoted hquotes _), hid.skip hname,
        htype, hdata.skip ?_, hothers'⟩
      simp [htypeName]
    . by_cases hcontent : e.name = "Data"
      . obtain ⟨hopen, htaken, hdata⟩ := hdata.take hcontent
        refine ⟨_, steps_field (by rw [hcontent]; rfl) hopen htaken, hid.skip hname,
          htype.skip htypeName, hdata, hothers'⟩
      . obtain ⟨j, hj⟩ := hothers e List.mem_cons_self (by simp [hname, htypeName, hcontent])
        refine ⟨draft, steps_unknown ?_ (laws.skipped hj), hid.skip hname, htype.skip htypeName,
          hdata.skip hcontent, hothers'⟩
        simp [Envelope.record, Field.of, Ne.symm hname, Ne.symm htypeName, Ne.symm hcontent]

theorem missing_envelope (h : Remains id typeName data [] draft)
    : Envelope.record.missing? draft = none := by
  have hid := h.id.full
  have htype := h.typeName.full
  have hdata := h.data.full
  simp [Record.missing?, Envelope.record, Field.of, hid, htype, hdata]

theorem takes_envelope {text : List Char} {content : List Char → Prop}
    (h : Encloses id typeName content text)
    (hcontent : ∀ text, content text → Takes (Reader.value (Reader.maxDepth - 1)) text data)
    : Takes Envelope.read text ⟨id, typeName, data⟩ := by
  obtain ⟨entries, hlays, hid, htype, ⟨shown, hshown, hdata⟩, hothers⟩ := h
  have hstart : Remains id typeName data entries {} :=
    ⟨Or.inr ⟨rfl, hid⟩, Or.inr ⟨rfl, htype⟩,
      Or.inr ⟨rfl, shown, hshown, hcontent shown hdata⟩, hothers⟩
  obtain ⟨draft, hdraft, htaken⟩ :=
    takes_record (fun e entries draft => steps_envelope) (fun draft => missing_envelope)
      hstart hlays
  apply htaken.bind
  rw [hdraft.id.full, hdraft.typeName.full, hdraft.data.full]
  rfl

end Envelope

section Story

variable {story : String} {text : List Char}

structure Untold (story : String) (depth : Nat) (entries : List Entry)
    (found : List (String × Json)) : Prop where
  story : Pending (fun text _ => Quotes text story) (.string story) (found.lookup "Story")
    (contents "Story" entries)
  others : OthersValid entries ["Story"] depth

theorem steps_story {depth : Nat} {e : Entry} {entries : List Entry} {found : List (String × Json)}
    (h : Untold story depth (e :: entries) found)
    : ∃ found', Steps (Reader.member (Reader.value depth)) found e found' ∧
        Untold story depth entries found' := by
  obtain ⟨hstory, hothers⟩ := h
  have hothers' : OthersValid entries ["Story"] depth :=
    fun e he => hothers e (List.mem_cons_of_mem _ he)
  by_cases hname : e.name = "Story"
  . obtain ⟨_, hquotes, hstory⟩ := hstory.take hname
    have hvalue := laws.quotedValue hquotes depth
    refine ⟨insert e.name (.string story) found, ⟨_, rfl, hvalue.bind rfl⟩, ?_, hothers'⟩
    rw [lookup_insert, hname, if_pos rfl]
    exact hstory
  . obtain ⟨j, hj⟩ := hothers e List.mem_cons_self (by simp [hname])
    refine ⟨insert e.name j found, ⟨_, rfl, (laws.accepted hj).bind rfl⟩, ?_, hothers'⟩
    rw [lookup_insert, if_neg (Ne.symm hname)]
    exact hstory.skip hname

theorem takes_story (h : StoryContent story text)
    : ∃ data, Takes (Reader.value (Reader.maxDepth - 1)) text data ∧ storyOf? data = .ok story := by
  obtain ⟨entries, hlays, ⟨shown, hshown, hquotes⟩, hothers⟩ := h
  have hstart : Untold story (Reader.maxDepth - 2) entries [] :=
    ⟨Or.inr ⟨rfl, shown, hshown, hquotes⟩, hothers⟩
  obtain ⟨found, hfound, htaken⟩ :=
    takes_value_object (fun e entries found => steps_story) hstart hlays
  refine ⟨.object found, htaken, ?_⟩
  have hlookup := hfound.story.full
  unfold storyOf?
  dsimp only
  rw [hlookup]
  rfl

end Story

theorem asset?_story {id story : String} {data : Json} (h : storyOf? data = .ok story)
    : (Envelope.mk id storyTypeName data).asset? = .ok (.story story) := by
  unfold Envelope.asset?
  dsimp only
  rw [if_pos rfl, h]
  rfl

theorem asset?_raw {id typeName : String} {data : Json} (h : typeName ≠ storyTypeName)
    : (Envelope.mk id typeName data).asset? = .ok (.raw typeName data) := by
  unfold Envelope.asset?
  exact if_neg h

end Asset

section ByteOrderMark

theorem withoutByteOrderMark_cons (text : List Char)
    : withoutByteOrderMark (String.ofList ('\ufeff' :: text)) = String.ofList text := by
  unfold withoutByteOrderMark
  rw [String.toList_ofList]
  rfl

theorem withoutByteOrderMark_of_ne {text : String} (h : text.toList.head? ≠ some '\ufeff')
    : withoutByteOrderMark text = text := by
  unfold withoutByteOrderMark
  split
  . next heq =>
    rw [heq] at h
    exact absurd rfl h
  . rfl

/--
Whether a text starts with at most one mark for the order of bytes.
-/
def Marked (marked text : List Char) : Prop :=
  marked = text ∨ marked = '\ufeff' :: text

theorem withoutByteOrderMark_of_marked {marked text : List Char}
    (h : Marked marked text) (htext : text.head? ≠ some '\ufeff')
    : withoutByteOrderMark (String.ofList marked) = String.ofList text := by
  rcases h with rfl | rfl
  . apply withoutByteOrderMark_of_ne
    rwa [String.toList_ofList]
  . exact withoutByteOrderMark_cons text

theorem head?_of_lays {text : List Char} {entries : List Json.Entry} (h : Json.Lays text entries)
    : text.head? ≠ some '\ufeff' := by
  obtain ⟨before, behind, hbefore, _, rfl⟩ := h
  cases before with
  | nil =>
    rw [List.nil_append, List.head?_cons]
    decide
  | cons c before =>
    rw [List.cons_append, List.head?_cons]
    intro heq
    injection heq with heq
    have hblank := hbefore c List.mem_cons_self
    rw [heq] at hblank
    exact absurd hblank (by decide)

end ByteOrderMark

namespace Library

open Json Asset

variable {A : Type} [Shelved A] {id typeName story : String} {text marked : List Char}

theorem load_envelope (l : Library A) {content : List Char → Prop} {data : Json} {asset : Asset}
    (h : Encloses id typeName content text) (hmarked : Marked marked text)
    (hcontent : ∀ text, content text → Takes (Reader.value (Reader.maxDepth - 1)) text data)
    (hasset : (Envelope.mk id typeName data).asset? = .ok asset)
    : l.load (String.ofList marked)
        = (.ok (l.insert id (Shelved.ofAsset asset)).1,
          (l.insert id (Shelved.ofAsset asset)).2) := by
  have hhead : text.head? ≠ some '\ufeff' := by
    obtain ⟨entries, hlays, _⟩ := h
    exact head?_of_lays hlays
  unfold load
  rw [withoutByteOrderMark_of_marked hmarked hhead, (takes_envelope h hcontent).run]
  dsimp only
  rw [hasset]

/--
The identifiers of the assets that a library was given, one after the other. A text that was refused
gave none.
-/
inductive Stocked : Library A → List String → Prop where
  | empty : Stocked {} []
  | insert {l : Library A} {ids : List String} (h : Stocked l ids) (id : String) (asset : A)
      : Stocked (l.insert id asset).2 (id :: ids)
  | load {l l' : Library A} {ids : List String} {text : String}
      {reference : Reference A} (h : Stocked l ids) (hload : l.load text = (.ok reference, l'))
      : Stocked l' (reference.id :: ids)
  | refused {l l' : Library A} {ids : List String} {text : String} {fault : Fault}
      (h : Stocked l ids) (hload : l.load text = (.error fault, l')) : Stocked l' ids

theorem resolve_of_stocked {l : Library A} {ids : List String} (h : Stocked l ids) {id : String}
    (hid : id ∉ ids)
    : l.resolve id = ⟨id, none⟩ := by
  have hinsert : ∀ {l : Library A} {ids : List String} {other : String} (asset : A),
      id ∉ other :: ids →
      (id ∉ ids → l.resolve id = ⟨id, none⟩) →
      (l.insert other asset).2.resolve id = ⟨id, none⟩ := by
    intro l ids other asset hid ih
    rw [List.mem_cons, not_or] at hid
    rw [resolve_insert, if_neg hid.1, ih hid.2]
  induction h with
  | empty => rfl
  | insert h other asset ih => exact hinsert asset hid ih
  | load h hload ih =>
    rcases load_cases hload with ⟨fault, heq, _⟩ | ⟨other, asset, heq, rfl⟩
    . cases heq
    . cases heq
      exact hinsert asset hid ih
  | refused h hload ih =>
    rcases load_cases hload with ⟨fault, _, rfl⟩ | ⟨other, asset, heq, _⟩
    . exact ih hid
    . cases heq

section Depth

def nestedEnvelope (id typeName : String) (depth : Nat) : Json :=
  .object [("ID", .string id), ("TypeName", .string typeName), ("Data", lists depth)]

theorem encloses_nested (id typeName : String) (depth : Nat) {content : List Char → Prop}
    (hcontent : content (characters (lists depth)))
    : Encloses id typeName content (characters (nestedEnvelope id typeName depth)) := by
  have hlays := lays_commaSeparated [.of "ID" (stringText id), .of "TypeName" (stringText typeName),
    .of "Data" (characters (lists depth))]
  refine ⟨_, hlays, ⟨_, rfl, quotes_stringText id⟩, ⟨_, rfl, quotes_stringText typeName⟩,
    ⟨_, rfl, hcontent⟩, ?_⟩
  simp [OthersValid, Entry.of]

open Reader in
def nestedMembers (id typeName : String) (depth : Nat) : List (Member Envelope.Draft) :=
  [fieldMember
      (.of "ID" (·.id) (fun draft id => { draft with id := some id }) (string "a string"))
      (.string id) fun draft => .ok { draft with id := some id },
    fieldMember
      (.of "TypeName" (·.typeName) (fun draft typeName => { draft with typeName := some typeName })
        (string "a string"))
      (.string typeName) fun draft => .ok { draft with typeName := some typeName },
    fieldMember
      (.of "Data" (·.data) (fun draft data => { draft with data := some data })
        (value (maxDepth - 1)))
      (lists depth) fun _ => .error .tooDeep]

open Reader in
theorem fits_nestedMembers (id typeName : String) {depth : Nat} (hdepth : maxDepth ≤ depth)
    : ∀ m ∈ nestedMembers id typeName depth, m.Fits quotedString Envelope.record.readMember := by
  have hdata := laws.nesting depth (maxDepth - 1)
  rw [if_neg (by unfold maxDepth at *; omega)] at hdata
  intro m hm
  simp only [nestedMembers, List.mem_cons, List.not_mem_nil, or_false] at hm
  rcases hm with rfl | rfl | rfl
  . exact fits_field rfl fun draft => (laws.string _ id).map _
  . exact fits_field rfl fun draft => (laws.string _ typeName).map _
  . exact fits_field rfl fun draft => hdata.map _

open Reader in
theorem load_nested (l : Library A) (id typeName : String) {depth : Nat} (hdepth : maxDepth ≤ depth)
    : l.load (nestedEnvelope id typeName depth).text = (.error .tooDeep, l) := by
  have hrecord : Reads (Envelope.record.read {}) (characters (nestedEnvelope id typeName depth))
      (.error .tooDeep) := by
    apply reads_record (fits_nestedMembers id typeName hdepth)
    . rfl
    . intro draft hdraft
      cases hdraft
  have hread : Envelope.read.run (nestedEnvelope id typeName depth).text = .error .tooDeep :=
    (hrecord.map fun draft =>
      Envelope.mk (draft.id.getD "") (draft.typeName.getD "") (draft.data.getD .null)).run
  have hmark : withoutByteOrderMark (nestedEnvelope id typeName depth).text
      = (nestedEnvelope id typeName depth).text := by
    apply withoutByteOrderMark_of_ne
    unfold Json.text
    rw [String.toList_ofList]
    exact (by decide : some '\x7b' ≠ some '\ufeff')
  unfold load
  rw [hmark, hread]

end Depth

end Library

namespace Ink

open Json Asset

variable {S I : Type} [Runtime S I] {A : Type} [Shelved A]

theorem Tale.ofText?_mark {story : String} (hstory : story.toList.head? ≠ some '\ufeff')
    : Tale.ofText? (I := I) (String.ofList ('\ufeff' :: story.toList)) = Tale.ofText? story := by
  unfold ofText?
  rw [withoutByteOrderMark_cons, String.ofList_toList, withoutByteOrderMark_of_ne hstory]

namespace Source

theorem create_of_text? {source : Source A} {text : String} (h : source.text? = .ok (some text))
    (options : LoadOptions)
    : source.create (I := I) options
        =
      ((Tale.ofText? text).mapError .parse).map fun story =>
        some (story.withFallbacks options.allowFallbacks) := by
  unfold create
  rw [h]
  change (do
    let story ← (Tale.ofText? (I := I) text).mapError LoadError.parse
    return some (story.withFallbacks options.allowFallbacks)) = _
  cases (Tale.ofText? (I := I) text).mapError LoadError.parse with
  | error error => rfl
  | ok story => rfl

theorem create_mark {story : String} (hstory : story.toList.head? ≠ some '\ufeff')
    (options : LoadOptions)
    : (document (String.ofList ('\ufeff' :: story.toList)) : Source A).create (I := I) options
        =
      (document story : Source A).create options := by
  have hmark : (document (String.ofList ('\ufeff' :: story.toList)) : Source A).text?
      = .ok (some (String.ofList ('\ufeff' :: story.toList))) := rfl
  have hplain : (document story : Source A).text? = .ok (some story) := rfl
  rw [create_of_text? hmark, create_of_text? hplain, Tale.ofText?_mark hstory]

theorem text?_reference (id : String) (content : Asset)
    : (reference ⟨id, some (Shelved.ofAsset content)⟩ : Source A).text? = .ok content.story? := by
  exact congrArg Except.ok (Shelved.story?_ofAsset content)

theorem create_story {id story : String} {text marked : List Char}
    (hstory : story.toList.head? ≠ some '\ufeff') (options : LoadOptions) (l : Library A)
    (htext : Encloses id storyTypeName (StoryContent story) text) (hmarked : Marked marked text)
    : ∃ found l', l.load (String.ofList marked) = (.ok found, l') ∧
        ∀ source ∈ [reference (l'.resolve id), reference found, asset story,
            document (String.ofList ('\ufeff' :: story.toList))],
          source.create (I := I) options = (document story : Source A).create options := by
  obtain ⟨entries, hlays, hid, htype, ⟨shown, hshown, htells⟩, hothers⟩ := htext
  obtain ⟨data, htaken, hasset⟩ := takes_story htells
  have htext : Encloses id storyTypeName (· = shown) text :=
    ⟨entries, hlays, hid, htype, ⟨shown, hshown, rfl⟩, hothers⟩
  have hload := l.load_envelope htext hmarked (fun text h => h ▸ htaken) (asset?_story hasset)
  refine ⟨_, _, hload, ?_⟩
  have hplain : ∀ source : Source A, source.text? = .ok (some story) →
      source.create (I := I) options = (document story : Source A).create options := by
    intro source hsource
    have hdocument : (document story : Source A).text? = .ok (some story) := rfl
    rw [create_of_text? hsource, create_of_text? hdocument]
  intro source hsource
  simp only [List.mem_cons, List.not_mem_nil, or_false] at hsource
  rcases hsource with rfl | rfl | rfl | rfl
  . apply hplain
    rw [Library.resolve_insert, if_pos rfl]
    exact text?_reference id (.story story)
  . exact hplain _ (text?_reference id (.story story))
  . exact hplain _ rfl
  . exact create_mark hstory options

theorem create_reference_raw {id typeName : String} (data : Json) (options : LoadOptions)
    : (reference ⟨id, some (Shelved.ofAsset (.raw typeName data))⟩ : Source A).create (I := I)
        options = .ok none := by
  unfold create
  rw [text?_reference]
  rfl

theorem create_other {id typeName : String} {text marked : List Char}
    (htype : typeName ≠ storyTypeName) (options : LoadOptions) (l : Library A)
    (htext : Encloses id typeName (Valid (Reader.maxDepth - 1)) text) (hmarked : Marked marked text)
    : ∃ found l', l.load (String.ofList marked) = (.ok found, l') ∧
        (reference (l'.resolve id)).create (I := I) options = .ok none := by
  obtain ⟨entries, hlays, hid, hname, ⟨shown, hshown, data, hdata⟩, hothers⟩ := htext
  have htext : Encloses id typeName (· = shown) text :=
    ⟨entries, hlays, hid, hname, ⟨shown, hshown, rfl⟩, hothers⟩
  have hload :=
    l.load_envelope htext hmarked (fun text h => h ▸ laws.accepted hdata) (asset?_raw htype)
  refine ⟨_, _, hload, ?_⟩
  rw [Library.resolve_insert, if_pos rfl]
  exact create_reference_raw data options

theorem create_unknown {id : String} {ids : List String} (options : LoadOptions) {l : Library A}
    (hstocked : Library.Stocked l ids) (hid : id ∉ ids)
    : (reference (l.resolve id)).create (I := I) options = .error (.unresolved id) := by
  rw [Library.resolve_of_stocked hstocked hid]
  rfl

/--
Whatever the runtime makes of a text, it makes the same of it by whichever way the text comes to it.
-/
theorem create_routes (S I : Type) [Runtime S I] {A : Type} [Shelved A] (id story : String)
    (options : LoadOptions) (l : Library A)
    : (story.toList.head? ≠ some '\ufeff' → ∀ text marked,
        Encloses id storyTypeName (StoryContent story) text → Marked marked text →
        ∃ found l', l.load (String.ofList marked) = (.ok found, l') ∧
          ∀ source ∈ [reference (l'.resolve id), reference found, asset story,
              document (String.ofList ('\ufeff' :: story.toList))],
            source.create (I := I) options = (document story : Source A).create options) ∧
      (∀ typeName, typeName ≠ storyTypeName → ∀ text marked,
        Encloses id typeName (Valid (Reader.maxDepth - 1)) text → Marked marked text →
        ∃ found l', l.load (String.ofList marked) = (.ok found, l') ∧
          (reference (l'.resolve id)).create (I := I) options = .ok none) ∧
      (∀ ids, Library.Stocked l ids → id ∉ ids →
        (reference (l.resolve id)).create (I := I) options = .error (.unresolved id)) := by
  refine ⟨?_, ?_, ?_⟩
  . intro hstory text marked htext hmarked
    exact create_story hstory options l htext hmarked
  . intro typeName htype text marked htext hmarked
    exact create_other htype options l htext hmarked
  . intro ids hstocked hid
    exact create_unknown options hstocked hid

theorem valid_of_isOk {depth : Nat} {text : List Char}
    (h : ((Reader.value depth).run (String.ofList text)).isOk = true)
    : Valid depth text := by
  unfold Valid Accepts
  cases hrun : (Reader.value depth).run (String.ofList text) with
  | error fault =>
    rw [hrun] at h
    cases h
  | ok j => exact ⟨j, rfl⟩

def escapedEnvelope : List Entry :=
  [.of "x" "[0] ".toList, .of "Data" " \x7b\"Story\": \"\\u007b\\n\"\x7d".toList,
    .of "ID" (stringText "i"), .of "TypeName" (stringText storyTypeName)]

def otherEnvelope : List Entry :=
  [.of "ID" (stringText "i"), .of "TypeName" (stringText "b"), .of "Data" "[null]".toList]

theorem create_routes_escaped
    : (∃ found l', ({} : Library).load
          ("\ufeff\x7b\"x\":[0] ,\"Data\": \x7b\"Story\": \"\\u007b\\n\"\x7d,\"ID\":\"i\"," ++
            "\"TypeName\":\"DialogueRunner.StoryAsset\"\x7d") = (.ok found, l') ∧
          ∀ source ∈ [reference (l'.resolve "i"), reference found, asset "\x7b\n",
            document "\ufeff\x7b\n"],
            source.create (I := Interpreter Unit) {} = (document "\x7b\n" : Source).create {}) ∧
      (∃ found l', ({} : Library).load "\x7b\"ID\":\"i\",\"TypeName\":\"b\",\"Data\":[null]\x7d"
        = (.ok found, l') ∧
          (reference (l'.resolve "i")).create (I := Interpreter Unit) {} = .ok none) ∧
      (reference (({} : Library).resolve "i")).create (I := Interpreter Unit) {}
        = .error (.unresolved "i") := by
  obtain ⟨hstory, hother, hunknown⟩ :=
    create_routes Unit (Interpreter Unit) "i" "\x7b\n" {} ({} : Library)
  have hblank : Blank [' '] := by simp [Blank, Reader.isBlank]
  have hnone : Blank [] := by simp [Blank]
  have hquotes : Quotes " \"\\u007b\\n\"".toList "\x7b\n" := by
    have hquad : Quad ['0', '0', '7', 'b'] (0 * 4096 + 0 * 256 + 7 * 16 + 11) :=
      .digits (by decide) (by decide) (by decide) (by decide)
    have hletter : Spells ['\\', 'n'] ['\n'] := .letter rfl .nil
    have hspells : Spells ['\\', 'u', '0', '0', '7', 'b', '\\', 'n'] "\x7b\n".toList :=
      .number hquad (by decide) hletter
    exact ⟨[' '], _, [], hblank, hspells, hnone, by decide +kernel⟩
  have htells : StoryContent "\x7b\n" " \x7b\"Story\": \"\\u007b\\n\"\x7d".toList := by
    refine ⟨[.of "Story" " \"\\u007b\\n\"".toList], ⟨[' '], [], hblank, hnone, by decide +kernel⟩,
      ⟨_, rfl, hquotes⟩, ?_⟩
    simp [OthersValid, Entry.of]
  have hothers : OthersValid escapedEnvelope ["ID", "TypeName", "Data"] Reader.maxDepth := by
    intro e he hname
    simp only [escapedEnvelope, List.mem_cons, List.not_mem_nil, or_false] at he
    rcases he with rfl | rfl | rfl | rfl
    . apply valid_of_isOk
      decide +kernel
    all_goals simp [Entry.of] at hname
  refine ⟨?_, ?_, ?_⟩
  . have hload : "\ufeff\x7b\"x\":[0] ,\"Data\": \x7b\"Story\": \"\\u007b\\n\"\x7d,\"ID\":\"i\"," ++
        "\"TypeName\":\"DialogueRunner.StoryAsset\"\x7d"
        = String.ofList
          ('\ufeff' :: '\x7b' :: (commaSeparated (escapedEnvelope.map (·.text)) ++ ['\x7d'])) := by
      decide +kernel
    have hmark : "\ufeff\x7b\n" = String.ofList ('\ufeff' :: "\x7b\n".toList) := by decide +kernel
    rw [hload, hmark]
    apply hstory (by decide +kernel) _ _ _ (Or.inr rfl)
    exact ⟨escapedEnvelope, lays_commaSeparated _, ⟨_, rfl, quotes_stringText _⟩,
      ⟨_, rfl, quotes_stringText _⟩, ⟨_, rfl, htells⟩, hothers⟩
  . have hload : "\x7b\"ID\":\"i\",\"TypeName\":\"b\",\"Data\":[null]\x7d"
        = String.ofList ('\x7b' :: (commaSeparated (otherEnvelope.map (·.text)) ++ ['\x7d'])) := by
      decide +kernel
    have hnull : Valid (Reader.maxDepth - 1) "[null]".toList := by
      apply valid_of_isOk
      decide +kernel
    rw [hload]
    apply hother "b" (by decide) _ _ _ (Or.inl rfl)
    refine ⟨otherEnvelope, lays_commaSeparated _, ⟨_, rfl, quotes_stringText _⟩,
      ⟨_, rfl, quotes_stringText _⟩, ⟨_, rfl, hnull⟩, ?_⟩
    simp [OthersValid, otherEnvelope, Entry.of]
  . exact hunknown [] .empty (by simp)

-- The envelope is one level more around its data.
theorem load_deep
    : Encloses "a" "b" (Valid Reader.maxDepth)
        (characters (Library.nestedEnvelope "a" "b" Reader.maxDepth)) ∧
      (({} : Library).load (Library.nestedEnvelope "a" "b" Reader.maxDepth).text).1
        = .error .tooDeep := by
  refine ⟨?_, ?_⟩
  . apply Library.encloses_nested
    have hdata := (laws.nesting Reader.maxDepth Reader.maxDepth).run
    rw [if_pos (Nat.le_refl _)] at hdata
    exact ⟨_, hdata⟩
  . rw [Library.load_nested ({} : Library) "a" "b" (Nat.le_refl _)]

end Source

end Ink

end Parley
