import Mathlib.Data.List.DropRight
import Mathlib.Data.List.TakeWhile
import Parley.Text.Blank
import Parley.Text.Lines

namespace Parley.Text

/--
Whether a text is the content of another one: what is left of it without white space at both ends.
-/
structure Trims (text content : List Char) : Prop where
  parts : ∃ front back, text = front ++ content ++ back ∧ (∀ c ∈ front, isBlank c = true) ∧
    ∀ c ∈ back, isBlank c = true
  first : ∀ c ∈ content.head?, isBlank c = false
  last : ∀ c ∈ content.getLast?, isBlank c = false

/--
Whether some characters are a word: there is one, and none is white space.
-/
def IsWord (word : List Char) : Prop :=
  word ≠ [] ∧ ∀ c ∈ word, isBlank c = false

/--
Whether a text consists of these words, with white space between any two of them, and at the ends or
not.
-/
inductive Words : List Char → List (List Char) → Prop where
  | blank {text : List Char} (blank : ∀ c ∈ text, isBlank c = true) : Words text []
  | word {gap word rest : List Char} {words : List (List Char)}
      (blank : ∀ c ∈ gap, isBlank c = true) (solid : IsWord word)
      (ends : ∀ c ∈ rest.head?, isBlank c = true) (others : Words rest words)
      : Words (gap ++ word ++ rest) (word :: words)

/--
Whether a text is cut into these lines: each but the last one ends with its only newline, and so
does the last one unless the text ends without a newline.
-/
structure Lines (text : List Char) (lines : List (List Char)) : Prop where
  whole : lines.flatten = text
  ended : ∀ line ∈ lines.dropLast, ∃ body, '\n' ∉ body ∧ line = body ++ ['\n']
  last : ∀ line ∈ lines.getLast?, line ≠ [] ∧
    ∃ body, '\n' ∉ body ∧ (line = body ++ ['\n'] ∨ line = body)

section Trim

variable {text content : List Char}

theorem head?_dropWhile (text : List Char)
    : ∀ c ∈ (text.dropWhile isBlank).head?, isBlank c = false := by
  intro c hhead
  have hnot := List.head?_dropWhile_not isBlank text
  rw [Option.mem_def.mp hhead] at hnot
  exact hnot

theorem dropWhile_of_head? (hfirst : ∀ c ∈ text.head?, isBlank c = false)
    : text.dropWhile isBlank = text := by
  cases text with
  | nil => rfl
  | cons c rest =>
    have hfirst : isBlank c = false := hfirst c rfl
    simp [hfirst]

theorem trims_trim (text : List Char) : Trims text (trim text) where
  parts := by
    refine ⟨text.takeWhile isBlank, (text.dropWhile isBlank).rtakeWhile isBlank, ?_, ?_, ?_⟩
    . have hcore : trim text ++ (text.dropWhile isBlank).rtakeWhile isBlank
          = text.dropWhile isBlank :=
        List.rdropWhile_append_rtakeWhile
      rw [List.append_assoc, hcore, List.takeWhile_append_dropWhile]
    . exact fun c => List.mem_takeWhile_imp
    . exact fun c => List.mem_rtakeWhile_imp
  first := by
    intro c hhead
    obtain ⟨back, hcore⟩ : trim text <+: text.dropWhile isBlank := List.rdropWhile_prefix ..
    apply head?_dropWhile text
    rw [← hcore, List.head?_append, Option.mem_def.mp hhead]
    rfl
  last := by
    rw [trim, List.getLast?_reverse]
    exact head?_dropWhile _

theorem Trims.eq (h : Trims text content) : trim text = content := by
  obtain ⟨front, back, rfl, hfront, hback⟩ := h.parts
  unfold trim
  rw [List.append_assoc, List.dropWhile_append_of_pos hfront]
  cases content with
  | nil =>
    rw [List.nil_append, List.dropWhile_eq_nil_iff.mpr hback]
    rfl
  | cons c rest =>
    have hcore : (c :: rest ++ back).dropWhile isBlank = c :: rest ++ back :=
      dropWhile_of_head? h.first
    have hlast : ∀ d ∈ (c :: rest).reverse.head?, isBlank d = false := by
      rw [List.head?_reverse]
      exact h.last
    rw [hcore, List.reverse_append, List.dropWhile_append_of_pos (by simpa using hback),
      dropWhile_of_head? hlast, List.reverse_reverse]

theorem trims_iff : Trims text content ↔ trim text = content := by
  constructor
  . exact Trims.eq
  . rintro rfl
    exact trims_trim text

theorem trim_eq_nil_iff : trim text = [] ↔ ∀ c ∈ text, isBlank c = true := by
  constructor
  . intro hnone
    obtain ⟨front, back, htext, hfront, hback⟩ := (trims_iff.mpr hnone).parts
    rw [htext, List.append_nil, List.forall_mem_append]
    exact ⟨hfront, hback⟩
  . intro hblank
    refine Trims.eq ⟨⟨text, [], by simp, hblank, List.forall_mem_nil _⟩, ?_, ?_⟩
    . rintro c ⟨⟩
    . rintro c ⟨⟩

end Trim

section Words

variable {text : List Char} {parts : List (List Char)}

theorem words_gap {gap : List Char} (hblank : ∀ c ∈ gap, isBlank c = true) (text : List Char)
    : Text.words (gap ++ text) = Text.words text := by
  induction gap with
  | nil => rfl
  | cons c gap ih =>
    rw [List.forall_mem_cons] at hblank
    rw [← ih hblank.2]
    simp [Text.words, words.go, hblank.1]

theorem words_go {word : List Char} (hsolid : ∀ c ∈ word, isBlank c = false) (read rest : List Char)
    : words.go read (word ++ rest) = words.go (word.reverse ++ read) rest := by
  induction word generalizing read with
  | nil => rfl
  | cons c word ih =>
    rw [List.forall_mem_cons] at hsolid
    simp [words.go, hsolid.1, ih hsolid.2]

theorem words_word {word rest : List Char} (hword : IsWord word)
    (hends : ∀ c ∈ rest.head?, isBlank c = true)
    : Text.words (word ++ rest) = word :: Text.words rest := by
  have hsome : word ≠ [] := hword.1
  unfold Text.words
  rw [words_go hword.2, List.append_nil]
  cases rest with
  | nil => simp [words.go, hsome]
  | cons c rest =>
    have hblank : isBlank c = true := hends c rfl
    simp [words.go, hsome, hblank]

theorem Words.eq (h : Words text parts) : Text.words text = parts := by
  induction h with
  | blank hblank =>
    have hnone := words_gap hblank []
    rw [List.append_nil] at hnone
    exact hnone
  | word hblank hword hends _ ih =>
    rw [List.append_assoc, words_gap hblank, words_word hword hends, ih]

theorem exists_word {c : Char} (hsolid : isBlank c = false) (more : List Char)
    : ∃ word rest, c :: more = word ++ rest ∧ IsWord word ∧ ∀ d ∈ rest.head?, isBlank d = true := by
  refine ⟨c :: more.takeWhile (!isBlank ·), more.dropWhile (!isBlank ·), ?_, ⟨by simp, ?_⟩, ?_⟩
  . rw [List.cons_append, List.takeWhile_append_dropWhile]
  . rw [List.forall_mem_cons]
    refine ⟨hsolid, ?_⟩
    intro d hmem
    simpa using List.mem_takeWhile_imp hmem
  . intro d hhead
    have hnot := List.head?_dropWhile_not (!isBlank ·) more
    rw [Option.mem_def.mp hhead] at hnot
    simpa using hnot

-- By induction on the length of the text. What is left behind the first word is shorter.
theorem exists_words (text : List Char) : ∃ parts, Words text parts := by
  induction hlength : text.length using Nat.strong_induction_on generalizing text with
  | _ length ih =>
    have hgap : ∀ c ∈ text.takeWhile isBlank, isBlank c = true := fun c => List.mem_takeWhile_imp
    have htext : text.takeWhile isBlank ++ text.dropWhile isBlank = text :=
      List.takeWhile_append_dropWhile
    have hfirst := head?_dropWhile text
    generalize text.takeWhile isBlank = gap at hgap htext
    generalize text.dropWhile isBlank = core at htext hfirst
    cases core with
    | nil =>
      rw [List.append_nil] at htext
      exact ⟨[], .blank (htext ▸ hgap)⟩
    | cons c more =>
      obtain ⟨word, rest, hcore, hword, hends⟩ := exists_word (hfirst c rfl) more
      have hshorter : rest.length < length := by
        have hpos := List.length_pos_of_ne_nil hword.1
        rw [← hlength, ← htext, hcore, List.length_append, List.length_append]
        omega
      obtain ⟨parts, hparts⟩ := ih rest.length hshorter rest rfl
      refine ⟨word :: parts, ?_⟩
      rw [← htext, hcore, ← List.append_assoc]
      exact .word hgap hword hends hparts

theorem words_words (text : List Char) : Words text (Text.words text) := by
  obtain ⟨parts, hparts⟩ := exists_words text
  rw [hparts.eq]
  exact hparts

theorem words_iff : Words text parts ↔ Text.words text = parts := by
  constructor
  . exact Words.eq
  . rintro rfl
    exact words_words text

end Words

section Lines

variable {text body : List Char} {parts : List (List Char)}

theorem Lines.cons (h : Lines text parts) (hbody : '\n' ∉ body)
    : Lines (body ++ '\n' :: text) ((body ++ ['\n']) :: parts) := by
  cases parts with
  | nil =>
    obtain rfl : [] = text := h.whole
    refine ⟨by simp, by simp, ?_⟩
    rintro line ⟨⟩
    exact ⟨by simp, body, hbody, Or.inl rfl⟩
  | cons line parts =>
    refine ⟨?_, ?_, ?_⟩
    . rw [List.flatten_cons, h.whole, List.append_assoc]
      rfl
    . rw [List.dropLast_cons_cons, List.forall_mem_cons]
      exact ⟨⟨body, hbody, rfl⟩, h.ended⟩
    . rw [List.getLast?_cons_cons]
      exact h.last

end Lines

end Parley.Text
