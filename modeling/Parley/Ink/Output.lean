import Parley.Ink.Content

/-!
This module contains the output of a story before it becomes a line: a stream of texts, glue and
marks. It says which blanks and newlines are kept, and how text and tags are read off the stream. A
stream is held with its newest entry first.
-/

namespace Parley.Ink

inductive Output where
  | text (s : String)
  | glue
  /-- The start of a text that is evaluated for an expression. -/
  | startString
  | startTag
  | endTag
  /-- A datum that is not shown. -/
  | hidden
deriving DecidableEq, Repr

namespace Output

def isInlineBlank (c : Char) : Bool :=
  c = ' ' || c = '\t'

def isText : Output → Bool
  | .text _ => true
  | _ => false

def isNewline : Output → Bool
  | .text s => s = "\n"
  | _ => false

def isBlank : Output → Bool
  | .text s => s.toList.all isInlineBlank
  | _ => false

def isProper (o : Output) : Bool :=
  o.isText && !o.isNewline && !o.isBlank

def isMark : Output → Bool
  | .startString | .startTag | .endTag => true
  | _ => false

/--
A text without the blanks at its start, at its ends of lines and at its end, and with one space for
other runs of blanks.
-/
def clean (text : String) : String :=
  String.ofList (go 0 none 0 text.toList)
where
  /-- The position `i` is reached, a run of blanks started at `run`, and the line at `line`. -/
  go (i : Nat) (run : Option Nat) (line : Nat) : List Char → List Char
    | [] => []
    | c :: rest =>
      if isInlineBlank c then
        go (i + 1) (run.orElse fun _ => some i) line rest
      else
        let isInner := match run with
          | some start => c ≠ '\n' && 0 < start && start ≠ line
          | none => false
        let tail := go (i + 1) none (if c = '\n' then i + 1 else line) rest
        if isInner then ' ' :: c :: tail else c :: tail

/--
A text split so that newlines among the blanks at its two ends stand alone. Several newlines at one
end become one. A text without such newlines is not split.
-/
def split (text : String) : List String :=
  let cs := text.toList
  let isSkipped (c : Char) : Bool := isInlineBlank c || c = '\n'
  let newlines (offset : Nat) (l : List Char) : List Nat :=
    (l.mapIdx fun i c => (offset + i, c)).filterMap fun (i, c) => if c = '\n' then some i else none
  let tailLength := (cs.reverse.takeWhile isSkipped).length
  let headLines := newlines 0 (cs.takeWhile isSkipped)
  let tailStart := cs.length - tailLength
  let tailLines := newlines tailStart (cs.drop tailStart)
  match headLines.head?, headLines.getLast?, tailLines.head?, tailLines.getLast? with
  | none, _, none, _ => [text]
  | headFirst, headLast, tailFirst, tailLast =>
    let leading := cs.take (headFirst.getD 0)
    let innerStart := match headLast with | some i => i + 1 | none => 0
    let innerEnd := tailFirst.getD cs.length
    let inner := (cs.drop innerStart).take (innerEnd - innerStart)
    let closes := match tailFirst, headLast with
      | some t, some h => decide (h < t)
      | some _, none => true
      | none, _ => false
    let trailing := match tailLast with | some i => cs.drop (i + 1) | none => []
    let part (l : List Char) : List String := if l.isEmpty then [] else [String.ofList l]
    part leading ++ (if headFirst.isSome then ["\n"] else []) ++ part inner ++
      (if closes then "\n" :: part trailing else [])

def hasContent (s : List Output) : Bool :=
  s.any isText

/--
Whether the last text of the output, blanks aside, is the newline.
-/
def endsInNewline : List Output → Bool
  | [] => false
  | o :: rest =>
    if o.isMark then false
    else if o.isNewline then true
    else if o.isProper then false
    else endsInNewline rest

def inString (s : List Output) : Bool :=
  s.contains .startString

/--
The output without the newlines at its end, and without the blanks behind the first of them.
-/
def trimNewlines (s : List Output) : List Output :=
  let stops (o : Output) : Bool := o.isMark || o.isProper
  let recent := (s.takeWhile fun o => !stops o).reverse
  let kept := recent.takeWhile fun o => !o.isNewline
  let trimmed := recent.dropWhile fun o => !o.isNewline
  (kept ++ trimmed.filter fun o => !o.isText).reverse ++ s.dropWhile fun o => !stops o

def removeGlue : List Output → List Output
  | [] => []
  | o :: rest =>
    if o.isMark then o :: rest
    else if o = .glue then removeGlue rest
    else o :: removeGlue rest

/--
What trims new text: glue that waits for it, or the start of the function that writes it.
-/
structure Trim where
  byGlue : Bool
  byFunction : Bool

/--
What trims new text. `functionStart` is the length of the output at the start of the current
function, if that has not written anything yet. A text for an expression keeps what is before it.
-/
def trim (functionStart : Option Nat) : List Output → Trim
  | [] => ⟨false, functionStart.isSome⟩
  | .startString :: rest => ⟨false, functionStart.any (rest.length < ·)⟩
  | .glue :: _ => ⟨true, functionStart.isSome⟩
  | _ :: rest => trim functionStart rest

/--
Adds one text that is not to be split. The flag says whether the current function has written its
first proper text by this.
-/
def addText (functionStart : Option Nat) (text : String) (s : List Output) : List Output × Bool :=
  let o := Output.text text
  let trim := trim functionStart s
  if trim.byGlue || trim.byFunction then
    if o.isNewline then
      (s, false)
    else if o.isProper then
      (o :: (if trim.byGlue then removeGlue s else s), trim.byFunction)
    else
      (o :: s, false)
  else if o.isNewline && (endsInNewline s || !hasContent s) then
    (s, false)
  else
    (o :: s, false)

def addGlue (s : List Output) : List Output :=
  .glue :: trimNewlines s

/--
The output without the blanks and newlines at its end. At most `limit` entries are looked at.
-/
def trimEnd (limit : Nat) (s : List Output) : List Output :=
  match limit, s with
  | 0, s => s
  | _, [] => []
  | limit + 1, o :: rest =>
    if !o.isText then o :: trimEnd limit rest
    else if o.isProper then o :: rest
    else trimEnd limit rest

def texts (inTag : Bool) : List Output → List String
  | [] => []
  | .startTag :: rest => texts true rest
  | .endTag :: rest => texts false rest
  | .text s :: rest => if inTag then texts inTag rest else s :: texts inTag rest
  | _ :: rest => texts inTag rest

def currentText (s : List Output) : String :=
  clean (String.join (texts false s.reverse))

/--
The tags, the oldest entry of the output first. `tag` is the text of the tag that is open.
-/
def tagTexts (inTag : Bool) (tag : String) : List Output → List String
  | [] => pending tag
  | .startTag :: rest =>
    if inTag then pending tag ++ tagTexts true "" rest else tagTexts true tag rest
  | .endTag :: rest => pending tag ++ tagTexts false "" rest
  | .text s :: rest => tagTexts inTag (if inTag then tag ++ s else tag) rest
  | _ :: rest => tagTexts inTag tag rest
where
  pending (tag : String) : List String := if tag.isEmpty then [] else [clean tag]

def currentTags (s : List Output) : List String :=
  tagTexts false "" s.reverse

/--
What became of a newline after more output.
-/
inductive NewlineFate where
  | unchanged
  /-- There is text or a tag behind it, so that it ends its line. -/
  | passed
  | removed
deriving DecidableEq, Repr

/--
The fate of the newline at the end of the output `before`.
-/
def newlineFate (before after : List Output) : NewlineFate :=
  let old := (currentText before).toList
  let new := (currentText after).toList
  let stillThere := !old.isEmpty && (new.take old.length).length = old.length &&
    new[old.length - 1]? = some '\n'
  let oldTags := (currentTags before).length
  let newTags := (currentTags after).length
  if !stillThere then .removed
  else if oldTags = newTags && old.length = new.length then .unchanged
  else if oldTags < newTags then .passed
  else if (new.drop old.length).all isInlineBlank then .unchanged
  else .passed

end Output

end Parley.Ink
