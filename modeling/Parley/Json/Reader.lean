import Parley.Json.Number

/-!
This module contains the reading of JSON. A reader takes the text that is left and works its way
through it, so that of several faults the first one in reading order is reported.

Loops carry the length of the text at their start, which bounds how often they go round. Arrays and
objects may be nested `maxDepth` deep, except in members that are passed over.
-/

namespace Parley.Json

/--
Reads something from the text that is left.
-/
abbrev Reader (α : Type) : Type := StateT (List Char) (Except Fault) α

namespace Reader

/--
How deep arrays and objects may be nested.
-/
def maxDepth : Nat := 127

def isBlank (c : Char) : Bool :=
  c = ' ' || c = '\n' || c = '\t' || c = '\r'

def peek : Reader (Option Char) := do
  return (← get).head?

def advance : Reader Unit :=
  modify List.tail

def peekToken : Reader (Option Char) := do
  modify (List.dropWhile isBlank)
  peek

/--
A bound for the rounds of a loop that reads at least one character in each.
-/
def rounds : Reader Nat := do
  return (← get).length + 1

def scan {α : Type} (scanner : List Char → Except Fault (α × List Char)) : Reader α := fun text =>
  scanner text

def word : List Char → Reader Unit
  | [] => pure ()
  | c :: rest => do
    match ← peek with
    | none => throw .endOfValue
    | some d => if d = c then do advance; word rest else throw .expectedIdentifier

def hexDigit? (c : Char) : Option Nat :=
  let n := c.toNat
  if '0'.toNat ≤ n && n ≤ '9'.toNat then
    some (n - '0'.toNat)
  else if 'a'.toNat ≤ n && n ≤ 'f'.toNat then
    some (n - 'a'.toNat + 10)
  else if 'A'.toNat ≤ n && n ≤ 'F'.toNat then
    some (n - 'A'.toNat + 10)
  else
    none

/--
Reads four hexadecimal digits. Fewer than four bytes before the end of the text are an early end.
-/
def hexQuad (text : List Char) : Except Fault (Nat × List Char) :=
  if (String.ofList (text.take 4)).utf8ByteSize < 4 then
    .error .endOfString
  else
    match text with
    | a :: b :: c :: d :: rest =>
      match hexDigit? a, hexDigit? b, hexDigit? c, hexDigit? d with
      | some a, some b, some c, some d => .ok (a * 4096 + b * 256 + c * 16 + d, rest)
      | _, _, _, _ => .error .invalidEscape
    | _ => .error .invalidEscape

/--
Reads the rest of an escape by number. A character beyond sixteen bits is written as a pair.
-/
def unicodeEscape (text : List Char) : Except Fault (Char × List Char) := do
  let (n, rest) ← hexQuad text
  if 0xdc00 ≤ n && n ≤ 0xdfff then
    throw .loneSurrogate
  else if 0xd800 ≤ n && n ≤ 0xdbff then
    match rest with
    | [] => throw .endOfString
    | '\\' :: [] => throw .endOfString
    | '\\' :: 'u' :: rest =>
      let (m, rest) ← hexQuad rest
      if m < 0xdc00 || 0xdfff < m then
        throw .loneSurrogate
      else
        return (Char.ofNat ((n - 0xd800) * 1024 + (m - 0xdc00) + 0x10000), rest)
    | _ => throw .openHexEscape
  else
    return (Char.ofNat n, rest)

def escape : List Char → Except Fault (Char × List Char)
  | [] => .error .endOfString
  | '"' :: rest => .ok ('"', rest)
  | '\\' :: rest => .ok ('\\', rest)
  | '/' :: rest => .ok ('/', rest)
  | 'b' :: rest => .ok ('\x08', rest)
  | 'f' :: rest => .ok ('\x0c', rest)
  | 'n' :: rest => .ok ('\n', rest)
  | 'r' :: rest => .ok ('\r', rest)
  | 't' :: rest => .ok ('\t', rest)
  | 'u' :: rest => unicodeEscape rest
  | _ => .error .invalidEscape

/--
Passes over the rest of an escape after its backslash. Numbers are not paired.
-/
def skipEscape : List Char → Except Fault (Char × List Char)
  | 'u' :: rest => (hexQuad rest).map fun (_, rest) => ('u', rest)
  | text => escape text

/--
Reads a string whose opening quote has been read.
-/
def stringBody (escape : List Char → Except Fault (Char × List Char)) (text : List Char) :
    Except Fault (String × List Char) :=
  go (text.length + 1) [] text
where
  /-- The characters that were read are in `seen`, last first. -/
  go : Nat → List Char → List Char → Except Fault (String × List Char)
    | 0, _, _ => .error .endOfString
    | _ + 1, _, [] => .error .endOfString
    | fuel + 1, seen, c :: rest =>
      if c = '"' then
        .ok (String.ofList seen.reverse, rest)
      else if c = '\\' then
        match escape rest with
        | .ok (d, rest) => go fuel (d :: seen) rest
        | .error fault => .error fault
      else if c.toNat < 0x20 then
        .error .controlCharacter
      else
        go fuel (c :: seen) rest

def quotedString : Reader String := do
  advance
  scan (stringBody escape)

def signedNumber : Reader Number := do
  if (← peek) = some '-' then
    advance
    scan (Number.read true)
  else
    scan (Number.read false)

def startsNumber (c : Char) : Bool :=
  c = '-' || c.isDigit

/--
Refuses what comes next for its kind; what is not well formed is refused for that.
-/
def invalidType {α : Type} (expected : String) : Reader α := do
  let found ←
    match ← peek with
    | some 'n' => do word "null".toList; pure .null
    | some 't' => do word "true".toList; pure (.bool true)
    | some 'f' => do word "false".toList; pure (.bool false)
    | some '"' => do pure (.string (← quotedString))
    | some '[' => pure .sequence
    | some '\x7b' => pure .map
    | some c => do
      if startsNumber c then pure (← signedNumber).found else throw .expectedValue
    | none => throw .expectedValue
  throw (.mismatch (.invalidType found expected))

/--
Reads a value that starts with one of the characters for which `starts` holds.
-/
def expecting {α : Type} (starts : Char → Bool) (expected : String) (read : Reader α)
    : Reader α := do
  match ← peekToken with
  | none => throw .endOfValue
  | some c => if starts c then read else invalidType expected

def string (expected : String) : Reader String :=
  expecting (· = '"') expected quotedString

def number (expected : String) : Reader Number :=
  expecting startsNumber expected signedNumber

def bool : Reader Bool :=
  expecting (fun c => c = 't' || c = 'f') "a boolean" do
    if (← peek) = some 't' then
      word "true".toList
      return true
    else
      word "false".toList
      return false

def integer (least greatest : Int) (expected : String) : Reader Int := do
  match ← number expected with
  | .int n =>
    if least ≤ n && n ≤ greatest then
      return n
    else
      throw (.mismatch (.invalidValue (.int n) expected))
  | .real negative d => throw (.mismatch (.invalidType (.real negative d) expected))

def colon : Reader Unit := do
  match ← peekToken with
  | some ':' => advance
  | some _ => throw .expectedColon
  | none => throw .endOfObject

/--
Whether another item follows in an array. The closing bracket stays where it is.
-/
def anotherItem (first : Bool) : Reader Bool := do
  match ← peekToken with
  | none => throw .endOfList
  | some ']' => return false
  | some c =>
    if first then
      return true
    else if c = ',' then
      advance
      match ← peekToken with
      | some ']' => throw .trailingComma
      | some _ => return true
      | none => throw .endOfValue
    else
      throw .expectedListCommaOrEnd

def closeList : Reader Unit := do
  match ← peekToken with
  | some ']' => advance
  | some ',' => do
    advance
    if (← peekToken) = some ']' then throw .trailingComma else throw .trailingCharacters
  | some _ => throw .trailingCharacters
  | none => throw .endOfList

/--
Whether another member follows in an object. The closing brace and the name's quote stay.
-/
def anotherMember (first : Bool) : Reader Bool := do
  match ← peekToken with
  | none => throw .endOfObject
  | some '\x7d' => return false
  | some c =>
    if first then
      if c = '"' then return true else throw .keyNotString
    else if c = ',' then
      advance
      match ← peekToken with
      | some '"' => return true
      | some '\x7d' => throw .trailingComma
      | some _ => throw .keyNotString
      | none => throw .endOfValue
    else
      throw .expectedObjectCommaOrEnd

def closeObject : Reader Unit := do
  match ← peekToken with
  | some '\x7d' => advance
  | some ',' => throw .trailingComma
  | some _ => throw .trailingCharacters
  | none => throw .endOfObject

def items {α : Type} (item : Reader α) : Reader (List α) := do
  go item (← rounds) true
where
  go {α : Type} (item : Reader α) : Nat → Bool → Reader (List α)
    | 0, _ => throw .endOfList
    | fuel + 1, first => do
      if ← anotherItem first then
        let x ← item
        return x :: (← go item fuel false)
      else
        return []

/--
Reads the members of an object whose opening brace has been read, up to the closing brace. `member`
reads a member from the colon on and adds it to what was gathered.
-/
def members {σ κ : Type} (name : Reader κ) (member : σ → κ → Reader σ) (start : σ) : Reader σ := do
  go name member (← rounds) true start
where
  go {σ κ : Type} (name : Reader κ) (member : σ → κ → Reader σ) : Nat → Bool → σ → Reader σ
    | 0, _, _ => throw .endOfObject
    | fuel + 1, first, state => do
      if ← anotherMember first then
        let key ← name
        let state ← member state key
        go name member fuel false state
      else
        return state

/--
Reads the value of a member and adds it; of two members of one name the later one stays.
-/
def member (value : Reader Json) (found : List (String × Json)) (name : String) :
    Reader (List (String × Json)) := do
  colon
  let x ← value
  return insert name x found

/--
Reads any value. `inner` reads the items and members inside of it, if they are allowed.
-/
def valueWith (inner : Option (Reader Json)) : Reader Json := do
  match ← peekToken with
  | none => throw .endOfValue
  | some 'n' => do word "null".toList; return .null
  | some 't' => do word "true".toList; return .bool true
  | some 'f' => do word "false".toList; return .bool false
  | some '"' => return .string (← quotedString)
  | some '[' =>
    match inner with
    | none => throw .tooDeep
    | some inner => do
      advance
      let found ← items inner
      closeList
      return .array found
  | some '\x7b' =>
    match inner with
    | none => throw .tooDeep
    | some inner => do
      advance
      let found ← members quotedString (member inner) []
      closeObject
      return .object found
  | some c =>
    if startsNumber c then
      match ← signedNumber with
      | .int n => return .int n
      | .real negative d => return .real negative d
    else
      throw .expectedValue

def value : Nat → Reader Json
  | 0 => valueWith none
  | depth + 1 => valueWith (some (value depth))

/--
A bracket that is open while a value is passed over.
-/
inductive Bracket where
  | list
  | object
deriving DecidableEq, Repr

/--
Passes over any value, however deep.
-/
def skip : Reader Unit := do
  go (2 * (← rounds)) []
where
  /-- Passes over a value inside of the brackets `open`, the innermost first. -/
  go : Nat → List Bracket → Reader Unit
    | 0, _ => throw .endOfValue
    | fuel + 1, opened => do
      match ← peekToken with
      | none => throw .endOfValue
      | some 'n' => do word "null".toList; close fuel opened
      | some 't' => do word "true".toList; close fuel opened
      | some 'f' => do word "false".toList; close fuel opened
      | some '"' => do advance; let _ ← scan (stringBody skipEscape); close fuel opened
      | some '[' => do
        advance
        if (← peekToken) = some ']' then
          advance
          close fuel opened
        else
          into fuel .list opened
      | some '\x7b' => do
        advance
        if (← peekToken) = some '\x7d' then
          advance
          close fuel opened
        else
          into fuel .object opened
      | some c =>
        if c = '-' then do
          advance
          scan fun text => (Number.skip text).map fun rest => ((), rest)
          close fuel opened
        else if c.isDigit then do
          scan fun text => (Number.skip text).map fun rest => ((), rest)
          close fuel opened
        else
          throw .expectedValue
  /-- Goes on to the next item or member of the bracket. -/
  into : Nat → Bracket → List Bracket → Reader Unit
    | 0, _, _ => throw .endOfValue
    | fuel + 1, .list, opened => do
      if (← peekToken) = none then throw .endOfList
      go fuel (.list :: opened)
    | fuel + 1, .object, opened => do
      match ← peekToken with
      | some '"' => advance
      | some _ => throw .keyNotString
      | none => throw .endOfObject
      let _ ← scan (stringBody skipEscape)
      colon
      go fuel (.object :: opened)
  /-- Closes brackets after a value, or goes on after a comma. -/
  close : Nat → List Bracket → Reader Unit
    | _, [] => return
    | 0, _ => throw .endOfValue
    | fuel + 1, .list :: opened => do
      match ← peekToken with
      | some ',' => do advance; go fuel (.list :: opened)
      | some ']' => do advance; close fuel opened
      | some _ => throw .expectedListCommaOrEnd
      | none => throw .endOfList
    | fuel + 1, .object :: opened => do
      match ← peekToken with
      | some ',' => do advance; into fuel .object opened
      | some '\x7d' => do advance; close fuel opened
      | some _ => throw .expectedObjectCommaOrEnd
      | none => throw .endOfObject

def run {α : Type} (reader : Reader α) (text : String) : Except Fault α :=
  match StateT.run reader text.toList with
  | .error fault => .error fault
  | .ok (x, rest) => if (rest.dropWhile isBlank).isEmpty then .ok x else .error .trailingCharacters

end Reader

def ofText? (text : String) : Except Fault Json :=
  (Reader.value Reader.maxDepth).run text

end Parley.Json
