import ServerManifests.Yaml.Scalar
import ServerManifests.Yaml.Token.Scalar

/-!
The tokens of a YAML text, and how properties of nodes are read: anchors, aliases, tags and
directives. A scalar knows whether it was plain, since only plain ones stand for anything
but text. A tag is a handle, which a directive may give a meaning, and a suffix; `!<...>`
gives the whole tag as suffix of the empty handle, and so does a lone `!`.
-/
namespace ServerManifests.Yaml

/-- The bytes of a tag, with escaped ones decoded. -/
abbrev TagBytes := List UInt8

/-- Indicators, the starts and ends of blocks that indentation gives, properties of nodes and
scalars. -/
inductive Token where
  | version (major minor : Nat)
  | tagHandle (handle : TagBytes) (meaning : TagBytes)
  | documentStart
  | documentEnd
  | blockSequenceStart
  | blockMappingStart
  | blockEnd
  | flowSequenceStart
  | flowSequenceEnd
  | flowMappingStart
  | flowMappingEnd
  | blockEntry
  | flowEntry
  | key
  | value
  | alias (name : String)
  | anchor (name : String)
  | tag (handle suffix : TagBytes)
  | scalar (text : String) (plain : Bool)
  deriving DecidableEq, Repr

def byteOf (c : Char) : UInt8 := c.toNat.toUInt8

namespace Property

/-- The name of an anchor or an alias, after its indicator. -/
def readName? (c : Cursor) : Option (String × Cursor) :=
  let (name, c) := c.span isNameChar
  let mayEnd := c.endsToken ||
    c.rest.head?.any fun x => ['?', ':', ',', ']', '}', '%', '@', '\x60'].contains x
  if name.isEmpty || !mayEnd then none else some (String.ofList name, c)

def isUriChar (verbatim : Bool) (c : Char) : Bool :=
  isNameChar c ||
    [';', '/', '?', ':', '@', '&', '=', '+', '$', '.', '!', '~', '*', '\'', '(', ')'].contains c ||
    (verbatim && [',', '[', ']'].contains c)

/-- The number of bytes of a character whose encoding starts with `lead`. -/
def sequenceLength? (lead : Nat) : Option Nat :=
  if lead < 0x80 then some 1
  else if lead / 0x20 = 0x6 then some 2
  else if lead / 0x10 = 0xE then some 3
  else if lead / 0x08 = 0x1E then some 4
  else none

/-- A percent sign and two hexadecimal digits. -/
def escapedByte? (c : Cursor) : Option (Nat × Cursor) :=
  match c.rest with
  | '%' :: high :: low :: _ => do
    let high ← Scalar.hexDigit? high
    let low ← Scalar.hexDigit? low
    return (16 * high + low, c.advance 3)
  | _ => none

/-- The further bytes of an escaped character. -/
def readTrail? : (count : Nat) → Cursor → Option (TagBytes × Cursor)
  | 0, c => some ([], c)
  | count + 1, c => do
    let (byte, c) ← escapedByte? c
    if byte / 0x40 ≠ 0x2 then none
    let (rest, c) ← readTrail? count c
    return (byte.toUInt8 :: rest, c)

def readUri? (verbatim : Bool) : (fuel : Nat) → Cursor → Option (TagBytes × Cursor)
  | 0, c => some ([], c)
  | fuel + 1, c =>
    match c.rest with
    | [] => some ([], c)
    | x :: _ =>
      if x = '%' then do
        let (lead, c) ← escapedByte? c
        let length ← sequenceLength? lead
        let (trail, c) ← readTrail? (length - 1) c
        let (rest, c) ← readUri? verbatim fuel c
        return (lead.toUInt8 :: trail ++ rest, c)
      else if isUriChar verbatim x then do
        let (rest, c) ← readUri? verbatim fuel (c.advance 1)
        return (byteOf x :: rest, c)
      else some ([], c)

/-- A part of a tag is cut at its first zero byte. -/
def cutAtZero (bytes : TagBytes) : TagBytes := bytes.takeWhile (· ≠ 0)

/-- A part of a tag that may not be left out. -/
def readTagPart? (verbatim : Bool) (c : Cursor) : Option (TagBytes × Cursor) := do
  let (bytes, c) ← readUri? verbatim c.rest.length c
  if bytes.isEmpty then none else some (cutAtZero bytes, c)

/-- An exclamation mark, a name and, where there is one, a second mark. -/
def readHandle (c : Cursor) : TagBytes × Cursor :=
  let (name, after) := (c.advance 1).span isNameChar
  let opened := byteOf '!' :: name.map byteOf
  match after.rest with
  | '!' :: _ => (opened ++ [byteOf '!'], after.advance 1)
  | _ => (opened, after)

def exclamation : TagBytes := [byteOf '!']

def isClosed (handle : TagBytes) : Bool :=
  2 ≤ handle.length && handle.getLast? = some (byteOf '!')

/-- Reads a tag from its exclamation mark. -/
def readTag? (inFlow : Bool) (c : Cursor) : Option (Token × Cursor) := do
  let (tag, c) ← match c.rest with
    | _ :: '<' :: _ => do
      let (suffix, c) ← readTagPart? true (c.advance 2)
      if c.rest.head? = some '>' then some (Token.tag [] suffix, c.advance 1) else none
    | _ => do
      let (handle, after) := readHandle c
      if isClosed handle then
        let (suffix, c) ← readTagPart? false after
        some (Token.tag handle suffix, c)
      else
        let (bytes, c) ← readUri? false after.rest.length after
        let suffix := cutAtZero (handle.drop 1 ++ bytes)
        if suffix.isEmpty then some (Token.tag [] exclamation, c)
        else some (Token.tag exclamation suffix, c)
  if c.endsToken || (inFlow && c.rest.head? = some ',') then some (tag, c) else none

def readNumber? (c : Cursor) : Option (Nat × Cursor) :=
  let (digits, c) := c.span Char.isDigit
  if digits.isEmpty || 9 < digits.length then none
  else (Scalar.natural? 10 digits).map (·, c)

def readVersion? (c : Cursor) : Option (Token × Cursor) := do
  let (major, c) ← readNumber? (c.skip isSpace)
  if c.rest.head? ≠ some '.' then none
  let (minor, c) ← readNumber? (c.advance 1)
  return (.version major minor, c)

def readTagHandle? (c : Cursor) : Option (Token × Cursor) := do
  let c := c.skip isSpace
  if c.rest.head? ≠ some '!' then none
  let (handle, c) := readHandle c
  if handle ≠ exclamation && !isClosed handle then none
  if !c.rest.head?.any isSpace then none
  let (meaning, c) ← readTagPart? true (c.skip isSpace)
  if c.endsToken then some (.tagHandle handle meaning, c) else none

/-- Reads a directive line from its percent sign. -/
def readDirective? (c : Cursor) : Option (Token × Cursor) := do
  let (name, c) := (c.advance 1).span isNameChar
  if !c.endsToken then none
  let (token, c) ←
    if name = ['Y', 'A', 'M', 'L'] then readVersion? c
    else if name = ['T', 'A', 'G'] then readTagHandle? c
    else none
  return (token, ← c.finishLine?)

end Property

end ServerManifests.Yaml
