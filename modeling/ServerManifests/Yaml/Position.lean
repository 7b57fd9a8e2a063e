/-!
Places in a text and the characters that structure it. A line ends with a
carriage return, a line feed, both, a next-line character or one of the two
Unicode separators; all but the separators count as a line feed.
-/
namespace ServerManifests.Yaml

/-- The number of bytes that a text takes. -/
def byteLength (cs : List Char) : Nat := cs.foldr (fun c n => c.utf8Size + n) 0

structure Position where
  /-- The number of bytes before it. -/
  byte : Nat
  line : Nat
  /-- The number of characters before it on its line. -/
  column : Nat
  deriving Repr

namespace Position

def start : Position := ⟨0, 0, 0⟩

def advance (p : Position) (passed : List Char) : Position :=
  ⟨p.byte + byteLength passed, p.line, p.column + passed.length⟩

def nextLine (p : Position) (passed : List Char) : Position :=
  ⟨p.byte + byteLength passed, p.line + 1, 0⟩

end Position

/-- A place in a text with what follows it. -/
structure Cursor where
  place : Position
  rest : List Char

def isBreak (c : Char) : Bool :=
  c = '\n' || c = '\r' || c = '\u0085' || c = '\u2028' || c = '\u2029'

def isSpace (c : Char) : Bool := c = ' ' || c = '\t'

/-- Letters, digits, dash and underscore: the characters of names. -/
def isNameChar (c : Char) : Bool := c.isAlphanum || c = '-' || c = '_'

def isByteOrderMark (c : Char) : Bool := c = '\ufeff'

/-- The characters a document may hold. -/
def isAllowed (c : Char) : Bool :=
  let n := c.toNat
  n = 0x9 || n = 0xA || n = 0xD || (0x20 ≤ n && n ≤ 0x7E) || n = 0x85 ||
    (0xA0 ≤ n && n ≤ 0xD7FF) || (0xE000 ≤ n && n ≤ 0xFFFD) || 0x10000 ≤ n

/-- Whether a token may end before `rest`. -/
def endsToken : List Char → Bool
  | [] => true
  | c :: _ => isSpace c || isBreak c

/-- Three dashes or dots that stand alone at the start of a line. -/
def isDocumentMark (mark : Char) (place : Position) (rest : List Char) : Bool :=
  place.column = 0 && rest.take 3 = [mark, mark, mark] && endsToken (rest.drop 3)

def atDocumentMark (place : Position) (rest : List Char) : Bool :=
  isDocumentMark '-' place rest || isDocumentMark '.' place rest

namespace Cursor

def ofList (cs : List Char) : Cursor := ⟨.start, cs⟩

/-- Past `count` characters of one line. -/
def advance (c : Cursor) (count : Nat) : Cursor :=
  ⟨c.place.advance (c.rest.take count), c.rest.drop count⟩

/-- The characters of one line that satisfy `p`, and the place after them. -/
def span (p : Char → Bool) (c : Cursor) : List Char × Cursor :=
  let taken := c.rest.takeWhile p
  (taken, c.advance taken.length)

def skip (p : Char → Bool) (c : Cursor) : Cursor := (c.span p).2

/-- The line break here, as the text keeps it, and the place after it. -/
def lineBreak? (c : Cursor) : Option (Char × Cursor) :=
  match c.rest with
  | '\r' :: '\n' :: rest => some ('\n', ⟨c.place.nextLine ['\r', '\n'], rest⟩)
  | first :: rest =>
    if isBreak first then
      let kept := if first = '\u2028' || first = '\u2029' then first else '\n'
      some (kept, ⟨c.place.nextLine [first], rest⟩)
    else none
  | [] => none

def endsToken (c : Cursor) : Bool := Yaml.endsToken c.rest

/-- Past blanks and a comment, which runs to the end of the line. -/
def skipComment (c : Cursor) : Cursor :=
  let c := c.skip isSpace
  match c.rest with
  | '#' :: _ => c.skip fun x => !isBreak x
  | _ => c

/-- Past the rest of a line that holds nothing but blanks and a comment. -/
def finishLine? (c : Cursor) : Option Cursor :=
  let c := c.skipComment
  match c.rest with
  | [] => some c
  | _ => c.lineBreak?.map (·.2)

end Cursor

end ServerManifests.Yaml
