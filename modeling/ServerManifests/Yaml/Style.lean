import ServerManifests.Yaml.Position
import ServerManifests.Yaml.Scalar

/-!
How a text is written as a scalar. A text of several lines is a literal block; a
text that would read back as something else is quoted; any other text is plain.
Where the characters do not allow that form, quotes take its place, and double
quotes where single ones do not do either.
-/
namespace ServerManifests.Yaml

inductive ScalarStyle where
  | plain
  | single
  | double
  | literal
  deriving DecidableEq, Repr

namespace ScalarStyle

/-- Characters that may be written as they are. -/
def isPrintable (c : Char) : Bool :=
  let n := c.toNat
  n = 0xA || (0x20 ≤ n && n ≤ 0x7E) || (0xA0 ≤ n && n ≤ 0xD7FF) ||
    (0xE000 ≤ n && n ≤ 0xFFFD && n ≠ 0xFEFF) || 0x10000 ≤ n

/-- Whether a character of the first kind stands before one of the second. -/
def hasAdjacent (first second : Char → Bool) : List Char → Bool
  | a :: b :: rest => (first a && second b) || hasAdjacent first second (b :: rest)
  | _ => false

def isBlankSpace (c : Char) : Bool := c = ' '

def hasSpecial (cs : List Char) : Bool := cs.any (!isPrintable ·)

def hasBreak (cs : List Char) : Bool := cs.any isBreak

def hasSpaceBeforeBreak : List Char → Bool := hasAdjacent isBlankSpace isBreak

def hasSpaceAfterBreak : List Char → Bool := hasAdjacent isBreak isBlankSpace

def hasOuterSpace (cs : List Char) : Bool :=
  let isOuter (c : Char) : Bool := isBlankSpace c || isBreak c
  cs.head?.any isOuter || cs.getLast?.any isOuter

/-- A colon that ends a word. -/
def hasKeyEnd : List Char → Bool
  | [] => false
  | c :: rest => (c = ':' && endsToken rest) || hasKeyEnd rest

def hasComment : List Char → Bool := hasAdjacent (fun c => isSpace c || isBreak c) (· = '#')

/-- Whether a plain scalar that begins so would be taken for something else. -/
def startsAsIndicator : List Char → Bool
  | [] => false
  | c :: rest =>
    let indicators := ['#', ',', '[', ']', '{', '}', '&', '*', '!', '|', '>', '\'', '"', '%', '@',
      '\x60']
    indicators.contains c || ((c = '?' || c = '-') && endsToken rest)

def hasIndicator (cs : List Char) : Bool :=
  cs.take 3 = ['-', '-', '-'] || cs.take 3 = ['.', '.', '.'] || startsAsIndicator cs ||
    hasKeyEnd cs || hasComment cs

def allowsBlock (cs : List Char) : Bool :=
  !(hasSpecial cs || hasSpaceBeforeBreak cs || cs.getLast?.any isBlankSpace)

def allowsSingle (cs : List Char) : Bool :=
  !(hasSpecial cs || hasSpaceBeforeBreak cs || hasSpaceAfterBreak cs)

def allowsPlain (cs : List Char) : Bool :=
  allowsSingle cs && !(hasBreak cs || hasOuterSpace cs || hasIndicator cs)

/-- The form a text asks for. -/
def wanted (text : String) : ScalarStyle :=
  if text.toList.contains '\n' then .literal
  else if Scalar.isPlainText text then .plain
  else .single

def ofText (text : String) : ScalarStyle :=
  let cs := text.toList
  match wanted text with
  | .literal => if allowsBlock cs then .literal else .double
  | .plain => if allowsPlain cs then .plain else if allowsSingle cs then .single else .double
  | .single => if allowsSingle cs then .single else .double
  | .double => .double

end ScalarStyle

end ServerManifests.Yaml
