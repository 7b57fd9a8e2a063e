import ServerManifests.Json.Basic
import ServerManifests.Yaml.Style
import ServerManifests.Yaml.Value

/-!
Trees as YAML documents in block style. A document is a list of rows. A row ends
with a line feed, or with a line separator of the text it holds; rows of a part
are written relative to that part and shifted by the parts around it, except that
empty rows stay empty.
-/
namespace ServerManifests.Yaml

structure Row where
  text : List Char
  ending : Char := '\n'
  deriving DecidableEq, Repr

namespace Row

def spaces (n : Nat) : List Char := List.replicate n ' '

def shift (n : Nat) (row : Row) : Row :=
  if row.text.isEmpty then row else { row with text := spaces n ++ row.text }

def chars (row : Row) : List Char := row.text ++ [row.ending]

/-- The complete rows of a text and what follows the last of them. -/
def split (row : List Char) : List Char → List Row × List Char
  | [] => ([], row.reverse)
  | c :: rest =>
    if isBreak c then
      let (rows, last) := split [] rest
      (⟨row.reverse, c⟩ :: rows, last)
    else split (c :: row) rest

end Row

namespace Printer

def upperHexDigit (n : Nat) : Char := if n < 10 then Char.ofNat (48 + n) else Char.ofNat (55 + n)

/-- The low `width` hexadecimal digits of a number. -/
def upperHex (width n : Nat) : List Char :=
  ((List.range width).map fun i => upperHexDigit ((n >>> (4 * i)) % 16)).reverse

def namedEscapes : List (Char × Char) :=
  [('\x00', '0'), ('\x07', 'a'), ('\x08', 'b'), ('\t', 't'), ('\n', 'n'), ('\x0b', 'v'),
    ('\x0c', 'f'), ('\r', 'r'), ('\x1b', 'e'), ('"', '"'), ('\\', '\\'), ('\u0085', 'N'),
    ('\u2028', 'L'), ('\u2029', 'P')]

def escape (c : Char) : List Char :=
  match namedEscapes.lookup c with
  | some letter => ['\\', letter]
  | none =>
    if ScalarStyle.isPrintable c then [c]
    else if c.toNat ≤ 0xFF then '\\' :: 'x' :: upperHex 2 c.toNat
    else '\\' :: 'u' :: upperHex 4 c.toNat

def doubleQuoted (cs : List Char) : List Char := '"' :: cs.flatMap escape ++ ['"']

/-- A quote inside single quotes is written twice. -/
def singleQuoted (cs : List Char) : List Char :=
  '\'' :: cs.flatMap (fun c => if c = '\'' then ['\'', '\''] else [c]) ++ ['\'']

/-- The rows of a scalar whose first row continues another; further rows stand
two columns in. -/
abbrev ScalarRows := Row × List Row

def ofLine (text : List Char) : ScalarRows := (⟨text, '\n'⟩, [])

def singleRows (cs : List Char) : ScalarRows :=
  match Row.split [] (singleQuoted cs) with
  | ([], last) => ofLine last
  | (first :: rows, last) => (first, rows ++ [⟨last, '\n'⟩])

/-- The indicators of a literal block: the indentation where the text does not
show it, and what becomes of the breaks at its end. -/
def literalHeader (cs : List Char) : List Char :=
  let indentation := if cs.head?.any (fun c => c = ' ' || isBreak c) then ['2'] else []
  let chomping := match cs.reverse with
    | [] => ['-']
    | last :: before =>
      if !isBreak last then ['-']
      else if before.isEmpty || before.head?.any isBreak then ['+']
      else []
  '|' :: (indentation ++ chomping)

def literalRows (cs : List Char) : ScalarRows :=
  let (rows, last) := Row.split [] cs
  (⟨literalHeader cs, '\n'⟩, if last.isEmpty then rows else rows ++ [⟨last, '\n'⟩])

def textRows (text : String) : ScalarRows :=
  let cs := text.toList
  match ScalarStyle.ofText text with
  | .plain => ofLine cs
  | .single => singleRows cs
  | .double => ofLine (doubleQuoted cs)
  | .literal => literalRows cs

/-- Puts a text in front of the first of several rows. -/
def lead (text : List Char) (rows : ScalarRows) : List Row :=
  { rows.1 with text := text ++ rows.1.text } :: rows.2.map (Row.shift 2)

/-- A list item or a part of a long entry: its rows after an indicator. -/
def hang (indicator : Char) : List Row → List Row
  | [] => [⟨[indicator], '\n'⟩]
  | first :: rest => lead [indicator, ' '] (first, rest)

/-- A key on the line of its value is one line of at most 128 bytes. -/
def isShortKey (key : String) : Bool :=
  !ScalarStyle.hasBreak key.toList && key.utf8ByteSize ≤ 128

def keyText (key : String) : List Char := (textRows key).1.text

/-- What the rows of a value are to the row they belong to. -/
inductive Body where
  /-- The first row continues the row of a key or an indicator. -/
  | scalar (rows : ScalarRows)
  /-- The rows stand below a key, as far in as the key. -/
  | items (rows : List Row)
  /-- The rows stand below a key, two columns further in. -/
  | entries (rows : List Row)

namespace Body

/-- The rows where the body stands alone or after an indicator. -/
def rows : Body → List Row
  | .scalar (first, more) => first :: more
  | .items rows => rows
  | .entries rows => rows

def afterKey (key : List Char) : Body → List Row
  | .scalar rows => lead (key ++ [':', ' ']) rows
  | .items rows => ⟨key ++ [':'], '\n'⟩ :: rows
  | .entries rows => ⟨key ++ [':'], '\n'⟩ :: rows.map (Row.shift 2)

end Body

def entryRows (key : String) (body : Body) : List Row :=
  if isShortKey key then body.afterKey (keyText key)
  else hang '?' (Body.scalar (textRows key)).rows ++ hang ':' body.rows

mutual

def body : Json → Body
  | .null => .scalar (ofLine "null".toList)
  | .bool b => .scalar (ofLine (if b then "true" else "false").toList)
  | .int n => .scalar (ofLine (toString n).toList)
  | .float x => .scalar (ofLine (Value.numberNotation.finiteText x))
  | .text s => .scalar (textRows s)
  | .list [] => .scalar (ofLine ['[', ']'])
  | .list (item :: rest) => .items (itemRows (item :: rest))
  | .object [] => .scalar (ofLine ['{', '}'])
  | .object (member :: rest) => .entries (memberRows (member :: rest))

def itemRows : List Json → List Row
  | [] => []
  | item :: rest => hang '-' (body item).rows ++ itemRows rest

def memberRows : List (String × Json) → List Row
  | [] => []
  | (key, value) :: rest => entryRows key (body value) ++ memberRows rest

end

def rows (json : Json) : List Row :=
  match body json with
  | .scalar rows => lead [] rows
  | body => body.rows

/-- The text of a document. -/
def print (json : Json) : String := String.ofList ((rows json).flatMap Row.chars)

end Printer

end ServerManifests.Yaml
