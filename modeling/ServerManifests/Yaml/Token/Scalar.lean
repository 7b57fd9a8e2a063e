import ServerManifests.Yaml.Position

/-!
The text of a scalar: plain, quoted or in a literal or folded block. Between two
lines of a plain or quoted scalar a single line feed reads as a space, and of
several line feeds the first is dropped.
-/
namespace ServerManifests.Yaml

/-- Blanks or line breaks between two parts of a scalar. -/
inductive Gap where
  | blanks (text : List Char)
  /-- An escaped first break leaves none. -/
  | breaks (first : Option Char) (more : List Char)

namespace Gap

def text : Gap → List Char
  | .blanks text => text
  | .breaks (some '\n') [] => [' ']
  | .breaks (some '\n') more => more
  | .breaks first more => first.toList ++ more

def hasBreaks : Gap → Bool
  | .blanks _ => false
  | .breaks _ _ => true

/-- Blanks count only before the first break. -/
def blank (c : Char) : Gap → Gap
  | .blanks text => .blanks (text ++ [c])
  | gap => gap

def lineBreak (c : Char) : Gap → Gap
  | .blanks _ => .breaks (some c) []
  | .breaks first more => .breaks first (more ++ [c])

/-- Reads blanks and breaks; a tab left of `indent` on a new line is refused. -/
def read? (indent : Nat) : (fuel : Nat) → Gap → Cursor → Option (Gap × Cursor)
  | 0, gap, c => some (gap, c)
  | fuel + 1, gap, c =>
    match c.rest with
    | [] => some (gap, c)
    | x :: _ =>
      if isSpace x then
        if gap.hasBreaks && x = '\t' && c.place.column < indent then none
        else read? indent fuel (gap.blank x) (c.advance 1)
      else match c.lineBreak? with
        | some (kept, next) => read? indent fuel (gap.lineBreak kept) next
        | none => some (gap, c)

end Gap

namespace Scalar

def isFlowIndicator (c : Char) : Bool := [',', '[', ']', '{', '}'].contains c

/-- A plain scalar that was read, where it ends, and whether it ends after a
line break. -/
structure Plain where
  text : List Char
  after : Cursor
  endsLine : Bool

/-- Reads a plain scalar whose further lines stand right of `indent - 1`. `text`
is what was read, last character first, and `gap` what may follow it. -/
def readPlain? (inFlow : Bool) (indent : Nat) :
    (fuel : Nat) → (text : List Char) → Gap → Cursor → Option Plain
  | 0, text, gap, c => some ⟨text.reverse, c, gap.hasBreaks⟩
  | fuel + 1, text, gap, c =>
    match c.rest with
    | [] => some ⟨text.reverse, c, gap.hasBreaks⟩
    | x :: rest =>
      if isSpace x || isBreak x then
        match Gap.read? indent c.rest.length (.blanks []) c with
        | none => none
        | some (gap, c) =>
          if (!inFlow && c.place.column < indent) || atDocumentMark c.place c.rest ||
              c.rest.head? = some '#' then
            some ⟨text.reverse, c, gap.hasBreaks⟩
          else readPlain? inFlow indent fuel text gap c
      else if inFlow && x = ':' && rest.head?.any (fun y => isFlowIndicator y || y = '?') then none
      else if (x = ':' && endsToken rest) || (inFlow && isFlowIndicator x) then
        some ⟨text.reverse, c, gap.hasBreaks⟩
      else
        readPlain? inFlow indent fuel (x :: gap.text.reverse ++ text) (.blanks []) (c.advance 1)

def namedEscapes : List (Char × Char) :=
  [('0', '\x00'), ('a', '\x07'), ('b', '\x08'), ('t', '\t'), ('\t', '\t'), ('n', '\n'),
    ('v', '\x0b'), ('f', '\x0c'), ('r', '\r'), ('e', '\x1b'), (' ', ' '), ('"', '"'), ('/', '/'),
    ('\\', '\\'), ('N', '\u0085'), ('_', '\u00a0'), ('L', '\u2028'), ('P', '\u2029')]

def escapeWidth? (c : Char) : Option Nat :=
  if c = 'x' then some 2 else if c = 'u' then some 4 else if c = 'U' then some 8 else none

def hexDigit? (c : Char) : Option Nat :=
  let n := c.toNat
  if 48 ≤ n ∧ n ≤ 57 then some (n - 48)
  else if 97 ≤ n ∧ n ≤ 102 then some (n - 87)
  else if 65 ≤ n ∧ n ≤ 70 then some (n - 55)
  else none

def hexNumber? (cs : List Char) : Option Nat :=
  cs.foldlM (fun n c => (hexDigit? c).map (16 * n + ·)) 0

/-- The character that an escape stands for, read after the backslash, and the
number of characters it takes. -/
def escape? : List Char → Option (Char × Nat)
  | [] => none
  | c :: rest =>
    match namedEscapes.lookup c with
    | some meaning => some (meaning, 1)
    | none =>
      match escapeWidth? c with
      | none => none
      | some width =>
        let digits := rest.take width
        if digits.length < width then none
        else match hexNumber? digits with
          | none => none
          | some n => if h : n.isValidChar then some (Char.ofNatAux n h, width + 1) else none

/-- Reads a quoted scalar after its opening quote. -/
def readQuoted? (quote : Char) :
    (fuel : Nat) → (text : List Char) → Cursor → Option (List Char × Cursor)
  | 0, _, _ => none
  | fuel + 1, text, c =>
    let across (gap : Gap) (c : Cursor) : Option (List Char × Cursor) :=
      match Gap.read? 0 c.rest.length gap c with
      | none => none
      | some (gap, c) =>
        if atDocumentMark c.place c.rest then none
        else readQuoted? quote fuel (gap.text.reverse ++ text) c
    match c.rest with
    | [] => none
    | x :: rest =>
      if isSpace x || isBreak x then across (.blanks []) c
      else if x = quote then
        if quote = '\'' && rest.head? = some '\'' then
          readQuoted? quote fuel (x :: text) (c.advance 2)
        else some (text.reverse, c.advance 1)
      else if x = '\\' && quote = '"' then
        match (c.advance 1).lineBreak? with
        | some (_, next) => across (.breaks none []) next
        | none =>
          match escape? rest with
          | none => none
          | some (meaning, width) => readQuoted? quote fuel (meaning :: text) (c.advance (1 + width))
      else readQuoted? quote fuel (x :: text) (c.advance 1)

/-- What becomes of the line breaks at the end of a block scalar. -/
inductive Chomping where
  | strip
  | clip
  | keep
  deriving DecidableEq, Repr

/-- The line that opens a block scalar. -/
structure BlockHeader where
  chomping : Chomping
  /-- Indentation relative to the parent, where it is given. -/
  increment : Option Nat

def chomping? (c : Char) : Option Chomping :=
  if c = '+' then some .keep else if c = '-' then some .strip else none

def BlockHeader.read? (c : Cursor) : Option (BlockHeader × Cursor) :=
  let increment? (c : Cursor) : Option (Option Nat × Cursor) :=
    match c.rest with
    | x :: _ =>
      if x = '0' then none
      else if x.isDigit then some (some (x.toNat - 48), c.advance 1)
      else some (none, c)
    | [] => some (none, c)
  let indicator (c : Cursor) : Option Chomping × Cursor :=
    match c.rest.head?.bind chomping? with
    | some chomping => (some chomping, c.advance 1)
    | none => (none, c)
  match indicator c with
  | (some chomping, c) => do
    let (increment, c) ← increment? c
    return (⟨chomping, increment⟩, ← c.finishLine?)
  | (none, c) => do
    let (increment, c) ← increment? c
    let (chomping, c) := if increment.isSome then indicator c else (none, c)
    return (⟨chomping.getD .clip, increment⟩, ← c.finishLine?)

/-- Reads the breaks and the indentation before a line of a block scalar.
Without a known `indent` all spaces count as indentation; the widest so far is
`widest`. -/
def readIndentation? (indent : Option Nat) :
    (fuel : Nat) → (widest : Nat) → (breaks : List Char) → Cursor →
      Option (Nat × List Char × Cursor)
  | 0, widest, breaks, c => some (widest, breaks, c)
  | fuel + 1, widest, breaks, c =>
    let missing := match indent with
      | none => c.rest.length
      | some n => n - c.place.column
    let spaces := (c.rest.take missing).takeWhile (· = ' ')
    let c := c.advance spaces.length
    let widest := max widest c.place.column
    let isShort := match indent with
      | none => true
      | some n => c.place.column < n
    if isShort && c.rest.head? = some '\t' then none
    else match c.lineBreak? with
      | some (kept, next) => readIndentation? indent fuel widest (breaks ++ [kept]) next
      | none => some (widest, breaks, c)

/-- The lines of a block scalar so far: the text, last character first, the
break after it and the empty lines after that break. -/
structure BlockText where
  text : List Char
  lastBreak : List Char
  emptyLines : List Char
  /-- Whether the last line began with a blank, which keeps its breaks. -/
  indented : Bool

def BlockText.tail (block : BlockText) (chomping : Chomping) : List Char :=
  match chomping with
  | .strip => []
  | .clip => block.lastBreak
  | .keep => block.lastBreak ++ block.emptyLines

/-- Adds a line to a literal or folded block. -/
def BlockText.addLine (folded : Bool) (block : BlockText) (line : List Char) : BlockText :=
  let indented := line.head?.any isSpace
  let joint :=
    if folded && block.lastBreak = ['\n'] && !block.indented && !indented then
      if block.emptyLines.isEmpty then [' '] else block.emptyLines
    else block.lastBreak ++ block.emptyLines
  ⟨line.reverse ++ joint.reverse ++ block.text, [], [], indented⟩

def readBlockLines? (folded : Bool) (indent : Nat) :
    (fuel : Nat) → BlockText → Cursor → Option (BlockText × Cursor)
  | 0, block, c => some (block, c)
  | fuel + 1, block, c =>
    if c.place.column = indent && !c.rest.isEmpty then
      let (line, c) := c.span fun x => !isBreak x
      let block := block.addLine folded line
      let (lastBreak, c) := match c.lineBreak? with
        | some (kept, next) => ([kept], next)
        | none => ([], c)
      match readIndentation? (some indent) (c.rest.length + 1) 0 [] c with
      | none => none
      | some (_, emptyLines, c) =>
        readBlockLines? folded indent fuel { block with lastBreak, emptyLines } c
    else some (block, c)

/-- Reads a block scalar after its `|` or `>`, inside a block indented by
`parent`, which is -1 at the top. -/
def readBlock? (folded : Bool) (parent : Int) (c : Cursor) : Option (List Char × Cursor) := do
  let (header, c) ← BlockHeader.read? c
  let given := header.increment.map fun n => n + parent.toNat
  let (widest, emptyLines, c) ← readIndentation? given (c.rest.length + 1) 0 [] c
  let indent := given.getD (max widest (max (parent + 1).toNat 1))
  let (block, c) ← readBlockLines? folded indent (c.rest.length + 1) ⟨[], [], emptyLines, false⟩ c
  return (block.text.reverse ++ block.tail header.chomping, c)

end Scalar

end ServerManifests.Yaml
