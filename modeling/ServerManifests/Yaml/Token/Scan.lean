import ServerManifests.Yaml.Token.Property

/-!
From characters to tokens. Only a colon shows that what came before it on the
line was a key, so a place where a key may have begun is kept as pending, and
the colon then puts the key indicator, and the start of a block mapping where
one is due, in front of the tokens since that place.
-/
namespace ServerManifests.Yaml

/-- Where a key without indicator may have begun. -/
structure PendingKey where
  place : Position
  /-- The number of tokens before it. -/
  before : Nat
  /-- Whether nothing but a key can stand there. -/
  required : Bool

structure Scanner where
  cursor : Cursor
  /-- The tokens so far, last one first, and their number. -/
  tokens : List Token
  count : Nat
  /-- The column of the innermost block, -1 outside of all. -/
  indent : Int
  outerIndents : List Int
  /-- The pending key of the innermost flow collection, or of the block. -/
  pending : Option PendingKey
  /-- Those of the collections around it. -/
  outerPending : List (Option PendingKey)
  keyAllowed : Bool

namespace Scanner

def start (cs : List Char) : Scanner where
  cursor := .ofList cs
  tokens := []
  count := 0
  indent := -1
  outerIndents := []
  pending := none
  outerPending := []
  keyAllowed := true

variable (s : Scanner)

def inFlow : Bool := !s.outerPending.isEmpty

def column : Int := s.cursor.place.column

def push (token : Token) : Scanner :=
  { s with tokens := token :: s.tokens, count := s.count + 1 }

/-- Puts a token in front of all but the first `before` tokens. -/
def insertAt (before : Nat) (token : Token) : Scanner :=
  let later := s.count - before
  { s with tokens := s.tokens.take later ++ token :: s.tokens.drop later, count := s.count + 1 }

/-- Skips blanks, comments and line breaks. Tabs separate tokens only where no
key may begin. -/
def skipGap : (fuel : Nat) → Scanner → Scanner
  | 0, s => s
  | fuel + 1, s =>
    let c := s.cursor
    let c := if c.place.column = 0 && c.rest.head?.any isByteOrderMark then c.advance 1 else c
    let c := c.skip fun x => x = ' ' || (x = '\t' && (s.inFlow || !s.keyAllowed))
    let c := match c.rest with
      | '#' :: _ => c.skip fun x => !isBreak x
      | _ => c
    match c.lineBreak? with
    | none => { s with cursor := c }
    | some (_, next) =>
      skipGap fuel { s with cursor := next, keyAllowed := s.keyAllowed || !s.inFlow }

/-- A key begins at most 1024 bytes before its colon, on the same line. -/
def isStale (place : Position) (key : PendingKey) : Bool :=
  key.place.line < place.line || key.place.byte + 1024 < place.byte

def dropStale? (place : Position) : Option PendingKey → Option (Option PendingKey)
  | none => some none
  | some key =>
    if isStale place key then (if key.required then none else some none) else some (some key)

def dropStaleKeys? : Option Scanner := do
  let pending ← dropStale? s.cursor.place s.pending
  let outerPending ← s.outerPending.mapM (dropStale? s.cursor.place)
  return { s with pending, outerPending }

/-- Gives up the pending key; a required one may not be given up. -/
def dropKey? : Option Scanner :=
  match s.pending with
  | some ⟨_, _, true⟩ => none
  | _ => some { s with pending := none }

/-- Keeps this place as pending if a key may begin here. -/
def saveKey? : Option Scanner :=
  if s.keyAllowed then do
    let s ← s.dropKey?
    let required := !s.inFlow && s.indent = s.column
    return { s with pending := some ⟨s.cursor.place, s.count, required⟩ }
  else some s

/-- Ends the blocks that stand right of `column`. -/
def endBlocks (column : Int) : (outer : List Int) → Scanner → Scanner
  | [], s => s
  | next :: outer, s =>
    if !s.inFlow && column < s.indent then
      endBlocks column outer { s.push .blockEnd with indent := next, outerIndents := outer }
    else s

def unindent (column : Int) : Scanner := endBlocks column s.outerIndents s

/-- Starts a block at `column` if that is right of the current one. -/
def beginBlock (column : Int) (before : Nat) (token : Token) : Scanner :=
  if !s.inFlow && s.indent < column then
    { s.insertAt before token with indent := column, outerIndents := s.indent :: s.outerIndents }
  else s

def advance (count : Nat) : Scanner := { s with cursor := s.cursor.advance count }

def allowKey (allowed : Bool) : Scanner := { s with keyAllowed := allowed }

/-- A directive or a document mark: all blocks end. -/
def betweenDocuments? : Option Scanner := do
  let s ← (s.unindent (-1)).dropKey?
  return s.allowKey false

def readDirective? : Option Scanner := do
  let s ← s.betweenDocuments?
  let (token, cursor) ← Property.readDirective? s.cursor
  return { s with cursor }.push token

def readDocumentMark? (token : Token) : Option Scanner := do
  let s ← s.betweenDocuments?
  return (s.advance 3).push token

def openFlow? (token : Token) : Option Scanner := do
  let s ← s.saveKey?
  let s := { s with pending := none, outerPending := s.pending :: s.outerPending }
  return ((s.allowKey true).advance 1).push token

def closeFlow? (token : Token) : Option Scanner := do
  let s ← s.dropKey?
  let s := match s.outerPending with
    | [] => s
    | pending :: outerPending => { s with pending, outerPending }
  return ((s.allowKey false).advance 1).push token

def readComma? : Option Scanner := do
  let s ← s.dropKey?
  return ((s.allowKey true).advance 1).push .flowEntry

/-- In a block, an indicator may start a block only where a key may begin. -/
def startedBy? (token : Token) : Option Scanner :=
  if s.inFlow then some s
  else if s.keyAllowed then some (s.beginBlock s.column s.count token)
  else none

def readDash? : Option Scanner := do
  let s ← s.startedBy? .blockSequenceStart
  let s ← s.dropKey?
  return ((s.allowKey true).advance 1).push .blockEntry

def readKey? : Option Scanner := do
  let s ← s.startedBy? .blockMappingStart
  let s ← s.dropKey?
  return ((s.allowKey !s.inFlow).advance 1).push .key

def readValue? : Option Scanner := do
  let s ← match s.pending with
    | some key =>
      let s := s.insertAt key.before .key
      let s := s.beginBlock key.place.column key.before .blockMappingStart
      some ({ s with pending := none }.allowKey false)
    | none => do
      let s ← s.startedBy? .blockMappingStart
      some (s.allowKey !s.inFlow)
  return (s.advance 1).push .value

def readName? (token : String → Token) : Option Scanner := do
  let s ← s.saveKey?
  let (name, cursor) ← Property.readName? (s.cursor.advance 1)
  return ({ s with cursor }.allowKey false).push (token name)

def readTag? : Option Scanner := do
  let s ← s.saveKey?
  let (token, cursor) ← Property.readTag? s.inFlow s.cursor
  return ({ s with cursor }.allowKey false).push token

def readBlockScalar? (folded : Bool) : Option Scanner := do
  let s ← s.dropKey?
  let (text, cursor) ← Scalar.readBlock? folded s.indent (s.cursor.advance 1)
  return ({ s with cursor }.allowKey true).push (.scalar (String.ofList text) false)

def readQuoted? (quote : Char) : Option Scanner := do
  let s ← s.saveKey?
  let (text, cursor) ← Scalar.readQuoted? quote s.cursor.rest.length [] (s.cursor.advance 1)
  return ({ s with cursor }.allowKey false).push (.scalar (String.ofList text) false)

def readPlain? : Option Scanner := do
  let s ← s.saveKey?
  let plain ← Scalar.readPlain? s.inFlow (s.indent + 1).toNat (s.cursor.rest.length + 1) []
    (.blanks []) s.cursor
  return ({ s with cursor := plain.after }.allowKey plain.endsLine).push
    (.scalar (String.ofList plain.text) true)

/-- Whether a plain scalar may begin with `x` before `rest`. -/
def startsPlain (inFlow : Bool) (x : Char) (rest : List Char) : Bool :=
  let indicators := ['-', '?', ':', ',', '[', ']', '{', '}', '#', '&', '*', '!', '|', '>', '\'',
    '"', '%', '@', '\x60']
  !(isSpace x || isBreak x || indicators.contains x) ||
    (x = '-' && !rest.head?.any isSpace) ||
    (!inFlow && (x = '?' || x = ':') && !endsToken rest)

/-- Reads the token that begins with `x`. -/
def readToken? (x : Char) (rest : List Char) : Option Scanner :=
  let place := s.cursor.place
  let begins (mark : Char) : Bool := x = mark && (s.inFlow || endsToken rest)
  if x = '%' && place.column = 0 then s.readDirective?
  else if isDocumentMark '-' place s.cursor.rest then s.readDocumentMark? .documentStart
  else if isDocumentMark '.' place s.cursor.rest then s.readDocumentMark? .documentEnd
  else if x = '[' then s.openFlow? .flowSequenceStart
  else if x = '{' then s.openFlow? .flowMappingStart
  else if x = ']' then s.closeFlow? .flowSequenceEnd
  else if x = '}' then s.closeFlow? .flowMappingEnd
  else if x = ',' then s.readComma?
  else if x = '-' && endsToken rest then s.readDash?
  else if begins '?' then s.readKey?
  else if begins ':' then s.readValue?
  else if x = '*' then s.readName? .alias
  else if x = '&' then s.readName? .anchor
  else if x = '!' then s.readTag?
  else if x = '|' && !s.inFlow then s.readBlockScalar? false
  else if x = '>' && !s.inFlow then s.readBlockScalar? true
  else if x = '\'' || x = '"' then s.readQuoted? x
  else if startsPlain s.inFlow x rest then s.readPlain?
  else none

/-- All tokens, in order. -/
def run? : (fuel : Nat) → Scanner → Option (List Token)
  | 0, _ => none
  | fuel + 1, s => do
    let s ← (skipGap (s.cursor.rest.length + 1) s).dropStaleKeys?
    let s := s.unindent s.column
    match s.cursor.rest with
    | [] =>
      let s ← (s.unindent (-1)).dropKey?
      return s.tokens.reverse
    | x :: rest => run? fuel (← s.readToken? x rest)

end Scanner

/-- The tokens of a text; none if it holds a character that no document may hold
or cannot be split into tokens. -/
def Token.ofText? (text : String) : Option (List Token) :=
  let cs := text.toList
  if cs.all isAllowed then Scanner.run? (cs.length + 1) (.start cs) else none

end ServerManifests.Yaml
