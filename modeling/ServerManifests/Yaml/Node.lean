import ServerManifests.Yaml.Token.Scan

/-!
The tree of a document, with its aliases still unresolved: a node may have a
label, and an alias stands for the node with its label. Each reader takes the
tokens and gives a node with the tokens after it. A part that is left out is an
empty plain scalar.
-/
namespace ServerManifests.Yaml

/-- What a tag asks for. -/
inductive TagMeaning where
  | null
  | bool
  | int
  | float
  /-- Any other global tag: a scalar is its text. -/
  | text
  | custom (name : String)
  deriving DecidableEq, Repr

structure NodeProperties (Label : Type) where
  anchor : Option Label
  tag : Option TagMeaning

inductive Node (Label : Type) where
  | scalar (properties : NodeProperties Label) (text : String) (plain : Bool)
  | alias (label : Label)
  | sequence (properties : NodeProperties Label) (items : List (Node Label))
  | mapping (properties : NodeProperties Label) (entries : List (Node Label × Node Label))

namespace TagMeaning

def globalStart : String := "tag:yaml.org,2002:"

/-- The name without an exclamation mark in front, unless it is just that. -/
def dropMark (name : List Char) : List Char :=
  match name with
  | '!' :: c :: rest => c :: rest
  | _ => name

/-- A local tag that is no text is disregarded. -/
def ofBytes (bytes : TagBytes) : Option TagMeaning :=
  if bytes.head? = some (byteOf '!') then
    let name := if bytes.length = 1 then bytes else bytes.drop 1
    (String.fromUTF8? ⟨name.toArray⟩).map fun s => .custom (String.ofList (dropMark s.toList))
  else
    let named (name : String) : Bool := bytes = (globalStart ++ name).toList.map byteOf
    if named "null" then some .null
    else if named "bool" then some .bool
    else if named "int" then some .int
    else if named "float" then some .float
    else some .text

end TagMeaning

/-- The handles of tags with their meanings. -/
abbrev TagHandles := List (TagBytes × TagBytes)

namespace TagHandles

def builtin : TagHandles :=
  [(Property.exclamation, Property.exclamation),
    (Property.exclamation ++ Property.exclamation, TagMeaning.globalStart.toList.map byteOf)]

def expand? (handles : TagHandles) (handle suffix : TagBytes) : Option TagBytes :=
  if handle.isEmpty then some suffix
  else (handles.lookup handle).map (· ++ suffix)

end TagHandles

namespace NodeProperties

def none {Label : Type} : NodeProperties Label := ⟨.none, .none⟩

/-- Reads an anchor and a tag in either order. -/
def read? (handles : TagHandles) : List Token → Option (Option (NodeProperties String) × List Token)
  | .anchor name :: .tag handle suffix :: rest => do
    let bytes ← handles.expand? handle suffix
    return (some ⟨some name, TagMeaning.ofBytes bytes⟩, rest)
  | .anchor name :: rest => some (some ⟨some name, .none⟩, rest)
  | .tag handle suffix :: .anchor name :: rest => do
    let bytes ← handles.expand? handle suffix
    return (some ⟨some name, TagMeaning.ofBytes bytes⟩, rest)
  | .tag handle suffix :: rest => do
    let bytes ← handles.expand? handle suffix
    return (some ⟨.none, TagMeaning.ofBytes bytes⟩, rest)
  | tokens => some (.none, tokens)

end NodeProperties

namespace Node

def empty {Label : Type} : Node Label := .scalar .none "" true

/-- Where a node stands; only in a block may blocks begin, and only after the
indicators of a block mapping a sequence without indentation of its own. -/
inductive Context where
  | block
  | mappingPart
  | flow
  deriving DecidableEq

/-- Reads a node, unless one of the tokens `ends` shows that it is left out. -/
def orEmpty (ends : List Token)
    (read : List Token → Option (Node String × List Token)) (tokens : List Token) :
    Option (Node String × List Token) :=
  match tokens with
  | [] => read tokens
  | token :: _ => if ends.contains token then some (.empty, tokens) else read tokens

/-- A node may be left out if it has properties. -/
def omitted? (given : Option (NodeProperties String)) (tokens : List Token) :
    Option (Node String × List Token) :=
  given.map fun properties => (.scalar properties "" true, tokens)

def afterComma? (first : Bool) (tokens : List Token) : Option (List Token) :=
  if first then some tokens
  else match tokens with
    | .flowEntry :: rest => some rest
    | _ => none

mutual

def read? (handles : TagHandles) : (fuel : Nat) → Context → List Token →
    Option (Node String × List Token)
  | 0, _, _ => none
  | fuel + 1, context, tokens =>
    match tokens with
    | .alias name :: rest => some (.alias name, rest)
    | _ => do
      let (given, tokens) ← NodeProperties.read? handles tokens
      let properties := given.getD .none
      match tokens with
      | .scalar text plain :: rest => some (.scalar properties text plain, rest)
      | .flowSequenceStart :: rest => do
        let (items, rest) ← readFlowItems? handles fuel true rest
        return (.sequence properties items, rest)
      | .flowMappingStart :: rest => do
        let (entries, rest) ← readFlowEntries? handles fuel true rest
        return (.mapping properties entries, rest)
      | .blockSequenceStart :: rest =>
        if context = .flow then omitted? given tokens
        else do
          let (items, rest) ← readBlockItems? handles fuel rest
          return (.sequence properties items, rest)
      | .blockMappingStart :: rest =>
        if context = .flow then omitted? given tokens
        else do
          let (entries, rest) ← readBlockEntries? handles fuel rest
          return (.mapping properties entries, rest)
      | .blockEntry :: _ =>
        if context = .mappingPart then do
          let (items, rest) ← readOpenItems? handles fuel tokens
          return (.sequence properties items, rest)
        else omitted? given tokens
      | _ => omitted? given tokens

/-- The items of a block sequence, through its end. -/
def readBlockItems? (handles : TagHandles) : (fuel : Nat) → List Token →
    Option (List (Node String) × List Token)
  | 0, _ => none
  | fuel + 1, .blockEntry :: rest => do
    let (item, rest) ← orEmpty [.blockEntry, .blockEnd] (read? handles fuel .block) rest
    let (items, rest) ← readBlockItems? handles fuel rest
    return (item :: items, rest)
  | _ + 1, .blockEnd :: rest => some ([], rest)
  | _ + 1, _ => none

/-- The items of a sequence that ends with the mapping around it. -/
def readOpenItems? (handles : TagHandles) : (fuel : Nat) → List Token →
    Option (List (Node String) × List Token)
  | 0, _ => none
  | fuel + 1, .blockEntry :: rest => do
    let (item, rest) ← orEmpty [.blockEntry, .key, .value, .blockEnd]
      (read? handles fuel .block) rest
    let (items, rest) ← readOpenItems? handles fuel rest
    return (item :: items, rest)
  | _ + 1, tokens => some ([], tokens)

def readBlockEntries? (handles : TagHandles) : (fuel : Nat) → List Token →
    Option (List (Node String × Node String) × List Token)
  | 0, _ => none
  | fuel + 1, .key :: rest => do
    let (key, rest) ← orEmpty [.key, .value, .blockEnd] (read? handles fuel .mappingPart) rest
    let (value, rest) ← match rest with
      | .value :: rest =>
        orEmpty [.key, .value, .blockEnd] (read? handles fuel .mappingPart) rest
      | rest => some (.empty, rest)
    let (entries, rest) ← readBlockEntries? handles fuel rest
    return ((key, value) :: entries, rest)
  | _ + 1, .blockEnd :: rest => some ([], rest)
  | _ + 1, _ => none

/-- The items of a flow sequence, through its end. An item with a key is a
mapping of one entry. -/
def readFlowItems? (handles : TagHandles) : (fuel : Nat) → (first : Bool) → List Token →
    Option (List (Node String) × List Token)
  | 0, _, _ => none
  | _ + 1, _, .flowSequenceEnd :: rest => some ([], rest)
  | fuel + 1, first, tokens => do
    match ← afterComma? first tokens with
    | .flowSequenceEnd :: rest => some ([], rest)
    | .key :: rest => do
      let (key, rest) ← match rest with
        | .value :: rest | .flowEntry :: rest | .flowSequenceEnd :: rest => some (.empty, rest)
        | rest => read? handles fuel .flow rest
      let (value, rest) ← match rest with
        | .value :: rest =>
          orEmpty [.flowEntry, .flowSequenceEnd] (read? handles fuel .flow) rest
        | rest => some (.empty, rest)
      let (items, rest) ← readFlowItems? handles fuel false rest
      return (.mapping .none [(key, value)] :: items, rest)
    | rest => do
      let (item, rest) ← read? handles fuel .flow rest
      let (items, rest) ← readFlowItems? handles fuel false rest
      return (item :: items, rest)

def readFlowEntries? (handles : TagHandles) : (fuel : Nat) → (first : Bool) → List Token →
    Option (List (Node String × Node String) × List Token)
  | 0, _, _ => none
  | _ + 1, _, .flowMappingEnd :: rest => some ([], rest)
  | fuel + 1, first, tokens => do
    match ← afterComma? first tokens with
    | .flowMappingEnd :: rest => some ([], rest)
    | .key :: rest => do
      let (key, rest) ← orEmpty [.value, .flowEntry, .flowMappingEnd]
        (read? handles fuel .flow) rest
      let (value, rest) ← match rest with
        | .value :: rest =>
          orEmpty [.flowEntry, .flowMappingEnd] (read? handles fuel .flow) rest
        | rest => some (.empty, rest)
      let (entries, rest) ← readFlowEntries? handles fuel false rest
      return ((key, value) :: entries, rest)
    | rest => do
      let (key, rest) ← read? handles fuel .flow rest
      let (entries, rest) ← readFlowEntries? handles fuel false rest
      return ((key, .empty) :: entries, rest)

end

/-- Versions 1.1 and 1.2 can be read; a second version is refused, and so is a
second meaning of a handle. -/
def readDirectives? : (hasVersion : Bool) → TagHandles → List Token →
    Option (TagHandles × List Token)
  | hasVersion, handles, .version major minor :: rest =>
    if hasVersion || major ≠ 1 || (minor ≠ 1 && minor ≠ 2) then none
    else readDirectives? true handles rest
  | hasVersion, handles, .tagHandle handle meaning :: rest =>
    if (handles.lookup handle).isSome then none
    else readDirectives? hasVersion (handles ++ [(handle, meaning)]) rest
  | _, handles, tokens => some (handles, tokens)

def isDirective : Token → Bool
  | .version _ _ => true
  | .tagHandle _ _ => true
  | _ => false

/-- Reads the node of a document whose start is marked or not. -/
def readDocument? (tokens : List Token) : Option (Node String × List Token) :=
  let fuel := 2 * tokens.length + 2
  if tokens.head?.any fun t => isDirective t || t = .documentStart then do
    let (handles, tokens) ← readDirectives? false [] tokens
    match tokens with
    | .documentStart :: rest =>
      match rest with
      | [] => some (.empty, rest)
      | token :: _ =>
        if isDirective token || [Token.documentStart, .documentEnd].contains token then
          some (.empty, rest)
        else read? (handles ++ .builtin) fuel .block rest
    | _ => none
  else read? .builtin fuel .block tokens

/-- The only document of a text, without one for an empty text; none if the
tokens form no document or more than one. -/
def ofTokens? (tokens : List Token) : Option (Option (Node String)) :=
  if tokens.isEmpty then some none
  else do
    let (node, rest) ← readDocument? tokens
    if rest.all (· = .documentEnd) then some (some node) else none

end Node

end ServerManifests.Yaml
