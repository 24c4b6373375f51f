import ArenaPeak.Yaml.Token

/-!
From a YAML text to its tokens. Block collections begin and end where the indentation says so. A key
without a sign of its own is known only once its colon is reached, so every token that could begin
one is remembered as a candidate, one for each level of flow collections; the tokens for the key
are then put in before it. A candidate lapses at the end of its line and after 1024 bytes.
-/

namespace ArenaPeak.Yaml

/-- A place where a key may have begun. -/
structure Candidate where
  place : Nat
  /-- Whether nothing but a key can stand there. -/
  required : Bool
  index : Nat
  line : Nat
  column : Nat

structure Layout where
  cursor : Cursor
  tokens : Array Token
  /-- The column of the innermost block collection, or -1 outside of all. -/
  indent : Int
  outer : List Int
  keyAllowed : Bool
  candidate : Option Candidate
  around : List (Option Candidate)

namespace Layout

def ofText (s : String) : Layout :=
  ⟨.ofText s, #[], -1, [], true, none, []⟩

def inFlow (l : Layout) : Bool :=
  !l.around.isEmpty

def push (l : Layout) (t : Token) : Layout :=
  { l with tokens := l.tokens.push t }

def insert (l : Layout) (place : Nat) (t : Token) : Layout :=
  { l with tokens := l.tokens.insertIdxIfInBounds place t }

/-- Past blanks, comments and line breaks. Tabs are passed only where no key may begin. -/
def skipGap : Nat → Layout → Option Layout
  | 0, _ => none
  | fuel + 1, l =>
      let c := if l.cursor.column == 0 && atOneOf ['\ufeff'] l.cursor.rest then l.cursor.skip
        else l.cursor
      let tabs := l.inFlow || !l.keyAllowed
      let c := c.skipWhile fun x => x == ' ' || (tabs && x == '\t')
      let c := if atOneOf ['#'] c.rest then c.skipLine else c
      if !c.rest.isEmpty && atBreak c.rest then
        skipGap fuel { l with cursor := c.skipBreak, keyAllowed := l.keyAllowed || !l.inFlow }
      else some { l with cursor := c }

def lapsed (c : Cursor) (k : Candidate) : Bool :=
  k.line < c.line || k.index + 1024 < c.index

/-- A candidate, unless it has lapsed; a required one must not lapse. -/
def refresh (c : Cursor) : Option Candidate → Option (Option Candidate)
  | none => some none
  | some k => if lapsed c k then if k.required then none else some none else some (some k)

def refreshAll (l : Layout) : Option Layout := do
  let candidate ← refresh l.cursor l.candidate
  let around ← l.around.mapM (refresh l.cursor)
  return { l with candidate, around }

/-- Gives up the candidate of this level; a required one cannot be given up. -/
def dropCandidate (l : Layout) : Option Layout :=
  if l.candidate.any (·.required) then none else some { l with candidate := none }

def saveCandidate (l : Layout) : Option Layout :=
  if l.keyAllowed then do
    let l ← l.dropCandidate
    let c := l.cursor
    let required := !l.inFlow && l.indent == c.column
    return { l with candidate := some ⟨l.tokens.size, required, c.index, c.line, c.column⟩ }
  else some l

/-- Begins a block collection at a column that is deeper than the ones around it. -/
def openBlock (l : Layout) (column : Nat) (place : Nat) (t : Token) : Layout :=
  if !l.inFlow && l.indent < column then
    { l.insert place t with indent := column, outer := l.indent :: l.outer }
  else l

/-- Ends the block collections that are deeper than a column. -/
def closeBlocksTo (column : Int) : List Int → Layout → Layout
  | [], l => l
  | o :: outer, l =>
      if column < l.indent then closeBlocksTo column outer { l.push .blockEnd with indent := o, outer }
      else l

def closeBlocks (l : Layout) (column : Int) : Layout :=
  if l.inFlow then l else closeBlocksTo column l.outer l

/-- What every token at the level of documents does first. -/
def leaveBlocks (l : Layout) : Option Layout := do
  let l ← (l.closeBlocks (-1)).dropCandidate
  return { l with keyAllowed := false }

def takeDirectiveToken (fuel : Nat) (l : Layout) : Option Layout := do
  let l ← l.leaveBlocks
  let (t, cursor) ← takeDirective fuel l.cursor
  return { l.push t with cursor }

def takeDocumentMark (l : Layout) (t : Token) : Option Layout := do
  let l ← l.leaveBlocks
  return { l.push t with cursor := l.cursor.skipMany 3 }

def takeFlowStart (l : Layout) (t : Token) : Option Layout := do
  let l ← l.saveCandidate
  return { l.push t with
    cursor := l.cursor.skip, keyAllowed := true
    candidate := none, around := l.candidate :: l.around }

def takeFlowEnd (l : Layout) (t : Token) : Option Layout := do
  let l ← l.dropCandidate
  let l := { l.push t with cursor := l.cursor.skip, keyAllowed := false }
  match l.around with
  | k :: around => return { l with candidate := k, around }
  | [] => return l

def takeFlowEntry (l : Layout) : Option Layout := do
  let l ← l.dropCandidate
  return { l.push .flowEntry with cursor := l.cursor.skip, keyAllowed := true }

/-- The sign of an entry or of a key, which in a block needs a place where a key may begin. -/
def takeSign (l : Layout) (t collection : Token) (thenAllowed : Bool) : Option Layout := do
  if !l.inFlow && !l.keyAllowed then none
  else
    let l ← (l.openBlock l.cursor.column l.tokens.size collection).dropCandidate
    return { l.push t with cursor := l.cursor.skip, keyAllowed := thenAllowed }

/-- The colon of a value: after a candidate it makes that a key. -/
def takeColon (l : Layout) : Option Layout :=
  match l.candidate with
  | some k =>
      let l := (l.insert k.place .key).openBlock k.column k.place .blockMapping
      some { l.push .value with cursor := l.cursor.skip, candidate := none, keyAllowed := false }
  | none =>
      if !l.inFlow && !l.keyAllowed then none
      else
        let l := l.openBlock l.cursor.column l.tokens.size .blockMapping
        some { l.push .value with cursor := l.cursor.skip, keyAllowed := !l.inFlow }

/-- A token that may be, or begin, a key. -/
def takeContent (l : Layout) (take : Cursor → Option (Token × Cursor)) : Option Layout := do
  let l ← l.saveCandidate
  let (t, cursor) ← take l.cursor
  return { l.push t with cursor, keyAllowed := false }

def takeBlockScalar (fuel : Nat) (l : Layout) (folded : Bool) : Option Layout := do
  let l ← l.dropCandidate
  let (text, cursor) ← takeBlock folded l.indent fuel l.cursor.skip
  let style := if folded then ScalarStyle.folded else .literal
  return { l.push (.scalar style (String.ofList text)) with cursor, keyAllowed := true }

def takePlainScalar (fuel : Nat) (l : Layout) : Option Layout := do
  let l ← l.saveCandidate
  let (text, broken, cursor) ←
    takePlain l.inFlow (l.indent + 1).toNat fuel Gap.none l.cursor
  return { l.push (.scalar .plain (String.ofList text)) with cursor, keyAllowed := broken }

def indicators : List Char :=
  ['-', '?', ':', ',', '[', ']', '\x7b', '\x7d', '#', '&', '*', '!', '|', '>', '\'', '"', '%', '@',
    '\x60']

def beginsPlain (flow : Bool) (c : Char) (rest : List Char) : Bool :=
  (!isBlank c && !indicators.contains c) ||
    (c == '-' && !atOneOf [' ', '\t'] rest) ||
    (!flow && (c == '?' || c == ':') && !atGap rest)

/-- The token at the cursor, with the character there and what follows it. -/
def takeToken (fuel : Nat) (l : Layout) (c : Char) (rest : List Char) : Option Layout :=
  let flow := l.inFlow
  if l.cursor.column == 0 && c == '%' then l.takeDirectiveToken fuel
  else if l.cursor.atMark '-' then l.takeDocumentMark .documentStart
  else if l.cursor.atMark '.' then l.takeDocumentMark .documentEnd
  else if c == '[' then l.takeFlowStart .flowSequence
  else if c == '\x7b' then l.takeFlowStart .flowMapping
  else if c == ']' then l.takeFlowEnd .flowSequenceEnd
  else if c == '\x7d' then l.takeFlowEnd .flowMappingEnd
  else if c == ',' then l.takeFlowEntry
  else if c == '-' && atGap rest then l.takeSign .blockEntry .blockSequence true
  else if c == '?' && (flow || atGap rest) then l.takeSign .key .blockMapping !flow
  else if c == ':' && (flow || atGap rest) then l.takeColon
  else if c == '*' then l.takeContent fun c => do
    let (name, c) ← takeAnchorName c.skip
    return (.alias name, c)
  else if c == '&' then l.takeContent fun c => do
    let (name, c) ← takeAnchorName c.skip
    return (.anchor name, c)
  else if c == '!' then l.takeContent (takeTag flow fuel)
  else if c == '|' && !flow then l.takeBlockScalar fuel false
  else if c == '>' && !flow then l.takeBlockScalar fuel true
  else if c == '\'' || c == '"' then l.takeContent fun cur => do
    let (text, cur) ← takeQuoted (c == '"') fuel cur.skip
    return (.scalar .quoted (String.ofList text), cur)
  else if beginsPlain flow c rest then l.takePlainScalar fuel
  else none

def takeTokens : Nat → Layout → Option (Array Token)
  | 0, _ => none
  | fuel + 1, l => do
      let l ← skipGap fuel l
      let l ← l.refreshAll
      let l := l.closeBlocks l.cursor.column
      match l.cursor.rest with
      | c :: rest =>
          let l ← l.takeToken fuel c rest
          takeTokens fuel l
      | [] =>
          let l ← l.leaveBlocks
          return l.tokens

end Layout

/-- The tokens of a text; none if it holds a character that may not occur or is not laid out as
YAML. -/
def tokens (s : String) : Option (List Token) :=
  if s.toList.all isPermitted then
    (Layout.takeTokens (2 * s.length + 4) (.ofText s)).map (·.toList)
  else none

end ArenaPeak.Yaml
