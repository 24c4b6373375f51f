import ArenaPeak.Yaml.Layout

/-!
The nodes of a YAML document. An anchor is known by a number, the count of distinct anchor names
before it; an alias refers to that number, and means the node that began last among those with it.
A text must hold exactly one document.
-/

namespace ArenaPeak.Yaml

inductive Node where
  | scalar (tag : Option TagBytes) (style : ScalarStyle) (text : String)
  | sequence (tag : Option TagBytes) (items : List Node)
  | mapping (tag : Option TagBytes) (fields : List (Node × Node))
  | alias (anchor : Nat)

/-- An anchored node, and where it began in the order of all anchored nodes. -/
structure Target where
  anchor : Nat
  order : Nat
  node : Node

structure Document where
  root : Node
  targets : List Target
  /-- How many marks the document is made of: one for each scalar or alias, two for each
  collection. -/
  events : Nat

/-- A document being built: the tokens left, and what has been gathered so far. -/
structure Build where
  tokens : List Token
  handles : List (String × TagBytes)
  anchors : List (String × Nat)
  targets : List Target
  order : Nat
  events : Nat

namespace Build

def next (b : Build) : Option Token :=
  b.tokens.head?

def skip (b : Build) : Build :=
  { b with tokens := b.tokens.tail }

def isAt (b : Build) (ts : List Token) : Bool :=
  b.next.any ts.contains

def emptyScalar (tag : Option TagBytes) : Node :=
  .scalar tag .plain ""

def count (b : Build) (n : Nat) : Build :=
  { b with events := b.events + n }

/-- The anchor and the tag before a node, in either order. -/
def takeProperties (b : Build) : Option String × Option (String × TagBytes) × Build :=
  match b.tokens with
  | .anchor a :: .tag h s :: rest => (some a, some (h, s), { b with tokens := rest })
  | .anchor a :: rest => (some a, none, { b with tokens := rest })
  | .tag h s :: .anchor a :: rest => (some a, some (h, s), { b with tokens := rest })
  | .tag h s :: rest => (none, some (h, s), { b with tokens := rest })
  | _ => (none, none, b)

def resolveTag (b : Build) : Option (String × TagBytes) → Option (Option TagBytes)
  | none => some none
  | some ("", suffix) => some (some suffix)
  | some (handle, suffix) => (b.handles.lookup handle).map fun start => some (start ++ suffix)

/-- Gives an anchor its number, in whose place in the order the node that begins here stands. -/
def mark (b : Build) (name : String) : Nat × Nat × Build :=
  let n := b.anchors.length
  (n, b.order,
    { b with anchors := (name, n) :: b.anchors.filter (·.1 != name), order := b.order + 1 })

def keep (b : Build) (place : Option (Nat × Nat)) (node : Node) : Node × Build :=
  match place with
  | some (anchor, order) => (node, { b with targets := ⟨anchor, order, node⟩ :: b.targets })
  | none => (node, b)

mutual

/-- A node. In a block it may be a block collection, and in a block mapping also a sequence that is
not indented. -/
def takeNode : Nat → Bool → Bool → Build → Option (Node × Build)
  | 0, _, _, _ => none
  | fuel + 1, block, indentless, b =>
      match b.tokens with
      | .alias name :: rest => do
          let n ← b.anchors.lookup name
          return (.alias n, { b with tokens := rest }.count 1)
      | _ => do
          let (anchor, rawTag, b) := b.takeProperties
          let tag ← b.resolveTag rawTag
          let bare := anchor.isNone && rawTag.isNone
          let (place, b) := match anchor with
            | some name =>
                let (n, order, b) := b.mark name
                (some (n, order), b)
            | none => (none, b)
          match b.tokens with
          | .blockEntry :: _ =>
              if indentless then
                let (items, b) ← takeIndentless fuel b
                return (b.count 2).keep place (.sequence tag items)
              else if bare then none
              else return (b.count 1).keep place (emptyScalar tag)
          | .scalar style text :: rest =>
              return ({ b with tokens := rest }.count 1).keep place (.scalar tag style text)
          | .flowSequence :: rest =>
              let (items, b) ← takeFlowItems fuel true { b with tokens := rest }
              return (b.count 2).keep place (.sequence tag items)
          | .flowMapping :: rest =>
              let (fields, b) ← takeFlowFields fuel true { b with tokens := rest }
              return (b.count 2).keep place (.mapping tag fields)
          | .blockSequence :: rest =>
              if block then
                let (items, b) ← takeBlockItems fuel { b with tokens := rest }
                return (b.count 2).keep place (.sequence tag items)
              else if bare then none
              else return (b.count 1).keep place (emptyScalar tag)
          | .blockMapping :: rest =>
              if block then
                let (fields, b) ← takeBlockFields fuel { b with tokens := rest }
                return (b.count 2).keep place (.mapping tag fields)
              else if bare then none
              else return (b.count 1).keep place (emptyScalar tag)
          | _ => if bare then none else return (b.count 1).keep place (emptyScalar tag)

/-- A node, or an empty scalar if one of the given tokens stands in its place. -/
def takeOptional : Nat → Bool → Bool → List Token → Build → Option (Node × Build)
  | 0, _, _, _, _ => none
  | fuel + 1, block, indentless, stops, b =>
      if b.isAt stops then some (emptyScalar none, b.count 1)
      else takeNode fuel block indentless b

def takeBlockItems : Nat → Build → Option (List Node × Build)
  | 0, _ => none
  | fuel + 1, b =>
      match b.tokens with
      | .blockEntry :: rest => do
          let (item, b) ←
            takeOptional fuel true false [.blockEntry, .blockEnd] { b with tokens := rest }
          let (items, b) ← takeBlockItems fuel b
          return (item :: items, b)
      | .blockEnd :: rest => some ([], { b with tokens := rest })
      | _ => none

/-- The entries of a sequence that is not indented; it ends where no entry follows. -/
def takeIndentless : Nat → Build → Option (List Node × Build)
  | 0, _ => none
  | fuel + 1, b =>
      match b.tokens with
      | .blockEntry :: rest => do
          let (item, b) ←
            takeOptional fuel true false [.blockEntry, .key, .value, .blockEnd]
              { b with tokens := rest }
          let (items, b) ← takeIndentless fuel b
          return (item :: items, b)
      | _ => some ([], b)

def takeBlockFields : Nat → Build → Option (List (Node × Node) × Build)
  | 0, _ => none
  | fuel + 1, b =>
      match b.tokens with
      | .key :: rest => do
          let stops := [.key, .value, .blockEnd]
          let (key, b) ← takeOptional fuel true true stops { b with tokens := rest }
          let (value, b) ← match b.tokens with
            | .value :: rest => takeOptional fuel true true stops { b with tokens := rest }
            | _ => some (emptyScalar none, b.count 1)
          let (fields, b) ← takeBlockFields fuel b
          return ((key, value) :: fields, b)
      | .blockEnd :: rest => some ([], { b with tokens := rest })
      | _ => none

def takeFlowItems : Nat → Bool → Build → Option (List Node × Build)
  | 0, _, _ => none
  | fuel + 1, first, b =>
      match b.tokens with
      | .flowSequenceEnd :: rest => some ([], { b with tokens := rest })
      | tokens => do
          let tokens ← if first then some tokens else match tokens with
            | .flowEntry :: rest => some rest
            | _ => none
          match tokens with
          | .flowSequenceEnd :: rest => return ([], { b with tokens := rest })
          | .key :: rest =>
              let (pair, b) ← takePair fuel { b with tokens := rest }
              let (items, b) ← takeFlowItems fuel false b
              return (pair :: items, b)
          | tokens =>
              let (item, b) ← takeNode fuel false false { b with tokens }
              let (items, b) ← takeFlowItems fuel false b
              return (item :: items, b)

/-- A mapping of one field as an item of a flow sequence, its key sign already passed. Where the
key is missing the token in its place is passed over. -/
def takePair : Nat → Build → Option (Node × Build)
  | 0, _ => none
  | fuel + 1, b => do
      let (key, b) ←
        if b.isAt [.value, .flowEntry, .flowSequenceEnd] then
          some (emptyScalar none, b.skip.count 1)
        else takeNode fuel false false b
      let (value, b) ← match b.tokens with
        | .value :: rest =>
            takeOptional fuel false false [.flowEntry, .flowSequenceEnd] { b with tokens := rest }
        | _ => some (emptyScalar none, b.count 1)
      return (.mapping none [(key, value)], b.count 2)

def takeFlowFields : Nat → Bool → Build → Option (List (Node × Node) × Build)
  | 0, _, _ => none
  | fuel + 1, first, b =>
      match b.tokens with
      | .flowMappingEnd :: rest => some ([], { b with tokens := rest })
      | tokens => do
          let tokens ← if first then some tokens else match tokens with
            | .flowEntry :: rest => some rest
            | _ => none
          match tokens with
          | .flowMappingEnd :: rest => return ([], { b with tokens := rest })
          | .key :: rest =>
              let (key, b) ←
                takeOptional fuel false false [.value, .flowEntry, .flowMappingEnd]
                  { b with tokens := rest }
              let (value, b) ← match b.tokens with
                | .value :: rest =>
                    takeOptional fuel false false [.flowEntry, .flowMappingEnd]
                      { b with tokens := rest }
                | _ => some (emptyScalar none, b.count 1)
              let (fields, b) ← takeFlowFields fuel false b
              return ((key, value) :: fields, b)
          | tokens =>
              let (key, b) ← takeNode fuel false false { b with tokens }
              let (fields, b) ← takeFlowFields fuel false (b.count 1)
              return ((key, emptyScalar none) :: fields, b)

end

def standardHandles : List (String × TagBytes) :=
  [("!", [tagByte '!']), ("!!", "tag:yaml.org,2002:".toUTF8.toList)]

/-- The directives before a document: at most one version, 1.1 or 1.2, and each handle once. -/
def takeDirectives (versioned : Bool) (handles : List (String × TagBytes)) :
    List Token → Option (List (String × TagBytes) × List Token)
  | .version major minor :: rest =>
      if versioned || major != 1 || (minor != 1 && minor != 2) then none
      else takeDirectives true handles rest
  | .tagHandle handle start :: rest =>
      if (handles.lookup handle).isSome then none
      else takeDirectives versioned (handles ++ [(handle, start)]) rest
  | tokens => some (handles ++ standardHandles, tokens)

/-- What may follow the root of a document that is alone: marks of its end. -/
def isOver (tokens : List Token) : Bool :=
  tokens.all (· == .documentEnd)

end Build

/-- The document made of some tokens; none if they do not make exactly one. -/
def Document.ofTokens? (tokens : List Token) : Option Document := do
  let (handles, rest) ← Build.takeDirectives false [] tokens
  let declared := rest.length < tokens.length
  let b : Build := ⟨rest, handles, [], [], 0, 0⟩
  let fuel := 4 * tokens.length + 8
  let (root, b) ← match rest with
    | .documentStart :: rest =>
        let b := { b with tokens := rest }
        if rest.isEmpty || b.isAt [.documentStart, .documentEnd] then
          some (Build.emptyScalar none, b.count 1)
        else Build.takeNode fuel true false b
    | _ => if declared then none else Build.takeNode fuel true false b
  if Build.isOver b.tokens then return ⟨root, b.targets, b.events⟩ else none

def Document.read (s : String) : Option Document := do
  Document.ofTokens? (← tokens s)

end ArenaPeak.Yaml
