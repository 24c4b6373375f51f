import ArenaPeak.Yaml.Scalar

/-!
The tokens of a YAML text, and those of them that stand on their own: directives, anchors, aliases
and tags. A tag is a run of bytes, since it can spell out bytes in hexadecimal that make no text; it
ends before the first zero byte.
-/

namespace ArenaPeak.Yaml

/-- The bytes of a tag, none of them zero. -/
abbrev TagBytes := List UInt8

inductive Token where
  | version (major minor : Nat)
  | tagHandle (handle : String) (start : TagBytes)
  | documentStart
  | documentEnd
  | blockSequence
  | blockMapping
  | blockEnd
  | flowSequence
  | flowSequenceEnd
  | flowMapping
  | flowMappingEnd
  | blockEntry
  | flowEntry
  | key
  | value
  | alias (name : String)
  | anchor (name : String)
  | tag (handle : String) (suffix : TagBytes)
  | scalar (style : ScalarStyle) (text : String)
  deriving DecidableEq

def takeWord (c : Cursor) : List Char × Cursor :=
  let word := c.rest.takeWhile isWord
  (word, c.skipMany word.length)

def takeAnchorName (c : Cursor) : Option (String × Cursor) :=
  let (word, c) := takeWord c
  if word.isEmpty then none
  else if atGap c.rest || atOneOf ['?', ':', ',', ']', '\x7d', '%', '@', '\x60'] c.rest then
    some (String.ofList word, c)
  else none

/-- The handle of a tag. In a directive it is a lone exclamation mark or ends with one. -/
def takeTagHandle (directive : Bool) (c : Cursor) : Option (List Char × Cursor) :=
  if !atOneOf ['!'] c.rest then none
  else
    let (word, c) := takeWord c.skip
    if atOneOf ['!'] c.rest then some ('!' :: word ++ ['!'], c.skip)
    else if directive && !word.isEmpty then none
    else some ('!' :: word, c)

/-- How many bytes a character has that begins with this one. -/
def octetCount? (b : Nat) : Option Nat :=
  if b < 0x80 then some 1
  else if b / 0x20 == 0x6 then some 2
  else if b / 0x10 == 0xE then some 3
  else if b / 0x08 == 0x1E then some 4
  else none

/-- A byte in hexadecimal after a percent sign. -/
def takeOctet : List Char → Option Nat
  | '%' :: rest => hexDigits 2 rest
  | _ => none

/-- The bytes of a character after its first one, spelled out. -/
def takeOctets : Nat → List Char → Option (List UInt8)
  | 0, _ => some []
  | n + 1, cs => do
      let b ← takeOctet cs
      if b / 0x40 == 0x2 then return UInt8.ofNat b :: (← takeOctets n (cs.drop 3)) else none

/-- The bytes of a character, spelled out. They have the pattern of a character's bytes, which does
not mean that there is such a character. -/
def takeSpelled (cs : List Char) : Option (List UInt8) := do
  let b ← takeOctet cs
  let n ← octetCount? b
  return UInt8.ofNat b :: (← takeOctets (n - 1) (cs.drop 3))

/-- A character of a tag, which is a single byte. -/
def tagByte (c : Char) : UInt8 :=
  UInt8.ofNat c.toNat

/-- The characters of a tag; some only where it cannot be taken for part of a flow collection. -/
def isTagChar (anywhere : Bool) (c : Char) : Bool :=
  isWord c ||
    [';', '/', '?', ':', '@', '&', '=', '+', '$', '.', '!', '~', '*', '\'', '(', ')', '%'].contains c ||
    (anywhere && [',', '[', ']'].contains c)

def takeTagRun (anywhere : Bool) : Nat → Cursor → Option (List UInt8 × Cursor)
  | 0, _ => none
  | fuel + 1, c =>
      match c.rest with
      | x :: _ =>
          if !isTagChar anywhere x then some ([], c)
          else do
            let (bytes, n) ← if x == '%' then (takeSpelled c.rest).map fun bs => (bs, 3 * bs.length)
              else some ([tagByte x], 1)
            let (run, c) ← takeTagRun anywhere fuel (c.skipMany n)
            return (bytes ++ run, c)
      | [] => some ([], c)

/-- A tag without its handle; `begun` is what the attempt at a handle has read of it. -/
def takeTagText (anywhere : Bool) (begun : List Char) (fuel : Nat) (c : Cursor) :
    Option (TagBytes × Cursor) := do
  let (run, c) ← takeTagRun anywhere fuel c
  if begun.isEmpty && run.isEmpty then none
  else return (((begun.drop 1).map tagByte ++ run).takeWhile (· != 0), c)

/-- A tag, up to the gap that must follow it. -/
def takeTag (flow : Bool) (fuel : Nat) (c : Cursor) : Option (Token × Cursor) := do
  let (token, c) ← match c.rest with
    | '!' :: '<' :: _ => do
        let (text, c) ← takeTagText true [] fuel (c.skipMany 2)
        if !atOneOf ['>'] c.rest then none
        else pure (Token.tag "" text, c.skip)
    | _ => do
        let (handle, c) ← takeTagHandle false c
        if 1 < handle.length && handle.getLast? == some '!' then
          let (suffix, c) ← takeTagText false [] fuel c
          pure (Token.tag (String.ofList handle) suffix, c)
        else
          let (suffix, c) ← takeTagText false handle fuel c
          if suffix.isEmpty then pure (Token.tag "" [tagByte '!'], c)
          else pure (Token.tag "!" suffix, c)
  if atGap c.rest || (flow && atOneOf [','] c.rest) then return (token, c) else none

def takeNumber (c : Cursor) : Option (Nat × Cursor) :=
  let digits := c.rest.takeWhile Char.isDigit
  if digits.isEmpty || 9 < digits.length then none
  else
    some (digits.foldl (fun n d => 10 * n + (d.toNat - '0'.toNat)) 0, c.skipMany digits.length)

def takeVersion (c : Cursor) : Option (Token × Cursor) := do
  let (major, c) ← takeNumber c.skipBlanks
  if !atOneOf ['.'] c.rest then none
  else
    let (minor, c) ← takeNumber c.skip
    return (.version major minor, c)

def takeHandleDirective (fuel : Nat) (c : Cursor) : Option (Token × Cursor) := do
  let (handle, c) ← takeTagHandle true c.skipBlanks
  if !atOneOf [' ', '\t'] c.rest then none
  else
    let (start, c) ← takeTagText true [] fuel c.skipBlanks
    if atGap c.rest then return (.tagHandle (String.ofList handle) start, c)
    else none

def takeDirective (fuel : Nat) (c : Cursor) : Option (Token × Cursor) := do
  let (name, c) := takeWord c.skip
  if !atGap c.rest then none
  else
    let (token, c) ← match String.ofList name with
      | "YAML" => takeVersion c
      | "TAG" => takeHandleDirective fuel c
      | _ => none
    let c := c.skipBlanks
    let c := if atOneOf ['#'] c.rest then c.skipLine else c
    if atBreak c.rest then return (token, c.skipBreak) else none

end ArenaPeak.Yaml
