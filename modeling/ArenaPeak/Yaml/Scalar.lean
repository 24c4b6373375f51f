import ArenaPeak.Yaml.Cursor

/-!
The scalars of a YAML text: plain ones, those in single or double quotes, and the literal and folded
blocks. Line breaks inside a scalar are folded, except in literal blocks: one break is a blank, and
of several the first is left out.
-/

namespace ArenaPeak.Yaml

inductive ScalarStyle where
  | plain
  | quoted
  | literal
  | folded
  deriving DecidableEq

/-- The blanks and line breaks between two runs of a scalar. -/
structure Gap where
  blanks : List Char
  first : List Char
  more : List Char
  /-- Whether the gap goes over a line end. -/
  broken : Bool

namespace Gap

def none : Gap :=
  ⟨[], [], [], false⟩

/-- What a gap is read as. -/
def fold (g : Gap) : List Char :=
  if !g.broken then g.blanks
  else if g.first.head? = some '\n' then if g.more.isEmpty then [' '] else g.more
  else g.first ++ g.more

/-- The breaks up to the next character that is not blank. A tab in the indentation below `indent`
is refused. -/
def moreBreaks (indent : Nat) : Nat → Cursor → Option (List Char × Cursor)
  | 0, _ => Option.none
  | fuel + 1, c =>
      match c.rest with
      | x :: _ =>
          if isBlank x then
            if c.column < indent && x == '\t' then Option.none
            else moreBreaks indent fuel c.skip
          else if isBreak x then
            let (b, c) := c.takeBreak
            (moreBreaks indent fuel c).map fun (more, c) => (b ++ more, c)
          else some ([], c)
      | [] => some ([], c)

/-- Takes blanks and breaks; `broken` says whether a line has ended already. -/
def take (indent fuel : Nat) (broken : Bool) (c : Cursor) : Option (Gap × Cursor) :=
  if broken then (moreBreaks indent fuel c).map fun (more, c) => (⟨[], [], more, true⟩, c)
  else
    let blanks := c.rest.takeWhile isBlank
    let c := c.skipMany blanks.length
    if c.rest.isEmpty || !atBreak c.rest then some (⟨blanks, [], [], false⟩, c)
    else
      let (first, c) := c.takeBreak
      (moreBreaks indent fuel c).map fun (more, c) => (⟨[], first, more, true⟩, c)

end Gap

/-- The run of a plain scalar up to a blank, a line end or an indicator, and what follows it. -/
def plainRun (flow : Bool) : List Char → Option (List Char × List Char)
  | [] => some ([], [])
  | x :: rest =>
      if isBlank x || isBreak x then some ([], x :: rest)
      else if flow && x == ':' && atOneOf [',', '?', '[', ']', '\x7b', '\x7d'] rest then none
      else if (x == ':' && atGap rest) ||
          (flow && [',', '[', ']', '\x7b', '\x7d'].contains x) then some ([], x :: rest)
      else (plainRun flow rest).map fun (run, rest) => (x :: run, rest)

/-- What is left of a plain scalar, and whether the gap after it goes over a line end; `g` is the gap
before it. -/
def takePlain (flow : Bool) (indent : Nat) :
    Nat → Gap → Cursor → Option (List Char × Bool × Cursor)
  | 0, _, _ => none
  | fuel + 1, g, c =>
      if c.atDocumentMark || atOneOf ['#'] c.rest then some ([], g.broken, c)
      else do
        let (run, _) ← plainRun flow c.rest
        let piece := if run.isEmpty then [] else g.fold ++ run
        let broken := run.isEmpty && g.broken
        let c := c.skipMany run.length
        if !atGap c.rest || c.rest.isEmpty then return (piece, broken, c)
        else
          let (g, c) ← Gap.take indent fuel false c
          if !flow && c.column < indent then return (piece, g.broken, c)
          else
            let (text, broken, c) ← takePlain flow indent fuel g c
            return (piece ++ text, broken, c)

def hexDigits (n : Nat) (cs : List Char) : Option Nat :=
  let digits := cs.take n
  if digits.length == n && digits.all (fun c => c.isDigit || ('a' ≤ c && c ≤ 'f') ||
      ('A' ≤ c && c ≤ 'F')) then
    some (digits.foldl (fun v c =>
      16 * v +
        if c.isDigit then c.toNat - '0'.toNat
        else c.toLower.toNat - 'a'.toNat + 10) 0)
  else none

def escaped? : Char → Option Char
  | '0' => some '\x00'
  | 'a' => some '\x07'
  | 'b' => some '\x08'
  | 't' | '\t' => some '\t'
  | 'n' => some '\n'
  | 'v' => some '\x0b'
  | 'f' => some '\x0c'
  | 'r' => some '\r'
  | 'e' => some '\x1b'
  | ' ' => some ' '
  | '"' => some '"'
  | '/' => some '/'
  | '\\' => some '\\'
  | 'N' => some '\x85'
  | '_' => some '\xa0'
  | 'L' => some '\u2028'
  | 'P' => some '\u2029'
  | _ => none

/-- How many digits follow an escape by code point. -/
def escapeDigits? : Char → Option Nat
  | 'x' => some 2
  | 'u' => some 4
  | 'U' => some 8
  | _ => none

/-- The run of a quoted scalar up to a blank, a line end or the closing quote. Says also whether it
ended with an escaped line end. -/
def takeQuotedRun (double : Bool) : Nat → Cursor → Option (List Char × Bool × Cursor)
  | 0, _ => none
  | fuel + 1, c =>
      let next (x : Char) (n : Nat) :=
        (takeQuotedRun double fuel (c.skipMany n)).map fun (run, r) => (x :: run, r)
      match c.rest with
      | [] => some ([], false, c)
      | x :: rest =>
          if isBlank x || isBreak x then some ([], false, c)
          else if !double && x == '\'' then
            if atOneOf ['\''] rest then next '\'' 2 else some ([], false, c)
          else if double && x == '"' then some ([], false, c)
          else if double && x == '\\' then
            match rest with
            | [] => none
            | e :: digits =>
                if isBreak e then some ([], true, c.skip.skipBreak)
                else
                  match escapeDigits? e with
                  | some n => do
                      let v ← hexDigits n digits
                      if (0xD800 ≤ v && v ≤ 0xDFFF) || 0x10FFFF < v then none
                      else next (Char.ofNat v) (n + 2)
                  | none => do
                      let x ← escaped? e
                      next x 2
          else next x 1

/-- What is left of a quoted scalar up to its closing quote. -/
def takeQuoted (double : Bool) : Nat → Cursor → Option (List Char × Cursor)
  | 0, _ => none
  | fuel + 1, c =>
      if c.atDocumentMark || c.rest.isEmpty then none
      else do
        let (run, escapedBreak, c) ← takeQuotedRun double fuel c
        if atOneOf [if double then '"' else '\''] c.rest then return (run, c.skip)
        else
          let (g, c) ← Gap.take 0 fuel escapedBreak c
          let (text, c) ← takeQuoted double fuel c
          return (run ++ g.fold ++ text, c)

/-- What becomes of the line breaks at the end of a block. -/
inductive Chomping where
  | strip
  | clip
  | keep
  deriving DecidableEq

/-- The indicators after the sign of a block: chomping, and the indentation if it is given. -/
def blockHeader : List Char → Option (Chomping × Option Nat × Nat)
  | '+' :: rest => digit .keep 1 rest
  | '-' :: rest => digit .strip 1 rest
  | cs =>
      match digit .clip 0 cs with
      | some (_, some n, _) =>
          match cs with
          | _ :: '+' :: _ => some (.keep, some n, 2)
          | _ :: '-' :: _ => some (.strip, some n, 2)
          | _ => some (.clip, some n, 1)
      | r => r
where
  digit (chomping : Chomping) (used : Nat) : List Char → Option (Chomping × Option Nat × Nat)
    | d :: _ =>
        if d == '0' then none
        else if d.isDigit then some (chomping, some (d.toNat - '0'.toNat), used + 1)
        else some (chomping, none, used)
    | [] => some (chomping, none, used)

/-- The indentation and the empty lines before a line of a block. While the indentation is not
known yet, the deepest column reached is looked for. -/
def takeBlockBreaks (indent : Option Nat) :
    Nat → Nat → Cursor → Option (Nat × List Char × Cursor)
  | 0, _, _ => none
  | fuel + 1, deepest, c =>
      let blanks := (c.rest.takeWhile (· == ' ')).length
      let n := match indent with
        | some n => min blanks (n - c.column)
        | none => blanks
      let c := c.skipMany n
      let deepest := max deepest c.column
      let inIndent := match indent with
        | some n => decide (c.column < n)
        | none => true
      if inIndent && atOneOf ['\t'] c.rest then none
      else if !c.rest.isEmpty && atBreak c.rest then
        let (b, c) := c.takeBreak
        (takeBlockBreaks indent fuel deepest c).map fun (deepest, breaks, c) =>
          (deepest, b ++ breaks, c)
      else some (deepest, [], c)

/-- The lines of a block with a known indentation: the text, the break after its last line, and
the empty lines after that. `first` and `more` are those before it. -/
def takeBlockLines (folded : Bool) (indent : Nat) :
    Nat → List Char → Bool → List Char → Cursor →
      Option (List Char × List Char × List Char × Cursor)
  | 0, _, _, _, _ => none
  | fuel + 1, first, afterBlank, more, c =>
      if c.column == indent && !c.rest.isEmpty then do
        let blank := match c.rest with
          | x :: _ => isBlank x
          | [] => false
        let joint :=
          if folded && first.head? = some '\n' && !afterBlank && !blank then
            if more.isEmpty then [' '] else []
          else first
        let line := c.rest.takeWhile (!isBreak ·)
        let (next, c) := (c.skipMany line.length).takeBreak
        let (_, nextMore, c) ← takeBlockBreaks (some indent) fuel 0 c
        let (text, last) ← takeBlockLines folded indent fuel next blank nextMore c
        return (joint ++ more ++ line ++ text, last)
      else some ([], first, more, c)

/-- A literal or folded block, its sign already passed; `parent` is the indentation around it. -/
def takeBlock (folded : Bool) (parent : Int) (fuel : Nat) (c : Cursor) :
    Option (List Char × Cursor) := do
  let (chomping, increment, used) ← blockHeader c.rest
  let c := (c.skipMany used).skipBlanks
  let c := if atOneOf ['#'] c.rest then c.skipLine else c
  if !atBreak c.rest then none
  else
    let c := c.skipBreak
    let given := increment.map fun n => if 0 ≤ parent then parent.toNat + n else n
    let (deepest, more, c) ← takeBlockBreaks given fuel 0 c
    let indent := given.getD (max (max deepest (parent + 1).toNat) 1)
    let (text, first, more, c) ← takeBlockLines folded indent fuel [] false more c
    let ending := match chomping with
      | .strip => []
      | .clip => first
      | .keep => first ++ more
    return (text ++ ending, c)

end ArenaPeak.Yaml
