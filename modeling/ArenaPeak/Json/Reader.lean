import ArenaPeak.Json

/-!
Reading JSON. The only white space is blank, tab, line feed and carriage return; control characters
may not stand in strings; a number has no idle zeros before it; nothing may follow the value.
-/

namespace ArenaPeak.Json

def isBlank (c : Char) : Bool :=
  c == ' ' || c == '\t' || c == '\n' || c == '\r'

def skipBlanks (cs : List Char) : List Char :=
  cs.dropWhile isBlank

def hexValue? (c : Char) : Option Nat :=
  if '0' ≤ c && c ≤ '9' then some (c.toNat - '0'.toNat)
  else if 'a' ≤ c && c ≤ 'f' then some (c.toNat - 'a'.toNat + 10)
  else if 'A' ≤ c && c ≤ 'F' then some (c.toNat - 'A'.toNat + 10)
  else none

theorem hexValue?_digitChar : ∀ n < 16, hexValue? n.digitChar = some n := by
  decide

def unit? (a b c d : Char) : Option Nat := do
  let a ← hexValue? a
  let b ← hexValue? b
  let c ← hexValue? c
  let d ← hexValue? d
  return ((a * 16 + b) * 16 + c) * 16 + d

/-- What a string is made of as it is written: characters, and units given by their number. -/
inductive Piece where
  | char (c : Char)
  | unit (n : Nat)

def escaped? : Char → Option Char
  | '"' => some '"'
  | '\\' => some '\\'
  | '/' => some '/'
  | 'b' => some '\x08'
  | 'f' => some '\x0c'
  | 'n' => some '\n'
  | 'r' => some '\r'
  | 't' => some '\t'
  | _ => none

def readPieces : List Char → Option (List Piece × List Char)
  | [] => none
  | '"' :: rest => some ([], rest)
  | '\\' :: 'u' :: a :: b :: c :: d :: rest => do
      let n ← unit? a b c d
      let (pieces, rest) ← readPieces rest
      return (.unit n :: pieces, rest)
  | '\\' :: c :: rest => do
      let c ← escaped? c
      let (pieces, rest) ← readPieces rest
      return (.char c :: pieces, rest)
  | c :: rest =>
      if c.toNat < 0x20 || c == '\\' then none
      else do
        let (pieces, rest) ← readPieces rest
        return (.char c :: pieces, rest)

def isHigh (n : Nat) : Bool :=
  0xD800 ≤ n && n ≤ 0xDBFF

def isLow (n : Nat) : Bool :=
  0xDC00 ≤ n && n ≤ 0xDFFF

/-- The text of some pieces; none if half of a surrogate pair stands alone. -/
def joinPieces : List Piece → Option (List Char)
  | [] => some []
  | .char c :: pieces => (joinPieces pieces).map (c :: ·)
  | .unit high :: .unit low :: pieces =>
      if isHigh high then
        if isLow low then
          (joinPieces pieces).map
            (Char.ofNat (0x10000 + (high - 0xD800) * 0x400 + (low - 0xDC00)) :: ·)
        else none
      else if isLow high then none
      else (joinPieces (.unit low :: pieces)).map (Char.ofNat high :: ·)
  | .unit n :: pieces =>
      if isHigh n || isLow n then none else (joinPieces pieces).map (Char.ofNat n :: ·)

/-- A run of digits, at least one, and what follows it. -/
def readDigits (cs : List Char) : Option (List Char × List Char) :=
  let digits := cs.takeWhile Char.isDigit
  if digits.isEmpty then none else some (digits, cs.dropWhile Char.isDigit)

def readFraction : List Char → Option (List Char × List Char)
  | '.' :: rest => do
      let (digits, rest) ← readDigits rest
      return ('.' :: digits, rest)
  | cs => some ([], cs)

def readExponent : List Char → Option (List Char × List Char)
  | e :: rest =>
      if e == 'e' || e == 'E' then
        let (sign, rest) := match rest with
          | '+' :: rest => (['+'], rest)
          | '-' :: rest => (['-'], rest)
          | _ => ([], rest)
        do
          let (digits, rest) ← readDigits rest
          return (e :: sign ++ digits, rest)
      else some ([], e :: rest)
  | [] => some ([], [])

def decimal (digits : List Char) : Nat :=
  digits.foldl (fun n c => 10 * n + (c.toNat - '0'.toNat)) 0

def readMagnitude (negative : Bool) (cs : List Char) : Option (Json × List Char) := do
  let (digits, rest) ← readDigits cs
  if digits.head? = some '0' && digits ≠ ['0'] then none
  else
    let (fraction, rest) ← readFraction rest
    let (exponent, rest) ← readExponent rest
    let sign := if negative then ['-'] else []
    let n := decimal digits
    if fraction.isEmpty && exponent.isEmpty && !(negative && n == 0) then
      return (.int (if negative then -(n : Int) else n), rest)
    else
      return (.float (String.ofList (sign ++ digits ++ fraction ++ exponent)), rest)

def readNumber : List Char → Option (Json × List Char)
  | '-' :: rest => readMagnitude true rest
  | cs => readMagnitude false cs

/-- A string as a value, its opening quote already read. -/
def readString (cs : List Char) : Option (Json × List Char) := do
  let (pieces, rest) ← readPieces cs
  match joinPieces pieces with
  | some text => return (.str (String.ofList text), rest)
  | none => return (.broken, rest)

/-- The name of a field, if it is a text, and what follows the colon after it. -/
def readName (cs : List Char) : Option (Option String × List Char) :=
  match skipBlanks cs with
  | '"' :: rest => do
      let (pieces, rest) ← readPieces rest
      match skipBlanks rest with
      | ':' :: rest => return ((joinPieces pieces).map String.ofList, rest)
      | _ => none
  | _ => none

/-- The object of some fields, each of which must have a text for its name. -/
def ofFields (fields : List (Option String × Json)) : Json :=
  match fields.mapM fun (name, value) => name.map (·, value) with
  | some fields => .obj fields
  | none => .broken

mutual

/-- A value and what follows it. Every level and every item of a list uses up fuel. -/
def readValue : Nat → List Char → Option (Json × List Char)
  | 0, _ => none
  | fuel + 1, cs =>
      match skipBlanks cs with
      | 'n' :: 'u' :: 'l' :: 'l' :: rest => some (.null, rest)
      | 't' :: 'r' :: 'u' :: 'e' :: rest => some (.bool true, rest)
      | 'f' :: 'a' :: 'l' :: 's' :: 'e' :: rest => some (.bool false, rest)
      | '"' :: rest => readString rest
      | '[' :: rest =>
          match skipBlanks rest with
          | ']' :: rest => some (.arr [], rest)
          | rest => (readItems fuel rest).map fun (items, rest) => (.arr items, rest)
      | '\x7b' :: rest =>
          match skipBlanks rest with
          | '\x7d' :: rest => some (.obj [], rest)
          | rest => (readFields fuel rest).map fun (fields, rest) => (ofFields fields, rest)
      | cs => readNumber cs

def readItems : Nat → List Char → Option (List Json × List Char)
  | 0, _ => none
  | fuel + 1, cs => do
      let (item, rest) ← readValue fuel cs
      match skipBlanks rest with
      | ',' :: rest =>
          let (items, rest) ← readItems fuel rest
          return (item :: items, rest)
      | ']' :: rest => return ([item], rest)
      | _ => none

def readFields : Nat → List Char → Option (List (Option String × Json) × List Char)
  | 0, _ => none
  | fuel + 1, cs => do
      let (name, rest) ← readName cs
      let (value, rest) ← readValue fuel rest
      match skipBlanks rest with
      | ',' :: rest =>
          let (fields, rest) ← readFields fuel rest
          return ((name, value) :: fields, rest)
      | '\x7d' :: rest => return ([(name, value)], rest)
      | _ => none

end

def read (s : String) : Option Json :=
  let cs := s.toList
  match readValue (2 * cs.length + 2) cs with
  | some (j, rest) => if (skipBlanks rest).isEmpty then some j else none
  | none => none

end ArenaPeak.Json
