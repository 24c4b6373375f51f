/-!
A place in a YAML text: what is left of it, and where it stands in bytes, lines and columns. Line
breaks are line feed, carriage return, the two together, next line, and the line and paragraph
separators.
-/

namespace ArenaPeak.Yaml

def isPermitted (c : Char) : Bool :=
  let n := c.toNat
  n == 0x09 || n == 0x0A || n == 0x0D || (0x20 ≤ n && n ≤ 0x7E) || n == 0x85 ||
    (0xA0 ≤ n && n ≤ 0xD7FF) || (0xE000 ≤ n && n ≤ 0xFFFD) || 0x10000 ≤ n

def isBreak (c : Char) : Bool :=
  c == '\n' || c == '\r' || c == '\x85' || c == '\u2028' || c == '\u2029'

def isBlank (c : Char) : Bool :=
  c == ' ' || c == '\t'

/-- The characters of names: of anchors, of tag handles and of directives. -/
def isWord (c : Char) : Bool :=
  c.isAlphanum || c == '-' || c == '_'

def atBreak : List Char → Bool
  | [] => true
  | c :: _ => isBreak c

/-- Whether a text is at a blank, a line break or its end. -/
def atGap : List Char → Bool
  | [] => true
  | c :: _ => isBlank c || isBreak c

def atOneOf (cs : List Char) : List Char → Bool
  | [] => false
  | c :: _ => cs.contains c

def byteCount (cs : List Char) : Nat :=
  cs.foldl (fun n c => n + c.utf8Size) 0

structure Cursor where
  rest : List Char
  index : Nat
  line : Nat
  column : Nat

namespace Cursor

def ofText (s : String) : Cursor :=
  ⟨s.toList, 0, 0, 0⟩

def skip (c : Cursor) : Cursor :=
  match c.rest with
  | [] => c
  | x :: rest => ⟨rest, c.index + x.utf8Size, c.line, c.column + 1⟩

def skipMany (c : Cursor) (n : Nat) : Cursor :=
  ⟨c.rest.drop n, c.index + byteCount (c.rest.take n), c.line, c.column + n⟩

def skipWhile (c : Cursor) (p : Char → Bool) : Cursor :=
  c.skipMany (c.rest.takeWhile p).length

/-- Past a line break, which is read as a line feed unless it is a separator. -/
def takeBreak (c : Cursor) : List Char × Cursor :=
  match c.rest with
  | '\r' :: '\n' :: rest => (['\n'], ⟨rest, c.index + 2, c.line + 1, 0⟩)
  | b :: rest =>
      if isBreak b then
        (if b == '\u2028' || b == '\u2029' then [b] else ['\n'],
          ⟨rest, c.index + b.utf8Size, c.line + 1, 0⟩)
      else ([], c)
  | [] => ([], c)

def skipBreak (c : Cursor) : Cursor :=
  c.takeBreak.2

def skipLine (c : Cursor) : Cursor :=
  c.skipWhile (!isBreak ·)

def skipBlanks (c : Cursor) : Cursor :=
  c.skipWhile isBlank

/-- Whether the line begins with a mark of three characters that stands alone. -/
def atMark (c : Cursor) (mark : Char) : Bool :=
  c.column == 0 &&
    match c.rest with
    | x :: y :: z :: rest => x == mark && y == mark && z == mark && atGap rest
    | _ => false

def atDocumentMark (c : Cursor) : Bool :=
  c.atMark '-' || c.atMark '.'

end Cursor

end ArenaPeak.Yaml
