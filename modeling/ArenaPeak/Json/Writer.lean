import ArenaPeak.Json

/-!
Writing JSON: on one line without blanks, or laid out over lines with two blanks for each level.
Strings escape quotes, backslashes and control characters, and nothing else.
-/

namespace ArenaPeak.Json

def escape (c : Char) : List Char :=
  if c = '"' then ['\\', '"']
  else if c = '\\' then ['\\', '\\']
  else if c = '\x08' then ['\\', 'b']
  else if c = '\x0c' then ['\\', 'f']
  else if c = '\n' then ['\\', 'n']
  else if c = '\r' then ['\\', 'r']
  else if c = '\t' then ['\\', 't']
  else if c.toNat < 0x20 then
    ['\\', 'u', '0', '0', (c.toNat / 16).digitChar, (c.toNat % 16).digitChar]
  else [c]

def writeString (s : String) : List Char :=
  '"' :: (s.toList.flatMap escape ++ ['"'])

def separated (separator : List Char) : List (List Char) → List Char
  | [] => []
  | [item] => item
  | item :: items => item ++ separator ++ separated separator items

mutual

/-- A value on one line. -/
def write : Json → List Char
  | .null => ['n', 'u', 'l', 'l']
  | .bool true => ['t', 'r', 'u', 'e']
  | .bool false => ['f', 'a', 'l', 's', 'e']
  | .int n => (toString n).toList
  | .float literal => literal.toList
  | .str s => writeString s
  | .broken => writeString ""
  | .arr items => '[' :: (separated [','] (writeItems items) ++ [']'])
  | .obj fields => '\x7b' :: (separated [','] (writeFields fields) ++ ['\x7d'])

def writeItems : List Json → List (List Char)
  | [] => []
  | item :: items => write item :: writeItems items

def writeFields : List (String × Json) → List (List Char)
  | [] => []
  | (name, value) :: fields => (writeString name ++ ':' :: write value) :: writeFields fields

end

def compact (j : Json) : String :=
  String.ofList (write j)

def newline (level : Nat) : List Char :=
  '\n' :: List.replicate (2 * level) ' '

mutual

/-- A value laid out over lines, at a level. -/
def layOut (level : Nat) : Json → List Char
  | .arr (item :: items) =>
      let inner := ',' :: newline (level + 1)
      '[' :: (newline (level + 1) ++ separated inner (layOutItems (level + 1) (item :: items)) ++
        newline level ++ [']'])
  | .obj (field :: fields) =>
      let inner := ',' :: newline (level + 1)
      '\x7b' :: (newline (level + 1) ++
        separated inner (layOutFields (level + 1) (field :: fields)) ++ newline level ++ ['\x7d'])
  | .arr [] => ['[', ']']
  | .obj [] => ['\x7b', '\x7d']
  | .null => ['n', 'u', 'l', 'l']
  | .bool true => ['t', 'r', 'u', 'e']
  | .bool false => ['f', 'a', 'l', 's', 'e']
  | .int n => (toString n).toList
  | .float literal => literal.toList
  | .str s => writeString s
  | .broken => writeString ""

def layOutItems (level : Nat) : List Json → List (List Char)
  | [] => []
  | item :: items => layOut level item :: layOutItems level items

def layOutFields (level : Nat) : List (String × Json) → List (List Char)
  | [] => []
  | (name, value) :: fields =>
      (writeString name ++ ':' :: ' ' :: layOut level value) :: layOutFields level fields

end

def pretty (j : Json) : String :=
  String.ofList (layOut 0 j)

end ArenaPeak.Json
