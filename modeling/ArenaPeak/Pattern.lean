import ArenaPeak.Method
import ArenaPeak.Text.Split
import ArenaPeak.Text.Blank

/-!
Patterns over methods, written `Class::method`, `Class.method` or just `Class`. Each part is an
exact text, or one with stars at its ends that stand for any run of characters.
-/

namespace ArenaPeak

inductive ConfigError where
  | unknownMode (word : String)
  | badPattern (text : String)
  deriving DecidableEq

namespace ConfigError

def message : ConfigError → String
  | .unknownMode word => "Invalid configuration: unknown MemStat mode '" ++ word ++ "'"
  | .badPattern text => "Invalid method pattern '" ++ text ++ "'"

end ConfigError

structure MethodPattern where
  owner : String
  name : String
  deriving DecidableEq

namespace MethodPattern

def isStar (c : Char) : Bool :=
  c == '*'

/-- A part without the stars at its ends. -/
def core (part : List Char) : List Char :=
  Text.strip isStar part

/-- A part must be there and may have stars at its ends only. -/
def isPart (part : List Char) : Bool :=
  !part.isEmpty && !(core part).any isStar

/-- Whether a part matches a text. A lone star counts as a leading one. -/
def partMatches (part text : List Char) : Bool :=
  let lead := part.head?.any isStar
  let trail := decide (1 < part.length) && part.getLast?.any isStar
  let core := core part
  if core.isEmpty then true
  else
    match lead, trail with
    | true, true => Text.hasRun core text
    | true, false => core.isSuffixOf text
    | false, true => core.isPrefixOf text
    | false, false => text == core

/-- The class part and the method part of a pattern's text: cut at the first `::`, else at the
last `.`, else all of it is the class. -/
def cut (text : List Char) : List Char × List Char :=
  match Text.splitFirst [':', ':'] text with
  | some parts => parts
  | none =>
      match Text.splitLast '.' text with
      | some parts => parts
      | none => (text, ['*'])

def parse (s : String) : Except ConfigError MethodPattern :=
  let (owner, name) := cut s.toList
  if isPart owner && isPart name then
    .ok ⟨String.ofList owner, String.ofList name⟩
  else
    .error (.badPattern s)

/-- A method is matched by its class and its name; the signature plays no part. -/
def covers (p : MethodPattern) (m : Method) : Bool :=
  partMatches p.owner.toList m.owner.text.toList && partMatches p.name.toList m.name.text.toList

end MethodPattern

end ArenaPeak
