import ArenaPeak.Text.Split

/-!
A tree of folders and files, and how a path is followed in it. A path goes from part to part and
each part but the last must lead to a folder; an empty part or a dot stays, two dots go up, and at
the root going up stays.
-/

namespace ArenaPeak

inductive FileError where
  | missing
  | denied
  | notFolder
  | isFolder
  | nameTooLong
  /-- Any other cause, by its number and its wording. -/
  | other (number : Nat) (reason : String)
  deriving DecidableEq

namespace FileError

def number : FileError → Nat
  | .missing => 2
  | .denied => 13
  | .notFolder => 20
  | .isFolder => 21
  | .nameTooLong => 36
  | .other number _ => number

def reason : FileError → String
  | .missing => "No such file or directory"
  | .denied => "Permission denied"
  | .notFolder => "Not a directory"
  | .isFolder => "Is a directory"
  | .nameTooLong => "File name too long"
  | .other _ reason => reason

def message (e : FileError) : String :=
  e.reason ++ " (os error " ++ toString e.number ++ ")"

end FileError

inductive FileTree where
  | file (bytes : ByteArray)
  | folder (entries : List (String × FileTree))

namespace FileTree

def maxPart : Nat := 255

def maxPath : Nat := 4095

def parts (path : String) : List String :=
  (Text.splitAll '/' path.toList).map String.ofList

/-- Goes from `here` along some parts; `above` are the folders on the way to it, nearest first. -/
def walk (above : List FileTree) (here : FileTree) : List String → Except FileError FileTree
  | [] => .ok here
  | part :: rest =>
      match here with
      | .file _ => .error .notFolder
      | .folder entries =>
          if part = "" ∨ part = "." then walk above here rest
          else if part = ".." then
            match above with
            | [] => walk [] here rest
            | up :: above => walk above up rest
          else if maxPart < part.utf8ByteSize then .error .nameTooLong
          else
            match entries.lookup part with
            | some next => walk (here :: above) next rest
            | none => .error .missing

/-- What a path leads to from a folder that is reached from the root by the parts `here`. -/
def follow (root : FileTree) (here : List String) (path : String) : Except FileError FileTree :=
  if path = "" then .error .missing
  else if maxPath < path.utf8ByteSize then .error .nameTooLong
  else if path.startsWith "/" then walk [] root (parts path)
  else walk [] root (here ++ parts path)

def read (root : FileTree) (here : List String) (path : String) : Except FileError ByteArray := do
  match ← root.follow here path with
  | .file bytes => return bytes
  | .folder _ => .error .isFolder

end FileTree

end ArenaPeak
