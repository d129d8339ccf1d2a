import Monotype.Text.Decoding
import Monotype.Text.Delimited

/-! Files as the command meets them: their names, what stands under a name, and why a file cannot be
read or opened. -/
namespace Monotype.Command

/-- What keeps a name from being that of a file. -/
inductive Obstacle where
  | missing
  | forbidden
  /-- Part of the name goes through a file as if it were a directory. -/
  | underFile
  | directory
  | nameTooLong
  deriving DecidableEq

/-- The number that the system gives to an obstacle. -/
def Obstacle.number : Obstacle → Nat
  | .missing => 2
  | .forbidden => 13
  | .underFile => 20
  | .directory => 21
  | .nameTooLong => 36

def Obstacle.text : Obstacle → String
  | .missing => "No such file or directory"
  | .forbidden => "Permission denied"
  | .underFile => "Not a directory"
  | .directory => "Is a directory"
  | .nameTooLong => "File name too long"

/-- What stands under a name in the file system. -/
inductive Entry where
  | file (bytes : List UInt8)
  | obstacle (o : Obstacle)

/-- Why a file cannot be read or opened. -/
inductive FileError where
  | obstacle (o : Obstacle) (path : String)
  /-- The name has a null character. -/
  | nullCharacter
  | encoding (fault : Text.Utf8.Fault)
  deriving DecidableEq

def encodingCause : Text.Utf8.Cause → String
  | .startByte => "invalid start byte"
  | .continuationByte => "invalid continuation byte"
  | .endOfData => "unexpected end of data"

/-- The bytes that cannot be read: one is shown, of several the first and last positions. -/
def encodingPlace (f : Text.Utf8.Fault) : String :=
  if f.stop = f.start + 1 then
    "byte 0x" ++ String.ofList (Text.hex 2 f.lead.toNat) ++ " in position " ++ toString f.start
  else "bytes in position " ++ toString f.start ++ "-" ++ toString (f.stop - 1)

def FileError.message : FileError → String
  | .obstacle o path =>
    "[Errno " ++ toString o.number ++ "] " ++ o.text ++ ": " ++ Text.quoted path
  | .nullCharacter => "embedded null byte"
  | .encoding f =>
    "'utf-8' codec can't decode " ++ encodingPlace f ++ ": " ++ encodingCause f.cause

/-! ### Names -/

/-- The slashes that a name starts with: none, one, or exactly two; more count as one. -/
def leadingSlashes (path : String) : String :=
  match path.toList with
  | '/' :: '/' :: '/' :: _ => "/"
  | '/' :: '/' :: _ => "//"
  | '/' :: _ => "/"
  | _ => ""

/-- The parts of a name, without empty ones and those that stand for the place itself. -/
def pathParts (path : String) : List String :=
  (path.splitOn "/").filter fun p => p ≠ "" ∧ p ≠ "."

def joinPath (start : String) (parts : List String) : String :=
  match start ++ "/".intercalate parts with
  | "" => "."
  | name => name

/-- The name of a file in its plain form. -/
def plainPath (path : String) : String := joinPath (leadingSlashes path) (pathParts path)

/-- The parts of a name after a step up has taken back the part before it. `seen` are the parts
before, the last one first. -/
def stepUp (rooted : Bool) (seen : List String) : List String → List String
  | [] => seen.reverse
  | part :: rest =>
    if part = ".." then
      match seen with
      | [] => stepUp rooted (if rooted then [] else [".."]) rest
      | last :: before =>
        if last = ".." then stepUp rooted (".." :: seen) rest else stepUp rooted before rest
    else stepUp rooted (part :: seen) rest

/-- The name of a file in its shortest form: no part is entered only to be left again. -/
def shortPath (path : String) : String :=
  let start := leadingSlashes path
  joinPath start (stepUp (start ≠ "") [] (pathParts path))

/-- The name of the directory that a file stands in. -/
def parentPath (path : String) : String :=
  joinPath (leadingSlashes path) (pathParts path).dropLast

/-- The shortest form of a name, seen from the root of the file system. -/
def absolutePath (directory path : String) : String :=
  shortPath (if leadingSlashes path = "" then directory ++ "/" ++ path else path)

/-! ### Reading and opening -/

def hasNull (path : String) : Bool := path.contains (Char.ofNat 0)

/-- Reads a text file; all line ends become line feeds. -/
def readFile (entry : String → Entry) (path : String) : Except FileError String :=
  let path := plainPath path
  if hasNull path then .error .nullCharacter else
  match entry path with
  | .obstacle o => .error (.obstacle o path)
  | .file bytes =>
    match Text.Utf8.decode bytes with
    | .error fault => .error (.encoding fault)
    | .ok cs => .ok (String.ofList (Text.normalizeLineEnds cs))

/-- What keeps a file from being written. One that is missing can be made where there is a directory
for it. -/
def obstacleToWriting (entry : String → Entry) (path : String) : Option Obstacle :=
  match entry path with
  | .file _ => none
  | .obstacle .missing =>
    match entry (parentPath path) with
    | .obstacle .directory => none
    | _ => some .missing
  | .obstacle o => some o

/-- Why a file cannot be opened for writing, if it cannot. Only the shortest form of its name
counts, so a part that is left again may have a null character. The fault names the file from the
root. -/
def openFault (entry : String → Entry) (directory path : String) : Option FileError :=
  let short := shortPath path
  if hasNull short then some .nullCharacter
  else (obstacleToWriting entry short).map (.obstacle · (absolutePath directory path))

end Monotype.Command
