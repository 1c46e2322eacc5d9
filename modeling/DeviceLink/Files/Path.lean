import DeviceLink.Text.Segments

/-!
Paths as texts. The parts of a path stand between slashes; empty parts and dots count for nothing,
except for a dot at the very front of a relative path.
-/

set_option autoImplicit false
set_option relaxedAutoImplicit false

namespace DeviceLink.Path

def isAbsolute (path : String) : Bool :=
  path.toList.head? == some '/'

def pieces (path : String) : List String :=
  (Text.split '/' path.toList).map String.ofList

/-- Whether a piece counts, where `front` says that it is the first one. -/
def counts (front : Bool) (piece : String) : Bool :=
  !piece.isEmpty && (front || piece != ".")

/-- Pieces, last one first, without those at the end that do not count. The piece at the front is
the last of the list. -/
def dropIdle : List String → List String
  | [] => []
  | piece :: before => if counts before.isEmpty piece then piece :: before else dropIdle before

/-- The last piece that counts and the pieces before it, last one first. -/
def lastPart? (path : String) : Option (String × List String) :=
  match dropIdle (pieces path).reverse with
  | [] => none
  | piece :: before => some (piece, dropIdle before)

def parent? (path : String) : Option String :=
  match lastPart? path with
  | none => none
  | some (_, before) =>
    if before.isEmpty then some (if isAbsolute path then "/" else "")
    else
      let rest := "/".intercalate before.reverse
      some (if isAbsolute path && !isAbsolute rest then "/" ++ rest else rest)

def fileName? (path : String) : Option String :=
  match lastPart? path with
  | some (piece, _) => if piece = "." || piece = ".." then none else some piece
  | none => none

/-- The text after the last dot of the file name; a dot in front of the name does not count. -/
def extension? (path : String) : Option String :=
  match (fileName? path).bind (Text.splitLast? '.') with
  | some (stem, extension) => if stem.isEmpty then none else some extension
  | none => none

def join (base path : String) : String :=
  if isAbsolute path || base.isEmpty then path
  else if base.toList.getLast? = some '/' then base ++ path
  else base ++ "/" ++ path

end DeviceLink.Path
