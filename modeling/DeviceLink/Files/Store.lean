import DeviceLink.Files.Path

/-!
The state of a file system below a working directory: the files with their texts and the
directories. Reading, writing and making directories answer as a file system does, with the causes
of refusal that it knows.
-/

set_option autoImplicit false
set_option relaxedAutoImplicit false

namespace DeviceLink

/-- Why a file system refuses something. -/
inductive FileError where
  | notFound
  | alreadyExists
  | notADirectory
  | isADirectory
  | nameTooLong
  | zeroByte
  | other (text : String)
deriving DecidableEq

def FileError.message : FileError → String
  | notFound => "No such file or directory (os error 2)"
  | alreadyExists => "File exists (os error 17)"
  | notADirectory => "Not a directory (os error 20)"
  | isADirectory => "Is a directory (os error 21)"
  | nameTooLong => "File name too long (os error 36)"
  | zeroByte => "file name contained an unexpected NUL byte"
  | other text => text

/-- What is at a place of a file system. -/
inductive FileEntry where
  | file (text : String)
  | directory
deriving DecidableEq

/-- A place: the names on the way from the working directory. A place outside starts with dots for
the way up, or with a slash for the way from the root. -/
abbrev Location := List String

/-- What is known to exist, the latest state of a place first. -/
structure Store where
  entries : List (Location × FileEntry) := []

namespace Store

/-- Whether a place is the working directory or on the way up from it. -/
def isBase (l : Location) : Bool :=
  l == ["/"] || l.all (· == "..")

def lookup? (s : Store) (l : Location) : Option FileEntry :=
  if isBase l then some .directory else (s.entries.find? (·.1 == l)).map (·.2)

/-- The state with something at a place, in the place of what was there. -/
def put (s : Store) (l : Location) (e : FileEntry) : Store :=
  ⟨(l, e) :: s.entries.filter (·.1 != l)⟩

def step (l : Location) (piece : String) : Location :=
  if piece.isEmpty || piece = "." then l
  else if piece = ".." then
    if l == ["/"] then l
    else if isBase l then l ++ [".."]
    else l.dropLast
  else l ++ [piece]

def longestName : Nat := 255

def longestPath : Nat := 4095

def isLongName (name : String) : Bool :=
  longestName < name.utf8ByteSize

def badPath? (path : String) : Option FileError :=
  if path.toList.contains (Char.ofNat 0) then some .zeroByte
  else if path.isEmpty then some .notFound
  else if longestPath < path.utf8ByteSize then some .nameTooLong
  else none

/-- The place at the end of a way; every place before the end must be a directory. -/
def follow (s : Store) (l : Location) : List String → Except FileError Location
  | [] => .ok l
  | piece :: rest =>
    match s.lookup? l with
    | none => .error .notFound
    | some (.file _) => .error .notADirectory
    | some .directory =>
      if isLongName piece then .error .nameTooLong else follow s (step l piece) rest

def origin (path : String) : Location :=
  if Path.isAbsolute path then ["/"] else []

def way (path : String) : List String :=
  (Path.pieces path).filter (!·.isEmpty)

def endsInSlash (path : String) : Bool :=
  path.toList.getLast? = some '/'

def locate (s : Store) (path : String) : Except FileError Location :=
  match badPath? path with
  | some e => .error e
  | none => s.follow (origin path) (way path)

def isDots (name : String) : Bool :=
  name = "." || name = ".."

/-- The place that a path names for something new: its directory must exist. The last name is given
too, unless there is none or it stands for a place already passed. -/
def locateNew (s : Store) (path : String) : Except FileError (Location × Option String) :=
  match badPath? path, (way path).getLast? with
  | some e, _ => .error e
  | none, none => .ok (origin path, none)
  | none, some name =>
    match s.follow (origin path) ((way path).dropLast ++ ["."]) with
    | .error e => .error e
    | .ok l => .ok (l, if isDots name then none else some name)

def isDirectory (s : Store) (path : String) : Bool :=
  match s.locate path with
  | .ok l => s.lookup? l = some .directory
  | .error _ => false

def read (s : Store) (path : String) : Except FileError String :=
  match s.locate path with
  | .error e => .error e
  | .ok l =>
    match s.lookup? l with
    | none => .error .notFound
    | some .directory => .error .isADirectory
    | some (.file text) => if endsInSlash path then .error .notADirectory else .ok text

/-- The state with a text at a path, in a new file or in the place of the old text. -/
def write (s : Store) (path text : String) : Except FileError Store :=
  match s.locateNew path with
  | .error e => .error e
  | .ok (_, none) => .error .isADirectory
  | .ok (l, some name) =>
    if endsInSlash path || s.lookup? (l ++ [name]) = some .directory then .error .isADirectory
    else if isLongName name then .error .nameTooLong
    else .ok (s.put (l ++ [name]) (.file text))

def makeDirectory (s : Store) (path : String) : Except FileError Store :=
  match s.locateNew path with
  | .error e => .error e
  | .ok (_, none) => .error .alreadyExists
  | .ok (l, some name) =>
    if (s.lookup? (l ++ [name])).isSome then .error .alreadyExists
    else if isLongName name then .error .nameTooLong
    else .ok (s.put (l ++ [name]) .directory)

/-- The state with directories at all paths of a list, each one of which is made when it is not
there. -/
def makeAll (s : Store) : List String → Except FileError Store × Store
  | [] => (.ok s, s)
  | path :: rest =>
    match s.makeDirectory path with
    | .ok s => makeAll s rest
    | .error e => if s.isDirectory path then makeAll s rest else (.error e, s)

/-- A path and the paths of the directories that hold it, in this order, at most `n` of them. -/
def ancestors (path : String) : Nat → List String
  | 0 => []
  | n + 1 =>
    if path.isEmpty then []
    else match Path.parent? path with
      | some parent => path :: ancestors parent n
      | none => [path]

/-- The paths at the front of a list, which leads upwards, whose directory does not exist. -/
def missing (s : Store) : List String → List String
  | [] => []
  | path :: rest =>
    match s.makeDirectory path with
    | .error .notFound => path :: missing s rest
    | _ => [path]

def makeDirectories (s : Store) (path : String) : Except FileError Unit × Store :=
  let steps := s.missing (ancestors path path.length)
  match s.makeAll steps.reverse with
  | (.ok _, s) => (.ok (), s)
  | (.error e, s) => (.error e, s)

/-- The text at the end of a file, which is made when it is not there. -/
def append (s : Store) (path text : String) : Except FileError Store :=
  match s.read path with
  | .ok old => s.write path (old ++ text)
  | .error .notFound => s.write path text
  | .error e => .error e

def provide (s : Store) (path text : String) : Store :=
  let s := match Path.parent? path with
    | some parent => (s.makeDirectories parent).2
    | none => s
  match s.write path text with
  | .ok s => s
  | .error _ => s

/-- The places below the working directory with their paths; those of directories end in a slash. -/
def listing (s : Store) : List (String × Option String) :=
  s.entries.filterMap fun entry =>
    if entry.1.head? = some ".." || entry.1.head? = some "/" then none
    else
      let path := "/".intercalate entry.1
      match entry.2 with
      | .file text => some (path, some text)
      | .directory => some (path ++ "/", none)

end Store

end DeviceLink
