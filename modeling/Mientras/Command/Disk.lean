/-!
# Files and directories

A `Disk` holds files and directories under the names that lead to them.  A path names its
directories from the top on, with slashes between them; `.` is the directory itself and `..` the
one above it. `Disk.read` and `Disk.write` follow a path, or say with a `Refusal` why they
cannot.
-/

namespace Mientras

/-- The reasons why a file cannot be read or written. -/
inductive Refusal where
  /-- Nothing has that name. -/
  | missing
  /-- A directory stands where a file should. -/
  | isDirectory
  /-- A file stands where a directory should. -/
  | notDirectory
  /-- The file is not in UTF-8. -/
  | notText
  /-- Some other reason. -/
  | other (message : String)
  deriving DecidableEq, Repr, Inhabited

/-- What a refusal says. -/
def Refusal.message : Refusal → String
  | missing => "No such file or directory (os error 2)"
  | isDirectory => "Is a directory (os error 21)"
  | notDirectory => "Not a directory (os error 20)"
  | notText => "stream did not contain valid UTF-8"
  | other message => message

/-- The pieces of a text between the slashes. -/
def slashPieces : List Char → List (List Char)
  | [] => [[]]
  | c :: text =>
    if c = '/' then [] :: slashPieces text
    else
      match slashPieces text with
      | [] => [[c]]
      | piece :: others => (c :: piece) :: others

/-- Where a path leads: through directories to a name. -/
structure Route where
  directories : List String
  name : String
  /-- A slash at the end of the path says that a directory is meant. -/
  toDirectory : Bool
  deriving DecidableEq, Repr, Inhabited

/-- The route of a path. -/
def Route.ofPath (path : String) : Route :=
  let pieces := (slashPieces path.toList).map String.ofList
  let names := (pieces.reverse.dropWhile (· == "")).reverse
  ⟨names.dropLast, names.getLast?.getD ".", pieces.getLast? == some ""⟩

/-- What stands under a name. -/
inductive Node where
  | file (content : ByteArray)
  | directory
  deriving Inhabited

/-- Files and directories.  The names of an entry lead to it from the top directory. -/
structure Disk where
  entries : List (List String × Node)

namespace Disk

/-- What stands where the names lead to. -/
def node? (disk : Disk) (names : List String) : Option Node :=
  if names.isEmpty then some .directory else disk.entries.lookup names

/-- The disk with a file where the names lead to. -/
def put (disk : Disk) (names : List String) (content : ByteArray) : Disk :=
  ⟨(names, .file content) :: disk.entries.filter (·.1 != names)⟩

theorem node?_put_self (disk : Disk) {names : List String} (h : names ≠ []) (content : ByteArray) :
  (disk.put names content).node? names = some (.file content)
  := by
  simp [node?, put, h]

/-- A file that is put on a disk changes nothing elsewhere. -/
theorem node?_put_of_ne (disk : Disk) {names others : List String} (h : others ≠ names)
    (content : ByteArray) :
  (disk.put names content).node? others = disk.node? others
  := by
  have hne : (others == names) = false := beq_eq_false_iff_ne.mpr h
  have hlookup : ∀ entries : List (List String × Node),
      (entries.filter (·.1 != names)).lookup others = entries.lookup others := by
    intro entries
    induction entries with
    | nil => rfl
    | cons entry entries ih =>
      rw [List.filter_cons]
      split
      · rw [List.lookup_cons, List.lookup_cons, ih]
      · rename_i hentry
        have heq : entry.1 = names := by simpa using hentry
        rw [List.lookup_cons, heq, hne, ih]
  simp [node?, put, List.lookup_cons, hne, hlookup]

/-- The directory that the names lead to from the directory `here`. -/
def enter (disk : Disk) : List String → List String → Except Refusal (List String)
  | here, [] => .ok here
  | here, name :: names =>
    if name = "" ∨ name = "." then enter disk here names
    else if name = ".." then enter disk here.dropLast names
    else
      match disk.node? (here ++ [name]) with
      | some .directory => enter disk (here ++ [name]) names
      | some (.file _) => .error .notDirectory
      | none => .error .missing

/-- The names that lead to the file of a path, whether there is one or not. -/
def locate (disk : Disk) (route : Route) : Except Refusal (List String) := do
  let here ← disk.enter [] route.directories
  if route.name = "." ∨ route.name = ".." then .error .isDirectory
  else .ok (here ++ [route.name])

/-- The content of the file of a path. -/
def read (disk : Disk) (path : String) : Except Refusal ByteArray := do
  let route := Route.ofPath path
  match disk.node? (← disk.locate route) with
  | some (.file content) => if route.toDirectory then .error .notDirectory else .ok content
  | some .directory => .error .isDirectory
  | none => .error .missing

/-- The disk with new content in the file of a path. -/
def write (disk : Disk) (path : String) (content : ByteArray) : Except Refusal Disk := do
  let route := Route.ofPath path
  let names ← disk.locate route
  if route.toDirectory then .error .isDirectory
  else
    match disk.node? names with
    | some .directory => .error .isDirectory
    | _ => .ok (disk.put names content)

/-- The files that were put on a disk, new or with other content than before. -/
def changes (before after : Disk) : List (List String × ByteArray) :=
  after.entries.filterMap fun entry =>
    match entry.2, before.node? entry.1 with
    | .file content, some (.file old) =>
      if content.data == old.data then none else some (entry.1, content)
    | .file content, _ => some (entry.1, content)
    | .directory, _ => none

end Disk

end Mientras
