/-!
# Files

The files that a command reads and writes, as a tree given by the paths of its members.  Relative
paths start at the root of the tree.  Of the system around the tree little is known: its standard
directories, which are taken to be empty, and its null device.
-/

namespace MethodTracing
namespace CommandLine

/-- Why a file cannot be read or written. -/
inductive FileError
  | notFound
  | notADirectory
  | isADirectory
  | nameTooLong
  /-- The bytes of the file are no text. -/
  | notText
  /-- Any other reason, in the words of the system. -/
  | other (reason : String)
  deriving DecidableEq

/-- The wording of each cause. -/
def FileError.message : FileError → String
  | .notFound => "No such file or directory (os error 2)"
  | .notADirectory => "Not a directory (os error 20)"
  | .isADirectory => "Is a directory (os error 21)"
  | .nameTooLong => "File name too long (os error 36)"
  | .notText => "stream did not contain valid UTF-8"
  | .other reason => reason

/-- How a command reaches files. -/
structure Files where
  /-- The text of a file. -/
  read : String → Except FileError String
  /-- Why a file cannot be written, if it cannot. -/
  writeError? : String → Option FileError

/-- A member of a tree of files. -/
inductive Entry
  | directory
  | file (bytes : ByteArray)

/-- A tree of files: the paths of its members without a slash at either end. -/
structure Tree where
  /-- The members by their paths. -/
  entries : List (String × Entry)

/-- What a path leads to. -/
inductive Place
  | directory
  | file (bytes : ByteArray)
  /-- Nothing yet, in a directory that exists. -/
  | free
  /-- Nothing, in a directory that exists, by a name that no file can have. -/
  | unnameable
  | error (cause : FileError)

namespace Tree

/-- The steps of a path. -/
def steps (path : String) : List String :=
  (path.splitOn "/").filter (· != "")

/-- The member at the end of steps. -/
def entry? (tree : Tree) (path : List String) : Option Entry :=
  match tree.entries.find? fun entry => steps entry.1 == path with
  | some (_, entry) => some entry
  | none =>
      if path.isEmpty || tree.entries.any fun entry => path.isPrefixOf (steps entry.1) then
        some .directory
      else none

/-- The most bytes that a step of a path may take. -/
def stepLimit : Nat := 255

/-- The most bytes that a path may take. -/
def pathLimit : Nat := 4095

/-- What a step leads to that is not found in a directory; `rest` are the steps after it. -/
def missing (step : String) (rest : List String) : Place :=
  if stepLimit < step.utf8ByteSize then
    if rest.isEmpty then .unnameable else .error .nameTooLong
  else if rest.isEmpty then .free
  else .error .notFound

/-- Follow steps from a directory: one of the tree, given by its own steps, or one outside of it.
The answer begins with where the path leads to in the tree, if it does. -/
def follow (tree : Tree) (before : Option (List String)) :
    List String → Option (List String) × Place
  | [] => (before, .directory)
  | step :: rest =>
      if step = "." then tree.follow before rest
      else
        match before with
        | none =>
            if step = ".." then tree.follow none rest else (none, missing step rest)
        | some before =>
            if step = ".." then
              tree.follow (if before.isEmpty then none else some before.dropLast) rest
            else
              let path := before ++ [step]
              match tree.entry? path with
              | some .directory => tree.follow (some path) rest
              | some (.file bytes) =>
                  (some path, if rest.isEmpty then .file bytes else .error .notADirectory)
              | none => (some path, missing step rest)

/-- Directories that stand at the root of a system. -/
def systemDirectories : List String :=
  ["bin", "boot", "dev", "etc", "home", "lib", "media", "mnt", "opt", "proc", "root", "run", "sbin",
    "srv", "sys", "tmp", "usr", "var"]

/-- What a path from the root of the system leads to. -/
def systemPlace (tree : Tree) : List String → Place
  | ["dev", "null"] => .file .empty
  | "dev" :: "null" :: _ => .error .notADirectory
  | step :: rest =>
      if systemDirectories.contains step then (tree.follow none rest).2
      else (tree.follow none (step :: rest)).2
  | [] => .directory

/-- Where a path leads to in the tree, if it does, and what it leads to, a slash at its end aside. -/
def locate (tree : Tree) (path : String) : Option (List String) × Place :=
  if path.isEmpty then (none, .error .notFound)
  else if pathLimit < path.utf8ByteSize then (none, .error .nameTooLong)
  else if path.startsWith "/" then (none, tree.systemPlace (steps path))
  else tree.follow (some []) (steps path)

/-- Read and write the members of a tree.  A path that ends in a slash asks for a directory: a file
cannot be read by it, and no file is ever written by it. -/
def files (tree : Tree) : Files where
  read path :=
    match (tree.locate path).2 with
    | .directory => .error .isADirectory
    | .file bytes =>
        if path.endsWith "/" then .error .notADirectory
        else
          match String.fromUTF8? bytes with
          | some text => .ok text
          | none => .error .notText
    | .free => .error .notFound
    | .unnameable => .error .nameTooLong
    | .error cause => .error cause
  writeError? path :=
    match (tree.locate path).2 with
    | .directory => some .isADirectory
    | .file _ | .free => if path.endsWith "/" then some .isADirectory else none
    | .unnameable => some (if path.endsWith "/" then .isADirectory else .nameTooLong)
    | .error cause => some cause

/-- The path by which the member at the end of a path is listed, if it lies in the tree. -/
def listed? (tree : Tree) (path : String) : Option String :=
  (tree.locate path).1.map (String.intercalate "/")

end Tree
end CommandLine
end MethodTracing
