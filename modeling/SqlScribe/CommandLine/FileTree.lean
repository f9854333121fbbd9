import SqlScribe.CommandLine.Run

/-!
# Files held in memory

A tree of files, given by their paths, with the directories that the paths go
through.  A path is followed step by step, and every step is taken from a
directory; reading fails where reading from a disk would.  Above the working
directory there are directories, but no files that are known.
-/

namespace SqlScribe.CommandLine

/-- The names on the way from the working directory to a file or directory. -/
abbrev Place := List String

/-- Files by their places. -/
structure FileTree where
  files : List (Place × String)

namespace FileTree

/-- The steps of a path; between two slashes and after the last one there is an empty step. -/
def steps (path : String) : List String :=
  (Text.splitAt '/' path.toList).map String.ofList

/-- The tree of some files with their paths from the working directory. -/
def ofPaths (files : List (String × String)) : FileTree :=
  ⟨files.map fun (path, text) => (steps path, text)⟩

/-- The text of the file at a place. -/
def fileAt? (tree : FileTree) (place : Place) : Option String :=
  (tree.files.find? fun file => file.1 == place).map Prod.snd

/-- Whether a place is the working directory or lies on the way to a file. -/
def isDirectory (tree : FileTree) (place : Place) : Bool :=
  place.isEmpty || tree.files.any fun file => place.isPrefixOf file.1 && place != file.1

/-- What keeps a step from being taken from a place. -/
def stepFault? (tree : FileTree) (place : Place) : Option FileFault :=
  if tree.isDirectory place then none
  else if (tree.fileAt? place).isSome then some .notDirectory
  else some .missing

/-- How many bytes a step of a path may have. -/
def longestStep : Nat := 255

/-- How many bytes a path may have. -/
def longestPath : Nat := 4095

/-- Why no file is found by steps from a place above the working directory, where none are known. -/
def faultAbove (steps : List String) : FileFault :=
  if steps.all ["", ".", ".."].contains then .isDirectory else .missing

/-- Follows steps from a place.  An empty step and a dot stay there, two dots go back. -/
def follow (tree : FileTree) (place : Place) : List String → Except FileFault Place
  | [] => .ok place
  | step :: rest =>
      match tree.stepFault? place with
      | some fault => .error fault
      | none =>
          if step = "" ∨ step = "." then tree.follow place rest
          else if step = ".." then
            if place.isEmpty then .error (faultAbove rest) else tree.follow place.dropLast rest
          else if longestStep < Text.byteLength step.toList then .error .nameTooLong
          else tree.follow (place ++ [step]) rest

/-- Reads the file at a path. -/
def read (tree : FileTree) : Files := fun path =>
  if path.isEmpty then .error .missing
  else if longestPath < Text.byteLength path.toList then .error .nameTooLong
  else if path.startsWith "/" then .error (faultAbove (steps path))
  else do
    let place ← tree.follow [] (steps path)
    match tree.fileAt? place with
    | some text => pure text
    | none => throw (if tree.isDirectory place then .isDirectory else .missing)

end FileTree

end SqlScribe.CommandLine
