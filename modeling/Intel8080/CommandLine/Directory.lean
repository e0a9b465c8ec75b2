import Intel8080.Image

/-!
# Directories

A directory of files by name, as the program sees it when it runs there. A path is read component
by component; empty components and single dots stay where they are.

This stands for the file system that the program runs in, and embeds nothing of the program.
-/
namespace Intel8080.CommandLine

structure Directory where
  entries : List (String × List UInt8)
  deriving DecidableEq, Repr

namespace Directory

/-- The components of a path that lead somewhere. -/
def components (path : String) : List String :=
  (path.splitOn "/").filter fun part => part != "" && part != "."

/-- The bytes of the file that a path names, or why there are none. -/
def read (d : Directory) (path : String) : FileContents :=
  if path.isEmpty then .error .notFound
  else
    match components path with
    | [] => .error .isDirectory
    | name :: more =>
      if 255 < name.utf8ByteSize then .error .nameTooLong
      else if name == ".." then .error (if more.isEmpty then .isDirectory else .notFound)
      else if path.startsWith "/" then .error .notFound
      else
        match d.entries.find? fun entry => entry.1 == name with
        | none => .error .notFound
        | some entry =>
          if more.isEmpty && !path.endsWith "/" && !path.endsWith "/." then .ok entry.2
          else .error .notDirectory

end Directory

end Intel8080.CommandLine
