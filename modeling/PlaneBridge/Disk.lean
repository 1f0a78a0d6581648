/-!
# Files

The files that the adapter may read, as a function from paths.  A path leads to a file, to a
directory or nowhere.
-/

namespace PlaneBridge

namespace Disk

inductive Entry where
  | file (content : ByteArray)
  | directory

/-- Why a file cannot be read. -/
inductive Failure where
  | notFound
  | notDirectory
  | isDirectory
  | nameTooLong
  | nullInName
  | notUtf8
  deriving DecidableEq, Repr

def Failure.message : Failure → String
  | .notFound => "No such file or directory (os error 2)"
  | .notDirectory => "Not a directory (os error 20)"
  | .isDirectory => "Is a directory (os error 21)"
  | .nameTooLong => "File name too long (os error 36)"
  | .nullInName => "file name contained an unexpected NUL byte"
  | .notUtf8 => "stream did not contain valid UTF-8"

end Disk

/-- Where paths lead. -/
abbrev Disk := String → Except Disk.Failure Disk.Entry

namespace Disk

/-- Whether a path leads anywhere. -/
def exists? (disk : Disk) (path : String) : Bool := (disk path).toBool

def read (disk : Disk) (path : String) : Except Failure ByteArray := do
  match ← disk path with
  | .file content => return content
  | .directory => throw .isDirectory

def readText (disk : Disk) (path : String) : Except Failure String := do
  match String.fromUTF8? (← disk.read path) with
  | some text => return text
  | none => throw .notUtf8

end Disk
end PlaneBridge
