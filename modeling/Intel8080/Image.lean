import Intel8080.Memory

/-!
# Images

An image is a file of raw bytes, with no header, that fits into memory.

Embedded here is `load_image`. The texts of failed reads are those of a POSIX system.
-/
namespace Intel8080

inductive ReadFailure where
  | notFound | permissionDenied | notDirectory | isDirectory | nameTooLong
  /-- The bytes are not the text that was asked for. -/
  | notText
  /-- Any other cause, in the words of the system. -/
  | other (words : String)
  deriving DecidableEq, Repr

def ReadFailure.message : ReadFailure → String
  | .notFound => "No such file or directory (os error 2)"
  | .permissionDenied => "Permission denied (os error 13)"
  | .notDirectory => "Not a directory (os error 20)"
  | .isDirectory => "Is a directory (os error 21)"
  | .nameTooLong => "File name too long (os error 36)"
  | .notText => "stream did not contain valid UTF-8"
  | .other words => words

abbrev FileContents := Except ReadFailure (List UInt8)

inductive ImageError where
  | unreadable (path : String) (cause : ReadFailure)
  | tooLarge (size : Nat)
  deriving DecidableEq, Repr

def ImageError.message : ImageError → String
  | .unreadable path cause => "cannot read " ++ path ++ ": " ++ cause.message
  | .tooLarge size => "image is " ++ toString size ++ " bytes; memory holds 65536"

/-- The image that a file holds, unless it is larger than memory. -/
def imageOfFile (path : String) (contents : FileContents) : Except ImageError (List UInt8) :=
  match contents with
  | .error cause => .error (.unreadable path cause)
  | .ok bytes => if memorySize < bytes.length then .error (.tooLarge bytes.length) else .ok bytes

end Intel8080
