/-!
# Why a file operation fails

The causes that the file tree reports, and their texts.
-/

namespace LangBundle.Files

/-- The cause of a failed file operation. -/
inductive Fault where
  | notPermitted
  | notFound
  | noSuchProcess
  | interrupted
  | noDevice
  | notExecutableFormat
  | badDescriptor
  | permissionDenied
  | busy
  | alreadyExists
  | notDirectory
  | isDirectory
  | invalidArgument
  | noSpace
  | illegalSeek
  | brokenPipe
  | nameTooLong
  | notEmpty
  | tooManyLinks
  | addressUnavailable
  | nulInPath
  | nulInArgument
  deriving Repr, DecidableEq

namespace Fault

/-- What is said about the cause, without its number. -/
def description : Fault → String
  | .notPermitted => "Operation not permitted"
  | .notFound => "No such file or directory"
  | .noSuchProcess => "No such process"
  | .interrupted => "Interrupted system call"
  | .noDevice => "No such device or address"
  | .notExecutableFormat => "Exec format error"
  | .badDescriptor => "Bad file descriptor"
  | .permissionDenied => "Permission denied"
  | .busy => "Device or resource busy"
  | .alreadyExists => "File exists"
  | .notDirectory => "Not a directory"
  | .isDirectory => "Is a directory"
  | .invalidArgument => "Invalid argument"
  | .noSpace => "No space left on device"
  | .illegalSeek => "Illegal seek"
  | .brokenPipe => "Broken pipe"
  | .nameTooLong => "File name too long"
  | .notEmpty => "Directory not empty"
  | .tooManyLinks => "Too many levels of symbolic links"
  | .addressUnavailable => "Cannot assign requested address"
  | .nulInPath => "file name contained an unexpected NUL byte"
  | .nulInArgument => "nul byte found in provided data"

/-- The system's number of the cause, where it has one. -/
def number? : Fault → Option Nat
  | .notPermitted => some 1
  | .notFound => some 2
  | .noSuchProcess => some 3
  | .interrupted => some 4
  | .noDevice => some 6
  | .notExecutableFormat => some 8
  | .badDescriptor => some 9
  | .permissionDenied => some 13
  | .busy => some 16
  | .alreadyExists => some 17
  | .notDirectory => some 20
  | .isDirectory => some 21
  | .invalidArgument => some 22
  | .noSpace => some 28
  | .illegalSeek => some 29
  | .brokenPipe => some 32
  | .nameTooLong => some 36
  | .notEmpty => some 39
  | .tooManyLinks => some 40
  | .addressUnavailable => some 99
  | .nulInPath | .nulInArgument => none

/-- The text of the cause. -/
def message (fault : Fault) : String :=
  match fault.number? with
  | some n => fault.description ++ " (os error " ++ toString n ++ ")"
  | none => fault.description

end Fault

end LangBundle.Files
