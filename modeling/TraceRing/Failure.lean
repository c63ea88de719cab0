import TraceRing.Text.Lossy
import TraceRing.Grid

/-!
# Failures of the outside world

Files and sinks fail with an `IoError`; the transport adds what it was doing, and the result is a
`TransportFailure` with a code of its own. Producers have no failures: a full ring is a reason to
drop a packet, not an error.
-/

namespace TraceRing

/-! ## Causes -/

/-- The kinds of failure that are told apart. -/
inductive ErrorKind where
  | notFound
  | permissionDenied
  | alreadyExists
  | wouldBlock
  | notADirectory
  | isADirectory
  | brokenPipe
  | invalidInput
  | writeZero
  | storageFull
  | fileTooLarge
  | filesystemLoop
  | invalidFilename
  | interrupted
  | other
  deriving DecidableEq, Repr

namespace ErrorKind

def all : List ErrorKind :=
  [notFound, permissionDenied, alreadyExists, wouldBlock, notADirectory, isADirectory, brokenPipe,
    invalidInput, writeZero, storageFull, fileTooLarge, filesystemLoop, invalidFilename,
    interrupted, other]

def name : ErrorKind → String
  | notFound => "NotFound"
  | permissionDenied => "PermissionDenied"
  | alreadyExists => "AlreadyExists"
  | wouldBlock => "WouldBlock"
  | notADirectory => "NotADirectory"
  | isADirectory => "IsADirectory"
  | brokenPipe => "BrokenPipe"
  | invalidInput => "InvalidInput"
  | writeZero => "WriteZero"
  | storageFull => "StorageFull"
  | fileTooLarge => "FileTooLarge"
  | filesystemLoop => "FilesystemLoop"
  | invalidFilename => "InvalidFilename"
  | interrupted => "Interrupted"
  | other => "Other"

/-- The kind with a name; a name that is not told apart is of the kind `other`. -/
def ofName (name : String) : ErrorKind :=
  (all.find? fun kind => kind.name == name).getD .other

end ErrorKind

/-- What a system call refuses with. -/
inductive SystemError where
  | noEntry
  | alreadyExists
  | notDirectory
  | isDirectory
  | fileTooLarge
  | noSpace
  | nameTooLong
  | tooManyLinks
  deriving DecidableEq, Repr

namespace SystemError

def number : SystemError → Nat
  | noEntry => 2
  | alreadyExists => 17
  | notDirectory => 20
  | isDirectory => 21
  | fileTooLarge => 27
  | noSpace => 28
  | nameTooLong => 36
  | tooManyLinks => 40

def words : SystemError → String
  | noEntry => "No such file or directory"
  | alreadyExists => "File exists"
  | notDirectory => "Not a directory"
  | isDirectory => "Is a directory"
  | fileTooLarge => "File too large"
  | noSpace => "No space left on device"
  | nameTooLong => "File name too long"
  | tooManyLinks => "Too many levels of symbolic links"

def kind : SystemError → ErrorKind
  | noEntry => .notFound
  | alreadyExists => .alreadyExists
  | notDirectory => .notADirectory
  | isDirectory => .isADirectory
  | fileTooLarge => .fileTooLarge
  | noSpace => .storageFull
  | nameTooLong => .invalidFilename
  | tooManyLinks => .filesystemLoop

end SystemError

inductive IoError where
  | system (e : SystemError)
  /-- A path holds a NUL byte. -/
  | nulInPath
  | tookNothing
  /-- A sink reports a failure in its own words. -/
  | reported (kind : ErrorKind) (text : String)
  deriving DecidableEq, Repr

namespace IoError

def kind : IoError → ErrorKind
  | system e => e.kind
  | nulInPath => .invalidInput
  | tookNothing => .writeZero
  | reported kind _ => kind

def text : IoError → String
  | system e => e.words ++ " (os error " ++ toString e.number ++ ")"
  | nulInPath => "file name contained an unexpected NUL byte"
  | tookNothing => "failed to write whole buffer"
  | reported _ text => text

end IoError

/-! ## Transport errors -/

/-- What the transport was doing when something failed. -/
inductive TransportFailure where
  | regionNotCreated (path : Bytes) (source : IoError)
  | regionNotAttached (path : Bytes) (source : IoError)
  | regionMismatch (path : Bytes) (expected actual : Nat)
  | streamNotCreated (path : Bytes) (source : IoError)
  | packetNotWritten (core : Core) (source : IoError)
  | handlerNotInstalled (source : IoError)
  deriving DecidableEq

namespace TransportFailure

def code : TransportFailure → String
  | regionNotCreated .. => "E01"
  | regionNotAttached .. => "E02"
  | regionMismatch .. => "E03"
  | streamNotCreated .. => "E04"
  | packetNotWritten .. => "E05"
  | handlerNotInstalled .. => "E06"

/-- The words for an error, without its particulars. -/
def summary : TransportFailure → String
  | regionNotCreated .. => "failed to allocate shared memory"
  | regionNotAttached .. => "failed to attach to shared memory"
  | regionMismatch .. => "shared memory size mismatch"
  | streamNotCreated .. => "failed to create stream file"
  | packetNotWritten .. => "failed to write packet"
  | handlerNotInstalled .. => "failed to install signal handler"

/-- A path between double quotes, as it is. -/
def showPath (path : Bytes) : String :=
  "\"" ++ Text.lossy path ++ "\""

def details : TransportFailure → String
  | regionNotCreated path _ => " " ++ showPath path
  | regionNotAttached path _ => " " ++ showPath path
  | streamNotCreated path _ => " " ++ showPath path
  | regionMismatch path expected actual =>
    " " ++ showPath path ++ " (expected " ++ toString expected ++ " bytes, found "
      ++ toString actual ++ ")"
  | packetNotWritten core _ => " of core " ++ core.display
  | handlerNotInstalled _ => ""

/-- The error in full: its code, its words and its particulars. -/
def message (e : TransportFailure) : String :=
  e.code ++ ": " ++ e.summary ++ e.details

/-- What failed underneath, if anything did. -/
def source? : TransportFailure → Option IoError
  | regionNotCreated _ source => some source
  | regionNotAttached _ source => some source
  | regionMismatch .. => none
  | streamNotCreated _ source => some source
  | packetNotWritten _ source => some source
  | handlerNotInstalled source => some source

/-- The error and what failed underneath, in one line. -/
def chain (e : TransportFailure) : String :=
  match e.source? with
  | none => e.message
  | some source => e.message ++ ": " ++ source.text

end TransportFailure

end TraceRing
