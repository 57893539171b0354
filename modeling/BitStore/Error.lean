import BitStore.Json.Failure

namespace BitStore

inductive ConfigError where
  | byteSize (text : String)
  | byteSizeOverflow (text : String)
  | notText (name : String)
  | notNumber (name text : String)
  | json (failure : Json.Failure)
  deriving DecidableEq, Repr

def ConfigError.message : ConfigError → String
  | byteSize text =>
    "invalid byte size '" ++ text ++ "', expected a number with an optional K, M or G suffix"
  | byteSizeOverflow text => "byte size '" ++ text ++ "' overflows"
  | notText name => name ++ " is not valid Unicode"
  | notNumber name text => name ++ ": '" ++ text ++ "' is not a number"
  | json failure => "bad JSON config: " ++ failure.message

inductive MapCause where
  | emptyRegion
  | noMemory
  deriving DecidableEq, Repr

def MapCause.message : MapCause → String
  | emptyRegion => "empty page region"
  | noMemory => "Cannot allocate memory (os error 12)"

inductive FileTask where
  | opening (path : String)
  | mapping (path : String) (len : Nat)
  | unmapping (path : String)
  | truncating (path : String)
  | truncatingTo (path : String) (len : Nat)
  | writingReport
  deriving DecidableEq, Repr

def FileTask.message : FileTask → String
  | opening path => s!"opening {path}"
  | mapping path len => s!"mapping {path} ({len} bytes)"
  | unmapping path => s!"unmapping {path}"
  | truncating path => s!"truncating {path}"
  | truncatingTo path len => s!"truncating {path} to {len} bytes"
  | writingReport => "writing usage report"

inductive FileCause where
  | notFound
  | isDirectory
  | noDevice
  | invalidArgument
  | mappedReadOnly
  | lengthTooLarge
  | diskFull
  | nothingWritten
  deriving DecidableEq, Repr

def FileCause.message : FileCause → String
  | notFound => "No such file or directory (os error 2)"
  | isDirectory => "Is a directory (os error 21)"
  | noDevice => "No such device (os error 19)"
  | invalidArgument => "Invalid argument (os error 22)"
  | mappedReadOnly => "file is mapped read-only"
  | lengthTooLarge => "number too large to fit in target type"
  | diskFull => "disk full"
  | nothingWritten => "failed to write whole buffer"

inductive StoreError where
  | outOfMemory (requested available : Nat)
  | mapFailed (len : Nat) (cause : MapCause)
  | noHugePages
  | invalidPointer (address : Nat)
  | poolAlreadyEnabled
  | file (task : FileTask) (cause : FileCause)
  | config (e : ConfigError)
  deriving DecidableEq, Repr

def StoreError.message : StoreError → String
  | outOfMemory requested available =>
    s!"out of memory: requested {requested} bytes, {available} available"
  | mapFailed len cause => s!"could not map {len} bytes of pages: " ++ cause.message
  | noHugePages => "no free huge pages are available"
  | invalidPointer address =>
    "pointer 0x" ++ String.ofList (Text.hexadecimal address) ++ " does not refer to a live allocation"
  | poolAlreadyEnabled => "the page pool is already enabled"
  | file task cause => task.message ++ ": " ++ cause.message
  | config e => "invalid configuration: " ++ e.message

end BitStore
