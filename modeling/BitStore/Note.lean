import BitStore.Error

namespace BitStore

inductive Level where
  | warn
  | info
  | debug
  | trace
  deriving DecidableEq, Repr

inductive Note where
  | pagesMapped (bytes address : Nat)
  | arenaReserved (bytes address : Nat)
  | arenaCannotFit (bytes : Nat)
  | arenaExhausted (bytes left : Nat)
  | arenaGrew (top : Nat)
  | blockSplit (offset kept rest : Nat)
  | joinedRight (offset right : Nat)
  | joinedLeft (offset left : Nat)
  | poolEnabled (bytes : Nat)
  | neverHandedOut (address : Nat)
  | vectorResized (old new bytes : Nat)
  | vectorTooLong (bits : Nat)
  | sessionStarted (session : Nat)
  | sessionStopped (session events : Nat)
  | fileMapped (path : String) (bytes address : Nat)
  | notUnmapped (e : StoreError)
  deriving DecidableEq, Repr

namespace Note

def level : Note → Level
  | arenaCannotFit .. | arenaExhausted .. | neverHandedOut .. | vectorTooLong .. | notUnmapped .. => .warn
  | poolEnabled .. => .info
  | blockSplit .. | joinedRight .. | joinedLeft .. => .trace
  | _ => .debug

def text (spell : Nat → String) : Note → String
  | pagesMapped bytes address => s!"mapped {bytes} bytes at " ++ spell address
  | arenaReserved bytes address => s!"page allocator reserved {bytes} bytes at " ++ spell address
  | arenaCannotFit bytes => s!"page allocator cannot fit {bytes} bytes at all"
  | arenaExhausted bytes left => s!"page allocator exhausted: {bytes} bytes requested, {left} left"
  | arenaGrew top => s!"page allocator top grew to {top}"
  | blockSplit offset kept rest => s!"split block at {offset}: {kept} + {rest}"
  | joinedRight offset right => s!"coalesce {offset} with right {right}"
  | joinedLeft offset left => s!"coalesce {offset} with left {left}"
  | poolEnabled bytes => s!"page pool enabled with {bytes} bytes"
  | neverHandedOut address => spell address ++ " is inside the page pool but was never handed out"
  | vectorResized old new bytes => s!"bit vector resized {old} -> {new} bits ({bytes} bytes)"
  | vectorTooLong bits => s!"a {bits} bit vector cannot be addressed"
  | sessionStarted session => s!"usage profiler session {session} started"
  | sessionStopped session events => s!"usage profiler session {session} stopped with {events} events"
  | fileMapped path bytes address => s!"mapped {path} ({bytes} bytes) at " ++ spell address
  | notUnmapped e => e.message

end Note

def Level.name : Level → String
  | warn => "WARN"
  | info => "INFO"
  | debug => "DEBUG"
  | trace => "TRACE"

def Note.line (spell : Nat → String) (n : Note) : String :=
  n.level.name ++ " " ++ n.text spell

end BitStore
