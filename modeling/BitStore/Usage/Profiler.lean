import BitStore.Action
import BitStore.Checked
import BitStore.Settings.Basic
import BitStore.Text.Duration
import BitStore.Usage.Event

/-! A profiler of memory usage. Each step is given twice: as the state that it leads to, and as an action that also
leaves notes. -/

namespace BitStore

def rootEvent : String := "unknown"

/-- Open events stand innermost first, completed ones in the order in which they were closed. -/
structure Profiler where
  tracking : Bool
  granularity : Nat
  usage : Int
  stack : List UsageEvent
  completed : List UsageEvent
  startedAt : Nat
  lastKept : Nat
  session : Nat
  deriving DecidableEq, Repr

structure EventGuard where
  session : Option Nat
  deriving DecidableEq, Repr

def EventGuard.describe (g : EventGuard) : String :=
  match g.session with
  | some n => "EventGuard \x7b session: Some(" ++ toString n ++ ") \x7d"
  | none => "EventGuard \x7b session: None \x7d"

namespace Profiler

def defaultGranularity : Nat := Settings.default.granularity

def idle (granularity now : Nat) : Profiler :=
  { tracking := false, granularity := granularity, usage := 0, stack := [], completed := [],
    startedAt := now, lastKept := now, session := 0 }

def sample (p : Profiler) (now : Nat) : Sample := ⟨now - p.startedAt, p.usage⟩

/-- A new session with nothing recorded but an open root event. Sessions are numbered without a bound, since
there will never be 2^64 of them. -/
def started (p : Profiler) (now : Nat) : Profiler :=
  { p with
    tracking := true, usage := 0, stack := [⟨rootEvent, 0, [⟨0, 0⟩]⟩], completed := [],
    startedAt := now, lastKept := now, session := p.session + 1 }

def stopped (p : Profiler) (now : Nat) : Profiler :=
  if p.tracking then
    { p with
      tracking := false, stack := [],
      completed := p.completed ++ p.stack.map (·.addSample (p.sample now)) }
  else p

def folds (p : Profiler) (now : Nat) : Bool := now - p.lastKept < p.granularity

def keep (fold : Bool) (before after : Sample) (samples : List Sample) : List Sample :=
  if fold && !samples.isEmpty then samples.dropLast ++ [after] else samples ++ [before, after]

def recorded (p : Profiler) (now : Nat) (delta : Int) : Except Fault Profiler := do
  if p.tracking then
    let usage ← Checked.addSigned p.usage delta
    let fold := p.folds now
    let before := p.sample now
    let after : Sample := ⟨before.time, usage⟩
    return { p with
      usage := usage
      lastKept := if fold then p.lastKept else now
      stack := match p.stack with
        | [] => []
        | top :: rest => { top with samples := keep fold before after top.samples } :: rest }
  else return p

def opened (p : Profiler) (now : Nat) (name : String) : EventGuard × Profiler :=
  if p.tracking then
    (⟨some p.session⟩, { p with stack := ⟨name, p.stack.length, [p.sample now]⟩ :: p.stack })
  else (⟨none⟩, p)

/-- Closes the innermost event, unless it is the root or the guard is from elsewhere. The event
around it gets the closing sample too. -/
def closed (p : Profiler) (now : Nat) (g : EventGuard) : Profiler :=
  if p.tracking && g.session = some p.session then
    match p.stack with
    | e :: parent :: rest =>
      let last := p.sample now
      { p with
        stack := parent.addSample last :: rest, completed := p.completed ++ [e.addSample last] }
    | _ => p
  else p

def peak (p : Profiler) : Int := UsageEvent.peakOf p.completed

def report (p : Profiler) : UsageReport :=
  let events := p.completed.mergeSort UsageEvent.startsNoLater
  ⟨p.granularity, UsageEvent.peakOf events, events⟩

def describe (p : Profiler) : String :=
  "UsageProfiler \x7b tracking: " ++ (if p.tracking then "true" else "false")
    ++ ", granularity: " ++ String.ofList (Text.duration p.granularity)
    ++ ", current_usage: " ++ String.ofList (Text.integer p.usage)
    ++ ", open_events: " ++ toString p.stack.length
    ++ ", completed_events: " ++ toString p.completed.length ++ " \x7d"

def setGranularity (granularity : Nat) : Action Profiler Unit :=
  .modify fun p => { p with granularity := granularity }

def start (now : Nat) : Action Profiler Unit := do
  .modify (·.started now)
  let p ← Action.get
  .say (.sessionStarted p.session)

def stop (now : Nat) : Action Profiler Unit := do
  let p ← Action.get
  .set (p.stopped now)
  let q ← Action.get
  if p.tracking then .say (.sessionStopped q.session q.completed.length)

def record (now : Nat) (delta : Int) : Action Profiler Unit :=
  .update fun p => do return ((), ← p.recorded now delta)

def openEvent (now : Nat) (name : String) : Action Profiler EventGuard :=
  .update fun p => .ok (p.opened now name)

def close (now : Nat) (g : EventGuard) : Action Profiler Unit :=
  .modify (·.closed now g)

end Profiler

end BitStore
