namespace BitStore

structure Sample where
  time : Nat
  usage : Int
  deriving DecidableEq, Repr

structure UsageEvent where
  name : String
  depth : Nat
  samples : List Sample
  deriving DecidableEq, Repr

namespace UsageEvent

def span? (e : UsageEvent) : Option (Nat × Nat) := do
  return ((← e.samples.head?).time, (← e.samples.getLast?).time)

def peak (e : UsageEvent) : Int := ((e.samples.map (·.usage)).max?).getD 0

def addSample (e : UsageEvent) (s : Sample) : UsageEvent :=
  { e with samples := e.samples ++ [s] }

def peakOf (es : List UsageEvent) : Int := max ((es.map peak).max?.getD 0) 0

def startsNoLater (a b : UsageEvent) : Bool :=
  match a.span?, b.span? with
  | none, _ => true
  | some _, none => false
  | some (s, t), some (u, v) => s < u || (s == u && t ≤ v)

end UsageEvent

structure UsageReport where
  granularity : Nat
  peak : Int
  events : List UsageEvent
  deriving DecidableEq, Repr

def UsageReport.maxDepth (r : UsageReport) : Nat := (r.events.map (·.depth)).foldl max 0

end BitStore
