import BitStore.Error
import BitStore.Json.Record
import BitStore.Json.Writer
import BitStore.Usage.Event

namespace BitStore

open Json

def durationText (ns : Nat) : List Char := Text.natural (min ns maxCount)

def Sample.write (depth : Nat) (s : Sample) : List Char :=
  Spread.map depth [("time", durationText s.time), ("usage", Text.integer s.usage)]

def UsageEvent.write (depth : Nat) (e : UsageEvent) : List Char :=
  Spread.map depth
    [("name", Literal.write e.name.toList), ("depth", Text.natural e.depth),
     ("samples", Spread.list (depth + 1) (e.samples.map (Sample.write (depth + 2))))]

def UsageReport.write (r : UsageReport) : List Char :=
  Spread.map 0
    [("granularity", durationText r.granularity), ("peak", Text.integer r.peak),
     ("events", Spread.list 1 (r.events.map (UsageEvent.write 2)))]

structure Sink where
  room : Nat
  failure : FileCause
  deriving DecidableEq, Repr

def UsageReport.writeTo (r : UsageReport) (sink : Option Sink) : Except StoreError String :=
  let text := String.ofList r.write
  match sink with
  | none => .ok text
  | some s =>
    if text.utf8ByteSize ≤ s.room then .ok text else .error (.file .writingReport s.failure)

namespace Json

def Reader.duration : Reader Nat :=
  let expected := "a duration in nanoseconds"
  numberAs expected fun
    | .count n => .ok n
    | .negative _ => .error (.refused "negative duration")
    | .float bits => .error (.wrongType (.float bits) expected)

end Json

def require {α : Type} (name : String) : Option α → Except Mismatch α
  | some a => .ok a
  | none => .error (.missing name)

def requireAll {α : Type} (record : String) (total count : Nat) (complete : Except Mismatch α) :
    Except Mismatch α :=
  if count < total then .error (.wrongLength count s!"struct {record} with {total} elements")
  else complete

structure SampleDraft where
  time : Option Nat
  usage : Option Int

def SampleDraft.complete (d : SampleDraft) : Except Mismatch Sample := do
  return ⟨← require "time" d.time, ← require "usage" d.usage⟩

def sampleRecord : Record SampleDraft Sample where
  name := "Sample"
  draft := ⟨none, none⟩
  members :=
    [⟨"time", fun d => d.time.isSome, fun d => do return { d with time := ← Reader.duration }⟩,
     ⟨"usage", fun d => d.usage.isSome, fun d => do return { d with usage := ← Reader.signed "i64" }⟩]
  ofMap d := d.complete
  ofList count d := requireAll "Sample" 2 count d.complete

structure EventDraft where
  name : Option String
  depth : Option Nat
  samples : Option (List Sample)

def EventDraft.complete (d : EventDraft) : Except Mismatch UsageEvent := do
  return ⟨← require "name" d.name, ← require "depth" d.depth, ← require "samples" d.samples⟩

def eventRecord : Record EventDraft UsageEvent where
  name := "UsageEvent"
  draft := ⟨none, none, none⟩
  members :=
    [⟨"name", fun d => d.name.isSome, fun d => do return { d with name := ← Reader.string "a string" }⟩,
     ⟨"depth", fun d => d.depth.isSome, fun d => do return { d with depth := ← Reader.unsigned "usize" }⟩,
     ⟨"samples", fun d => d.samples.isSome,
        fun d => do return { d with samples := ← Reader.list sampleRecord.read }⟩]
  ofMap d := d.complete
  ofList count d := requireAll "UsageEvent" 3 count d.complete

structure ReportDraft where
  granularity : Option Nat
  peak : Option Int
  events : Option (List UsageEvent)

def ReportDraft.complete (d : ReportDraft) : Except Mismatch UsageReport := do
  return ⟨← require "granularity" d.granularity, ← require "peak" d.peak, ← require "events" d.events⟩

def reportRecord : Record ReportDraft UsageReport where
  name := "UsageReport"
  draft := ⟨none, none, none⟩
  members :=
    [⟨"granularity", fun d => d.granularity.isSome,
        fun d => do return { d with granularity := ← Reader.duration }⟩,
     ⟨"peak", fun d => d.peak.isSome, fun d => do return { d with peak := ← Reader.signed "i64" }⟩,
     ⟨"events", fun d => d.events.isSome,
        fun d => do return { d with events := ← Reader.list eventRecord.read }⟩]
  ofMap d := d.complete
  ofList count d := requireAll "UsageReport" 3 count d.complete

def UsageReport.ofJson (text : String) : Except Failure UsageReport :=
  reportRecord.read.run text.toList

end BitStore
