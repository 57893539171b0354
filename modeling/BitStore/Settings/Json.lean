import BitStore.Json.Record
import BitStore.Settings.Basic

namespace BitStore.Settings

open Json

def byteSize : Reader ByteSize := do
  let expected := "a byte count or a string like \"512M\""
  let c ← Reader.peekValue
  if c = '"' then
    match ByteSize.parse (← Reader.text) with
    | .ok size => return size
    | .error e => Reader.refuse (.refused (StoreError.config e).message)
  else
    Reader.numberAs expected fun
      | .count n => .ok ⟨n⟩
      | n => .error (.wrongType n.found expected)

def poolRecord : Record (Option ByteSize) PoolSettings where
  name := "PagePoolConfig"
  draft := none
  members := [⟨"size", Option.isSome, fun _ => some <$> byteSize⟩]
  ofMap d := .ok ⟨d.getD ⟨0⟩⟩
  ofList _ d := .ok ⟨d.getD ⟨0⟩⟩

structure Draft where
  granularityMs : Option Nat
  pool : Option (Option PoolSettings)

def Draft.complete (d : Draft) : Settings :=
  ⟨d.granularityMs.getD defaultGranularityMs, d.pool.getD none⟩

def record : Record Draft Settings where
  name := "MemoryConfig"
  draft := ⟨none, none⟩
  members :=
    [⟨"log_granularity_ms", fun d => d.granularityMs.isSome,
        fun d => do return ⟨some (← Reader.unsigned "u64"), d.pool⟩⟩,
     ⟨"page_pool", fun d => d.pool.isSome,
        fun d => do return ⟨d.granularityMs, some (← Reader.optional poolRecord.read)⟩⟩]
  ofMap d := .ok d.complete
  ofList _ d := .ok d.complete

def ofJson (text : String) : Except ConfigError Settings :=
  (record.read.run text.toList).mapError .json

end BitStore.Settings
