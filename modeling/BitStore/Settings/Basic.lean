import BitStore.ByteSize
import BitStore.Json.Writer

namespace BitStore

structure PoolSettings where
  size : ByteSize
  deriving DecidableEq, Repr

structure Settings where
  granularityMs : Nat
  pool : Option PoolSettings
  deriving DecidableEq, Repr

def defaultGranularityMs : Nat := 20

namespace Settings

def default : Settings := ⟨defaultGranularityMs, none⟩

def granularity (s : Settings) : Nat := s.granularityMs * 1000000

def poolText : Option PoolSettings → List Char
  | none => ['n', 'u', 'l', 'l']
  | some p => Json.Compact.map [("size", Text.natural p.size.bytes)]

def write (s : Settings) : List Char :=
  Json.Compact.map
    [("log_granularity_ms", Text.natural s.granularityMs), ("page_pool", poolText s.pool)]

end Settings

end BitStore
