import BitStore.Settings.Basic

namespace BitStore.Settings

def granularityName : String := "BITMEM_LOG_GRANULARITY_MS"

def poolName : String := "BITMEM_PAGE_POOL"

def textOf (name : String) : Option ByteArray → Except ConfigError (Option String)
  | none => .ok none
  | some bytes =>
    match String.fromUTF8? bytes with
    | some text => .ok (some text)
    | none => .error (.notText name)

def granularityOf (text : String) : Except ConfigError Nat :=
  match Text.count? (Text.trim text.toList) with
  | some ms => .ok ms
  | none => .error (.notNumber granularityName text)

def ofEnvironment (granularity pool : Option ByteArray) : Except ConfigError Settings := do
  let ms ← (← textOf granularityName granularity).mapM granularityOf
  let size ← (← textOf poolName pool).mapM fun text => ByteSize.parse text.toList
  return ⟨ms.getD defaultGranularityMs, size.map .mk⟩

end BitStore.Settings
