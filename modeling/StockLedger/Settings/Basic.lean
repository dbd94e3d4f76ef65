import StockLedger.ReadThrough.Ledger
import StockLedger.Settings.Number
import StockLedger.Stock.Release
import StockLedger.Sweep.Basic

/-!
# Settings

What an environment of named texts says about how the ledger is run.

* `SettingFault` : a setting that is missing or cannot be used, with its wording;
* `Settings` : the settings, with their defaults;
* `Settings.ofLookup` : the settings that an environment asks for.

A text of nothing but blanks counts as unset. The first unusable setting in the order of
`Settings.ofLookup` is the one that is reported.
-/

namespace StockLedger

/-- A setting that is missing, or that cannot be used. -/
inductive SettingFault
  | missing (key : String)
  | invalid (key value reason : String)
deriving DecidableEq, Repr

/-- The wording of a fault. -/
def SettingFault.message : SettingFault → String
  | .missing key => "missing environment variable " ++ key
  | .invalid key value reason => "invalid value '" ++ value ++ "' for " ++ key ++ ": " ++ reason

/-- How the ledger is run. -/
structure Settings where
  databaseUrl : Option String := none
  redisUrl : Option String := none
  eventsChannel : String := StockRelease.eventType
  reservationTtl : Span := Reservation.defaultTtl
  sweep : SweepConfig := {}
  cache : CacheLifetimes := {}
deriving DecidableEq, Repr

namespace Settings

/-- Named texts. -/
abbrev Lookup : Type :=
  String → Option String

/-- The text of a setting that is set. -/
def textOf (env : Lookup) (key : String) : Option String :=
  (env key).filter fun v => !(trimBlanks v.toList).isEmpty

/-- The number of a setting that is set. -/
def numberOf (env : Lookup) (key : String) : Except SettingFault (Option Nat) :=
  match textOf env key with
  | none => .ok none
  | some text =>
      match SettingNumber.ofChars text.toList with
      | .ok n => .ok (some n)
      | .error f => .error (.invalid key text f.message)

/-- The positive number of seconds of a setting that is set. -/
def secondsOf (env : Lookup) (key : String) : Except SettingFault (Option Nat) := do
  match ← numberOf env key with
  | none => return none
  | some n =>
      if n = 0 then throw (.invalid key "0" "must be greater than zero")
      else if Span.maxSeconds < n then throw (.invalid key (Decimal.nat n) "too large")
      else return some n

/-- The span of a setting, or the default. -/
def spanOf (env : Lookup) (key : String) (default : Span) : Except SettingFault Span := do
  let n ← secondsOf env key
  return (n.map fun n => Span.ofSeconds n).getD default

/-- The settings that an environment asks for. -/
def ofLookup (env : Lookup) : Except SettingFault Settings := do
  let standard : Settings := {}
  let reservationTtl ← spanOf env "RESERVATION_TTL_SECS" standard.reservationTtl
  let interval ← spanOf env "SWEEP_INTERVAL_SECS" standard.sweep.interval
  let batchLimit ← numberOf env "SWEEP_BATCH_LIMIT"
  let budget ← spanOf env "SWEEP_TICK_TIMEOUT_SECS" (.ofSeconds 120)
  let item ← spanOf env "CACHE_ITEM_TTL_SECS" standard.cache.item
  let lowStock ← spanOf env "CACHE_LOW_STOCK_TTL_SECS" standard.cache.lowStock
  return {
    databaseUrl := textOf env "DATABASE_URL"
    redisUrl := textOf env "REDIS_URL"
    eventsChannel := (textOf env "STOCK_EVENTS_CHANNEL").getD standard.eventsChannel
    reservationTtl
    sweep := {
      standard.sweep with
      interval
      batchLimit := (batchLimit.map UInt64.ofNat).getD standard.sweep.batchLimit
      budget := some budget }
    cache := { item, lowStock } }

/-- The address of the database, which some uses cannot do without. -/
def requireDatabaseUrl (s : Settings) : Except SettingFault String :=
  match s.databaseUrl with
  | some url => .ok url
  | none => .error (.missing "DATABASE_URL")

end Settings
end StockLedger
