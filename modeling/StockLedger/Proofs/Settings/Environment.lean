import Mathlib.Tactic.Common
import StockLedger.Proofs.Settings.Numeral
import StockLedger.Proofs.Settings.Spans
import StockLedger.Wire.Signed

/-!
# The environments that are accepted

* `Settings.IsSet`, `Settings.IsUnset` : a setting has a text that is not blank;
* `Settings.Numeric` : the settings that are numbers, with their names, ranges and defaults;
* `Numeric.Offends` : a text that denotes no number of the range;
* `Settings.Blamed` : a fault that names the first offending setting;
* `Span.Lasts` : the span of a number of seconds, made without overflow;
* `Settings.ofLookup_verdict` : an environment is refused if and only if a setting offends; the first
  one is blamed, and settings that are accepted hold what the texts denote.
-/

namespace StockLedger

/--
The span of a number of seconds. The number is a word that is read as a signed one, and the span
that is made from it is not too long to be made.
-/
def Span.Lasts (d : Span) (n : Nat) : Prop :=
  d = .ofSeconds n ∧ Span.ofSeconds? (signed64 (.ofNat n)) = some d

theorem Span.lasts_ofSeconds {n : Nat} (h : n ≤ Span.maxSeconds) : (Span.ofSeconds n).Lasts n := by
  have hmax : Span.maxSeconds = 9223372036854775 := rfl
  have hword : (UInt64.ofNat n).toNat = n := UInt64.toNat_ofNat_of_lt' (by
    show n < 18446744073709551616
    omega)
  have hsign : (UInt64.ofNat n).toNat < signBit := by
    rw [hword]
    show n < 9223372036854775808
    omega
  refine ⟨rfl, ?_⟩
  rw [signed64_of_lt hsign, hword, Span.ofSeconds?, if_pos]
  exact h

namespace Settings

variable {env : Lookup} {name text : String} {n : Nat} {s : Settings} {f : SettingFault}

/-- What fails as a whole fails in its first part or after it. -/
theorem of_bind_eq_error {ε α β : Type} {x : Except ε α} {g : α → Except ε β} {e : ε}
    (h : (x >>= g) = .error e) : x = .error e ∨ ∃ a, x = .ok a ∧ g a = .error e := by
  cases x with
  | ok a => exact .inr ⟨a, rfl, h⟩
  | error e' =>
    cases h
    exact .inl rfl

/-! ## Texts that are set -/

/-- A setting has a text that is not blank. -/
def IsSet (env : Lookup) (key text : String) : Prop :=
  env key = some text ∧ ∃ c ∈ text.toList, isBlank c = false

/-- A setting has no text, or a blank one. -/
def IsUnset (env : Lookup) (key : String) : Prop :=
  ∀ text, ¬ IsSet env key text

theorem trimBlanks_eq_nil_iff {cs : List Char} :
    trimBlanks cs = [] ↔ ∀ c ∈ cs, isBlank c = true := by
  constructor
  · intro h
    rcases exists_trimBlanks cs with ⟨front, back, hcs, hfront, hback⟩
    rw [h, List.append_nil] at hcs
    rw [hcs]
    exact List.forall_mem_append.2 ⟨hfront, hback⟩
  · intro h
    rw [trimBlanks, skipBlanks, List.dropWhile_eq_nil_iff.2 h]
    rfl

theorem textOf_eq_some_iff : textOf env name = some text ↔ IsSet env name text := by
  rw [textOf, Option.filter_eq_some_iff]
  refine and_congr_right fun _ => ?_
  have hblank : (trimBlanks text.toList).isEmpty = false ↔ ¬ trimBlanks text.toList = [] := by
    rw [← Bool.not_eq_true, List.isEmpty_iff]
  rw [Bool.not_eq_true', hblank, trimBlanks_eq_nil_iff]
  simp

theorem textOf_eq_none_iff : textOf env name = none ↔ IsUnset env name := by
  rw [Option.eq_none_iff_forall_ne_some]
  exact forall_congr' fun text => not_congr textOf_eq_some_iff

/-- What comes of a setting that is a number of 64 bits. -/
theorem numberOf_cases (env : Lookup) (key : String) :
    (IsUnset env key ∧ numberOf env key = .ok none) ∨
    (∃ text n, IsSet env key text ∧ SettingNumber.ofChars text.toList = .ok n ∧
      numberOf env key = .ok (some n)) ∨
    ∃ text reason, IsSet env key text ∧ (∀ n, SettingNumber.ofChars text.toList ≠ .ok n) ∧
      numberOf env key = .error (.invalid key text reason) := by
  cases htext : textOf env key with
  | none =>
    refine .inl ⟨textOf_eq_none_iff.1 htext, ?_⟩
    rw [numberOf, htext]
  | some text =>
    refine .inr ?_
    have hset := textOf_eq_some_iff.1 htext
    cases hread : SettingNumber.ofChars text.toList with
    | ok n =>
      refine .inl ⟨text, n, hset, hread, ?_⟩
      rw [numberOf, htext]
      simp only [hread]
    | error e =>
      refine .inr ⟨text, e.message, hset, fun n h => ?_, ?_⟩
      · cases hread.symm.trans h
      · rw [numberOf, htext]
        simp only [hread]

/-! ## Settings that are numbers -/

/-- The settings that are numbers. -/
inductive Numeric
  | reservationTtl
  | interval
  | batchLimit
  | budget
  | item
  | lowStock
deriving DecidableEq, Repr

namespace Numeric

variable {v : Numeric} {vs : List Numeric}

/-- The order in which they are read. -/
def all : List Numeric :=
  [.reservationTtl, .interval, .batchLimit, .budget, .item, .lowStock]

def key : Numeric → String
  | .reservationTtl => "RESERVATION_TTL_SECS"
  | .interval => "SWEEP_INTERVAL_SECS"
  | .batchLimit => "SWEEP_BATCH_LIMIT"
  | .budget => "SWEEP_TICK_TIMEOUT_SECS"
  | .item => "CACHE_ITEM_TTL_SECS"
  | .lowStock => "CACHE_LOW_STOCK_TTL_SECS"

/-- The numbers that are accepted: any word for the batch limit, and else positive seconds. -/
def InRange (v : Numeric) (n : Nat) : Prop :=
  match v with
  | .batchLimit => n ≤ 18446744073709551615
  | _ => 1 ≤ n ∧ n ≤ 9223372036854775

/-- What holds of an unset one. -/
def default : Numeric → Nat
  | .reservationTtl => 900
  | .interval => 60
  | .batchLimit => 1000
  | .budget => 120
  | .item => 300
  | .lowStock => 60

/-- What accepted settings hold for it. -/
def Holds (v : Numeric) (s : Settings) (n : Nat) : Prop :=
  match v with
  | .reservationTtl => s.reservationTtl.Lasts n
  | .interval => s.sweep.interval.Lasts n
  | .batchLimit => s.sweep.batchLimit.toNat = n
  | .budget => ∃ d : Span, s.sweep.budget = some d ∧ d.Lasts n
  | .item => s.cache.item.Lasts n
  | .lowStock => s.cache.lowStock.Lasts n

/-- It is set to a text that denotes a number of its range. -/
def Given (v : Numeric) (env : Lookup) (n : Nat) : Prop :=
  ∃ text, IsSet env v.key text ∧ SettingNumber.Denotes text.toList n ∧ v.InRange n

/-- It is set to a text that denotes no number of its range. -/
def Offends (v : Numeric) (env : Lookup) : Prop :=
  ∃ text, IsSet env v.key text ∧ ∀ n, SettingNumber.Denotes text.toList n → ¬ v.InRange n

/-- It does not offend, and something holds of what it denotes, or of the default. -/
structure Settled (v : Numeric) (env : Lookup) (P : Nat → Prop) : Prop where
  clear : ¬ v.Offends env
  given : ∀ n, v.Given env n → P n
  unset : IsUnset env v.key → P v.default

theorem inRange_iff (hv : v ≠ .batchLimit) : v.InRange n ↔ 0 < n ∧ n ≤ Span.maxSeconds := by
  cases v with
  | batchLimit => exact absurd rfl hv
  | _ => exact Iff.rfl

theorem InRange.le_maxWord (h : v.InRange n) : n ≤ SettingNumber.maxWord := by
  cases v with
  | batchLimit => exact h
  | _ => exact Nat.le_trans h.2 (by decide)

theorem ofChars_of_inRange {cs : List Char} (hn : SettingNumber.Denotes cs n) (h : v.InRange n) :
    SettingNumber.ofChars cs = .ok n :=
  SettingNumber.ofChars_eq_ok_iff.2 ⟨hn, h.le_maxWord⟩

/-- A text is set, and no number of the range is read from it. -/
theorem offends_of_ofChars (hset : IsSet env v.key text)
    (h : ∀ n, SettingNumber.ofChars text.toList = .ok n → ¬ v.InRange n) : v.Offends env :=
  ⟨text, hset, fun n hn hrange => h n (ofChars_of_inRange hn hrange) hrange⟩

theorem settled_of_unset {P : Nat → Prop} (h : IsUnset env v.key) (hP : P v.default) :
    v.Settled env P where
  clear := fun ⟨text, hset, _⟩ => h text hset
  given := fun _ ⟨text, hset, _⟩ => absurd hset (h text)
  unset := fun _ => hP

theorem settled_of_ofChars {P : Nat → Prop} (hset : IsSet env v.key text)
    (h : SettingNumber.ofChars text.toList = .ok n) (hrange : v.InRange n) (hP : P n) :
    v.Settled env P where
  clear := by
    rintro ⟨other, hother, hout⟩
    cases hset.1.symm.trans hother.1
    exact hout n (SettingNumber.ofChars_eq_ok_iff.1 h).1 hrange
  given := by
    rintro m ⟨other, hother, hm, hin⟩
    cases hset.1.symm.trans hother.1
    cases h.symm.trans (ofChars_of_inRange hm hin)
    exact hP
  unset := fun hunset => absurd hset (hunset text)

/-- What comes of a setting that is a number of seconds. -/
theorem secondsOf_cases (hv : v ≠ .batchLimit) (env : Lookup) :
    (IsUnset env v.key ∧ secondsOf env v.key = .ok none) ∨
    (∃ text n, IsSet env v.key text ∧ SettingNumber.ofChars text.toList = .ok n ∧ v.InRange n ∧
      secondsOf env v.key = .ok (some n)) ∨
    ∃ value reason, v.Offends env ∧ secondsOf env v.key = .error (.invalid v.key value reason) := by
  rcases numberOf_cases env v.key with
    ⟨hunset, hread⟩ | ⟨text, n, hset, hn, hread⟩ | ⟨text, reason, hset, hbad, hread⟩
  · refine .inl ⟨hunset, ?_⟩
    rw [secondsOf, hread]
    rfl
  · refine .inr ?_
    have hseconds : secondsOf env v.key =
        if n = 0 then .error (.invalid v.key "0" "must be greater than zero")
        else if Span.maxSeconds < n then .error (.invalid v.key (Decimal.nat n) "too large")
        else .ok (some n) := by
      rw [secondsOf, hread]
      rfl
    have houtside (hout : ¬ v.InRange n) : v.Offends env := by
      refine offends_of_ofChars hset fun m hm => ?_
      cases hn.symm.trans hm
      exact hout
    rw [inRange_iff hv] at houtside
    by_cases hzero : n = 0
    · exact .inr ⟨_, _, houtside (by omega), hseconds.trans (if_pos hzero)⟩
    rw [if_neg hzero] at hseconds
    by_cases hlong : Span.maxSeconds < n
    · exact .inr ⟨_, _, houtside (by omega), hseconds.trans (if_pos hlong)⟩
    exact .inl ⟨text, n, hset, hn, (inRange_iff hv).2 (by omega), hseconds.trans (if_neg hlong)⟩
  · refine .inr (.inr ⟨text, reason, ?_, ?_⟩)
    · exact offends_of_ofChars hset fun n hn => absurd hn (hbad n)
    · rw [secondsOf, hread]
      rfl

theorem settled_spanOf {d : Span} (hv : v ≠ .batchLimit)
    (h : spanOf env v.key (.ofSeconds v.default) = .ok d) : v.Settled env d.Lasts := by
  rcases secondsOf_cases hv env with
    ⟨hunset, hread⟩ | ⟨text, n, hset, hn, hrange, hread⟩ | ⟨value, reason, -, hread⟩ <;>
    rw [spanOf, hread] at h <;> cases h
  · have hdefault : v.default ≤ Span.maxSeconds := by cases v <;> decide
    exact settled_of_unset hunset (Span.lasts_ofSeconds hdefault)
  · exact settled_of_ofChars hset hn hrange (Span.lasts_ofSeconds ((inRange_iff hv).1 hrange).2)

theorem settled_numberOf {limit : Option Nat} (h : numberOf env batchLimit.key = .ok limit) :
    batchLimit.Settled env fun n => ((limit.map UInt64.ofNat).getD 1000).toNat = n := by
  rcases numberOf_cases env batchLimit.key with
    ⟨hunset, hread⟩ | ⟨text, n, hset, hn, hread⟩ | ⟨text, reason, -, -, hread⟩ <;>
    cases h.symm.trans hread
  · exact settled_of_unset hunset rfl
  · have hword := (SettingNumber.ofChars_eq_ok_iff.1 hn).2
    exact settled_of_ofChars hset hn hword
      (UInt64.toNat_ofNat_of_lt' (Nat.lt_succ_of_le hword))

end Numeric

/-! ## Blame -/

/-- A fault that names the first offending one of some settings. -/
inductive Blamed (env : Lookup) : List Numeric → SettingFault → Prop
  | here {v : Numeric} {vs : List Numeric} (hv : v.Offends env) (value reason : String) :
      Blamed env (v :: vs) (.invalid v.key value reason)
  | later {v : Numeric} {vs : List Numeric} {f : SettingFault} (hv : ¬ v.Offends env)
      (h : Blamed env vs f) : Blamed env (v :: vs) f

theorem Blamed.offends {vs : List Numeric} (h : Blamed env vs f) :
    ∃ v : Numeric, v.Offends env := by
  induction h with
  | here hv => exact ⟨_, hv⟩
  | later _ _ ih => exact ih

section Steps

variable {α : Type} {v : Numeric} {vs : List Numeric}

theorem blamed_spanOf_bind {g : Span → Except SettingFault α} (hv : v ≠ .batchLimit)
    (h : (spanOf env v.key (.ofSeconds v.default) >>= g) = .error f)
    (hrest : ∀ d, g d = .error f → Blamed env vs f) : Blamed env (v :: vs) f := by
  rcases of_bind_eq_error h with hfirst | ⟨d, hd, hd'⟩
  · rcases v.secondsOf_cases hv env with
      ⟨-, hread⟩ | ⟨_, _, -, -, -, hread⟩ | ⟨value, reason, hoffends, hread⟩ <;>
      rw [spanOf, hread] at hfirst <;> cases hfirst
    exact .here hoffends value reason
  · exact .later (Numeric.settled_spanOf hv hd).clear (hrest d hd')

theorem blamed_numberOf_bind {g : Option Nat → Except SettingFault α}
    (h : (numberOf env Numeric.batchLimit.key >>= g) = .error f)
    (hrest : ∀ limit, g limit = .error f → Blamed env vs f) :
    Blamed env (.batchLimit :: vs) f := by
  rcases of_bind_eq_error h with hfirst | ⟨limit, hlimit, hlimit'⟩
  · rcases numberOf_cases env Numeric.batchLimit.key with
      ⟨-, hread⟩ | ⟨_, _, -, -, hread⟩ | ⟨text, reason, hset, hbad, hread⟩ <;>
      cases hfirst.symm.trans hread
    exact .here (Numeric.offends_of_ofChars hset fun n hn => absurd hn (hbad n)) text reason
  · exact .later (Numeric.settled_numberOf hlimit).clear (hrest limit hlimit')

end Steps

theorem blamed_of_ofLookup (h : ofLookup env = .error f) : Blamed env Numeric.all f := by
  -- One step for each setting, in the order in which they are read.
  refine blamed_spanOf_bind (v := .reservationTtl) nofun h fun _ h => ?_
  refine blamed_spanOf_bind (v := .interval) nofun h fun _ h => ?_
  refine blamed_numberOf_bind h fun _ h => ?_
  refine blamed_spanOf_bind (v := .budget) nofun h fun _ h => ?_
  refine blamed_spanOf_bind (v := .item) nofun h fun _ h => ?_
  refine blamed_spanOf_bind (v := .lowStock) nofun h fun _ h => ?_
  cases h

/-! ## What is accepted -/

/-- The settings that are texts. -/
inductive Textual
  | databaseUrl
  | redisUrl
  | eventsChannel
deriving DecidableEq, Repr

namespace Textual

def key : Textual → String
  | .databaseUrl => "DATABASE_URL"
  | .redisUrl => "REDIS_URL"
  | .eventsChannel => "STOCK_EVENTS_CHANNEL"

def default : Textual → Option String
  | .eventsChannel => some "inventory.stock.released"
  | _ => none

/-- What settings hold for it. -/
def field (t : Textual) (s : Settings) : Option String :=
  match t with
  | .databaseUrl => s.databaseUrl
  | .redisUrl => s.redisUrl
  | .eventsChannel => some s.eventsChannel

end Textual

/-- Settings hold what the texts of an environment denote, and the defaults where it has none. -/
structure Follows (s : Settings) (env : Lookup) : Prop where
  numeric : ∀ v : Numeric, v.Settled env (v.Holds s)
  textual : ∀ t : Textual, (∀ text, IsSet env t.key text → t.field s = some text) ∧
    (IsUnset env t.key → t.field s = t.default)

theorem textual_of_field (t : Textual)
    (h : t.field s = (textOf env t.key).or t.default) :
    (∀ text, IsSet env t.key text → t.field s = some text) ∧
      (IsUnset env t.key → t.field s = t.default) := by
  refine ⟨fun text hset => ?_, fun hunset => ?_⟩
  · rw [h, textOf_eq_some_iff.2 hset, Option.some_or]
  · rw [h, textOf_eq_none_iff.2 hunset, Option.none_or]

theorem follows_of_ofLookup (h : ofLookup env = .ok s) : s.Follows env := by
  rcases of_bind_eq_ok h with ⟨reservationTtl, hreservation, h⟩
  rcases of_bind_eq_ok h with ⟨interval, hinterval, h⟩
  rcases of_bind_eq_ok h with ⟨batchLimit, hbatch, h⟩
  rcases of_bind_eq_ok h with ⟨budget, hbudget, h⟩
  rcases of_bind_eq_ok h with ⟨item, hitem, h⟩
  rcases of_bind_eq_ok h with ⟨lowStock, hlowStock, h⟩
  cases h
  refine ⟨fun v => ?_, fun t => ?_⟩
  · cases v with
    | reservationTtl => exact Numeric.settled_spanOf (v := .reservationTtl) nofun hreservation
    | interval => exact Numeric.settled_spanOf (v := .interval) nofun hinterval
    | batchLimit => exact Numeric.settled_numberOf hbatch
    | budget =>
      have hsettled := Numeric.settled_spanOf (v := .budget) nofun hbudget
      exact ⟨hsettled.clear, fun n hn => ⟨budget, rfl, hsettled.given n hn⟩,
        fun hunset => ⟨budget, rfl, hsettled.unset hunset⟩⟩
    | item => exact Numeric.settled_spanOf (v := .item) nofun hitem
    | lowStock => exact Numeric.settled_spanOf (v := .lowStock) nofun hlowStock
  · refine textual_of_field t ?_
    cases t with
    | databaseUrl => exact (Option.or_none ..).symm
    | redisUrl => exact (Option.or_none ..).symm
    | eventsChannel => exact Option.or_some.symm

/-- What comes of an environment: settings that follow it, or the first offending one blamed. -/
def Verdict (env : Lookup) : Except SettingFault Settings → Prop
  | .ok s => s.Follows env
  | .error f => Blamed env Numeric.all f

/--
An environment is refused if and only if a setting that is a number is set to a text that denotes no
number of its range. The fault names the first one. Else each setting holds the number that its text
denotes, or the default if it is unset, and no span is too long to be made.
-/
theorem ofLookup_verdict (env : Lookup) :
    ((∃ f, ofLookup env = .error f) ↔ ∃ v : Numeric, v.Offends env) ∧
      Verdict env (ofLookup env) := by
  cases h : ofLookup env with
  | error f =>
    have hblamed := blamed_of_ofLookup h
    rcases hblamed.offends with ⟨v, hv⟩
    exact ⟨⟨fun _ => ⟨v, hv⟩, fun _ => ⟨f, rfl⟩⟩, hblamed⟩
  | ok s =>
    have hfollows := follows_of_ofLookup h
    exact ⟨⟨nofun, fun ⟨v, hv⟩ => absurd hv (hfollows.numeric v).clear⟩, hfollows⟩

/-- A sign, zeros in front and blanks around it do no harm to a number. -/
example : (ofLookup fun key => if key = "SWEEP_BATCH_LIMIT" then some "\t+007 " else none).map
    (fun s => s.sweep.batchLimit) = .ok 7 := by
  rfl

end Settings
end StockLedger
