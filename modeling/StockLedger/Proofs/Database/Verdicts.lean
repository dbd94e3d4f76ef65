import Mathlib.Data.List.Basic
import Mathlib.Tactic.Common
import StockLedger.Database.Ledger
import StockLedger.Proofs.Memory.Ledger
import StockLedger.Wire.Signed

/-!
# What a conditional write comes to

A conditional write sends one statement, and a second one if the first has given no row. Each of the
two may fail, give nothing, or give a row that cannot be read, and the answer tells which.

* `Database.Row.read_eq_ok_iff`, `Database.Row.code_of_read` : when a column is read, and how it is
  refused;
* `Database.Row.Stamps`, `Database.Row.Spoilt` : the rows that stamp a write, and those that do not;
* `Database.Line.Genuine` : lines that report what drivers report;
* `DatabaseLedger.update_eq`, `DatabaseLedger.run_update_scripted` : the dialogue of a conditional
  write, and what becomes of it over a line;
* `DatabaseLedger.Classified` : what the answer and the caller's copy say about the replies;
* `updates_classified` : the statements and the answer of every conditional write over every line.
-/

namespace StockLedger

open Database

namespace Database

/-! ## Columns -/

section Columns

variable {α : Type} {row : Row} {name : String} {accept : Value → Option α} {a : α}

theorem Row.read_eq_ok_iff (hnull : accept .null = none) :
    row.read accept name = .ok a ↔ ∃ v, row.lookup name = some v ∧ accept v = some a := by
  unfold Row.read Row.value
  cases hlookup : row.lookup name with
  | none => simp [bind, Except.bind]
  | some v =>
    cases haccept : accept v with
    | none => cases v <;> simp_all [bind, Except.bind]
    | some b => cases v <;> simp_all [bind, Except.bind]

theorem Row.int_eq_ok_iff {n : Int} :
    row.int name = .ok n ↔ row.lookup name = some (.int8 n) := by
  rw [Row.int, read_eq_ok_iff rfl]
  constructor
  · rintro ⟨v, hlookup, haccept⟩
    cases v <;> cases haccept
    exact hlookup
  · intro h
    exact ⟨_, h, rfl⟩

theorem Row.bool_eq_ok_iff {b : Bool} :
    row.bool name = .ok b ↔ row.lookup name = some (.bool b) := by
  rw [Row.bool, read_eq_ok_iff rfl]
  constructor
  · rintro ⟨v, hlookup, haccept⟩
    cases v <;> cases haccept
    exact hlookup
  · intro h
    exact ⟨_, h, rfl⟩

theorem Row.instant_eq_ok_iff {t : Timestamp} :
    row.instant name = .ok t ↔
      ∃ micros, row.lookup name = some (.instant micros) ∧ instantOf? micros = some t := by
  rw [Row.instant, read_eq_ok_iff rfl]
  constructor
  · rintro ⟨v, hlookup, haccept⟩
    cases v with
    | instant micros => exact ⟨micros, hlookup, haccept⟩
    | null | uuid | uuids | int8 | int4 | text | bool => cases haccept
  · rintro ⟨micros, hlookup, hinstant⟩
    exact ⟨_, hlookup, hinstant⟩

/-- A missing column is a failure of the storage; a value that cannot be read is corrupt. -/
theorem Row.code_of_read {t : Trouble} {operation : String} (h : row.read accept name = .error t) :
    (t.fault operation).code =
      if row.lookup name = none then .storageFailure else .corruptRecord := by
  unfold Row.read Row.value at h
  cases hlookup : row.lookup name with
  | none =>
    rw [hlookup] at h
    cases h
    rfl
  | some v =>
    rw [hlookup] at h
    simp only [bind, Except.bind] at h
    split at h <;> cases h <;> rfl

end Columns

/-! ## Stamps -/

/-- Whole numbers in a row have 64 bits. -/
def Value.Fits : Value → Prop
  | .int8 n => -(signBit : Int) ≤ n ∧ n < signBit
  | _ => True

def Row.Fits (row : Row) : Prop :=
  ∀ cell ∈ row, cell.2.Fits

/-- A row that stamps a write: a version that is not negative, and an instant that exists. -/
structure Row.Stamps (row : Row) (version : UInt64) (updatedAt : Timestamp) : Prop where
  version : row.lookup "version" = some (.int8 version.toNat)
  updatedAt : ∃ micros, row.lookup "updated_at" = some (.instant micros) ∧
    instantOf? micros = some updatedAt

theorem Row.Fits.of_lookup {row : Row} {name : String} {v : Value} (h : row.Fits)
    (hlookup : row.lookup name = some v) : v.Fits := by
  rcases List.lookup_eq_some_iff.1 hlookup with ⟨before, after, rfl, -⟩
  exact h (name, v) (by simp)

section Stamps

variable {row : Row} {version : UInt64} {updatedAt : Timestamp}

/-- A number of 64 bits that is not negative is kept as it is. -/
theorem toNat_ofNat_of_fits {n : Int} (hfits : (Value.int8 n).Fits) (hpos : 0 ≤ n) :
    ((UInt64.ofNat n.toNat).toNat : Int) = n := by
  have hbit : signBit = 9223372036854775808 := rfl
  have hn : n < signBit := hfits.2
  have hword : n.toNat < 2 ^ 64 := by omega
  rw [UInt64.toNat_ofNat_of_lt' hword, Int.toNat_of_nonneg hpos]

theorem readStamp_of_ok {n : Int} (hn : row.int "version" = .ok n)
    (ht : row.instant "updated_at" = .ok updatedAt) :
    readStamp row =
      if n < 0 then .error (.corruptRecord ("negative version " ++ Decimal.int n))
      else .ok (.ofNat n.toNat, updatedAt) := by
  unfold readStamp
  rw [hn, ht]
  rfl

/-- A stamp is read from both columns, or refused as corrupt. -/
theorem readStamp_cases (row : Row) :
    (∃ n updatedAt, row.int "version" = .ok n ∧ row.instant "updated_at" = .ok updatedAt ∧ 0 ≤ n ∧
      readStamp row = .ok (.ofNat n.toNat, updatedAt)) ∨
    ∃ f, readStamp row = .error f ∧ f.code = .corruptRecord := by
  cases hn : row.int "version" with
  | error t =>
    right
    unfold readStamp
    rw [hn]
    exact ⟨_, rfl, rfl⟩
  | ok n =>
    cases ht : row.instant "updated_at" with
    | error t =>
      right
      unfold readStamp
      rw [hn, ht]
      exact ⟨_, rfl, rfl⟩
    | ok updatedAt =>
      rw [readStamp_of_ok hn ht]
      by_cases hneg : n < 0
      · rw [if_pos hneg]
        exact .inr ⟨_, rfl, rfl⟩
      · rw [if_neg hneg]
        exact .inl ⟨n, updatedAt, rfl, rfl, Int.not_lt.1 hneg, rfl⟩

theorem readStamp_eq_ok_iff (hrow : row.Fits) :
    readStamp row = .ok (version, updatedAt) ↔ row.Stamps version updatedAt := by
  constructor
  · intro h
    rcases readStamp_cases row with ⟨n, t, hn, ht, hpos, hread⟩ | ⟨f, hread, -⟩
    · cases hread.symm.trans h
      rw [Row.int_eq_ok_iff] at hn
      refine ⟨?_, Row.instant_eq_ok_iff.1 ht⟩
      rw [hn, toNat_ofNat_of_fits (hrow.of_lookup hn) hpos]
    · cases hread.symm.trans h
  · rintro ⟨hversion, hinstant⟩
    rw [← Row.int_eq_ok_iff] at hversion
    rw [← Row.instant_eq_ok_iff] at hinstant
    rw [readStamp_of_ok hversion hinstant, if_neg (by omega), Int.toNat_natCast,
      UInt64.ofNat_toNat]

end Stamps

/-- A row that stamps nothing: one of its columns does not decode, or the version is negative. -/
def Row.Spoilt (row : Row) : Prop :=
  (∀ n, row.lookup "version" ≠ some (.int8 n)) ∨
  (∃ n, row.lookup "version" = some (.int8 n) ∧ n < 0) ∨
  ∀ micros, row.lookup "updated_at" = some (.instant micros) → instantOf? micros = none

theorem Row.spoilt_iff {row : Row} (h : row.Fits) :
    row.Spoilt ↔ ∀ version updatedAt, ¬ row.Stamps version updatedAt := by
  constructor
  · rintro hspoilt version updatedAt ⟨hversion, micros, hmicros, hinstant⟩
    rcases hspoilt with hnone | ⟨n, hn, hneg⟩ | hnone
    · exact hnone _ hversion
    · cases hversion.symm.trans hn
      omega
    · cases (hnone micros hmicros).symm.trans hinstant
  · intro hnot
    by_contra hspoilt
    unfold Row.Spoilt at hspoilt
    push Not at hspoilt
    rcases hspoilt with ⟨⟨n, hn⟩, hpos, micros, hmicros, hinstant⟩
    rcases Option.ne_none_iff_exists'.1 hinstant with ⟨t, ht⟩
    have hkept : 0 ≤ n := by have := hpos n hn; omega
    refine hnot (.ofNat n.toNat) t ⟨?_, micros, hmicros, ht⟩
    rw [hn, toNat_ofNat_of_fits (h.of_lookup hn) hkept]

/-! ## Lines -/

/-- Is a trouble with the rows that came back, and not with the statement? -/
def Trouble.AboutRows : Trouble → Prop
  | .noRow | .noColumn _ | .nullColumn _ | .otherType _ => True
  | .database _ _ | .closed | .busy | .unreachable _ | .failed _ => False

theorem Trouble.code_fault {t : Trouble} {operation : String} (h : ¬ t.AboutRows) :
    (t.fault operation).code = .storageFailure := by
  cases t with
  | database | closed | busy | unreachable | failed => rfl
  | noRow | noColumn | nullColumn | otherType => exact absurd trivial h

/-- What a driver reports: a statement fails with a trouble of its own, since columns are only read
afterwards, and whole numbers have 64 bits. -/
def Reply.Genuine : Reply → Prop
  | .error t => ¬ t.AboutRows
  | .ok result => ∀ row ∈ result.rows, row.Fits

def Line.Genuine : Line → Prop
  | .dead t => ¬ t.AboutRows
  | .scripted replies => ∀ reply ∈ replies, reply.Genuine

/-- The first row of a reply, if there is one. -/
def Reply.found (reply : Reply) : Except Trouble (Option Row) :=
  reply.map fun result => result.rows.head?

/-- The reply of a line to the statement in a place; the first place is 0. -/
def Line.reply : Line → Nat → Reply
  | .dead t, _ => .error t
  | .scripted replies, place => replies.getD place (.ok {})

/-- What a line gives for the statement in a place. -/
def Line.found (line : Line) (place : Nat) : Except Trouble (Option Row) :=
  (line.reply place).found

section Genuine

variable {line : Line}

theorem Line.Genuine.reply (h : line.Genuine) (place : Nat) : (line.reply place).Genuine := by
  cases line with
  | dead t => exact h
  | scripted replies =>
    have hscript : ∀ reply ∈ replies, reply.Genuine := h
    rw [Line.reply, List.getD_eq_getElem?_getD]
    cases hreply : replies[place]? with
    | none => exact fun _ hrow => nomatch hrow
    | some reply => exact hscript reply (List.mem_of_getElem? hreply)

theorem Reply.Genuine.trouble {reply : Reply} {t : Trouble} (h : reply.Genuine)
    (hfound : reply.found = .error t) : ¬ t.AboutRows := by
  cases reply with
  | error t' =>
    cases hfound
    exact h
  | ok result => cases hfound

theorem Reply.Genuine.row {reply : Reply} {row : Row} (h : reply.Genuine)
    (hfound : reply.found = .ok (some row)) : row.Fits := by
  cases reply with
  | error t => cases hfound
  | ok result => exact h row (List.mem_of_head? (Except.ok.inj hfound))

end Genuine

/-! ## Single statements -/

theorem fetchOptional_eq (operation : String) (q : Statement) (params : List Value) :
    fetchOptional operation q params = .send ⟨q, params⟩ fun reply =>
      .done (reply.found.mapError (Trouble.fault operation)) := by
  unfold fetchOptional fetchAll send
  show Dialogue.send _ _ = _
  congr 1
  funext reply
  cases reply with
  | error t => rfl
  | ok result => rfl

end Database

namespace DatabaseLedger

/-! ## The dialogue -/

/-- The conditional write of an item, as it is sent. -/
def writing (s : StockItem) : Sent :=
  ⟨updateItem, [.uuid s.id.uuid, .int8 (signed64 s.version), .int8 s.quantity, .int8 s.reserved]⟩

/-- The question whether there is such an item, as it is sent. -/
def probe (s : StockItem) : Sent :=
  ⟨.present table (.is "id" 1), [.uuid s.id.uuid]⟩

/-- The answer to the question, from what was found. -/
def known : Except Trouble (Option Row) → Answer Bool
  | .ok (some row) => (row.bool "present").mapError (Trouble.fault "stock_item_exists")
  | .ok none => .error (Trouble.noRow.fault "stock_item_exists")
  | .error t => .error (t.fault "stock_item_exists")

theorem hasItem_eq (s : StockItem) :
    hasItem s.id = .send (probe s) fun reply => .done (known reply.found) := by
  unfold hasItem fetchValue
  rw [fetchOptional_eq]
  show Dialogue.send _ _ = _
  congr 1
  funext reply
  show Dialogue.done _ = _
  cases reply.found with
  | error t => rfl
  | ok row => cases row <;> rfl

/-- What is answered when a row has come back. -/
def stamped (s : StockItem) (row : Row) : Written :=
  match readStamp row with
  | .ok (version, updatedAt) => ⟨.ok (), s.persisted version updatedAt⟩
  | .error f => ⟨.error f, s⟩

theorem update_eq (s : StockItem) :
    update s = .send (writing s) fun reply =>
      match reply.found with
      | .error t => .done ⟨.error (t.fault "update_stock_item"), s⟩
      | .ok none => .send (probe s) fun reply =>
          .done ⟨.error (explainMiss s (known reply.found)), s⟩
      | .ok (some row) => .done (stamped s row) := by
  unfold update
  rw [fetchOptional_eq, hasItem_eq]
  show Dialogue.send _ _ = _
  congr 1
  funext reply
  dsimp only
  cases reply.found with
  | error t => rfl
  | ok row =>
    cases row with
    | none => rfl
    | some row =>
      unfold stamped
      cases hstamp : readStamp row with
      | error f => simp only [Except.mapError, Dialogue.andThen, hstamp]; rfl
      | ok stamp => simp only [Except.mapError, Dialogue.andThen, hstamp]; rfl

theorem run_update_dead (s : StockItem) (t : Trouble) :
    (update s).run (.dead t) = (⟨.error (t.fault "update_stock_item"), s⟩, []) := by
  rw [update_eq]
  rfl

theorem run_update_scripted (s : StockItem) (replies : List Reply) :
    (update s).run (.scripted replies) =
      match (Line.scripted replies).found 0 with
      | .error t => (⟨.error (t.fault "update_stock_item"), s⟩, [writing s])
      | .ok none =>
          (⟨.error (explainMiss s (known ((Line.scripted replies).found 1))), s⟩,
            [writing s, probe s])
      | .ok (some row) => (stamped s row, [writing s]) := by
  have hfirst : (Line.scripted replies).found 0 = (replies.headD (.ok {})).found := by
    cases replies <;> rfl
  have hsecond : (Line.scripted replies).found 1 = (replies.tail.headD (.ok {})).found := by
    rcases replies with _ | ⟨first, _ | ⟨second, more⟩⟩ <;> rfl
  rw [update_eq, hfirst, hsecond, Dialogue.run]
  cases (replies.headD (.ok {})).found with
  | error t => rfl
  | ok row => cases row <;> rfl

/-! ## What the answer says -/

section Found

variable (found : Except Trouble (Option Row))

/-- The question whether there is such an item has been answered. -/
def Tells (b : Bool) : Prop :=
  ∃ row, found = .ok (some row) ∧ row.lookup "present" = some (.bool b)

/-- There is an answer, but it is neither yes nor no. -/
def Garbled : Prop :=
  ∃ row v, found = .ok (some row) ∧ row.lookup "present" = some v ∧ ∀ b, v ≠ .bool b

/-- There is no answer: the question failed, or nothing came back where it should be. -/
def Silent : Prop :=
  (∃ t, found = .error t) ∨ found = .ok none ∨
    ∃ row, found = .ok (some row) ∧ row.lookup "present" = none

variable {found} {b : Bool}

theorem Tells.iff_eq (h : Tells found b) {b' : Bool} : Tells found b' ↔ b' = b := by
  constructor
  · rcases h with ⟨row, rfl, hrow⟩
    rintro ⟨row', hfound, hrow'⟩
    cases hfound
    cases hrow.symm.trans hrow'
    rfl
  · rintro rfl
    exact h

theorem Tells.not_garbled (h : Tells found b) : ¬ Garbled found := by
  rcases h with ⟨row, rfl, hrow⟩
  rintro ⟨row', v, hfound, hrow', hv⟩
  cases hfound
  cases hrow.symm.trans hrow'
  exact hv b rfl

theorem Tells.not_silent (h : Tells found b) : ¬ Silent found := by
  rcases h with ⟨row, rfl, hrow⟩
  rintro (⟨t, hfound⟩ | hfound | ⟨row', hfound, hrow'⟩) <;> cases hfound
  cases hrow.symm.trans hrow'

theorem Garbled.not_silent (h : Garbled found) : ¬ Silent found := by
  rcases h with ⟨row, v, rfl, hrow, -⟩
  rintro (⟨t, hfound⟩ | hfound | ⟨row', hfound, hrow'⟩) <;> cases hfound
  cases hrow.symm.trans hrow'

end Found

theorem known_cases {second : Except Trouble (Option Row)}
    (hsecond : ∀ t, second = .error t → ¬ t.AboutRows) :
    (∃ b, Tells second b ∧ known second = .ok b) ∨
    (∃ f, Garbled second ∧ known second = .error f ∧ f.code = .corruptRecord) ∨
    ∃ f, Silent second ∧ known second = .error f ∧ f.code = .storageFailure := by
  rcases second with t | _ | row
  · exact .inr (.inr ⟨_, .inl ⟨t, rfl⟩, rfl, Trouble.code_fault (hsecond t rfl)⟩)
  · exact .inr (.inr ⟨_, .inr (.inl rfl), rfl, rfl⟩)
  · have hknown : known (.ok (some row)) =
        (row.bool "present").mapError (Trouble.fault "stock_item_exists") := rfl
    rw [hknown]
    cases hread : row.bool "present" with
    | ok b => exact .inl ⟨b, ⟨row, rfl, Row.bool_eq_ok_iff.1 hread⟩, rfl⟩
    | error t =>
      have hcode : (t.fault "stock_item_exists").code = _ := Row.code_of_read hread
      cases hlookup : row.lookup "present" with
      | none =>
        rw [if_pos hlookup] at hcode
        exact .inr (.inr ⟨_, .inr (.inr ⟨row, rfl, hlookup⟩), rfl, hcode⟩)
      | some v =>
        rw [if_neg (by simp [hlookup])] at hcode
        refine .inr (.inl ⟨_, ⟨row, v, rfl, hlookup, ?_⟩, rfl, hcode⟩)
        rintro b rfl
        cases hread.symm.trans (Row.bool_eq_ok_iff.2 hlookup)

/-- The code with which a write was refused, or nothing if it was made. -/
def refusal? (w : Written) : Option Fault.Code :=
  match w.outcome with
  | .ok () => none
  | .error f => some f.code

/-- What the answer to a conditional write and the caller's copy say about the two replies. Every
outcome has a condition of its own, and there is no other outcome. -/
structure Classified (s : StockItem) (first second : Except Trouble (Option Row)) (w : Written) :
    Prop where
  written_iff : refusal? w = none ↔
    ∃ row version updatedAt, first = .ok (some row) ∧ row.Stamps version updatedAt
  versionConflict_iff : refusal? w = some .versionConflict ↔
    first = .ok none ∧ Tells second true
  itemNotFound_iff : refusal? w = some .itemNotFound ↔ first = .ok none ∧ Tells second false
  corruptRecord_iff : refusal? w = some .corruptRecord ↔
    (∃ row, first = .ok (some row) ∧ row.Spoilt) ∨ first = .ok none ∧ Garbled second
  storageFailure_iff : refusal? w = some .storageFailure ↔
    (∃ t, first = .error t) ∨ first = .ok none ∧ Silent second
  exhausted : refusal? w ∈ [none, some .versionConflict, some .itemNotFound, some .corruptRecord,
    some .storageFailure]
  /-- A copy is stamped with what came back, and with nothing else. -/
  stamped : ∀ row version updatedAt, first = .ok (some row) → row.Stamps version updatedAt →
    w.item = { s with version, updatedAt }
  /-- A refusal leaves the copy as it was. -/
  kept : ∀ f, w.outcome = .error f → w.item = s

section Classified

variable {s : StockItem} {second : Except Trouble (Option Row)}

theorem classified_failed {t : Trouble} (ht : ¬ t.AboutRows) :
    Classified s (.error t) second ⟨.error (t.fault "update_stock_item"), s⟩ := by
  have hcode : refusal? ⟨.error (t.fault "update_stock_item"), s⟩ = some .storageFailure :=
    congrArg some (Trouble.code_fault ht)
  constructor <;> simp [hcode]

theorem code_explainMiss (b : Bool) :
    (explainMiss s (.ok b)).code = if b then .versionConflict else .itemNotFound := by
  cases b <;> rfl

theorem classified_missed (hsecond : ∀ t, second = .error t → ¬ t.AboutRows) :
    Classified s (.ok none) second ⟨.error (explainMiss s (known second)), s⟩ := by
  rcases known_cases hsecond with ⟨b, htells, hknown⟩ | ⟨f, hgarbled, hknown, hcode⟩ |
    ⟨f, hsilent, hknown, hcode⟩
  · have hgarbled := htells.not_garbled
    have hsilent := htells.not_silent
    cases b <;> constructor <;>
      simp [refusal?, hknown, code_explainMiss, htells.iff_eq, hgarbled, hsilent]
  · have htells (b : Bool) : ¬ Tells second b := fun h => h.not_garbled hgarbled
    constructor <;>
      simp [refusal?, explainMiss, hknown, hcode, htells, hgarbled, hgarbled.not_silent]
  · have htells (b : Bool) : ¬ Tells second b := fun h => h.not_silent hsilent
    have hgarbled : ¬ Garbled second := fun h => h.not_silent hsilent
    constructor <;> simp [refusal?, explainMiss, hknown, hcode, htells, hgarbled, hsilent]

theorem classified_returned {row : Row} (hrow : row.Fits) :
    Classified s (.ok (some row)) second (DatabaseLedger.stamped s row) := by
  unfold DatabaseLedger.stamped
  cases hread : readStamp row with
  | ok stamp =>
    obtain ⟨version, updatedAt⟩ := stamp
    have hstamps : row.Stamps version updatedAt := (readStamp_eq_ok_iff hrow).1 hread
    have hspoilt : ¬ row.Spoilt := fun h => (Row.spoilt_iff hrow).1 h version updatedAt hstamps
    constructor
    case written_iff => simpa [refusal?] using ⟨version, updatedAt, hstamps⟩
    case stamped =>
      intro row' version' updatedAt' hfound hstamps'
      cases hfound
      cases hread.symm.trans ((readStamp_eq_ok_iff hrow).2 hstamps')
      rfl
    all_goals simp [refusal?, hspoilt]
  | error f =>
    have hcode : f.code = .corruptRecord := by
      rcases readStamp_cases row with ⟨n, t, -, -, -, h⟩ | ⟨f', h, hcode⟩
      · cases h.symm.trans hread
      · cases h.symm.trans hread
        exact hcode
    have hstamps (version : UInt64) (updatedAt : Timestamp) : ¬ row.Stamps version updatedAt := by
      rw [← readStamp_eq_ok_iff hrow, hread]
      exact nofun
    have hspoilt : row.Spoilt := (Row.spoilt_iff hrow).2 hstamps
    constructor
    case stamped =>
      intro row' version updatedAt hfound hstamps'
      cases hfound
      exact absurd hstamps' (hstamps version updatedAt)
    all_goals simp [refusal?, hcode, hstamps, hspoilt]

end Classified

end DatabaseLedger

open DatabaseLedger

/--
A conditional write over a line of any kind. The question whether there is such an item is sent
exactly if the write got through and gave no row; what was answered tells which replies came, and
the caller's copy moves on only with the row of a write that was made.
-/
theorem updates_classified (s : StockItem) {line : Line} (hline : line.Genuine) :
    ∃ w sent, (dialogue (.update s)).run line = (w, sent) ∧
      sent <+: [writing s, probe s] ∧
      (sent = [] ↔ ∃ t, line = .dead t) ∧
      (probe s ∈ sent ↔ line.found 0 = .ok none) ∧
      Classified s (line.found 0) (line.found 1) w := by
  have hne : probe s ≠ writing s := fun h => nomatch congrArg Sent.statement h
  have hfirst := hline.reply 0
  have hsecond := hline.reply 1
  show ∃ w sent, (update s).run line = (w, sent) ∧ _
  cases line with
  | dead t =>
    refine ⟨_, _, run_update_dead s t, by simp, by simp, ?_, classified_failed hline⟩
    simp [Line.found, Line.reply, Reply.found, Except.map]
  | scripted replies =>
    rw [run_update_scripted]
    cases hfound : (Line.scripted replies).found 0 with
    | error t =>
      exact ⟨_, _, rfl, by simp, by simp, by simp [hne],
        classified_failed (hfirst.trouble hfound)⟩
    | ok row =>
      cases row with
      | none =>
        exact ⟨_, _, rfl, by simp, by simp, by simp,
          classified_missed fun t ht => hsecond.trouble ht⟩
      | some row =>
        exact ⟨_, _, rfl, by simp, by simp, by simp [hne],
          classified_returned (hfirst.row hfound)⟩

/-- Somebody else has written the item, and it is still there. -/
def Database.Line.raced : Line :=
  .scripted [.ok {}, .ok { rows := [[("present", .bool true)]] }]

/-- The write is made, at the start of the year 2000. -/
def Database.Line.stamped : Line :=
  .scripted [.ok { rows := [[("version", .int8 8), ("updated_at", .instant 0)]], affected := 1 }]

/-- A lost race and a write that is made, told by the answer, the statements and the copy. -/
theorem updates_classified_raced :
    (Line.raced.Genuine ∧ ∃ w sent, (dialogue (.update (.ten 1))).run .raced = (w, sent) ∧
      probe (.ten 1) ∈ sent ∧ refusal? w = some .versionConflict ∧ w.item = .ten 1) ∧
    Line.stamped.Genuine ∧ ∃ w sent, (dialogue (.update (.ten 1))).run .stamped = (w, sent) ∧
      probe (.ten 1) ∉ sent ∧ refusal? w = none ∧
      w.item = { StockItem.ten 1 with
        version := 8, updatedAt := { seconds := 946684800, nanos := 0 } } := by
  have hraced : Line.raced.Genuine := by
    simp [Line.raced, Line.Genuine, Reply.Genuine, Row.Fits, Value.Fits]
  have hstamped : Line.stamped.Genuine := by
    simp only [Line.stamped, Line.Genuine, Reply.Genuine, Row.Fits, List.forall_mem_cons]
    simp [Value.Fits, signBit]
  refine ⟨⟨hraced, ?_⟩, hstamped, ?_⟩
  · rcases updates_classified (.ten 1) hraced with ⟨w, sent, hrun, -, -, hprobe, hw⟩
    have hcode : refusal? w = some .versionConflict :=
      hw.versionConflict_iff.2 ⟨rfl, _, rfl, rfl⟩
    refine ⟨w, sent, hrun, hprobe.2 rfl, hcode, ?_⟩
    cases houtcome : w.outcome with
    | ok => simp [refusal?, houtcome] at hcode
    | error f => exact hw.kept f houtcome
  · rcases updates_classified (.ten 1) hstamped with ⟨w, sent, hrun, -, -, hprobe, hw⟩
    have hstamps : Row.Stamps [("version", .int8 8), ("updated_at", .instant 0)] 8
        { seconds := 946684800, nanos := 0 } :=
      ⟨rfl, 0, rfl, by decide⟩
    refine ⟨w, sent, hrun, ?_, hw.written_iff.2 ⟨_, _, _, rfl, hstamps⟩,
      hw.stamped _ _ _ rfl hstamps⟩
    rw [hprobe]
    exact nofun

end StockLedger
