import Mathlib
import StockLedger.Proofs.Database.Mirrors

/-!
# A ledger in a database and a ledger in memory

* `Mirrors.call`, `Mirrors.apply` : after any request the rows are still those of the ledger in
  memory;
* `DatabaseLedger.Served` : requests one after another to a ledger in a database;
* `ledgers_agree` : both ledgers give the same answers and hold the same items.
-/

namespace StockLedger

open Database

/-! ## Any request -/

section Call

variable {keeps : Int → Bool} {now : Timestamp} {l : MemoryLedger} {rows after : List Row}
  {c : LedgerCall}

theorem MemoryLedger.Fair.keepsProduct {S : Server} (hc : l.Fair S c) : l.KeepsProduct c := by
  cases c with
  | update s => exact fun stored hstored => (hc stored hstored).1
  | load | findByProduct | findMany | findLowStock | count | hasProduct | save | delete
  | bumpVersion => exact trivial

theorem Mirrors.call (h : Mirrors (Server.ledger keeps) rows l) (hyoung : l.Young)
    (hnow : (Server.ledger keeps).Holds now) (hc : l.Fair (Server.ledger keeps) c) :
    (DatabaseLedger.dialogue c).Always (Server.ledger keeps) now (l.Alike now c) rows := by
  cases c with
  | load id => exact h.load hyoung id
  | findByProduct p => exact h.findByProduct hyoung p
  | findMany ids => exact h.findMany hyoung hc
  | findLowStock threshold limit => exact h.findLowStock hyoung threshold hc
  | count => exact h.count
  | hasProduct p => exact h.hasProduct p
  | save s => exact h.save hc.1 hc.2
  | delete id => exact h.delete hyoung id
  | bumpVersion id => exact h.bumpVersion hyoung hnow id
  | update s =>
    cases hmatch : (l.items.find? s.id).filter fun t => decide (t.version = s.version) with
    | none => exact h.update_missed hmatch
    | some stored =>
      rw [Option.filter_eq_some_iff, decide_eq_true_iff] at hmatch
      rcases hmatch with ⟨hstored, hversion⟩
      rcases hc stored hstored with ⟨hproduct, hcreated⟩
      exact h.update_written hyoung hnow hstored hversion hproduct hcreated

/-- The instants of every item are still such that a column holds them. -/
theorem Mirrors.holds_apply {S : Server} (h : Mirrors S rows l) (hnow : S.Holds now)
    (hc : l.Fair S c) {s : StockItem} (hs : s ∈ (l.apply now c).items.values) :
    S.Holds s.createdAt ∧ S.Holds s.updatedAt := by
  have held {id : ItemId} {t : StockItem} (ht : l.items.find? id = some t) :
      S.Holds t.createdAt ∧ S.Holds t.updatedAt :=
    h.holds t (Table.mem_values_of_find? ht)
  -- An item that is there after the request was there before it, or the request has written it.
  rcases (Table.mem_values_iff ..).1 hs with ⟨id, hid⟩
  have ho := l.outcome now c
  generalize l.reply now c = r at ho
  generalize l.apply now c = l' at ho hid
  cases ho with
  | unchanged => exact held hid
  | saved x =>
    rcases Table.of_find?_insert hid with ⟨-, rfl⟩ | ⟨-, hold⟩
    · exact hc
    · exact held hold
  | updated u stored hstored =>
    rcases Table.of_find?_insert hid with ⟨-, rfl⟩ | ⟨-, hold⟩
    · have hcreated : u.createdAt = stored.createdAt := (hc stored hstored).2
      refine ⟨?_, hnow⟩
      have hholds := (held hstored).1
      rw [← hcreated] at hholds
      exact hholds
    · exact held hold
  | deleted j x => exact held (Table.below_erase _ _ id s hid)
  | bumped j x hx =>
    rcases Table.of_find?_insert hid with ⟨-, rfl⟩ | ⟨-, hold⟩
    · exact ⟨(held hx).1, hnow⟩
    · exact held hold

theorem Mirrors.apply {S : Server} (h : Mirrors S rows l) (hnow : S.Holds now) (hc : l.Fair S c)
    {r : c.Reply} (hm : l.Alike now c r after) : Mirrors S after (l.apply now c) where
  indexed := h.indexed.outcome hc.keepsProduct (l.outcome now c)
  rows := hm.2
  holds := fun _ hs => h.holds_apply hnow hc hs

end Call

/-! ## Requests one after another -/

/-- Requests, each made at an instant, answered by a ledger in a database. -/
inductive DatabaseLedger.Served (S : Server) :
    List Row → List (Timestamp × LedgerCall) → List Exchange → List Row → Prop
  | nil (rows : List Row) : Served S rows [] [] rows
  | cons {rows middle after : List Row} {now : Timestamp} {c : LedgerCall} {r : c.Reply}
      {rest : List (Timestamp × LedgerCall)} {exchanges : List Exchange}
      (hfirst : (DatabaseLedger.dialogue c).Held S now rows r middle)
      (hrest : Served S middle rest exchanges after) :
      Served S rows ((now, c) :: rest) (⟨c, r⟩ :: exchanges) after

/-- The same request, with replies that agree. -/
inductive Exchange.Agree : Exchange → Exchange → Prop
  | intro (c : LedgerCall) (r r' : c.Reply) (h : c.Agree r r') : Agree ⟨c, r⟩ ⟨c, r'⟩

/--
Every request is fair when it is made, at an instant that a column holds; no version ever gets to
the last one of 63 bits.
-/
def MemoryLedger.AllFair (S : Server) (l : MemoryLedger) : List (Timestamp × LedgerCall) → Prop
  | [] => l.Young
  | (now, c) :: rest => l.Young ∧ S.Holds now ∧ l.Fair S c ∧ (l.apply now c).AllFair S rest

/-- Requests are always answered in some way. -/
theorem DatabaseLedger.exists_served (S : Server) (rows : List Row)
    (requests : List (Timestamp × LedgerCall)) :
    ∃ exchanges after, DatabaseLedger.Served S rows requests exchanges after := by
  induction requests generalizing rows with
  | nil => exact ⟨[], rows, .nil rows⟩
  | cons request rest ih =>
    rcases request with ⟨now, c⟩
    rcases Dialogue.exists_held S now (DatabaseLedger.dialogue c) rows with ⟨r, middle, hfirst⟩
    rcases ih middle with ⟨exchanges, after, hrest⟩
    exact ⟨⟨c, r⟩ :: exchanges, after, .cons hfirst hrest⟩

theorem Mirrors.served {keeps : Int → Bool} {l : MemoryLedger} {rows after : List Row}
    {requests : List (Timestamp × LedgerCall)} {exchanges : List Exchange}
    (h : Mirrors (Server.ledger keeps) rows l) (hfair : l.AllFair (Server.ledger keeps) requests)
    (hserved : DatabaseLedger.Served (Server.ledger keeps) rows requests exchanges after) :
    List.Forall₂ Exchange.Agree exchanges (l.serve requests).1 ∧
      Mirrors (Server.ledger keeps) after (l.serve requests).2 := by
  -- What one request leaves for the next one is that the rows are still those of the ledger.
  induction hserved generalizing l with
  | nil => exact ⟨.nil, h⟩
  | cons hfirst hrest ih =>
    rcases hfair with ⟨hyoung, hnow, hc, hlater⟩
    have hm := (h.call hyoung hnow hc).of_held hfirst
    rcases ih (h.apply hnow hc hm) hlater with ⟨hagree, hafter⟩
    exact ⟨.cons (.intro _ _ _ hm.1) hagree, hafter⟩

/--
A ledger in a database and one in memory that start with the same items, and get the same requests
at the same instants, give the same answers or refuse with the same codes at every request, and hold
the same items at the end. A conditional write leaves the caller's item in the same state, whether it
succeeds or not.

Instants are whole numbers of microseconds that a column can hold, however far that reaches; no such
number stands for an instant inside a leap second (`Database.Server.holds_iff`). It does not matter
in which order the database stores its rows, nor whether they move between statements.
-/
theorem ledgers_agree (keeps : Int → Bool) (l : MemoryLedger) (rows : List Row)
    (requests : List (Timestamp × LedgerCall)) (hrows : Mirrors (Server.ledger keeps) rows l)
    (hfair : l.AllFair (Server.ledger keeps) requests) :
    (∃ exchanges after,
      DatabaseLedger.Served (Server.ledger keeps) rows requests exchanges after) ∧
    ∀ exchanges after, DatabaseLedger.Served (Server.ledger keeps) rows requests exchanges after →
      List.Forall₂ Exchange.Agree exchanges (l.serve requests).1 ∧
        Mirrors (Server.ledger keeps) after (l.serve requests).2 :=
  ⟨DatabaseLedger.exists_served _ rows requests, fun _ _ hserved => hrows.served hfair hserved⟩

namespace DatabaseLedger

/-- The counts of microseconds from 4713 BC to the year 294276. -/
def timestamptz (micros : Int) : Bool :=
  -211813488000000000 ≤ micros && micros < 9223371331200000000

/-- An instant a little after the start of 1970. -/
def later : Timestamp :=
  { seconds := 60, nanos := 250000 }

instance (S : Server) (l : MemoryLedger) (c : LedgerCall) : Decidable (l.Fair S c) :=
  match c with
  | .findMany ids => inferInstanceAs (Decidable ids.Nodup)
  | .findLowStock _ limit => inferInstanceAs (Decidable (limit.toNat < signBit))
  | .save s => inferInstanceAs (Decidable (S.Holds s.createdAt ∧ S.Holds s.updatedAt))
  | .update s => inferInstanceAs (Decidable (∀ stored ∈ l.items.find? s.id,
      s.productId = stored.productId ∧ s.createdAt = stored.createdAt))
  | .load _ | .findByProduct _ | .count | .hasProduct _ | .delete _ | .bumpVersion _ =>
      .isTrue trivial

instance (l : MemoryLedger) : Decidable l.Young :=
  inferInstanceAs (Decidable (∀ s ∈ l.items.values, s.version.toNat < signBit - 1))

instance decidableAllFair (S : Server) (l : MemoryLedger) :
    (requests : List (Timestamp × LedgerCall)) → Decidable (l.AllFair S requests)
  | [] => inferInstanceAs (Decidable l.Young)
  | (now, c) :: rest =>
      have := decidableAllFair S (l.apply now c) rest
      inferInstanceAs (Decidable
        (l.Young ∧ S.Holds now ∧ l.Fair S c ∧ (l.apply now c).AllFair S rest))

/-- An item stored twice, written twice from one copy, found, stamped and removed. -/
def errands : List (Timestamp × LedgerCall) :=
  [(.epoch, .save (.ten 1)), (.epoch, .save (.ten 1)), (.epoch, .save (.ten 2)),
    (later, .update (.tenWith 3)), (later, .update (.tenWith 3)),
    (later, .findMany [(StockItem.ten 2).id, (StockItem.ten 1).id]), (later, .findLowStock 10 1),
    (later, .bumpVersion (StockItem.ten 2).id), (later, .delete (StockItem.ten 1).id),
    (later, .count)]

/-- The first item as the first of its two writers has left it. -/
def written : StockItem :=
  MemoryLedger.advance (.tenWith 3) later

/-- What the ledger in memory says to them. -/
def answers : List Exchange :=
  [⟨.save (.ten 1), .ok ()⟩, ⟨.save (.ten 1), .error (MemoryLedger.duplicate (.ten 1))⟩,
    ⟨.save (.ten 2), .ok ()⟩, ⟨.update (.tenWith 3), ⟨.ok (), written⟩⟩,
    ⟨.update (.tenWith 3), ⟨.error (MemoryLedger.stale (.tenWith 3) written), .tenWith 3⟩⟩,
    ⟨.findMany [(StockItem.ten 2).id, (StockItem.ten 1).id], .ok [.ten 2, written]⟩,
    ⟨.findLowStock 10 1, .ok [written]⟩,
    ⟨.bumpVersion (StockItem.ten 2).id, .ok (MemoryLedger.advance (.ten 2) later)⟩,
    ⟨.delete (StockItem.ten 1).id, .ok written⟩, ⟨.count, .ok 1⟩]

/-- Both ledgers start out empty. -/
theorem ledgers_agree_errands :
    Mirrors (Server.ledger timestamptz) [] .empty ∧
    MemoryLedger.empty.AllFair (Server.ledger timestamptz) errands ∧
    (∃ exchanges after, Served (Server.ledger timestamptz) [] errands exchanges after) ∧
    (MemoryLedger.empty.serve errands).2.items.values = [MemoryLedger.advance (.ten 2) later] ∧
    ∀ exchanges after, Served (Server.ledger timestamptz) [] errands exchanges after →
      List.Forall₂ Exchange.Agree exchanges answers ∧
        Mirrors (Server.ledger timestamptz) after (MemoryLedger.empty.serve errands).2 := by
  have hrows : Mirrors (Server.ledger timestamptz) [] .empty :=
    ⟨MemoryLedger.indexed_empty, .refl [], fun _ hs => nomatch hs⟩
  have hfair : MemoryLedger.empty.AllFair (Server.ledger timestamptz) errands := by decide
  have hanswers : (MemoryLedger.empty.serve errands).1 = answers := by cbv
  have hagree := ledgers_agree timestamptz .empty [] errands hrows hfair
  rw [hanswers] at hagree
  exact ⟨hrows, hfair, hagree.1, by cbv, hagree.2⟩

end DatabaseLedger
end StockLedger
