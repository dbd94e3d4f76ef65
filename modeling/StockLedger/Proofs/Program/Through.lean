import Mathlib.Tactic.Common
import StockLedger.Service.Claim
import StockLedger.Service.Stock

/-!
# Programs behind a cache

A program that asks the ledger itself, and the same program that asks it in another way.

* `Call.through`, `Program.through`, `Request.through` : each request to the ledger is put through
  whatever stands before it, and all others are made as they are;
* `Program.through_andThen`, `Request.through_bind` : one program after another;
* `Service.direct`, `Service.behind` : a service that asks the ledger itself, and one that does not;
* `through_itemOf`, `through_write` : single requests.
-/

namespace StockLedger

variable {α β : Type} {L : LedgerAccess}

/-- A request, where the ledger is asked in a given way. -/
def Call.through (L : LedgerAccess) : (c : Call) → Program c.Reply
  | .ledger c => L c
  | c => .ask c

/-- A program, where the ledger is asked in a given way. -/
def Program.through (L : LedgerAccess) : Program α → Program α
  | .done a => .done a
  | .call c next => (c.through L).andThen fun r => (next r).through L
  | .abort => .abort

theorem Program.through_andThen (p : Program α) (f : α → Program β) :
    (p.andThen f).through L = (p.through L).andThen fun a => (f a).through L := by
  induction p with
  | done a => rfl
  | call c next ih => simp only [andThen, through, ih, andThen_assoc]
  | abort => rfl

theorem Program.through_ask (c : Call) : (Program.ask c).through L = c.through L :=
  andThen_done _

namespace Request

/-- A request that may be refused, where the ledger is asked in a given way. -/
def through (L : LedgerAccess) (x : Request α) : Request α :=
  .ofProgram (x.run.through L)

theorem through_bind (x : Request α) (f : α → Request β) :
    (x >>= f).through L = x.through L >>= fun a => (f a).through L := by
  have hafter (a : Answer α) : (ExceptT.bindCont (fun v => f v) a).through L =
      ExceptT.bindCont (fun v => (f v).through L) a := by
    cases a <;> rfl
  have hrun := Program.through_andThen (L := L) x.run (ExceptT.bindCont fun v => f v)
  simp only [hafter] at hrun
  exact hrun

theorem through_pure (a : α) : (pure a : Request α).through L = pure a := rfl

theorem through_ofAnswer (a : Answer α) : (ofAnswer a).through L = ofAnswer a := rfl

theorem through_inRange (a : Option (Answer α)) :
    (Service.inRange a).through L = Service.inRange a := by
  cases a <;> rfl

theorem through_now : Service.now.through L = Service.now := rfl

theorem through_freshUuid : Service.freshUuid.through L = Service.freshUuid := rfl

theorem through_log (level : LogLevel) (message : String) :
    (Service.log level message).through L = Service.log level message := rfl

theorem through_reporting (message : String) (x : Request α) :
    (Service.reporting message x).through L = Service.reporting message (x.through L) := by
  refine (Program.through_andThen x.run _).trans ?_
  -- What is done after a refusal asks nothing of the ledger.
  refine congrArg (Program.andThen (x.run.through L)) (funext fun a => ?_)
  cases a <;> rfl

end Request

/-! ## Services -/

/-- A service that asks the ledger itself. -/
abbrev Service.direct (ttl : Span) : Service :=
  { ledger := .direct, defaultTtl := ttl }

/-- A service that asks the ledger in a given way. -/
abbrev Service.behind (L : LedgerAccess) (ttl : Span) : Service :=
  { ledger := L, defaultTtl := ttl }

section

variable {ttl : Span}

theorem through_direct (c : LedgerCall) : (LedgerAccess.direct c).through L = L c :=
  Program.through_ask _

theorem through_itemOf (p : ProductId) :
    ((Service.direct ttl).itemOf p).through L = (Service.behind L ttl).itemOf p :=
  through_direct (.findByProduct p)

theorem through_item (id : ItemId) :
    ((Service.direct ttl).item id).through L = (Service.behind L ttl).item id :=
  through_direct (.load id)

theorem through_save (x : StockItem) :
    (Request.ofProgram (LedgerAccess.direct (.save x))).through L = .ofProgram (L (.save x)) :=
  through_direct (.save x)

theorem through_write (u : StockItem) :
    ((Service.direct ttl).write u).through L = (Service.behind L ttl).write u := by
  have hrun := Program.through_andThen (L := L) (LedgerAccess.direct (.update u))
    (fun w => .done w.answer)
  rw [through_direct] at hrun
  exact hrun

end
end StockLedger
