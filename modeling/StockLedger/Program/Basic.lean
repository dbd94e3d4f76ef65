import StockLedger.Calls.Cache
import StockLedger.Calls.Ledger
import StockLedger.Calls.Publisher
import StockLedger.Calls.Reservations
import StockLedger.Identity.Basic
import StockLedger.Stock.Release

/-!
# Programs of requests

What the ledger does is a program: it makes one request after another and decides by the replies
how to go on. Nothing is assumed about who replies or about what happens between two requests.

* `LogEntry` : what a program reports about itself;
* `Call`, `Call.Reply` : every request and what it is answered with;
* `Program` : a tree of requests, and its sequencing as a monad;
* `Request` : a program that ends in a value or a refusal.
-/

namespace StockLedger

/-! ## Reports -/

/-- How much attention a report asks for. -/
inductive LogLevel
  | debug
  | info
  | warn
  | error
deriving DecidableEq, Repr

def LogLevel.word : LogLevel → String
  | .debug => "DEBUG"
  | .info => "INFO"
  | .warn => "WARN"
  | .error => "ERROR"

/-- A report. -/
structure LogEntry where
  level : LogLevel
  message : String
deriving DecidableEq, Repr

/-- The report in one line. -/
def LogEntry.text (e : LogEntry) : String :=
  e.level.word ++ " " ++ e.message

/-! ## Requests -/

/-- How many claims a finished sweep released, failed to release and left for the next one. -/
structure SweepTally where
  released : Nat
  failed : Nat
  deferred : Nat
deriving DecidableEq, Repr

/-- A request of a program. -/
inductive Call
  | ledger (c : LedgerCall)
  | reservations (c : ReservationCall)
  | cache (c : CacheCall)
  | publish (n : StockRelease)
  /-- What time is it? -/
  | now
  /-- How many nanoseconds has the machine run? -/
  | uptime
  /-- A UUID that nobody has. -/
  | freshUuid
  /-- Expired claims, unless the search takes longer than the budget allows. -/
  | findExpiredWithin (budget : Option Span) (now : Timestamp) (limit : UInt64)
  /-- May a sweep start? If so, no other one may until this one leaves. -/
  | enterSweep
  | leaveSweep
  | recordSweep (tally : SweepTally)
  | recordSkip
  | log (e : LogEntry)
deriving DecidableEq, Repr

/-- What a request is answered with. -/
abbrev Call.Reply : Call → Type
  | ledger c => c.Reply
  | reservations c => c.Reply
  | cache c => c.Reply
  | publish _ => Except PublishFault Unit
  | now => Timestamp
  | uptime => Nat
  | freshUuid => Uuid
  | findExpiredWithin _ _ _ => Option (Answer (List Reservation))
  | enterSweep => Bool
  | leaveSweep | recordSweep _ | recordSkip | log _ => Unit

/-! ## Programs -/

/-- A program: it is done, or it makes a request and goes on with the reply, or it breaks off. -/
inductive Program (α : Type) where
  | done (a : α)
  | call (c : Call) (next : c.Reply → Program α)
  | abort

namespace Program

variable {α β : Type}

/-- One program after another. -/
def andThen : Program α → (α → Program β) → Program β
  | done a, f => f a
  | call c next, f => call c fun r => andThen (next r) f
  | abort, _ => abort

instance : Monad Program where
  pure := done
  bind := andThen

/-- A single request. -/
def ask (c : Call) : Program c.Reply :=
  call c done

def log (level : LogLevel) (message : String) : Program Unit :=
  ask (.log ⟨level, message⟩)

/-- A value that may not exist: without it the program breaks off. -/
def demand : Option α → Program α
  | some a => done a
  | none => abort

theorem andThen_done (p : Program α) : p.andThen done = p := by
  induction p with
  | done => rfl
  | call c next ih => simp [andThen, ih]
  | abort => rfl

theorem andThen_assoc {γ : Type} (p : Program α) (f : α → Program β) (g : β → Program γ) :
    (p.andThen f).andThen g = p.andThen fun a => (f a).andThen g := by
  induction p with
  | done => rfl
  | call c next ih => simp [andThen, ih]
  | abort => rfl

end Program

/-- A program that ends in a value or a refusal. -/
abbrev Request (α : Type) := ExceptT Fault Program α

namespace Request

variable {α : Type}

/-- A program that ends in an answer, as a request. -/
def ofProgram (p : Program (Answer α)) : Request α :=
  ExceptT.mk p

/-- A program that ends in a value. -/
def lift (p : Program α) : Request α :=
  ExceptT.lift p

/-- An answer that is known already. -/
def ofAnswer (a : Answer α) : Request α :=
  ExceptT.mk (.done a)

end Request
end StockLedger
