import StockLedger.Memory.Cache
import StockLedger.Memory.Reservations
import StockLedger.Rehearsal.Journal
import StockLedger.Sweep.Stats
import StockLedger.Time.Clock

/-!
# Rehearsing programs

A rehearsal replies to the requests of programs from stores, a cache and a clock in memory. Cues
can be left for any method: each call of it takes one, and the cue interferes with the call.

* `Mention` : whose identity is meant, which need not be known yet;
* `Cue` : what happens around one call;
* `Stage` : the stores, the cues that wait, and what was reported;
* `Stage.prepare` : takes the cue of a call and does what comes before the call;
* `Stage.complete` : carries the call out, or has it fail;
* `Stage.run` : runs a program until it ends, breaks off or hangs.
-/

namespace StockLedger

/--
Whose identity is meant: a given one, or that of an item or a reservation that is made in the
rehearsal, counted from zero in the order in which they were first stored.
-/
inductive Mention
  | given (u : Uuid)
  | newItem (n : Nat)
  | newReservation (n : Nat)
deriving DecidableEq, Repr

/-- A reservation whose identities are mentioned. -/
structure Plant where
  id : Mention
  itemId : Mention
  orderId : Mention
  quantity : Int
  status : Reservation.Status
  expiresAt : Timestamp
  createdAt : Timestamp
  updatedAt : Timestamp

/--
What happens around one call, in this order. Whoever is mentioned is looked for when the call comes;
nothing happens to someone who is not known by then.
-/
structure Cue where
  bump : Option Mention := none
  delete : Option Mention := none
  plant : Option Plant := none
  shift : Option Span := none
  /-- The call takes longer than the budget of a sweep. -/
  slow : Bool := false
  /-- The call waits until it is let go. -/
  hang : Bool := false
  /-- The call is not made but refused. -/
  fail : Option Fault := none
  /-- The call is made and then reported as refused. -/
  failAfter : Option Fault := none

/-- Where notices of released stock go. -/
inductive Publisher
  | recording
  | failing
  | logging
deriving DecidableEq, Repr

/-- All that replies to requests, and all that was reported. -/
structure Stage where
  ledger : MemoryLedger := .empty
  reservations : MemoryReservations := .empty
  cache : MemoryCache := .empty
  clock : Clock
  uptime : Nat := 0
  ids : IdSource
  cues : List (String × Cue) := []
  publisher : Publisher := .recording
  published : List StockRelease := []
  sweeping : Bool := false
  stats : SweepStats := {}
  log : List LogEntry := []
  journal : List String := []
  /-- Items and reservations with fresh identities, in the order in which they were first stored. -/
  newItems : List Uuid := []
  newReservations : List Uuid := []

/-- How far a program came. -/
inductive Progress (α : Type) where
  | ended (a : α)
  | broken
  /-- It hangs in a call, with the rest of the cue. -/
  | hung (c : Call) (cue : Cue) (next : c.Reply → Program α)

namespace Stage

/-! ## Cues -/

/-- Leaves cues for a method after those that wait already. -/
def addCues (s : Stage) (method : String) (cues : List Cue) : Stage :=
  { s with cues := s.cues ++ cues.map fun c => (method, c) }

/-- Leaves a cue for a method before those that wait already. -/
def addFirst (s : Stage) (method : String) (cue : Cue) : Stage :=
  { s with cues := (method, cue) :: s.cues }

/-- Takes the next cue of a method; without one nothing happens around the call. -/
def takeCue (s : Stage) (method : String) : Cue × Stage :=
  match s.cues.find? fun (m, _) => m == method with
  | some (_, cue) => (cue, { s with cues := s.cues.eraseP fun (m, _) => m == method })
  | none => ({}, s)

/-- Moves the clock; `none` if it jams. -/
def shiftClock (s : Stage) (d : Span) : Option Stage :=
  (s.clock.advance? d).map fun clock => { s with clock }

/-- Reports something. -/
def report (s : Stage) (level : LogLevel) (message : String) : Stage :=
  { s with log := s.log ++ [⟨level, message⟩] }

def jamClock (s : Stage) : Stage :=
  { s with clock := s.clock.jam }

/-- The identity that is meant, if it is known by now. -/
def identity? (s : Stage) : Mention → Option Uuid
  | .given u => some u
  | .newItem n => s.newItems[n]?
  | .newReservation n => s.newReservations[n]?

/-- The reservation that is meant, if all its identities are known and its quantity is sound. -/
def planted? (s : Stage) (p : Plant) : Option Reservation := do
  let id ← s.identity? p.id
  let itemId ← s.identity? p.itemId
  let orderId ← s.identity? p.orderId
  (Reservation.restore ⟨id⟩ ⟨itemId⟩ ⟨orderId⟩ p.quantity p.status p.expiresAt p.createdAt
    p.updatedAt).toOption

/-- What a cue does to the stores before the call. -/
def interfere (s : Stage) (cue : Cue) : Stage :=
  let now := s.clock.now
  let bump? := (cue.bump.bind s.identity?).map fun u => LedgerCall.bumpVersion ⟨u⟩
  let delete? := (cue.delete.bind s.identity?).map fun u => LedgerCall.delete ⟨u⟩
  let plant? := (cue.plant.bind s.planted?).map ReservationCall.save
  let ledger := bump?.elim s.ledger (s.ledger.apply now)
  let ledger := delete?.elim ledger (ledger.apply now)
  let reservations := plant?.elim s.reservations s.reservations.apply
  { s with ledger, reservations }

/-- Lets time pass on the machine. -/
def passTime (s : Stage) (cue : Cue) (budget : Option Span) : Stage :=
  if cue.slow then { s with uptime := s.uptime + (budget.map fun b => b.nanos.toNat).getD 0 }
  else s

/-! ## Calls -/

/-- Remembers an identity that was made here and is stored for the first time. -/
def introduce (s : Stage) : Call → Stage
  | .ledger (.save x) =>
      if s.ids.hasMade x.id.uuid && !s.newItems.contains x.id.uuid then
        { s with newItems := s.newItems ++ [x.id.uuid] }
      else s
  | .reservations (.save x) =>
      if s.ids.hasMade x.id.uuid && !s.newReservations.contains x.id.uuid then
        { s with newReservations := s.newReservations ++ [x.id.uuid] }
      else s
  | _ => s

/-- The cue of a call, after what comes before the call; `none` if the clock jams. -/
def prepare (s : Stage) (budget : Option Span) (c : Call) : Cue × Stage × Bool :=
  match c.method? with
  | none => ({}, s, true)
  | some method =>
      let (cue, s) := (s.introduce c).takeCue method
      let s := s.interfere cue
      match cue.shift.elim (some s) s.shiftClock with
      | some s => (cue, s.passTime cue budget, true)
      | none => (cue, s.jamClock, false)

/-- The failure of a cache that stands for a fault. -/
def cacheFault (f : Fault) : CacheFault :=
  if f.code = .corruptRecord then .codec f.message else .unavailable f.message

/-- The reply of a publisher, and the stage after it. -/
def announce (s : Stage) (n : StockRelease) : Except PublishFault Unit × Stage :=
  match s.publisher with
  | .recording => (.ok (), { s with published := s.published ++ [n] })
  | .failing => (.error (.transport "publisher is failing"), s)
  | .logging => (.ok (), s.report .info "stock released")

/-- The reply to a call that nothing interferes with, and the stage after it. -/
def perform (s : Stage) : (c : Call) → c.Reply × Stage
  | .ledger c =>
      (s.ledger.reply s.clock.now c, { s with ledger := s.ledger.apply s.clock.now c })
  | .reservations c =>
      (s.reservations.reply c, { s with reservations := s.reservations.apply c })
  | .cache c => (s.cache.reply s.uptime c, { s with cache := s.cache.apply s.uptime c })
  | .publish n => s.announce n
  | .now => (s.clock.now, s)
  | .uptime => (s.uptime, s)
  | .freshUuid => let (u, ids) := s.ids.next; (u, { s with ids })
  | .findExpiredWithin _ now limit => (some (s.reservations.reply (.findExpired now limit)), s)
  | .enterSweep => (!s.sweeping, { s with sweeping := true })
  | .leaveSweep => ((), { s with sweeping := false })
  | .recordSweep tally => ((), { s with stats := s.stats.record tally })
  | .recordSkip => ((), { s with stats := s.stats.skip })
  | .log e => ((), s.report e.level e.message)

/-- The reply of a call that is refused without being made. -/
def refuse (f : Fault) : (c : Call) → Option c.Reply
  | .ledger c => some (c.refuse f)
  | .reservations _ => some (.error f)
  | .cache _ => some (.error (cacheFault f))
  | .findExpiredWithin _ _ _ => some (some (.error f))
  | _ => none

/-- The reply of a call that succeeded and is reported as refused; a cache never does that. -/
def refuseAfter (f : Fault) : (c : Call) → c.Reply → c.Reply
  | .ledger c, r => if (c.fault? r).isSome then r else c.refuseAfter r f
  | .reservations _, .ok _ => .error f
  | .findExpiredWithin _ _ _, some (.ok _) => some (.error f)
  | _, r => r

/-- Carries a call out as its cue says, and notes it in the journal. -/
def complete (s : Stage) (cue : Cue) (c : Call) : c.Reply × Stage :=
  let (r, s) :=
    match cue.fail.bind fun f => refuse f c with
    | some r => (r, s)
    | none =>
        let (r, s) := s.perform c
        (cue.failAfter.elim r fun f => refuseAfter f c r, s)
  (r, { s with journal := s.journal ++ (c.line? r).toList })

/-! ## Programs -/

/-- Can a call wait until it is let go? -/
def canHang : Call → Bool
  | .findExpiredWithin _ _ _ => true
  | _ => false

/-- Runs a program until it ends, breaks off or hangs; `budget` is that of a sweep. -/
def run (budget : Option Span) : Program α → Stage → Progress α × Stage
  | .done a, s => (.ended a, s)
  | .abort, s => (.broken, s)
  | .call c next, s =>
      let (cue, s, sound) := s.prepare budget c
      if !sound then (.broken, s)
      else if cue.hang && canHang c then (.hung c cue next, s)
      else
        let (r, s) := s.complete cue c
        run budget (next r) s

/-- Lets a program go that hangs. -/
def resume (budget : Option Span) (p : Progress α) (s : Stage) : Progress α × Stage :=
  match p with
  | .hung c cue next =>
      let (r, s) := s.complete cue c
      s.run budget (next r)
  | p => (p, s)

/-- Has the search in which a program hangs run out of its budget. -/
def giveUp (budget : Option Span) (p : Progress α) (s : Stage) : Progress α × Stage :=
  match p with
  | .hung (.findExpiredWithin _ _ _) _ next => s.run budget (next none)
  | p => (p, s)

end Stage
end StockLedger
