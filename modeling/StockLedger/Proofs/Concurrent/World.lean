import Mathlib.Logic.Relation
import Mathlib.Tactic.Common
import StockLedger.Memory.Cache
import StockLedger.Memory.Reservations
import StockLedger.Proofs.Memory.Ledger
import StockLedger.Program.Basic

/-!
# Programs that run at the same time

Any number of programs make their requests in any order. Each request is answered at once, unless
it fails: then it may or may not have been carried out.

* `World` : the stores, the cache, and every ledger that there has been;
* `World.Serves`, `Call.Reports` : what becomes of a request, and what the program is told;
* `Record` : what a program is known to have read and written;
* `Job`, `Run`, `System` : kinds of program, programs under way, and all of them together;
* `System.Step`, `System.Reaches` : one request of one program, and any number of them.
-/

namespace StockLedger

/-! ## The stores -/

/-- The stores and the cache, with the ledgers that there were before, the latest first. -/
structure World where
  ledger : MemoryLedger := .empty
  reservations : MemoryReservations := .empty
  cache : MemoryCache := .empty
  past : List MemoryLedger := []

namespace World

/-- Every ledger that there has been, the present one first. -/
def history (w : World) : List MemoryLedger :=
  w.ledger :: w.past

/-- The world after a request to the ledger; a ledger that changes becomes part of the past. -/
def afterLedger (w : World) (now : Timestamp) (c : LedgerCall) : World :=
  { w with
    ledger := w.ledger.apply now c
    past := if c.changes (w.ledger.reply now c) then w.ledger :: w.past else w.past }

/-- What becomes of a request: `none` if it is not carried out, else the reply to it. -/
inductive Serves (w : World) : (c : Call) → Option c.Reply → World → Prop
  | skipped (c : Call) : Serves w c none w
  | ledger (now : Timestamp) (c : LedgerCall) :
      Serves w (.ledger c) (some (w.ledger.reply now c)) (w.afterLedger now c)
  | reservations (c : ReservationCall) :
      Serves w (.reservations c) (some (w.reservations.reply c))
        { w with reservations := w.reservations.apply c }
  | cache (uptime : Nat) (c : CacheCall) :
      Serves w (.cache c) (some (w.cache.reply uptime c)) { w with cache := w.cache.apply uptime c }
  | now (t : Timestamp) : Serves w .now (some t) w
  | uptime (n : Nat) : Serves w .uptime (some n) w
  | freshUuid (u : Uuid) : Serves w .freshUuid (some u) w
  | publish (n : StockRelease) (r : Except PublishFault Unit) : Serves w (.publish n) (some r) w
  | log (e : LogEntry) : Serves w (.log e) (some ()) w

/-! What a request that is carried out is answered with. -/

variable {w w' : World}

theorem Serves.cache_eq {c : CacheCall} {served : Option c.Reply} {r : c.Reply}
    (h : w.Serves (.cache c) served w') (hr : served = some r) :
    ∃ uptime, r = w.cache.reply uptime c := by
  cases h with
  | skipped => cases hr
  | cache uptime => exact ⟨uptime, (Option.some.inj hr).symm⟩

theorem Serves.ledger_eq {c : LedgerCall} {served : Option c.Reply} {r : c.Reply}
    (h : w.Serves (.ledger c) served w') (hr : served = some r) :
    ∃ now, r = w.ledger.reply now c ∧ w' = w.afterLedger now c := by
  cases h with
  | skipped => cases hr
  | ledger now => exact ⟨now, (Option.some.inj hr).symm, rfl⟩

end World

/-- What a program is told: the reply, or that the request failed. -/
def Call.Reports : (c : Call) → Option c.Reply → c.Reply → Prop
  | .ledger c, served, r =>
      served = some r ∨ ∃ f, r = served.elim (c.refuse f) fun r => c.refuseAfter r f
  | .reservations _, served, r => served = some r ∨ ∃ f, r = .error f
  | .cache _, served, r => served = some r ∨ ∃ f, r = .error f
  | _, served, r => served = some r

/-! ## Programs under way -/

/-- What a program is known to have read and written. -/
structure Record where
  /-- The claim that it read. -/
  claim : Option Reservation := none
  /-- The item that it wrote to the ledger. -/
  wrote : Option ItemId := none
  /-- Did it write a claim? -/
  stored : Bool := false

/-- The record after a request, by what the program was told and what became of the request. -/
def Record.note (k : Record) : (c : Call) → c.Reply → Option c.Reply → Record
  | .reservations (.load _), .ok r, _ => { k with claim := some r }
  | .ledger (.update s), _, some ⟨.ok _, _⟩ => { k with wrote := some s.id }
  | .reservations (.save _), _, some (.ok _) => { k with stored := true }
  | .reservations (.update _), _, some (.ok _) => { k with stored := true }
  | _, _, _ => k

namespace Record

/-- What was not carried out leaves no trace. -/
theorem note_skipped {k : Record} {c : Call} {r : c.Reply} (h : c.Reports none r) :
    k.note c r none = k := by
  cases c with
  | reservations c =>
    cases c with
    | load id =>
      rcases h with h | ⟨f, rfl⟩
      · cases h
      · rfl
    | _ => rfl
  | ledger c => cases c <;> rfl
  | _ => rfl

/-- A conditional write is all that is noted of the requests to the ledger. -/
theorem note_ledger (k : Record) (c : LedgerCall) (r : c.Reply) (served : Option c.Reply) :
    k.note (.ledger c) r served = k ∨
      ∃ u, c = .update u ∧ k.note (.ledger c) r served = { k with wrote := some u.id } := by
  cases c with
  | update u =>
    match served with
    | some ⟨.ok (), _⟩ => exact .inr ⟨u, rfl, rfl⟩
    | some ⟨.error _, _⟩ | none => exact .inl rfl
  | _ => exact .inl rfl

theorem claim_note_ledger {k : Record} {c : LedgerCall} {r : c.Reply} {served : Option c.Reply} :
    (k.note (.ledger c) r served).claim = k.claim := by
  rcases k.note_ledger c r served with hnote | ⟨u, -, hnote⟩
  · rw [hnote]
  · rw [hnote]

theorem stored_note_ledger {k : Record} {c : LedgerCall} {r : c.Reply}
    {served : Option c.Reply} : (k.note (.ledger c) r served).stored = k.stored := by
  rcases k.note_ledger c r served with hnote | ⟨u, -, hnote⟩
  · rw [hnote]
  · rw [hnote]

theorem wrote_note_reservations {k : Record} {c : ReservationCall} {r : c.Reply}
    {served : Option c.Reply} : (k.note (.reservations c) r served).wrote = k.wrote := by
  cases c with
  | load id => cases r <;> rfl
  | save x | update x =>
    match served with
    | some (.ok ()) | some (.error _) | none => rfl
  | findByOrder | findExpired | findByItem | count => rfl

theorem claim_note_reservations {k : Record} {c : ReservationCall} {r : c.Reply}
    {served : Option c.Reply} (hload : ∀ id, c ≠ .load id) :
    (k.note (.reservations c) r served).claim = k.claim := by
  cases c with
  | load id => exact absurd rfl (hload id)
  | save x | update x =>
    match served with
    | some (.ok ()) | some (.error _) | none => rfl
  | findByOrder | findExpired | findByItem | count => rfl

end Record

/-- Kinds of program, each with the record with which it starts. -/
structure Job where
  Task : Type
  Outcome : Task → Type
  program : (t : Task) → Program (Outcome t)
  opening : Task → Record := fun _ => {}

/-- A program under way; one that was given up has broken off. -/
structure Run (J : Job) where
  task : J.Task
  record : Record
  rest : Program (J.Outcome task)

namespace Run

variable {J : Job}

def start (J : Job) (task : J.Task) : Run J :=
  ⟨task, J.opening task, J.program task⟩

/-- The program has neither ended nor broken off. -/
def Live (run : Run J) : Prop :=
  ∃ c next, run.rest = .call c next

theorem eq_or_mem_others {before after : List (Run J)} {run other : Run J}
    (h : other ∈ before ++ run :: after) : other = run ∨ other ∈ before ++ after := by
  rcases List.mem_append.1 h with hbefore | hmore
  · exact .inr (List.mem_append_left _ hbefore)
  · rcases List.mem_cons.1 hmore with heq | hafter
    · exact .inl heq
    · exact .inr (List.mem_append_right _ hafter)

theorem mem_self (before after : List (Run J)) (run : Run J) : run ∈ before ++ run :: after :=
  List.mem_append_right _ (List.mem_cons_self ..)

theorem mem_of_others {before after : List (Run J)} (run : Run J) {other : Run J}
    (h : other ∈ before ++ after) : other ∈ before ++ run :: after := by
  rcases List.mem_append.1 h with hbefore | hafter
  · exact List.mem_append_left _ hbefore
  · exact List.mem_append_right _ (List.mem_cons_of_mem _ hafter)

/-- The program after the answer to its next request. -/
def resume (run : Run J) (record : Record) (rest : Program (J.Outcome run.task)) : Run J :=
  { run with record, rest }

end Run

/-- Programs under way, in the order in which they were started. -/
structure System (J : Job) where
  world : World := {}
  runs : List (Run J) := []

/-- Which programs may be started, and what may become of a request while others are under way. -/
structure Rules (J : Job) where
  starts : System J → J.Task → Prop
  serves : World → List (Run J) → (c : Call) → Option c.Reply → c.Reply → World → Prop

namespace System

variable {J : Job} {R : Rules J}

/-- One program is started, given up, or has its next request answered. -/
inductive Step (R : Rules J) : System J → System J → Prop
  | start (σ : System J) (task : J.Task) (hstart : R.starts σ task) :
      Step R σ { σ with runs := σ.runs ++ [.start J task] }
  | abandon (w : World) (before after : List (Run J)) (run : Run J) :
      Step R ⟨w, before ++ run :: after⟩ ⟨w, before ++ run.resume run.record .abort :: after⟩
  | answer (w w' : World) (before after : List (Run J)) (run : Run J) (c : Call)
      (next : c.Reply → Program (J.Outcome run.task)) (served : Option c.Reply) (r : c.Reply)
      (hrest : run.rest = .call c next) (hserves : w.Serves c served w')
      (hreports : c.Reports served r) (hrules : R.serves w (before ++ after) c served r w') :
      Step R ⟨w, before ++ run :: after⟩
        ⟨w', before ++ run.resume (run.record.note c r served) (next r) :: after⟩

abbrev Reaches (R : Rules J) : System J → System J → Prop :=
  Relation.ReflTransGen (Step R)

/-- What is possible under some rules is possible under rules that forbid less. -/
theorem Step.mono {R' : Rules J} (hstarts : ∀ σ t, R.starts σ t → R'.starts σ t)
    (hserves : ∀ w others c served r w', R.serves w others c served r w' →
      R'.serves w others c served r w') {σ σ' : System J} (h : Step R σ σ') : Step R' σ σ' := by
  cases h with
  | start _ task hstart => exact .start σ task (hstarts σ task hstart)
  | abandon w before after run => exact .abandon w before after run
  | answer w w' before after run c next served r hrest hw hreports hrules =>
    exact .answer w w' before after run c next served r hrest hw hreports
      (hserves _ _ _ _ _ _ hrules)

theorem Reaches.mono {R' : Rules J} (hstarts : ∀ σ t, R.starts σ t → R'.starts σ t)
    (hserves : ∀ w others c served r w', R.serves w others c served r w' →
      R'.serves w others c served r w') {σ σ' : System J} (h : Reaches R σ σ') :
    Reaches R' σ σ' :=
  Relation.ReflTransGen.mono (fun _ _ => Step.mono hstarts hserves) σ σ' h

theorem Step.task_mem {σ σ' : System J} (h : Step R σ σ') {run : Run J} (hrun : run ∈ σ.runs) :
    ∃ run' ∈ σ'.runs, run'.task = run.task := by
  have resumed (before after : List (Run J)) (other : Run J) (k : Record)
      (rest : Program (J.Outcome other.task)) (hrun : run ∈ before ++ other :: after) :
      ∃ run' ∈ before ++ other.resume k rest :: after, run'.task = run.task := by
    rcases Run.eq_or_mem_others hrun with rfl | hothers
    · exact ⟨run.resume k rest, Run.mem_self .., rfl⟩
    · exact ⟨run, Run.mem_of_others _ hothers, rfl⟩
  cases h with
  | start => exact ⟨run, List.mem_append_left _ hrun, rfl⟩
  | abandon w before after other => exact resumed before after other _ _ hrun
  | answer w w' before after other => exact resumed before after other _ _ hrun

end System
end StockLedger
