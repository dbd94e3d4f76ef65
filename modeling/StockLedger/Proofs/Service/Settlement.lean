import Mathlib.Data.List.Count
import Mathlib.Tactic.Common
import StockLedger.Proofs.Concurrent.Solo
import StockLedger.Proofs.Memory.Reservations
import StockLedger.Proofs.Service.Workflows

/-!
# Settling a claim more than once

A claim is settled by its status as it was read, and written over whatever it is by then. What keeps
two workflows from settling it both is the item alone: who wants to give the units back must find
them reserved. If enough is reserved for other claims, nothing keeps the second one back.

* `Settling.rules` : any number of settlements of one claim, while no store fails;
* `Settling.SettledOnce` : at most one of them succeeds, and the units are taken at most once;
* `Settling.Guarded`, `Settling.Guarded.step` : what every step keeps if too little is reserved;
* `Settling.reaches_released`, `Settling.reaches_twice` : a release that has read the claim while it
  was pending goes through if the units are reserved, and then a second one does;
* `settled_once_iff` : so all depends on whether the units are reserved twice.
-/

namespace StockLedger

open Conduct

def Program.succeeds {α : Type} : Program (Answer α) → Bool
  | .done (.ok _) => true
  | _ => false

theorem Program.eq_of_succeeds {α : Type} {p : Program (Answer α)} (h : p.succeeds = true) :
    ∃ v, p = .done (.ok v) := by
  match p with
  | .done (.ok v) => exact ⟨v, rfl⟩
  | .done (.error f) => cases h
  | .call c next => cases h
  | .abort => cases h

namespace Settling

variable {stack : Stack} {ttl : Span}

/-! ## Settlements of one claim -/

/-- A request to a store is carried out, and the program is told so. -/
def Answered : (c : Call) → Option c.Reply → c.Reply → Prop
  | .ledger _, served, r => served = some r
  | .reservations _, served, r => served = some r
  | _, _, _ => True

/-- Only settlements of one claim are started; those that expire it start from a stored copy. -/
def rules (stack : Stack) (ttl : Span) (id : ReservationId) : Rules (Working stack ttl) where
  starts σ t := t = .confirm id ∨ t = .release id ∨
    ∃ c, t = .expire c ∧ σ.world.reservations.rows.find? id = some c
  serves _ _ c served r _ := Answered c served r

def succeeded (run : Run (Working stack ttl)) : Bool :=
  Program.succeeds (run.rest : Program (Answer run.task.Value))

/-- At most one settlement has succeeded, and the units were taken at most once. -/
structure SettledOnce (w : World) (r : Reservation) (σ : System (Working stack ttl)) : Prop where
  single : σ.runs.countP succeeded ≤ 1
  lowered : ∀ s, w.ledger.items.find? r.itemId = some s →
    ∃ s', σ.world.ledger.items.find? r.itemId = some s' ∧ s.reserved - s'.reserved ≤ r.quantity

/-! ## What every step keeps -/

/-- A copy of the claim, pending only if the claim was. -/
structure Copy (r c : Reservation) : Prop where
  itemId : c.itemId = r.itemId
  quantity : c.quantity = r.quantity
  pending : c.status = .pending → r.status = .pending

theorem Copy.moved {r c c' : Reservation} (h : Copy r c) (hmoved : c.Moved c') : Copy r c' where
  itemId := hmoved.itemId.trans h.itemId
  quantity := hmoved.quantity.trans h.quantity
  pending _ := h.pending hmoved.pending

/-- The number of workflows that have written the item. -/
def writes (runs : List (Run (Working stack ttl))) : Nat :=
  runs.countP fun run => run.record.wrote.isSome

/-- What settlements of a claim did to its item: nothing, or one of them has taken the units. -/
inductive Taken (w : World) (r : Reservation) (σ : System (Working stack ttl)) : Prop
  | never (hwrites : writes σ.runs = 0) (hledger : σ.world.ledger = w.ledger)
  | once (hwrites : writes σ.runs = 1) (s s' : StockItem)
      (hbefore : w.ledger.items.find? r.itemId = some s)
      (hafter : σ.world.ledger.items.find? r.itemId = some s')
      (hreserved : s'.reserved + r.quantity = s.reserved)

/-- A settlement of the claim, which has read nothing but a copy. -/
structure Concerns (r : Reservation) (t : Workflow) (k : Record) : Prop where
  settles : t.settles = true
  reads : ∀ id, t.reads = some id → id = r.id
  copy : ∀ c, k.claim = some c → Copy r c

structure Guarded (w : World) (r : Reservation) (σ : System (Working stack ttl)) : Prop where
  row : ∃ c, σ.world.reservations.rows.find? r.id = some c ∧ Copy r c
  runs : ∀ run ∈ σ.runs, Concerns r run.task run.record
  grows : σ.world.history.Pairwise MemoryLedger.Outgrows
  taken : Taken w r σ

theorem writes_middle (before after : List (Run (Working stack ttl)))
    (run : Run (Working stack ttl)) :
    writes (before ++ run :: after) =
      writes (before ++ after) + if run.record.wrote.isSome then 1 else 0 := by
  simp only [writes, List.countP_append, List.countP_cons]
  omega

theorem Taken.congr {w₀ : World} {r : Reservation} {σ σ' : System (Working stack ttl)}
    (h : Taken w₀ r σ) (hledger : σ'.world.ledger = σ.world.ledger)
    (hwrites : writes σ'.runs = writes σ.runs) : Taken w₀ r σ' := by
  cases h with
  | never hnone hsame => exact .never (hwrites.trans hnone) (hledger.trans hsame)
  | once hone s s' hbefore hafter hreserved =>
    exact .once (hwrites.trans hone) s s' hbefore (hledger ▸ hafter) hreserved

section

variable {w₀ w : World} {r : Reservation} {before after : List (Run (Working stack ttl))}
  {run : Run (Working stack ttl)}

theorem gain_eq {t : Workflow} {k : Record} {c : Reservation} (ht : t.settles = true)
    (hc : k.claim = some c) : t.gain k = -c.quantity := by
  have hunits : k.units = c.quantity := by
    rw [Record.units, hc]
    rfl
  cases t with
  | confirm | release | expire =>
    rw [← hunits]
    exact Int.zero_sub _
  | _ => cases ht

/-- The units are not reserved twice for the claim, or it is not pending any more. -/
def Scarce (w : World) (r : Reservation) : Prop :=
  ¬ (r.status = .pending ∧
    ∃ s, w.ledger.items.find? r.itemId = some s ∧ 2 * r.quantity ≤ s.reserved)

/-- A settlement that writes the item takes the units, and nobody has done so before. -/
structure FirstWrite (w₀ w : World) (r : Reservation) (others : List (Run (Working stack ttl)))
    (u stored : StockItem) : Prop where
  ledger : w.ledger = w₀.ledger
  others : writes others = 0
  id : u.id = r.itemId
  reserved : u.reserved + r.quantity = stored.reserved

theorem Guarded.firstWrite (hscarce : Scarce w₀ r) (hfaithful : w.Faithful)
    {u stored : StockItem} (hoffers : run.task.Offers run.record w u)
    (hstored : w.ledger.items.find? u.id = some stored) (hversion : stored.version = u.version)
    (h : Guarded w₀ r ⟨w, before ++ run :: after⟩) :
    FirstWrite w₀ w r (before ++ after) u stored := by
  have hrun := h.runs run (Run.mem_self ..)
  rcases hoffers.claim hrun.settles with ⟨c, hclaim, hpending, hitem⟩
  have hcopy := hrun.copy c hclaim
  have hid : u.id = r.itemId := hitem.trans hcopy.itemId
  have hgain : run.task.gain run.record = -r.quantity := by
    rw [gain_eq hrun.settles hclaim, hcopy.quantity]
  rcases hoffers.copy with ⟨x, hheld, hchanged⟩
  -- What is offered was changed from the stored item, however old the copy of the claim is.
  have hsame : stored = x := World.eq_stored hfaithful h.grows (hchanged.id ▸ hstored) hheld
    (hversion.trans hchanged.version)
  have hreserved : u.reserved + r.quantity = stored.reserved := by
    have hchange := hchanged.reserved
    rw [hgain, ← hsame] at hchange
    omega
  cases h.taken with
  | never hnone hledger =>
    have hnone : writes (before ++ run :: after) = 0 := hnone
    rw [writes_middle] at hnone
    exact ⟨hledger, Nat.eq_zero_of_add_eq_zero_right hnone, hid, hreserved⟩
  | once _ s s' hbefore hafter htaken =>
    -- A second one would find the units reserved twice.
    have hafter : w.ledger.items.find? r.itemId = some s' := hafter
    rw [hid, hafter] at hstored
    cases hstored
    have hnonneg := u.reserved_nonneg
    exact absurd ⟨hcopy.pending hpending, s, hbefore, by omega⟩ hscarce

theorem Guarded.runs_resume (h : Guarded w₀ r ⟨w, before ++ run :: after⟩) {k : Record}
    (hcopy : ∀ c, k.claim = some c → Copy r c)
    (rest : Program ((Working stack ttl).Outcome run.task)) :
    ∀ other ∈ before ++ run.resume k rest :: after, Concerns r other.task other.record := by
  intro other hother
  rcases Run.eq_or_mem_others hother with rfl | hothers
  · have hrun := h.runs run (Run.mem_self ..)
    exact ⟨hrun.settles, hrun.reads, hcopy⟩
  · exact h.runs other (Run.mem_of_others run hothers)

theorem Guarded.resume (h : Guarded w₀ r ⟨w, before ++ run :: after⟩) (w' : World)
    (hledger : w'.ledger = w.ledger) (hpast : w'.past = w.past)
    (hreservations : w'.reservations = w.reservations)
    (rest : Program ((Working stack ttl).Outcome run.task)) :
    Guarded w₀ r ⟨w', before ++ run.resume run.record rest :: after⟩ where
  row := by
    rw [hreservations]
    exact h.row
  runs := h.runs_resume (h.runs run (Run.mem_self ..)).copy rest
  grows := by
    have hsame : w'.history = w.history := by rw [World.history, World.history, hledger, hpast]
    rw [hsame]
    exact h.grows
  taken := by
    refine h.taken.congr hledger ?_
    rw [writes_middle, writes_middle]
    rfl

theorem Guarded.write (hscarce : Scarce w₀ r) (hstorable : w₀.ledger.Storable)
    (hfaithful : w.Faithful) {now : Timestamp} {u stored : StockItem}
    (hoffers : run.task.Offers run.record w u)
    (hstored : w.ledger.items.find? u.id = some stored) (hversion : stored.version = u.version)
    (hnew : (w.afterLedger now (.update u)).ledger.items =
      w.ledger.items.insert u.id (MemoryLedger.advance u now))
    (h : Guarded w₀ r ⟨w, before ++ run :: after⟩)
    (rest : Program ((Working stack ttl).Outcome run.task)) :
    Guarded w₀ r ⟨w.afterLedger now (.update u),
      before ++ run.resume { run.record with wrote := some u.id } rest :: after⟩ := by
  have hfirst := h.firstWrite hscarce hfaithful hoffers hstored hversion
  have hfind : (w.afterLedger now (.update u)).ledger.items.find? r.itemId =
      some (MemoryLedger.advance u now) := by
    rw [hnew, hfirst.id, Table.find?_insert, if_pos rfl]
  have hstorable : w.ledger.Storable := hfirst.ledger ▸ hstorable
  have hbefore : w₀.ledger.items.find? r.itemId = some stored := by
    rw [← hfirst.ledger, ← hfirst.id]
    exact hstored
  have hcopy : ∀ c, ({ run.record with wrote := some u.id } : Record).claim = some c → Copy r c :=
    (h.runs run (Run.mem_self ..)).copy
  refine ⟨h.row, h.runs_resume hcopy rest, World.grows_afterLedger h.grows hstorable trivial, ?_⟩
  refine .once ?_ stored _ hbefore hfind hfirst.reserved
  rw [writes_middle, hfirst.others]
  rfl

theorem Guarded.ledger (hscarce : Scarce w₀ r) (hstorable : w₀.ledger.Storable)
    (hfaithful : w.Faithful) {now : Timestamp} {c : LedgerCall} {reply : c.Reply}
    (hallows : run.task.MayAsk run.record w c) (h : Guarded w₀ r ⟨w, before ++ run :: after⟩)
    (rest : Program ((Working stack ttl).Outcome run.task)) :
    Guarded w₀ r ⟨w.afterLedger now c, before ++
      run.resume (run.record.note (.ledger c) reply (some (w.ledger.reply now c))) rest ::
        after⟩ := by
  have hsettles := (h.runs run (Run.mem_self ..)).settles
  have ho := w.ledger.outcome now c
  generalize hreply : w.ledger.reply now c = r₁ at ho ⊢
  generalize hafter : w.ledger.apply now c = l at ho
  cases ho with
  | unchanged _ hchanges =>
    have hsame : w.afterLedger now c = w := by
      rcases w.afterLedger_cases now c with ⟨hsame, -⟩ | ⟨-, hchanged⟩
      · exact hsame
      · rw [hchanges] at hchanged
        cases hchanged
    rw [hsame, Record.note_unchanged hchanges]
    exact h.resume w rfl rfl rfl rest
  -- The request is the only write that there is.
  | updated u stored hid hversion =>
    have hnew : (w.afterLedger now (.update u)).ledger.items =
        w.ledger.items.insert u.id (MemoryLedger.advance u now) := by
      rw [World.afterLedger, hafter]
    exact h.write hscarce hstorable hfaithful hallows hid hversion hnew rest
  -- No settlement saves an item, deletes one or bumps its version.
  | saved x =>
    rw [hallows.1] at hsettles
    cases hsettles
  | deleted j x | bumped j x =>
    rw [show run.task.settles = false from hallows] at hsettles
    cases hsettles

theorem Guarded.row_apply {c : ReservationCall} (hallows : run.task.MayClaim run.record c)
    (h : Guarded w₀ r ⟨w, before ++ run :: after⟩) :
    ∃ x, (w.reservations.apply c).rows.find? r.id = some x ∧ Copy r x := by
  rcases h.row with ⟨x, hx, hcopy⟩
  have hx : w.reservations.rows.find? r.id = some x := hx
  have ho := w.reservations.outcome c
  generalize w.reservations.reply c = reply at ho
  generalize w.reservations.apply c = later at ho ⊢
  cases ho with
  | unchanged => exact ⟨x, hx, hcopy⟩
  | saved y hid =>
    have hne : r.id ≠ y.id := by
      intro he
      rw [he, hid] at hx
      cases hx
    refine ⟨x, ?_, hcopy⟩
    rw [Table.find?_insert, if_neg hne]
    exact hx
  | updated y old hid =>
    rw [Table.find?_insert]
    split
    · -- What is stored was made from a copy, so it is one itself.
      rcases hallows with ⟨read, hmoves⟩
      have hread := (h.runs run (Run.mem_self ..)).copy read hmoves.claim
      exact ⟨y, rfl, hread.moved hmoves.moved⟩
    · exact ⟨x, hx, hcopy⟩

theorem Guarded.reads_note {c : ReservationCall} {reply : c.Reply}
    (hallows : run.task.MayClaim run.record c)
    (hreports : Call.Reports (.reservations c) (some (w.reservations.reply c)) reply)
    (h : Guarded w₀ r ⟨w, before ++ run :: after⟩) {x : Reservation}
    (hx : (run.record.note (.reservations c) reply (some (w.reservations.reply c))).claim =
      some x) : Copy r x := by
  have hrun := h.runs run (Run.mem_self ..)
  by_cases hload : ∃ id, c = .load id
  · rcases hload with ⟨id, rfl⟩
    match reply with
    | .ok y =>
      cases hx
      have hid : id = r.id := hrun.reads id hallows.1
      rcases h.row with ⟨z, hz, hcopy⟩
      have hz : w.reservations.rows.find? r.id = some z := hz
      rcases hreports with hserved | ⟨f, hf⟩
      · have hload : w.reservations.load id = .ok x := Option.some.inj hserved
        rw [hid, MemoryReservations.load, hz] at hload
        cases hload
        exact hcopy
      · cases hf
    | .error f => exact hrun.copy x hx
  · rw [Record.claim_note_reservations fun id he => hload ⟨id, he⟩] at hx
    exact hrun.copy x hx

theorem Guarded.reservations {c : ReservationCall} {reply : c.Reply}
    (hallows : run.task.MayClaim run.record c)
    (hreports : Call.Reports (.reservations c) (some (w.reservations.reply c)) reply)
    (h : Guarded w₀ r ⟨w, before ++ run :: after⟩)
    (rest : Program ((Working stack ttl).Outcome run.task)) :
    Guarded w₀ r ⟨{ w with reservations := w.reservations.apply c }, before ++
      run.resume (run.record.note (.reservations c) reply (some (w.reservations.reply c))) rest ::
        after⟩ where
  row := h.row_apply hallows
  runs := h.runs_resume (fun _ hx => h.reads_note hallows hreports hx) rest
  grows := h.grows
  taken := by
    refine h.taken.congr rfl ?_
    rw [writes_middle, writes_middle]
    have hwrote : (run.resume (run.record.note (.reservations c) reply
        (some (w.reservations.reply c))) rest).record.wrote = run.record.wrote :=
      Record.wrote_note_reservations
    rw [hwrote]

theorem Guarded.start {σ : System (Working stack ttl)} {t : Workflow}
    (hstart : (rules stack ttl r.id).starts σ t) (h : Guarded w₀ r σ) :
    Guarded w₀ r { σ with runs := σ.runs ++ [Run.start (Working stack ttl) t] } := by
  have hnew : Concerns r t t.opening ∧ t.opening.wrote = none := by
    rcases hstart with rfl | rfl | ⟨c, rfl, hc⟩
    · exact ⟨⟨rfl, fun id hid => (Option.some.inj hid).symm, fun _ hc => nomatch hc⟩, rfl⟩
    · exact ⟨⟨rfl, fun id hid => (Option.some.inj hid).symm, fun _ hc => nomatch hc⟩, rfl⟩
    · -- What is to expire was stored when it was read.
      refine ⟨⟨rfl, fun _ hid => (nomatch hid), fun x hx => ?_⟩, rfl⟩
      cases hx
      rcases h.row with ⟨y, hy, hcopy⟩
      rw [hc] at hy
      cases hy
      exact hcopy
  rcases hnew with ⟨hconcerns, hwrote⟩
  refine ⟨h.row, fun run hrun => ?_, h.grows, h.taken.congr rfl ?_⟩
  · rcases List.mem_append.1 hrun with hold | hlast
    · exact h.runs run hold
    · rcases List.mem_singleton.1 hlast with rfl
      exact hconcerns
  · have hsame : (Run.start (Working stack ttl) t).record.wrote = none := hwrote
    rw [writes_middle, hsame, List.append_nil]
    rfl

/-- One step of all settlements together. -/
theorem Guarded.step (hscarce : Scarce w₀ r) (hstorable : w₀.ledger.Storable)
    {σ σ' : System (Working stack ttl)}
    (hkept : (Workflow.conduct stack ttl).Kept World.Faithful σ)
    (hstep : System.Step (rules stack ttl r.id) σ σ') (h : Guarded w₀ r σ) : Guarded w₀ r σ' := by
  cases hstep with
  | start _ t hstart => exact h.start hstart
  | abandon w before after run => exact h.resume w rfl rfl rfl _
  | answer w w' before after run c next served reply hrest hserves hreports hrules =>
    have hallows := hkept.allows (Run.mem_self ..) hrest
    cases hserves with
    | skipped =>
      rw [Record.note_skipped hreports]
      exact h.resume w rfl rfl rfl _
    | ledger now c => exact h.ledger hscarce hstorable hkept.world hallows _
    | reservations c => exact h.reservations hallows hreports _
    | cache uptime c =>
      exact h.resume { w with cache := w.cache.apply uptime c } rfl rfl rfl _
    | now | uptime | freshUuid | publish | log => exact h.resume w rfl rfl rfl _

end

theorem Guarded.settledOnce {w₀ : World} {r : Reservation} {σ : System (Working stack ttl)}
    (hkept : (Workflow.conduct stack ttl).Kept World.Faithful σ) (h : Guarded w₀ r σ) :
    SettledOnce w₀ r σ := by
  -- Who succeeds has written the item.
  have hwrote : σ.runs.countP succeeded ≤ writes σ.runs := by
    refine List.countP_mono_left fun run hrun hsucceeded => ?_
    rcases Program.eq_of_succeeds hsucceeded with ⟨v, hrest⟩
    have hpromise := hkept.runs run hrun
    rw [hrest] at hpromise
    rcases hpromise (h.runs run hrun).settles v rfl with ⟨i, hi⟩
    exact Option.isSome_iff_exists.2 ⟨i, hi⟩
  cases h.taken with
  | never hnone hledger =>
    refine ⟨hwrote.trans (hnone.trans_le (Nat.zero_le 1)), fun s hs => ⟨s, ?_, ?_⟩⟩
    · rw [hledger]
      exact hs
    · have hpositive := r.quantity_range.1
      omega
  | once hone s s' hbefore hafter hreserved =>
    refine ⟨hwrote.trans hone.le, fun x hx => ⟨s', hafter, ?_⟩⟩
    rw [hbefore] at hx
    cases hx
    omega

/-! ## A settlement while the others wait -/

section

open ReadThrough

variable (now : Timestamp) (fresh : Uuid) {s : Record × World}

theorem runOn_cachedItem (key : String) :
    (cachedItem key).runOn (World.answer now fresh) s = some (none, s) :=
  rfl

theorem runOn_populate (lifetimes : CacheLifetimes) (x : StockItem) :
    (populate lifetimes x).runOn (World.answer now fresh) s = some ((), s) :=
  rfl

theorem runOn_invalidate (id : ItemId) (p : ProductId) :
    (invalidate id p).runOn (World.answer now fresh) s = some ((), s) :=
  rfl

theorem runOn_load (stack : Stack) {id : ItemId} {x : StockItem}
    (h : s.2.ledger.items.find? id = some x) :
    (stack.ledger (.load id)).runOn (World.answer now fresh) s = some (.ok x, s) := by
  have hload : s.2.ledger.load id = .ok x := by rw [MemoryLedger.load, h]
  have hdirect : (LedgerAccess.direct (.load id)).runOn (World.answer now fresh) s =
      some (.ok x, s) := by
    rw [← hload]
    rfl
  cases stack with
  | plain => exact hdirect
  | cached lifetimes =>
    refine (Program.runOn_bind (runOn_cachedItem now fresh _)).trans ?_
    refine (Program.runOn_bind hdirect).trans ?_
    exact Program.runOn_bind (runOn_populate now fresh lifetimes x)

theorem runOn_update (stack : Stack) {u stored : StockItem}
    (h : s.2.ledger.items.find? u.id = some stored) (hversion : stored.version = u.version) :
    (stack.ledger (.update u)).runOn (World.answer now fresh) s =
      some (⟨.ok (), MemoryLedger.advance u now⟩,
        ({ s.1 with wrote := some u.id }, s.2.afterLedger now (.update u))) := by
  have hupdate : s.2.ledger.reply now (.update u) = ⟨.ok (), MemoryLedger.advance u now⟩ := by
    simp [MemoryLedger.reply, MemoryLedger.update, h, hversion]
  have hdirect : (LedgerAccess.direct (.update u)).runOn (World.answer now fresh) s =
      some (⟨.ok (), MemoryLedger.advance u now⟩,
        ({ s.1 with wrote := some u.id }, s.2.afterLedger now (.update u))) := by
    have hreply : (LedgerAccess.direct (.update u)).runOn (World.answer now fresh) s =
        some (s.2.ledger.reply now (.update u),
          (s.1.note (.ledger (.update u)) (s.2.ledger.reply now (.update u))
            (some (s.2.ledger.reply now (.update u))), s.2.afterLedger now (.update u))) := rfl
    rw [hreply, hupdate]
    rfl
  cases stack with
  | plain => exact hdirect
  | cached lifetimes =>
    refine (Program.runOn_bind hdirect).trans ?_
    exact Program.runOn_bind (runOn_invalidate now fresh _ _)

theorem runs_write {v : Service} (hv : v.ledger = stack.ledger) {u stored : StockItem}
    (h : s.2.ledger.items.find? u.id = some stored) (hversion : stored.version = u.version) :
    (v.write u).Runs (World.answer now fresh) s (MemoryLedger.advance u now)
      ({ s.1 with wrote := some u.id }, s.2.afterLedger now (.update u)) := by
  have hupdate := runOn_update now fresh stack h hversion
  rw [← hv] at hupdate
  exact Program.runOn_bind hupdate

theorem runs_overwrite (message : String) {r c : Reservation}
    (h : s.2.reservations.rows.find? r.id = some c) :
    (Service.reporting message (Service.reservations (.update r))).Runs (World.answer now fresh) s
      () ({ s.1 with stored := true },
        { s.2 with reservations := s.2.reservations.apply (.update r) }) := by
  have hcontains : s.2.reservations.rows.contains r.id = true :=
    (Table.contains_eq_true_iff ..).2 ⟨c, h⟩
  have hreply : s.2.reservations.reply (.update r) = .ok () := by
    simp [MemoryReservations.reply, MemoryReservations.update, hcontains, Except.map]
  have hupdate : (Service.reservations (.update r)).Runs (World.answer now fresh) s ()
      ({ s.1 with stored := true },
        { s.2 with reservations := s.2.reservations.apply (.update r) }) := by
    have hasked : (Program.ask (.reservations (.update r))).runOn (World.answer now fresh) s =
        some (s.2.reservations.reply (.update r),
          (s.1.note (.reservations (.update r)) (s.2.reservations.reply (.update r))
            (some (s.2.reservations.reply (.update r))),
          { s.2 with reservations := s.2.reservations.apply (.update r) })) := rfl
    rw [hreply] at hasked
    exact hasked
  exact Program.runOn_bind (p := (Service.reservations (.update r)).run) hupdate

theorem runs_release {v : Service} (hv : v.ledger = stack.ledger) {r c : Reservation}
    {x : StockItem} (hpending : r.status = .pending)
    (hx : s.2.ledger.items.find? r.itemId = some x) (hid : x.id = r.itemId)
    (hreserved : r.quantity ≤ x.reserved)
    (hc : s.2.reservations.rows.find? r.id = some c) :
    ∃ a s', (v.settle .release r).Runs (World.answer now fresh) s a s' ∧
      (∃ x', s'.2.ledger.items.find? r.itemId = some x' ∧ x'.id = r.itemId ∧
        x'.reserved = x.reserved - r.quantity) ∧
      ∃ c', s'.2.reservations.rows.find? r.id = some c' := by
  have hensure : Settlement.release.ensure r now = .ok () :=
    Reservation.ensureReleasable_of_pending hpending
  rcases Settlement.of_ensure hensure with ⟨hguard, htransition⟩
  have hchange : ∃ u, x.apply Settlement.release.change r.quantity = .ok u := by
    simp [Settlement.change, StockItem.apply, StockItem.release, r.quantity_range.1, hreserved]
  rcases hchange with ⟨u, hu⟩
  have hchanged := StockItem.apply_ok hu
  have huid : u.id = r.itemId := hchanged.id.trans hid
  have hnow : Service.now.Runs (World.answer now fresh) s now s := rfl
  have hload := runOn_load now fresh stack hx
  rw [← hv] at hload
  have hitem : (v.item r.itemId).Runs (World.answer now fresh) s x s := hload
  have hanswer {α : Type} {a : Answer α} {b : α} (h : a = .ok b) :
      (Request.ofAnswer a).Runs (World.answer now fresh) s b s := by
    rw [h]
    rfl
  have hstored : s.2.ledger.items.find? u.id = some x := huid ▸ hx
  have hwrite := runs_write now fresh hv hstored hchanged.version.symm
  let w := s.2.afterLedger now (.update u)
  let released := r.moveTo .released now
  have hstore := runs_overwrite now fresh (s := ({ s.1 with wrote := some u.id }, w))
    "reservation write failed after ledger update; ledger and reservation disagree"
    (r := released) hc
  -- The calls in their order: clock, guard, read, change, transition, and the two writes.
  have hsettle : (v.settle .release r).Runs (World.answer now fresh) s
      (released, MemoryLedger.advance u now)
      ({ s.1 with wrote := some u.id, stored := true },
        { w with reservations := w.reservations.apply (.update released) }) :=
    hnow.bind <| (hanswer hguard).bind <| hitem.bind <| (hanswer hu).bind <|
      (hanswer htransition).bind <| hwrite.bind <| hstore.bind rfl
  refine ⟨_, _, hsettle, ⟨MemoryLedger.advance u now, ?_, huid, ?_⟩, released, ?_⟩
  · rw [← huid]
    exact MemoryLedger.find?_of_update hstored hchanged.version.symm
  · exact hchanged.reserved.trans Int.sub_eq_add_neg.symm
  · exact MemoryReservations.find?_of_update hc

theorem answers_answer {id : ReservationId} {others : List (Run (Working stack ttl))} {c : Call}
    {reply : c.Reply} {s' : Record × World} (h : World.answer now fresh s c = some (reply, s')) :
    ∃ served, s.2.Serves c served s'.2 ∧ c.Reports served reply ∧
      s'.1 = s.1.note c reply served ∧
      (rules stack ttl id).serves s.2 others c served reply s'.2 := by
  rcases Option.map_eq_some_iff.1 h with ⟨⟨served, r, w⟩, hattend, heq⟩
  cases heq
  rcases World.attend_serves hattend with ⟨hserves, hreports⟩
  refine ⟨served, hserves, hreports, rfl, ?_⟩
  -- Only of the stores is more asked than that a request is reported as it went.
  cases c with
  | ledger c | reservations c =>
    cases hattend
    rfl
  | _ => trivial

/-- What is left of a release when the claim has been read. -/
def releasing (stack : Stack) (ttl : Span) (r : Reservation) : Program (Answer Reservation) :=
  (do let (r, _) ← Service.settle { ledger := stack.ledger, defaultTtl := ttl } .release r
      return r : Request Reservation).run

end

section

variable (before after : List (Run (Working stack ttl))) {r c : Reservation} {w : World}

theorem reaches_read (hr : w.reservations.rows.find? r.id = some r) :
    System.Reaches (rules stack ttl r.id)
      ⟨w, before ++ Run.start (Working stack ttl) (.release r.id) :: after⟩
      ⟨w, before ++ ⟨.release r.id, { claim := some r }, releasing stack ttl r⟩ :: after⟩ := by
  have hload : w.reservations.load r.id = .ok r := by rw [MemoryReservations.load, hr]
  have hread : (Program.ask (.reservations (.load r.id))).runOn
      (World.answer .epoch (.ofNat 0)) ({}, w) = some (.ok r, ({ claim := some r }, w)) := by
    have hasked : (Program.ask (.reservations (.load r.id))).runOn
        (World.answer .epoch (.ofNat 0)) ({}, w) = some (w.reservations.load r.id,
          (Record.note {} (.reservations (.load r.id)) (w.reservations.load r.id)
            (some (w.reservations.load r.id)), w)) := rfl
    rw [hload] at hasked
    exact hasked
  exact System.Reaches.runOn before after (.release r.id) (answers_answer _ _)
    (f := fun a => (Request.ofAnswer a >>= fun r =>
      ExceptT.mk (releasing stack ttl r) : Request Reservation).run) hread

theorem reaches_released {k : Record} {x : StockItem} (hpending : r.status = .pending)
    (hx : w.ledger.items.find? r.itemId = some x) (hid : x.id = r.itemId)
    (hreserved : r.quantity ≤ x.reserved) (hc : w.reservations.rows.find? r.id = some c) :
    ∃ w' k' a, System.Reaches (rules stack ttl r.id)
        ⟨w, before ++ ⟨.release r.id, k, releasing stack ttl r⟩ :: after⟩
        ⟨w', before ++ ⟨.release r.id, k', .done (.ok a : Answer Reservation)⟩ :: after⟩ ∧
      (∃ x', w'.ledger.items.find? r.itemId = some x' ∧ x'.id = r.itemId ∧
        x'.reserved = x.reserved - r.quantity) ∧
      ∃ c', w'.reservations.rows.find? r.id = some c' := by
  have hsettle := runs_release .epoch (.ofNat 0) (s := (k, w))
    (v := { ledger := stack.ledger, defaultTtl := ttl }) rfl hpending hx hid hreserved hc
  rcases hsettle with ⟨a, s', hruns, hitem, hrow⟩
  have hrelease : (releasing stack ttl r).runOn (World.answer .epoch (.ofNat 0)) (k, w) =
      some (.ok a.1, s') := hruns.bind rfl
  have hsteps := System.Reaches.runOn before after (.release r.id)
    (R := rules stack ttl r.id) (f := .done) (answers_answer _ _) hrelease
  rw [Program.andThen_done] at hsteps
  exact ⟨s'.2, s'.1, a.1, hsteps, hitem, hrow⟩

/-- Two releases that both read the claim while it was pending both go through. -/
theorem reaches_twice {w : World} {r : Reservation} {s : StockItem} (hw : w.Faithful)
    (hr : w.reservations.rows.find? r.id = some r) (hpending : r.status = .pending)
    (hs : w.ledger.items.find? r.itemId = some s) (hdouble : 2 * r.quantity ≤ s.reserved) :
    ∃ σ : System (Working stack ttl),
      System.Reaches (rules stack ttl r.id) ⟨w, []⟩ σ ∧ σ.runs.countP succeeded = 2 := by
  have hpositive := r.quantity_range.1
  let first : Run (Working stack ttl) := .start _ (.release r.id)
  let read : Run (Working stack ttl) :=
    ⟨.release r.id, { claim := some r }, releasing stack ttl r⟩
  have hid : s.id = r.itemId := (World.held_of_find? hw hs).2
  have hstart : System.Step (rules stack ttl r.id) ⟨w, []⟩ ⟨w, [first]⟩ :=
    .start ⟨w, []⟩ _ (.inr (.inl rfl))
  have hread : System.Reaches (rules stack ttl r.id) ⟨w, [first]⟩ ⟨w, [read]⟩ :=
    reaches_read [] [] hr
  have hstart' : System.Step (rules stack ttl r.id) ⟨w, [read]⟩ ⟨w, [read, first]⟩ :=
    .start ⟨w, [read]⟩ _ (.inr (.inl rfl))
  have hread' : System.Reaches (rules stack ttl r.id) ⟨w, [read, first]⟩ ⟨w, [read, read]⟩ :=
    reaches_read [read] [] hr
  -- Both have read the claim; now one of them goes on to its end, and then the other.
  rcases reaches_released [] [read] hpending hs hid (by omega) hr with
    ⟨w₁, k₁, a₁, hfirst, ⟨s₁, hs₁, hid₁, hreserved₁⟩, c, hc⟩
  rcases reaches_released [⟨.release r.id, k₁, .done (.ok a₁ : Answer Reservation)⟩] []
      hpending hs₁ hid₁ (by omega) hc with ⟨w₂, k₂, a₂, hsecond, -, -⟩
  exact ⟨_, .head hstart (hread.trans (.head hstart' (hread'.trans (hfirst.trans hsecond)))), rfl⟩

end

end Settling

open Settling in
/--
Whatever the settlements of one claim do at the same time, while no store fails: at most one of them
succeeds and the units are taken at most once, if and only if the claim is not pending at first or
its units are not reserved twice.
-/
theorem settled_once_iff (stack : Stack) (ttl : Span) {w : World} {r : Reservation} (hw : w.Sound)
    (hr : w.reservations.rows.find? r.id = some r) :
    (∀ σ : System (Working stack ttl), System.Reaches (rules stack ttl r.id) ⟨w, []⟩ σ →
        SettledOnce w r σ) ↔
      ¬ (r.status = .pending ∧
        ∃ s, w.ledger.items.find? r.itemId = some s ∧ 2 * r.quantity ≤ s.reserved) := by
  constructor
  · rintro honce ⟨hpending, s, hs, hdouble⟩
    rcases reaches_twice hw.toFaithful hr hpending hs hdouble with ⟨σ, hreaches, htwo⟩
    have hsingle := (honce σ hreaches).single
    rw [htwo] at hsingle
    exact absurd hsingle (by decide)
  · intro hscarce σ hreaches
    have hupheld : (Workflow.conduct stack ttl).Upheld World.Faithful (rules stack ttl r.id) := by
      refine Workflow.upheld (fun _ h => h) ?_
      intro w w' others t k c served reply hw hallows hserves _ _
      refine hw.serves hserves ?_
      rintro c rfl
      exact hallows
    have hstart : (Workflow.conduct stack ttl).Kept World.Faithful ⟨w, []⟩ :=
      ⟨hw.toFaithful, fun _ h => nomatch h⟩
    have hguarded : Guarded w r (⟨w, []⟩ : System (Working stack ttl)) :=
      ⟨⟨r, hr, rfl, rfl, id⟩, fun _ h => (nomatch h), hw.grows, .never rfl rfl⟩
    have hlast : Guarded w r σ := hstart.invariant hupheld hreaches hguarded
      fun hkept hstep h => h.step hscarce hw.storable hkept hstep
    exact hlast.settledOnce (hstart.reaches hupheld hreaches)

namespace Settling

/-- Eight of ten units are reserved. -/
def busy : StockItem :=
  { StockItem.ten 1 with reserved := 8, reserved_nonneg := by decide, reserved_le := by decide }

def crowded : World where
  ledger := MemoryLedger.empty.apply .epoch (.save busy)
  reservations := MemoryReservations.empty.apply (.save (.four 1))

/-- Four units that are reserved for others let the claim be settled twice. -/
theorem settled_once_iff_crowded :
    crowded.Sound ∧
      crowded.reservations.rows.find? (Reservation.four 1).id = some (.four 1) ∧
      ¬ ∀ σ : System (Working .plain Reservation.defaultTtl),
        System.Reaches (rules .plain Reservation.defaultTtl (Reservation.four 1).id)
          ⟨crowded, []⟩ σ → SettledOnce crowded (.four 1) σ := by
  have hsound : crowded.Sound := World.sound_opened
    (MemoryLedger.keyed_empty.outcome (MemoryLedger.outcome _ .epoch (.save busy))) (by decide)
  have hrow : crowded.reservations.rows.find? (Reservation.four 1).id = some (.four 1) := by rfl
  refine ⟨hsound, hrow, fun honce => ?_⟩
  exact (settled_once_iff _ _ hsound hrow).1 honce ⟨rfl, busy, by rfl, by decide⟩

end Settling
end StockLedger
