import Mathlib.Data.List.Nodup
import Mathlib.Logic.Relation
import Mathlib.Tactic.Common
import StockLedger.Proofs.Memory.Backlog
import StockLedger.Proofs.Service.Accounting
import StockLedger.Proofs.Service.Orders
import StockLedger.Proofs.Sweep.Broadcast

/-!
# Every release is announced once

A claim may be found by many sweeps, and settled by others between them. It is announced by the one
sweep that stores it as expired and is told so: from then on nothing makes it pending again, and
only pending claims are found.

* `Inquiry` : the requests to the service that write nothing;
* `Workflow.Leaves`, `Workflow.Leaves.serves` : no workflow touches a claim that has expired, unless
  it expires it again;
* `Notice.Tells` : a notice tells what is stored when it is sent;
* `Broadcast.Sure`, `Broadcast.Adds` : what holds between programs, and what one of them announces;
* `adds_workflow`, `adds_releaseAll`, `adds_sweepAndLeave` : a workflow announces nothing, and a
  sweep the claims that it has released;
* `Chronicle`, `Chronicle.Step` : programs one after another, from empty stores on;
* `notices_match_releases` : each release is announced, once and as it is.
-/

namespace StockLedger

open Conduct Sweeper

/-! ## Requests to the service -/

/-- What may be asked of the service without writing anything. -/
inductive Inquiry
  | availability (product : ProductId)
  | lowStock (threshold : Int) (limit : UInt64)
  | counts
  | reservation (id : ReservationId)

namespace Inquiry

abbrev Value : Inquiry → Type
  | availability _ => Availability
  | lowStock _ _ => List Availability
  | counts => ReservationCounts
  | reservation _ => Reservation

def request (v : Service) : (q : Inquiry) → Request q.Value
  | availability product => v.availability product
  | lowStock threshold limit => v.lowStock threshold limit
  | counts => Service.counts
  | reservation id => Service.reservation id

end Inquiry

section

variable {stack : Stack} {ttl : Span} {t : Workflow}

/-- An inquiry makes no request that a workflow may not make. -/
theorem keeps_inquiry {v : Service} (hv : v.ledger = stack.ledger) (q : Inquiry)
    (s : Record × World) :
    (q.request v).Safe ((Workflow.keeping stack ttl).setting World.Faithful t) (fun _ _ => True)
      s := by
  have hcount (status : Reservation.Status) (s : Record × World) :
      (Service.reservations (.count status)).Safe
        ((Workflow.keeping stack ttl).setting World.Faithful t) (fun _ _ => True) s :=
    (safe_reservations fun _ _ => trivial).mono fun _ _ _ _ _ => trivial
  cases q with
  | availability product =>
    exact (safe_itemOf hv (fun _ h => h) fun _ _ => trivial).bind
      fun _ _ _ => Request.safe_pure trivial
  | lowStock threshold limit =>
    have hledger : (stack.ledger (.findLowStock threshold limit)).Safe
        ((Workflow.keeping stack ttl).setting World.Faithful t)
        (fun _ s' => Later World.Faithful s s') s := by
      cases stack with
      | plain => exact safe_ledger_quiet (fun _ _ _ => rfl) fun _ _ => trivial
      | cached lifetimes => exact safe_findLowStock (fun _ h => h) fun _ _ => trivial
    rw [← hv] at hledger
    have hfind : (Request.ofProgram (v.ledger (.findLowStock threshold limit))).Safe
        ((Workflow.keeping stack ttl).setting World.Faithful t) (fun _ _ => True) s :=
      hledger.mono fun _ _ _ _ _ => trivial
    exact hfind.bind fun _ _ _ => Request.safe_pure trivial
  | counts =>
    refine (hcount _ s).bind fun _ s₁ _ => (hcount _ s₁).bind fun _ s₂ _ => ?_
    refine (hcount _ s₂).bind fun _ s₃ _ => (hcount _ s₃).bind fun _ s₄ _ => ?_
    exact Request.safe_pure trivial
  | reservation id =>
    exact (safe_reservations fun _ _ => trivial).mono fun _ _ _ _ _ => trivial

/-! ## Claims that have expired -/

/-- A claim is stored under this identity, and has expired. -/
def MemoryReservations.Expired (m : MemoryReservations) (id : ReservationId) : Prop :=
  ∃ r, m.rows.find? id = some r ∧ r.status = .expired

theorem MemoryReservations.Expired.insert {m : MemoryReservations} {id : ReservationId}
    (h : m.Expired id) {r : Reservation} (byOrder : Table OrderId ReservationId)
    (hr : id = r.id → r.status = .expired) : Expired ⟨m.rows.insert r.id r, byOrder⟩ id := by
  rcases h with ⟨x, hx, hexpired⟩
  by_cases hid : id = r.id
  · exact ⟨r, (Table.find?_insert ..).trans (if_pos hid), hr hid⟩
  · exact ⟨x, (Table.find?_insert ..).trans ((if_neg hid).trans hx), hexpired⟩

/-- What a workflow leaves as it is in the stores where it has started. -/
structure Workflow.Leaves (t : Workflow) (start : World) (k : Record) (w : World) : Prop where
  keyed : w.reservations.Keyed
  /-- Unless it was given a claim, it has read the claim that is stored. -/
  reads : t.opening.claim = none → w.Stores k
  expired : ∀ id, start.reservations.Expired id → w.reservations.Expired id

theorem Workflow.Leaves.same {start w w' : World} {k k' : Record} (h : t.Leaves start k w)
    (hreservations : w'.reservations = w.reservations) (hclaim : k'.claim = k.claim)
    (hstored : k'.stored = k.stored) : t.Leaves start k' w' where
  keyed := by
    rw [hreservations]
    exact h.keyed
  reads hopening hnone r hr := by
    rw [hreservations]
    exact h.reads hopening (hstored ▸ hnone) r (hclaim ▸ hr)
  expired id hid := by
    rw [hreservations]
    exact h.expired id hid

/-- A claim that has expired is not written over, except by whoever expires it again. -/
theorem Workflow.Leaves.expired_apply {start w : World} {k : Record} (h : t.Leaves start k w)
    {c : ReservationCall} (hallows : (Workflow.keeping stack ttl).reservations t k c)
    {id : ReservationId} (hid : w.reservations.Expired id) :
    (w.reservations.apply c).Expired id := by
  have ho := w.reservations.outcome c
  generalize w.reservations.reply c = reply at ho
  generalize w.reservations.apply c = after at ho ⊢
  cases ho with
  | unchanged => exact hid
  | saved x hnone =>
    refine hid.insert _ fun heq => ?_
    rcases hid with ⟨y, hy, -⟩
    rw [heq, hnone] at hy
    cases hy
  | updated x old hold =>
    rcases hallows with ⟨read, hrewrites⟩
    refine hid.insert _ fun heq => ?_
    by_cases hopening : t.opening.claim = none
    · -- What it has read is stored, and is pending.
      have hread := h.reads hopening hrewrites.first read hrewrites.claim
      rcases hid with ⟨y, hy, hexpired⟩
      rw [heq, hrewrites.same.id, hread] at hy
      cases hy
      rw [hrewrites.pending] at hexpired
      cases hexpired
    · exact hrewrites.expired (Option.isSome_iff_ne_none.2 hopening)

theorem Workflow.Leaves.serves {start w w' : World} {k : Record} (h : t.Leaves start k w)
    {c : Call} {served : Option c.Reply} {r : c.Reply}
    (hallows : (Workflow.keeping stack ttl).allows t k w c) (hserves : w.Serves c served w')
    (hreports : c.Reports served r) : t.Leaves start (k.note c r served) w' := by
  cases hserves with
  | skipped =>
    rw [Record.note_skipped hreports]
    exact h
  | ledger => exact h.same rfl Record.claim_note_ledger Record.stored_note_ledger
  | reservations c =>
    refine ⟨h.keyed.outcome (w.reservations.outcome c), fun hopening hnone x hx => ?_,
      fun id hid => h.expired_apply hallows (h.expired id hid)⟩
    exact Accounting.stored_after_own h.keyed (h.reads hopening) hreports hnone hx
  | cache | now | uptime | freshUuid | publish | log => exact h.same rfl rfl rfl

end

/-! ## Notices -/

/-- The notice tells what is stored when it is sent. -/
def Notice.Tells (n : Notice) : Prop :=
  ∃ r x, n.world.reservations.rows.find? n.release.reservationId = some r ∧ r.status = .expired ∧
    n.world.ledger.items.find? r.itemId = some x ∧
      n.release = .ofReservation r x.productId .reservationExpired r.updatedAt

namespace Broadcast

/--
The stores are in order; every claim that was announced has expired, and was announced once, as it
was then.
-/
structure Sure (b : Broadcast) : Prop where
  faithful : b.world.Faithful
  keyed : b.world.reservations.Keyed
  expired : ∀ id ∈ b.ids, b.world.reservations.Expired id
  nodup : b.ids.Nodup
  tells : ∀ n ∈ b.notices, n.Tells

/-- All is in order still, and these claims were announced meanwhile. -/
structure Adds (b : Broadcast) (ids : List ReservationId) (b' : Broadcast) : Prop where
  sure : b'.Sure
  ids : b'.ids = b.ids ++ ids

variable {b b₁ b₂ : Broadcast} {ids ids' : List ReservationId}

theorem sure_empty : ({} : Broadcast).Sure where
  faithful := World.sound_empty.toFaithful
  keyed := MemoryReservations.keyed_empty
  expired _ h := nomatch h
  nodup := List.nodup_nil
  tells _ h := nomatch h

theorem Sure.adds_nothing (h : b.Sure) : b.Adds [] b :=
  ⟨h, (List.append_nil _).symm⟩

theorem Adds.trans (h : b.Adds ids b₁) (h' : b₁.Adds ids' b₂) : b.Adds (ids ++ ids') b₂ where
  sure := h'.sure
  ids := by rw [h'.ids, h.ids, List.append_assoc]

/-- What was announced is not pending any more. -/
theorem Sure.notMem_of_pending (h : b.Sure) {r : Reservation}
    (hr : b.world.reservations.rows.find? r.id = some r) (hpending : r.status = .pending) :
    r.id ∉ b.ids := by
  intro hannounced
  rcases h.expired r.id hannounced with ⟨x, hx, hexpired⟩
  rw [hr] at hx
  cases hx
  rw [hpending] at hexpired
  cases hexpired

/-- A claim is announced that has just expired. -/
theorem Sure.announce (h : b.Sure) {r : Reservation} {x : StockItem}
    (hr : b.world.reservations.rows.find? r.id = some r) (hexpired : r.status = .expired)
    (hx : b.world.ledger.items.find? r.itemId = some x) (hnew : r.id ∉ b.ids) :
    b.Adds [r.id] (b.announce (.ofReservation r x.productId .reservationExpired r.updatedAt)) := by
  have hids : (b.announce (.ofReservation r x.productId .reservationExpired r.updatedAt)).ids =
      b.ids ++ [r.id] := List.map_append
  refine ⟨⟨h.faithful, h.keyed, fun id hid => ?_, ?_, fun n hn => ?_⟩, hids⟩
  · rw [hids] at hid
    rcases List.mem_append.1 hid with hold | hlast
    · exact h.expired id hold
    · rcases List.mem_singleton.1 hlast with rfl
      exact ⟨r, hr, hexpired⟩
  · rw [hids]
    exact List.nodup_append'.2 ⟨h.nodup, List.nodup_singleton _,
      List.disjoint_singleton.2 hnew⟩
  · rcases List.mem_append.1 hn with hold | hlast
    · exact h.tells n hold
    · rcases List.mem_singleton.1 hlast with rfl
      exact ⟨r, x, hr, hexpired, hx, rfl⟩

end Broadcast

section

variable {stack : Stack} {ttl : Span} {t : Workflow} {b b' : Broadcast}

/-- A program that keeps to what a workflow may do announces nothing. -/
theorem adds_safe {α : Type} {p : Program α} {Q : α → Record × World → Prop}
    (hsafe : p.Safe ((Workflow.keeping stack ttl).setting World.Faithful t) Q
      (t.opening, b.world)) (hb : b.Sure) {a? : Option α} (h : p.Performs b a? b') :
    b.Adds [] b' := by
  have hopened : t.Leaves b.world t.opening b.world := by
    refine ⟨hb.keyed, fun hopening _ r hr => ?_, fun _ hid => hid⟩
    rw [hopening] at hr
    cases hr
  rcases Conduct.performs (P := t.Leaves b.world)
    (fun _ hleaves hallows hserves hreports => hleaves.serves hallows hserves hreports)
    hsafe hb.faithful hopened h with ⟨hnotices, hfaithful, k, hleaves, -⟩
  have hids : b'.ids = b.ids := by rw [Broadcast.ids, hnotices, Broadcast.ids]
  refine ⟨⟨hfaithful, hleaves.keyed, fun id hid => ?_, ?_, fun n hn => ?_⟩, ?_⟩
  · rw [hids] at hid
    exact hleaves.expired id (hb.expired id hid)
  · rw [hids]
    exact hb.nodup
  · rw [hnotices] at hn
    exact hb.tells n hn
  · rw [hids, List.append_nil]

theorem adds_workflow (hb : b.Sure) {a? : Option (Answer t.Value)}
    (h : ((Working stack ttl).program t).Performs b a? b') : b.Adds [] b' :=
  adds_safe (keeps_workflow (fun _ h => h) b.world) hb h

theorem adds_inquiry {v : Service} (hv : v.ledger = stack.ledger) (hb : b.Sure) {q : Inquiry}
    {a? : Option (Answer q.Value)} (h : Program.Performs (q.request v).run b a? b') :
    b.Adds [] b' := by
  -- Any workflow will do.
  let t : Workflow := .createItem ⟨.ofNat 0⟩ 0
  have hsafe : (q.request v).Safe
      ((Workflow.keeping stack Reservation.defaultTtl).setting World.Faithful t) (fun _ _ => True)
      (t.opening, b.world) := keeps_inquiry hv q _
  exact adds_safe hsafe hb h

end

/-! ## The release of one claim -/

section

variable {v : Service} {stack : Stack} {b b' : Broadcast} {r : Reservation}

theorem performs_direct_update {u : StockItem} {w : Written}
    (h : (LedgerAccess.direct (.update u)).Performs b (some w) b') (hok : w.outcome = .ok ()) :
    b'.world.ledger.items.find? u.id = some w.item := by
  rcases Program.performs_ask h with ⟨reply, hreply, hanswers⟩
  cases hreply
  cases hanswers with
  | @served _ served _ _ hquiet hserves hreports =>
    rcases hreports with hserved | ⟨f, rfl⟩
    · rcases hserves.ledger_eq hserved with ⟨now, rfl, rfl⟩
      exact MemoryLedger.find?_of_written hok
    · -- Whoever is told of a failure is not told of a success.
      cases served <;> cases hok

/-- An item is stored as whoever has written it was told. -/
theorem performs_update {u : StockItem} {w : Written}
    (h : (stack.ledger (.update u)).Performs b (some w) b') (hok : w.outcome = .ok ()) :
    b'.world.ledger.items.find? u.id = some w.item := by
  cases stack with
  | plain => exact performs_direct_update h hok
  | cached lifetimes =>
    rcases Program.performs_bind_some h with ⟨w', b₁, hwrite, hafter⟩
    split at hafter
    · -- What is done to the cache afterwards does not touch the ledger.
      rcases Program.performs_bind_some hafter with ⟨_, b₂, hinvalidate, hlast⟩
      rcases Program.performs_pure hlast with ⟨heq, rfl⟩
      cases heq
      rw [((within_invalidate _ _).performs hinvalidate).2.1]
      exact performs_direct_update hwrite hok
    · rcases Program.performs_pure hafter with ⟨heq, rfl⟩
      cases heq
      exact performs_direct_update hwrite hok

theorem succeeds_write (hv : v.ledger = stack.ledger) {u y : StockItem}
    (h : (v.write u).Succeeds b y b') : b'.world.ledger.items.find? u.id = some y := by
  rcases Program.performs_bind_some (p := v.ledger (.update u)) h with ⟨w, b₁, hupdate, hlast⟩
  rw [hv] at hupdate
  rcases Program.performs_pure hlast with ⟨hanswer, rfl⟩
  rcases Answer.of_map_ok (Option.some.inj hanswer).symm with ⟨_, hok, rfl⟩
  exact performs_update hupdate hok

theorem succeeds_reporting {α : Type} {message : String} {x : Request α} {a : α}
    (h : (Service.reporting message x).Succeeds b a b') : x.Succeeds b a b' := by
  rcases Program.performs_bind_some (p := x.run) h with ⟨a', b₁, hx, hafter⟩
  match a' with
  | .ok a' =>
    cases hafter
    exact hx
  | .error f =>
    rcases Program.performs_bind_some hafter with ⟨_, b₂, -, hlast⟩
    cases hlast

theorem succeeds_overwrite {u : Unit} (h : (Service.reservations (.update r)).Succeeds b u b') :
    b'.world.reservations.rows.find? r.id = some r ∧ b'.world.ledger = b.world.ledger := by
  rcases Program.performs_ask h with ⟨reply, hreply, hanswers⟩
  cases hreply
  cases hanswers with
  | served hquiet hserves hreports =>
    rcases hreports with hserved | ⟨f, hf⟩
    · cases hserves with
      | skipped => cases hserved
      | reservations =>
        exact ⟨MemoryReservations.find?_of_written (Option.some.inj hserved), rfl⟩
    · cases hf

theorem succeeds_report {level : LogLevel} {message : String} {u : Unit}
    (h : (Service.log level message).Succeeds b u b') :
    b'.world.ledger = b.world.ledger ∧ b'.world.reservations = b.world.reservations := by
  rcases Program.performs_bind_some (p := Program.log level message) h with ⟨_, b₁, hlog, hlast⟩
  rcases Program.performs_pure hlast with ⟨-, rfl⟩
  exact (within_log.performs hlog).2

/-- Before a program that is safe among others goes on, the stores are as it was promised. -/
theorem succeeds_safe {J : Job} {C : Conduct J} {t : J.Task} {α : Type} {x : Request α}
    {Q : α → Record × World → Prop}
    (hsafe : x.Safe (C.setting World.Faithful t) Q ({}, b.world)) (hb : b.world.Faithful) {a : α}
    (h : x.Succeeds b a b') : b'.world.Faithful ∧ ∃ k, Q a (k, b'.world) := by
  rcases Conduct.performs (P := fun _ _ => True) (fun _ _ _ _ _ => trivial) hsafe hb trivial h with
    ⟨-, hfaithful, k, -, hpromise⟩
  exact ⟨hfaithful, k, hpromise _ rfl a rfl⟩

/-- A claim that was released is stored as it was settled, and so is its item. -/
theorem succeeds_expire (hv : v.ledger = stack.ledger) (hb : b.world.Faithful)
    {p : Reservation × StockItem} (h : (v.expire r).Succeeds b p b') :
    ∃ now, p.1 = r.moveTo .expired now ∧
      b'.world.reservations.rows.find? r.id = some p.1 ∧
        b'.world.ledger.items.find? r.itemId = some p.2 := by
  let C := Workflow.keeping stack Reservation.defaultTtl
  rcases Request.succeeds_bind h with ⟨now, _, hnow, h₁⟩
  rcases Request.succeeds_bind h₁ with ⟨_, b₁, hguard, h₂⟩
  rcases Request.succeeds_ofAnswer hguard with ⟨-, rfl⟩
  rcases Request.succeeds_bind h₂ with ⟨x, _, hitem, h₃⟩
  rcases Request.succeeds_bind h₃ with ⟨u, _, happly, h₄⟩
  rcases Request.succeeds_ofAnswer happly with ⟨hchange, rfl⟩
  rcases Request.succeeds_bind h₄ with ⟨r', b₂, hmove, h₅⟩
  rcases Request.succeeds_ofAnswer hmove with ⟨htransition, rfl⟩
  rcases Request.succeeds_bind h₅ with ⟨y, b₃, hwrite, h₆⟩
  rcases Request.succeeds_bind h₆ with ⟨_, b₄, hoverwrite, h₇⟩
  rcases Request.succeeds_bind h₇ with ⟨_, b₅, hreport, hlast⟩
  rcases Request.succeeds_pure hlast with ⟨rfl, rfl⟩
  have hb₁ : b₁.world.Faithful :=
    (succeeds_safe (C := C) (t := .expire r) safe_now hb hnow).1
  have hid : x.id = r.itemId := by
    rcases succeeds_safe (C := C) (t := .expire r)
      (safe_item hv (fun _ h => h) fun _ _ => trivial) hb₁ hitem with ⟨-, k, -, -, hid⟩
    exact hid
  have huid : u.id = r.itemId := (StockItem.apply_ok hchange).id.trans hid
  have hstored := succeeds_write hv hwrite
  rcases succeeds_overwrite (succeeds_reporting hoverwrite) with ⟨hrow, hledger⟩
  rcases succeeds_report hreport with ⟨hledger', hreservations⟩
  have hmoved := Settlement.eq_moveTo_of_transition htransition
  refine ⟨now, hmoved, ?_, ?_⟩
  · rw [hreservations, ← (Settlement.transition_ok htransition).1.id]
    exact hrow
  · rw [hledger', hledger, ← huid]
    exact hstored

/-- A settlement of a claim announces nothing and touches no other claim. -/
theorem adds_expire (hv : v.ledger = stack.ledger) (hb : b.Sure)
    {a? : Option (Answer (Reservation × StockItem))}
    (h : Program.Performs (v.expire r).run b a? b') :
    b.Adds [] b' ∧ ∀ id, id ≠ r.id →
      b'.world.reservations.rows.find? id = b.world.reservations.rows.find? id := by
  have hsafe : (v.expire r).Safe ((Workflow.keeping stack Reservation.defaultTtl).setting
      World.Faithful (.expire r)) (fun _ _ => True) (Workflow.opening (.expire r), b.world) :=
    keeps_settle hv (fun _ h => h) rfl (fun _ => rfl) rfl rfl
  have hothers := Program.Within.performs (within_settle hv .expire r)
    (P := fun b' => ∀ id, id ≠ r.id →
      b'.world.reservations.rows.find? id = b.world.reservations.rows.find? id)
    (fun hc hanswers hsame id hid => ((hanswers.settles hc).2 id hid).trans (hsame id hid)) h
    fun _ _ => rfl
  exact ⟨adds_safe hsafe hb h, hothers⟩

theorem performs_announce {x : StockItem} {u : Unit}
    (h : (announce r x).Performs b (some u) b') :
    b' = b.announce (.ofReservation r x.productId .reservationExpired r.updatedAt) := by
  rcases Program.performs_bind_some h with ⟨told, b₁, hask, hlast⟩
  rcases Program.performs_ask hask with ⟨reply, hreply, hanswers⟩
  cases hreply
  cases hanswers with
  | served hquiet => cases hquiet
  | published => exact (Program.performs_pure hlast).2

end

/-! ## Sweeps -/

/-- These claims are stored, and each of them is pending. -/
structure Broadcast.Awaits (b : Broadcast) (rs : List Reservation) : Prop where
  distinct : rs.Pairwise fun x y => x.id ≠ y.id
  pending : ∀ r ∈ rs, b.world.reservations.rows.find? r.id = some r ∧ r.status = .pending

theorem Broadcast.Awaits.tail {b b' : Broadcast} {r : Reservation} {rest : List Reservation}
    (h : b.Awaits (r :: rest)) (hothers : ∀ id, id ≠ r.id →
      b'.world.reservations.rows.find? id = b.world.reservations.rows.find? id) :
    b'.Awaits rest where
  distinct := (List.pairwise_cons.1 h.distinct).2
  pending x hx := by
    have hne := (List.pairwise_cons.1 h.distinct).1 x hx
    rw [hothers x.id fun heq => hne heq.symm]
    exact h.pending x (List.mem_cons_of_mem r hx)

theorem Broadcast.awaits_expired {b : Broadcast} (hb : b.world.reservations.Keyed)
    (now : Timestamp) (limit : UInt64) : b.Awaits (b.world.reservations.expired now limit) := by
  have hbacklog := MemoryReservations.backlog_expired hb now
  rcases exists_takeLimit_append limit (b.world.reservations.expired now 0) with ⟨rest, hsplit⟩
  have hsublist : (takeLimit limit (b.world.reservations.expired now 0)).Sublist
      (b.world.reservations.expired now 0) := by
    conv_rhs => rw [← hsplit]
    exact List.sublist_append_left ..
  rw [hbacklog.expired_eq hb limit]
  refine ⟨hbacklog.distinct.sublist hsublist, fun r hr => ?_⟩
  rcases (hbacklog.mem_iff r).1 (hsublist.subset hr) with ⟨hrow, hpending, -⟩
  exact ⟨hrow, hpending⟩

/-- The claims that a sweep has released. -/
def SweepSummary.releasedOf : Answer SweepSummary → List ReservationId
  | .ok summary => summary.releasedIds
  | .error _ => []

/-- A sweep by the timer, with the outcome that the timer only reports. -/
def Sweeper.timed (w : Sweeper) : Request SweepSummary :=
  .ofProgram do
    if ← Program.ask .enterSweep then
      match ← w.sweepAndLeave with
      | .ok summary => return .ok summary
      | .error f => do
          Program.log .error "sweep failed"
          return .error f
    else
      Program.ask .recordSkip
      Program.log .debug "previous sweep still running; skipping tick"
      return .error (.sweepInProgress w.config.name)

theorem Sweeper.tick_eq_timed (w : Sweeper) : w.tick = w.timed.run >>= fun _ => return () := by
  refine congrArg (Program.call .enterSweep) (funext fun free => ?_)
  cases free with
  | true =>
    change w.sweepAndLeave.andThen _ = (w.sweepAndLeave.andThen _).andThen _
    rw [Program.andThen_assoc]
    refine congrArg w.sweepAndLeave.andThen (funext fun outcome => ?_)
    match outcome with
    | .ok _ => rfl
    | .error _ => rfl
  | false => rfl

section

variable {w : Sweeper} {stack : Stack} {b b' : Broadcast}

theorem idle_budgetSpent (deadline : Option Int) :
    (budgetSpent deadline).Within fun c => c.idle = true := by
  cases deadline with
  | none => exact trivial
  | some d => exact Program.Within.bind (Program.within_ask rfl) fun _ => trivial

theorem idle_log {level : LogLevel} {message : String} :
    (Program.log level message).Within fun c => c.idle = true :=
  Program.within_ask rfl

/-- What is released is announced, one claim after another. -/
theorem adds_releaseAll (hw : w.service.ledger = stack.ledger) {deadline : Option Int}
    {rs : List Reservation} {start summary : SweepSummary} (hb : b.Sure) (hrs : b.Awaits rs)
    (h : (w.releaseAll deadline rs start).Performs b (some summary) b') :
    ∃ ids, b.Adds ids b' ∧ summary.releasedIds = start.releasedIds ++ ids := by
  induction rs generalizing start b with
  | nil =>
    cases h
    exact ⟨[], hb.adds_nothing, (List.append_nil _).symm⟩
  | cons r rest ih =>
    rcases Program.performs_bind_idle (idle_budgetSpent deadline) h with ⟨spent, h₁⟩
    cases spent with
    | true =>
      rcases Program.performs_bind_idle idle_log h₁ with ⟨_, hlast⟩
      cases hlast
      exact ⟨[], hb.adds_nothing, (List.append_nil _).symm⟩
    | false =>
      rcases Program.performs_bind_some h₁ with ⟨outcome, b₁, hexpire, h₂⟩
      rcases adds_expire hw hb hexpire with ⟨hquiet, hothers⟩
      have hrest : b₁.Awaits rest := hrs.tail hothers
      match outcome with
      | .ok (settled, x) =>
        rcases Program.performs_bind_some h₂ with ⟨_, b₂, hannounce, h₃⟩
        cases performs_announce hannounce
        rcases succeeds_expire hw hb.faithful hexpire with ⟨now, rfl, hrow, hitem⟩
        have hnew : r.id ∉ b₁.ids := by
          rcases hrs.pending r (List.mem_cons_self ..) with ⟨hr, hpending⟩
          rw [hquiet.ids, List.append_nil]
          exact hb.notMem_of_pending hr hpending
        have hsent := hquiet.sure.announce (r := r.moveTo .expired now) hrow rfl hitem hnew
        rcases ih hsent.sure ⟨hrest.distinct, hrest.pending⟩ h₃ with ⟨ids, hlater, hreleased⟩
        refine ⟨r.id :: ids, (hquiet.trans hsent).trans hlater, ?_⟩
        rw [hreleased, SweepSummary.addReleased, List.append_assoc]
        rfl
      | .error f =>
        rcases Program.performs_bind_idle idle_log h₂ with ⟨_, h₃⟩
        rcases ih hquiet.sure hrest h₃ with ⟨ids, hlater, hreleased⟩
        exact ⟨ids, hquiet.trans hlater, hreleased⟩

/-- What a search finds is stored and pending. -/
theorem awaits_found (hb : b.world.reservations.Keyed) {budget : Option Span} {now : Timestamp}
    {limit : UInt64} {found : List Reservation}
    (h : (Program.ask (.findExpiredWithin budget now limit)).Performs b (some (some (.ok found)))
      b') : b'.Awaits found := by
  rcases Program.performs_ask h with ⟨reply, hreply, hanswers⟩
  cases hreply
  cases hanswers with
  | found => exact Broadcast.awaits_expired hb now limit
  | served hquiet hserves hreports =>
    cases hserves
    cases hreports

theorem adds_sweep (hw : w.service.ledger = stack.ledger) (hb : b.Sure)
    {outcome : Answer SweepSummary} (h : Program.Performs w.sweep.run b (some outcome) b') :
    b.Adds (SweepSummary.releasedOf outcome) b' := by
  rcases Program.performs_bind_idle (Program.within_ask rfl) h with ⟨started, h₁⟩
  rcases Program.performs_bind_idle (Program.within_ask rfl) h₁ with ⟨now, h₂⟩
  rcases Program.performs_bind_some h₂ with ⟨search, b₁, hsearch, h₃⟩
  have hfound (found : List Reservation) (hok : search = some (.ok found)) : b₁.Awaits found :=
    awaits_found hb.keyed (hok ▸ hsearch)
  cases Program.performs_idle (Program.within_ask rfl) hsearch
  match search with
  | none | some (.error f) =>
    cases h₃
    exact hb.adds_nothing
  | some (.ok []) =>
    rcases Program.performs_bind_idle idle_log h₃ with ⟨_, hlast⟩
    cases hlast
    exact hb.adds_nothing
  | some (.ok (r :: rest)) =>
    rcases Program.performs_bind_some h₃ with ⟨summary, b₁, hrelease, h₄⟩
    rcases Program.performs_bind_idle idle_log h₄ with ⟨_, hlast⟩
    cases hlast
    rcases adds_releaseAll hw hb (hfound _ rfl) hrelease with ⟨ids, hadds, hreleased⟩
    rw [SweepSummary.releasedOf, SweepSummary.counted, hreleased]
    exact hadds

theorem adds_sweepAndLeave (hw : w.service.ledger = stack.ledger) (hb : b.Sure)
    {outcome : Answer SweepSummary} (h : w.sweepAndLeave.Performs b (some outcome) b') :
    b.Adds (SweepSummary.releasedOf outcome) b' := by
  rcases Program.performs_bind_some h with ⟨a, b₁, hsweep, h₁⟩
  have hadds := adds_sweep hw hb hsweep
  match a with
  | .ok summary =>
    rcases Program.performs_bind_idle (Program.within_ask rfl) h₁ with ⟨_, h₂⟩
    rcases Program.performs_bind_idle (Program.within_ask rfl) h₂ with ⟨_, hlast⟩
    cases hlast
    exact hadds
  | .error f =>
    rcases Program.performs_bind_idle (Program.within_ask rfl) h₁ with ⟨_, hlast⟩
    cases hlast
    exact hadds

theorem adds_trigger (hw : w.service.ledger = stack.ledger) (hb : b.Sure)
    {outcome : Answer SweepSummary} (h : Program.Performs w.trigger.run b (some outcome) b') :
    b.Adds (SweepSummary.releasedOf outcome) b' := by
  rcases Program.performs_bind_idle (Program.within_ask rfl) h with ⟨free, h₁⟩
  cases free with
  | true => exact adds_sweepAndLeave hw hb h₁
  | false =>
    cases h₁
    exact hb.adds_nothing

theorem adds_timed (hw : w.service.ledger = stack.ledger) (hb : b.Sure)
    {outcome : Answer SweepSummary} (h : Program.Performs w.timed.run b (some outcome) b') :
    b.Adds (SweepSummary.releasedOf outcome) b' := by
  rcases Program.performs_bind_idle (Program.within_ask rfl) h with ⟨free, h₁⟩
  cases free with
  | true =>
    rcases Program.performs_bind_some h₁ with ⟨a, b₁, hsweep, h₂⟩
    have hadds := adds_sweepAndLeave hw hb hsweep
    match a with
    | .ok summary =>
      cases h₂
      exact hadds
    | .error f =>
      rcases Program.performs_bind_idle idle_log h₂ with ⟨_, hlast⟩
      cases hlast
      exact hadds
  | false =>
    rcases Program.performs_bind_idle (Program.within_ask rfl) h₁ with ⟨_, h₂⟩
    rcases Program.performs_bind_idle idle_log h₂ with ⟨_, hlast⟩
    cases hlast
    exact hb.adds_nothing

theorem sound_trigger (hw : w.service.ledger = stack.ledger) : Program.Sound w.trigger.run := by
  refine (sound_ask .enterSweep).bind fun free => ?_
  cases free with
  | true => exact sound_sweepAndLeave hw
  | false => exact trivial

theorem sound_timed (hw : w.service.ledger = stack.ledger) : Program.Sound w.timed.run := by
  refine (sound_ask .enterSweep).bind fun free => ?_
  cases free with
  | true =>
    refine (sound_sweepAndLeave hw).bind fun outcome => ?_
    match outcome with
    | .ok _ => exact trivial
    | .error _ => exact within_log.sound.bind fun _ => trivial
  | false => exact (sound_ask .recordSkip).bind fun _ => within_log.sound.bind fun _ => trivial

end

/-! ## One program after another -/

/-- The stores with all notices that were sent, and the outcomes of all sweeps. -/
structure Chronicle where
  broadcast : Broadcast := {}
  outcomes : List (Answer SweepSummary) := []

namespace Chronicle

variable {stack : Stack} {ttl : Span} {config : SweepConfig} {c c' : Chronicle}

/-- A workflow, an inquiry or a sweep is carried out, whichever of its requests fail. -/
inductive Step (stack : Stack) (ttl : Span) (config : SweepConfig) : Chronicle → Chronicle → Prop
  | works (c : Chronicle) (t : Workflow) (a? : Option (Answer t.Value)) (b : Broadcast)
      (h : ((Working stack ttl).program t).Performs c.broadcast a? b) :
      Step stack ttl config c { c with broadcast := b }
  | inquires (c : Chronicle) (q : Inquiry) (a? : Option (Answer q.Value)) (b : Broadcast)
      (h : Program.Performs (q.request { ledger := stack.ledger, defaultTtl := ttl }).run
        c.broadcast a? b) :
      Step stack ttl config c { c with broadcast := b }
  | triggers (c : Chronicle) (a? : Option (Answer SweepSummary)) (b : Broadcast)
      (h : Program.Performs (stack.sweeper ttl config).trigger.run c.broadcast a? b) :
      Step stack ttl config c ⟨b, c.outcomes ++ a?.toList⟩
  | ticks (c : Chronicle) (a? : Option (Answer SweepSummary)) (b : Broadcast)
      (h : Program.Performs (stack.sweeper ttl config).timed.run c.broadcast a? b) :
      Step stack ttl config c ⟨b, c.outcomes ++ a?.toList⟩

abbrev Reaches (stack : Stack) (ttl : Span) (config : SweepConfig) :
    Chronicle → Chronicle → Prop :=
  Relation.ReflTransGen (Step stack ttl config)

/-- A tick of the timer is such a step, with an outcome that nobody is told. -/
theorem step_of_tick {u? : Option Unit} {b : Broadcast}
    (h : (stack.sweeper ttl config).tick.Performs c.broadcast u? b) :
    ∃ outcome, Step stack ttl config c ⟨b, c.outcomes ++ [outcome]⟩ := by
  rw [Sweeper.tick_eq_timed] at h
  have hw : (stack.sweeper ttl config).service.ledger = stack.ledger := rfl
  rcases Program.performs_bind h with ⟨outcome, b₁, htimed, hlast⟩ | ⟨-, hbroken⟩
  · rcases Program.performs_pure hlast with ⟨-, rfl⟩
    exact ⟨outcome, .ticks c (some outcome) b htimed⟩
  · rcases (sound_timed hw).ends hbroken with ⟨outcome, houtcome⟩
    cases houtcome

/-- The claims that sweeps say they have released, in that order. -/
def released (c : Chronicle) : List ReservationId :=
  c.outcomes.flatMap SweepSummary.releasedOf

/-- What was released is what was announced. -/
structure Matches (c : Chronicle) : Prop where
  sure : c.broadcast.Sure
  ids : c.broadcast.ids = c.released

theorem Matches.quiet (h : c.Matches) {b : Broadcast} (hadds : c.broadcast.Adds [] b) :
    Matches { c with broadcast := b } ∧ c.broadcast.ids ⊆ b.ids := by
  have hids : b.ids = c.broadcast.ids := hadds.ids.trans (List.append_nil _)
  exact ⟨⟨hadds.sure, hids.trans h.ids⟩, hids ▸ List.Subset.refl _⟩

theorem Matches.sweep (h : c.Matches) {x : Request SweepSummary} (hsound : Program.Sound x.run)
    {b : Broadcast} (hadds : ∀ {outcome}, Program.Performs x.run c.broadcast (some outcome) b →
      c.broadcast.Adds (SweepSummary.releasedOf outcome) b) {a? : Option (Answer SweepSummary)}
    (hperforms : Program.Performs x.run c.broadcast a? b) :
    Matches ⟨b, c.outcomes ++ a?.toList⟩ ∧ c.broadcast.ids ⊆ b.ids := by
  rcases hsound.ends hperforms with ⟨outcome, rfl⟩
  have hafter := hadds hperforms
  refine ⟨⟨hafter.sure, ?_⟩, hafter.ids ▸ List.subset_append_left ..⟩
  rw [hafter.ids, h.ids, released, released]
  simp

theorem Matches.step (h : c.Matches) (hstep : Step stack ttl config c c') :
    c'.Matches ∧ c.broadcast.ids ⊆ c'.broadcast.ids := by
  have hw : (stack.sweeper ttl config).service.ledger = stack.ledger := rfl
  cases hstep with
  | works t a? b hperforms => exact h.quiet (adds_workflow h.sure hperforms)
  | inquires q a? b hperforms =>
    exact h.quiet (adds_inquiry (v := { ledger := stack.ledger, defaultTtl := ttl }) rfl h.sure
      hperforms)
  | triggers a? b hperforms => exact h.sweep (sound_trigger hw) (adds_trigger hw h.sure) hperforms
  | ticks a? b hperforms => exact h.sweep (sound_timed hw) (adds_timed hw h.sure) hperforms

theorem Matches.reaches (h : c.Matches) (hreaches : Reaches stack ttl config c c') :
    c'.Matches ∧ c.broadcast.ids ⊆ c'.broadcast.ids := by
  induction hreaches with
  | refl => exact ⟨h, List.Subset.refl _⟩
  | tail _ hstep ih =>
    have hlast := ih.1.step hstep
    exact ⟨hlast.1, fun _ hid => hlast.2 (ih.2 hid)⟩

end Chronicle

/--
From empty stores, whatever is asked of the service one request after another, at whatever times and
whichever requests to the stores fail: the notices are about the claims that sweeps say they have
released, in that order and about each of them once; each tells the claim and the product of its
item as they are stored when it is sent; and a claim that was announced stays expired.
-/
theorem notices_match_releases (stack : Stack) (ttl : Span) (config : SweepConfig) {c : Chronicle}
    (hreaches : Chronicle.Reaches stack ttl config {} c) :
    c.broadcast.ids = c.released ∧ c.broadcast.ids.Nodup ∧
      (∀ n ∈ c.broadcast.notices, n.Tells) ∧
      ∀ c', Chronicle.Reaches stack ttl config c c' → ∀ id ∈ c.broadcast.ids,
        c'.broadcast.world.reservations.Expired id := by
  have hempty : Chronicle.Matches {} := ⟨Broadcast.sure_empty, rfl⟩
  have hmatches := (hempty.reaches hreaches).1
  refine ⟨hmatches.ids, hmatches.sure.nodup, hmatches.sure.tells, fun c' hlater id hid => ?_⟩
  rcases hmatches.reaches hlater with ⟨hafter, hsubset⟩
  exact hafter.sure.expired id (hsubset hid)

namespace Chronicle

/-- The item was created. -/
def shelf : World :=
  ({} : World).afterLedger .epoch (.save (.ten 1))

/-- The item was created, and then the claim was made. -/
def claimed : World :=
  { shelf.afterLedger .epoch (.update (.tenWith 4)) with
    reservations := MemoryReservations.empty.apply (.save (.four 1)) }

/-- A second after the claim on four units has expired. -/
def late : Timestamp :=
  (Timestamp.epoch.add? (.ofSeconds 901)).getD .epoch

def ended : Reservation :=
  (Reservation.four 1).moveTo .expired late

/-- All ten units are available again. -/
def freed : StockItem :=
  MemoryLedger.advance (.ten 1) .epoch

def swept : World :=
  { claimed.afterLedger late (.update freed) with
    reservations := claimed.reservations.apply (.update ended) }

/-- An item was created and a claim was made, and a sweep has released the claim. -/
def told : Chronicle where
  broadcast :=
    { world := swept
      notices := [⟨swept, .ofReservation ended ⟨.ofNat 1⟩ .reservationExpired late⟩] }
  outcomes := [.ok { found := 1, released := 1, releasedIds := [(Reservation.four 1).id] }]

def stocked : Chronicle :=
  { broadcast := { world := shelf } }

def sold : Chronicle :=
  { broadcast := { world := claimed } }

theorem expired_claimed : claimed.reservations.expired late 1000 = [.four 1] := by
  have hoverdue : claimed.reservations.rows.values.filter
      (MemoryReservations.overdue late) = [.four 1] := by rfl
  rw [MemoryReservations.expired, hoverdue, List.mergeSort_singleton]
  rfl

theorem reaches_told : Reaches .plain Reservation.defaultTtl {} {} told := by
  have hcreate : Step .plain Reservation.defaultTtl {} {} stocked :=
    .works {} (.createItem ⟨.ofNat 1⟩ 10) (some (.ok (.ten 1))) _
      (.attended .epoch (.ofNat 1) (by rfl))
  have hreserve : Step .plain Reservation.defaultTtl {} stocked sold :=
    .works stocked (.reserve ⟨.ofNat 1⟩ ⟨.ofNat 3⟩ 4 none)
      (some (.ok ⟨(Reservation.four 1).id, (Reservation.four 1).expiresAt, 6⟩)) _
      (.attended .epoch (.ofNat 2) (by rfl))
  -- The sort by which claims are found does not compute, so the search is answered by hand.
  have hfound := Broadcast.Answers.found (b := sold.broadcast)
    (some (.ofSeconds 120)) late 1000
  rw [show sold.broadcast.world.reservations.expired late 1000 = _ from expired_claimed] at hfound
  have hsweep : Step .plain Reservation.defaultTtl {} sold told := by
    refine .triggers sold
      (some (.ok { found := 1, released := 1, releasedIds := [(Reservation.four 1).id] })) _ ?_
    refine .call (.entered true) (.call (.served rfl (.uptime 0) rfl) ?_)
    refine .call (.served rfl (.now late) rfl) (.call hfound ?_)
    exact .attended late (.ofNat 0) (by rfl)
  exact .head hcreate (.head hreserve (.single hsweep))

/-- One claim was released and announced. -/
theorem notices_match_releases_told :
    Reaches .plain Reservation.defaultTtl {} {} told ∧
      told.broadcast.ids = [(Reservation.four 1).id] ∧ told.broadcast.ids = told.released ∧
      (∀ n ∈ told.broadcast.notices, n.Tells) ∧
      ∀ id ∈ told.broadcast.ids, told.broadcast.world.reservations.Expired id := by
  rcases notices_match_releases .plain Reservation.defaultTtl {} reaches_told with
    ⟨hreleased, -, htells, hexpired⟩
  exact ⟨reaches_told, rfl, hreleased, htells, hexpired told .refl⟩

end Chronicle
end StockLedger
