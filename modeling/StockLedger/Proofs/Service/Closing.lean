import Mathlib.Tactic.Common
import StockLedger.Proofs.Memory.Ledger
import StockLedger.Proofs.Memory.Reservations
import StockLedger.Proofs.Rehearsal.Refusals
import StockLedger.Proofs.Stock.Reservation
import StockLedger.Service.Claim

/-!
# What a settlement comes to

A settlement looks at one thing after another before it writes the item and then the claim. Any of
its four requests to the stores may be refused. The first thing that is in its way decides how it
ends. Both stores stay as they are, unless the item is written by then and the claim is not.

* `Closing.Leg`, `Closing.Obstacle` : the requests, and what may be in the way;
* `Closing.checks` : what each settlement looks at, in its order;
* `Obstacle.Says` : that something is in the way, and the refusal for it;
* `Closing.Concludes` : all that a settlement comes to;
* `settlements_conclude` : every settlement without a cache comes to that.
-/

namespace StockLedger

/-- The refusal to take more units out of the claimed ones than there are. -/
def Settlement.shortfall : Settlement → Int → Int → Fault
  | confirm => .invalidConfirm
  | release | expire => .invalidRelease

/-- How many units leave the stock with a claim on so many. -/
def Settlement.takes : Settlement → Int → Int
  | confirm, units => units
  | release, _ | expire, _ => 0

namespace Closing

/-! ## What may be in the way -/

/-- The requests to the stores, in the order in which they are made. -/
inductive Leg
  | readClaim
  | readItem
  | writeItem
  | writeClaim
deriving DecidableEq, Repr

def Leg.method : Leg → String
  | readClaim => "reservations.load"
  | readItem => "ledger.load"
  | writeItem => "ledger.update"
  | writeClaim => "reservations.update"

theorem Leg.method_injective {a b : Leg} (h : a.method = b.method) : a = b := by
  cases a <;> cases b <;> first | rfl | exact absurd h (by decide)

/-- What may be in the way of a settlement. -/
inductive Obstacle
  /-- A request to a store is refused. -/
  | refused (leg : Leg)
  /-- There is no such claim. -/
  | unknown
  /-- The claim has ended. -/
  | ended
  /-- The claim has expired. -/
  | late
  /-- The claim has not expired. -/
  | early
  /-- The item of the claim is gone. -/
  | gone
  /-- The item has fewer units claimed than the claim is for. -/
  | short
deriving DecidableEq, Repr

open Obstacle Leg

/-- What is looked at before a claim is settled whose identity is given. -/
def lookUp : List Obstacle :=
  [refused readClaim, unknown]

/-- What is looked at before and after the item is. -/
def before : Settlement → List Obstacle
  | .confirm => [ended, late]
  | .release => [ended]
  | .expire => []

def after : Settlement → List Obstacle
  | .confirm => []
  | .release => []
  | .expire => [ended, early]

/-- What a settlement of a known claim looks at, in this order. -/
def checks (k : Settlement) : List Obstacle :=
  before k ++ refused readItem :: gone :: short ::
    (after k ++ [refused writeItem, refused writeClaim])

variable {s s₁ : Stage} {k : Settlement} {id : ReservationId} {r : Reservation} {x u : StockItem}

/-- This is in the way of the settlement of a claim, and the refusal says so. -/
def Obstacle.Says (s : Stage) (k : Settlement) (id : ReservationId) (f : Fault) : Obstacle → Prop
  | refused leg => (s.waiting leg.method).fail = some f
  | unknown => s.reservations.rows.find? id = none ∧
      f = .reservationNotFound (MemoryReservations.aboutReservation id)
  | ended => ∃ r, s.reservations.rows.find? id = some r ∧ r.status ≠ .pending ∧ f = r.notPending
  | late => ∃ r, s.reservations.rows.find? id = some r ∧ r.expiresAt < s.clock.now ∧
      f = .reservationExpired r.expiryDetail
  | early => ∃ r, s.reservations.rows.find? id = some r ∧ ¬ r.expiresAt < s.clock.now ∧
      f = .reservationNotExpired r.expiryDetail
  | gone => ∃ r, s.reservations.rows.find? id = some r ∧
      s.ledger.items.find? r.itemId = none ∧
      f = .itemNotFound (MemoryLedger.aboutItem r.itemId)
  | short => ∃ r x, s.reservations.rows.find? id = some r ∧
      s.ledger.items.find? r.itemId = some x ∧ x.reserved < r.quantity ∧
      f = k.shortfall r.quantity x.reserved

/-! ## What a settlement comes to -/

/-- How the item of a claim is changed when the claim is settled. -/
structure Lowers (k : Settlement) (r : Reservation) (now : Timestamp) (x x' : StockItem) :
    Prop where
  id : x'.id = x.id
  productId : x'.productId = x.productId
  quantity : x'.quantity = x.quantity - k.takes r.quantity
  reserved : x'.reserved = x.reserved - r.quantity
  version : x'.version.toNat = x.version.toNat + 1
  createdAt : x'.createdAt = x.createdAt
  updatedAt : x'.updatedAt = now

/-- What is shown once an item is written over. -/
def withItem (g : Scenery) (x : StockItem) : Scenery :=
  { g with ledger := { g.ledger with items := g.ledger.items.insert x.id x } }

/-- What is shown once a claim is written over. -/
def withClaim (g : Scenery) (r : Reservation) : Scenery :=
  { g with reservations :=
      { g.reservations with rows := g.reservations.rows.insert r.id r } }

/-- What is shown once something is reported. -/
def withReport (g : Scenery) (level : LogLevel) (message : String) : Scenery :=
  { g with log := g.log ++ [⟨level, message⟩] }

/-- The claim, its item, and the item as the settlement writes it. -/
structure Settles (s : Stage) (k : Settlement) (id : ReservationId) (r : Reservation)
    (x' : StockItem) : Prop where
  claim : s.reservations.rows.find? id = some r
  names : r.id = id
  pending : r.status = .pending
  item : ∃ x, s.ledger.items.find? r.itemId = some x ∧ Lowers k r s.clock.now x x'

/--
What a settlement comes to that has these things left to look at. Nothing is changed by a refusal,
except that the item stays written if it is the last request that is refused.
-/
inductive Concludes (s : Stage) (k : Settlement) (id : ReservationId) :
    List Obstacle → Answer (Reservation × StockItem) → Stage → Prop
  | stopped {o : Obstacle} {rest : List Obstacle} {f : Fault} {s' : Stage} (h : o.Says s k id f)
      (hlast : o ≠ refused writeClaim) (hsame : s'.scenery = s.scenery) :
      Concludes s k id (o :: rest) (.error f) s'
  | halfway {r : Reservation} {x' : StockItem} {f : Fault} {s' : Stage}
      (h : (refused writeClaim).Says s k id f) (hsettles : Settles s k id r x')
      (hwritten : s'.scenery = withReport (withItem s.scenery x') .error
        "reservation write failed after ledger update; ledger and reservation disagree") :
      Concludes s k id [refused writeClaim] (.error f) s'
  | passed {o : Obstacle} {rest : List Obstacle} {out : Answer (Reservation × StockItem)}
      {s' : Stage} (h : ∀ f, ¬ o.Says s k id f) (hrest : Concludes s k id rest out s') :
      Concludes s k id (o :: rest) out s'
  | settled {r : Reservation} {x' : StockItem} {s' : Stage} (hsettles : Settles s k id r x')
      (hwritten : s'.scenery = withReport
        (withClaim (withItem s.scenery x') (r.moveTo k.status s.clock.now))
        .info "reservation settled") :
      Concludes s k id [] (.ok (r.moveTo k.status s.clock.now, x')) s'

theorem Concludes.passed_append {l rest : List Obstacle} {out : Answer (Reservation × StockItem)}
    {s' : Stage} (h : ∀ o ∈ l, ∀ f, ¬ o.Says s k id f) (hrest : Concludes s k id rest out s') :
    Concludes s k id (l ++ rest) out s' := by
  induction l with
  | nil => exact hrest
  | cons o l ih =>
    refine .passed (h o List.mem_cons_self) (ih fun o' ho' => h o' (List.mem_cons_of_mem _ ho'))

/-! ## Requests on the way -/

/-- The stage shows this, and for these requests the cues still wait that did at first. -/
structure Ahead (s : Stage) (legs : List Leg) (g : Scenery) (s₁ : Stage) : Prop where
  refusing : s₁.Refusing
  waiting : ∀ leg ∈ legs, s₁.waiting leg.method = s.waiting leg.method
  scenery : s₁.scenery = g

/-- A request that goes to no store is carried out. -/
theorem Ahead.quiet {legs : List Leg} {g : Scenery} (h : Ahead s legs g s₁) {c : Call}
    (hc : c.method? = none) : (s₁.serve c).1 = (s₁.perform c).1 ∧
      Ahead s legs (s₁.perform c).2.scenery (s₁.serve c).2 := by
  have hcue : s₁.cueOf c = {} := by
    unfold Stage.cueOf
    rw [hc]
    rfl
  rcases h.refusing.serve_quiet hcue with ⟨hreply, hscenery⟩
  refine ⟨hreply, h.refusing.serve c, fun leg hleg => ?_, hscenery⟩
  rw [h.refusing.waiting_serve (hc ▸ nofun)]
  exact h.waiting leg hleg

/-- What a request to a store is answered with: its refusal, or what the store answers. -/
inductive Told (s : Stage) (leg : Leg) (legs : List Leg) (g g' : Scenery) {α : Type}
    (a : Answer α) : Answer α → Stage → Prop
  | refused {f : Fault} {s₁ : Stage} (h : (s.waiting leg.method).fail = some f)
      (hs₁ : Ahead s legs g s₁) : Told s leg legs g g' a (.error f) s₁
  | made {s₁ : Stage} (h : (s.waiting leg.method).fail = none) (hs₁ : Ahead s legs g' s₁) :
      Told s leg legs g g' a a s₁

/-- No call is carried out and then reported as refused. -/
def Honest (s : Stage) : Prop :=
  ∀ leg : Leg, (s.waiting leg.method).failAfter = none

section

variable {leg : Leg} {legs : List Leg} {g g' : Scenery} {c : Call} {α : Type}

/-- A request to a store is refused as its cue says, or carried out. -/
theorem Ahead.ask (h : Ahead s (leg :: legs) g s₁) (hhonest : Honest s) (hleg : leg ∉ legs)
    (hc : c.method? = some leg.method) (read : c.Reply → Answer α) {a : Answer α}
    (hrefuse : ∀ f, ∃ r, Stage.refuse f c = some r ∧ read r = .error f)
    (hmade : (s₁.perform c).2.scenery = g' ∧ read (s₁.perform c).1 = a) :
    (read <$> Program.ask c).Safe (Stage.setting False) (Told s leg legs g g' a) s₁ := by
  have hcue : s₁.cueOf c = s.waiting leg.method := by
    unfold Stage.cueOf
    rw [hc, Option.map_some, Option.getD_some]
    exact h.waiting leg List.mem_cons_self
  have hahead (g₂ : Scenery) (hg₂ : (s₁.serve c).2.scenery = g₂) :
      Ahead s legs g₂ (s₁.serve c).2 := by
    refine ⟨h.refusing.serve c, fun leg' hleg' => ?_, hg₂⟩
    rw [h.refusing.waiting_serve]
    · exact h.waiting leg' (List.mem_cons_of_mem _ hleg')
    · intro hm
      have hsame : leg = leg' := Leg.method_injective (Option.some.inj (hc.symm.trans hm))
      exact hleg (hsame ▸ hleg')
  refine Program.Safe.bind (p := Program.ask c)
    (P := fun r s₂ => Told s leg legs g g' a (read r) s₂) (Stage.safe_ask ?_) fun _ _ hr => hr
  cases hfail : (s.waiting leg.method).fail with
  | some f =>
    -- The store is not asked, and what is read of the refusal is the refusal.
    rcases hrefuse f with ⟨r, hr, hread⟩
    rcases h.refusing.serve_refused (hcue ▸ hfail) hr with ⟨hreply, hscenery⟩
    rw [hreply, hread]
    exact .refused hfail (hahead g (hscenery.trans h.scenery))
  | none =>
    rcases h.refusing.serve_made (c := c) (hcue ▸ hfail) with ⟨hreply, hscenery⟩
    rw [hcue, hhonest leg, Option.elim_none] at hreply
    rw [hreply, hmade.2]
    exact .made hfail (hahead g' (hscenery.trans hmade.1))

end

/-! ## What is looked at -/

/-- An answer is refused for the first of these things that is in the way, and for nothing else. -/
structure Looks (s : Stage) (k : Settlement) (id : ReservationId) (l : List Obstacle) {α : Type}
    (a : Answer α) : Prop where
  clear : ∀ v, a = .ok v → ∀ o ∈ l, ∀ f, ¬ o.Says s k id f
  stops : ∀ f, a = .error f → ∀ rest s', s'.scenery = s.scenery →
    Concludes s k id (l ++ rest) (.error f) s'

section

variable {l rest : List Obstacle} {α : Type} {a : Answer α}

/-- One look, after which the answer is there. -/
theorem looks_one {o : Obstacle} (hlast : o ≠ refused writeClaim)
    (hclear : ∀ v, a = .ok v → ∀ f, ¬ o.Says s k id f)
    (hstops : ∀ f, a = .error f → o.Says s k id f) : Looks s k id [o] a where
  clear v hv o' ho' := by
    rw [List.mem_singleton.1 ho']
    exact hclear v hv
  stops f hf _ _ hsame := .stopped (hstops f hf) hlast hsame

/-- A look that shows nothing, before others. -/
theorem Looks.cons {o : Obstacle} (h : ∀ f, ¬ o.Says s k id f) (hl : Looks s k id l a) :
    Looks s k id (o :: l) a where
  clear v hv o' ho' := by
    rcases List.mem_cons.1 ho' with rfl | hrest
    · exact h
    · exact hl.clear v hv o' hrest
  stops f hf rest s' hsame := .passed h (hl.stops f hf rest s' hsame)

theorem looks_nil (v : α) : Looks s k id [] (.ok v : Answer α) where
  clear _ _ _ ho := nomatch ho
  stops _ hf := nomatch hf

/-- What is made of an answer does not matter. -/
theorem Looks.map {β : Type} (h : Looks s k id l a) (f : α → β) : Looks s k id l (a.map f) := by
  cases a with
  | ok v => exact ⟨fun _ _ => h.clear v rfl, nofun⟩
  | error e =>
    refine ⟨nofun, fun f hf => ?_⟩
    cases hf
    exact h.stops e rfl

/-- What is looked at decides, or else what comes after it. -/
theorem Looks.safe_bind {f : α → Request (Reservation × StockItem)} (h : Looks s k id l a)
    (hsame : s₁.scenery = s.scenery)
    (hf : ∀ v, a = .ok v → (f v).run.Safe (Stage.setting False) (Concludes s k id rest) s₁) :
    (Request.ofAnswer a >>= f).run.Safe (Stage.setting False)
      (Concludes s k id (l ++ rest)) s₁ := by
  cases a with
  | ok v => exact (hf v rfl).mono fun _ _ hrest => .passed_append (h.clear v rfl) hrest
  | error e => exact h.stops e rfl rest s₁ hsame

end

section

variable (hr : s.reservations.rows.find? id = some r)

include hr

theorem not_ended (h : r.status = .pending) (f : Fault) : ¬ ended.Says s k id f := by
  rintro ⟨r', hr', hstatus, -⟩
  cases hr.symm.trans hr'
  exact hstatus h

/-- That the claim is pending is looked at first. -/
theorem looks_pending {o : Obstacle} {a : Answer Unit}
    (h : r.status = .pending → Looks s k id [o] a) :
    Looks s k id [ended, o] (if r.status ≠ .pending then .error r.notPending else a) := by
  by_cases hstatus : r.status = .pending
  · rw [if_neg (not_not.2 hstatus)]
    exact .cons (not_ended hr hstatus) (h hstatus)
  · rw [if_pos hstatus]
    refine ⟨nofun, fun f hf rest s' hsame => .stopped ?_ nofun hsame⟩
    cases hf
    exact ⟨r, hr, hstatus, rfl⟩

theorem looks_ensureConfirmable : Looks s k id [ended, late] (r.ensureConfirmable s.clock.now) := by
  refine looks_pending hr fun _ => looks_one nofun ?_ ?_
  · rintro v hv f ⟨r', hr', hlate, -⟩
    cases hr.symm.trans hr'
    rw [if_pos (r.isExpired_iff.2 hlate)] at hv
    cases hv
  · intro f hf
    split at hf
    · next hlate =>
      cases hf
      exact ⟨r, hr, r.isExpired_iff.1 hlate, rfl⟩
    · cases hf

theorem looks_ensureReleasable : Looks s k id [ended] r.ensureReleasable := by
  refine looks_one nofun ?_ ?_
  · intro v hv
    have hensure : Settlement.release.ensure r s.clock.now = .ok () := hv
    exact not_ended hr (Settlement.pending_of_ensure hensure)
  · intro f hf
    unfold Reservation.ensureReleasable at hf
    split at hf
    · cases hf
    · next hstatus =>
      cases hf
      exact ⟨r, hr, fun hpending => hstatus (beq_iff_eq.2 hpending), rfl⟩

theorem looks_ensureExpirable : Looks s k id [ended, early] (r.ensureExpirable s.clock.now) := by
  refine looks_pending hr fun _ => looks_one nofun ?_ ?_
  · rintro v hv f ⟨r', hr', hearly, -⟩
    cases hr.symm.trans hr'
    rw [if_neg (r.isExpired_iff.not.2 hearly)] at hv
    cases hv
  · intro f hf
    split at hf
    · cases hf
    · next hearly =>
      cases hf
      exact ⟨r, hr, r.isExpired_iff.not.1 hearly, rfl⟩

/-- What is looked at before the item is. -/
theorem looks_guard : Looks s k id (before k) (k.guard r s.clock.now) := by
  cases k with
  | confirm => exact looks_ensureConfirmable hr
  | release => exact looks_ensureReleasable hr
  | expire => exact looks_nil ()

/-- What is looked at after the item is; only an expiry was not looked at before. -/
theorem looks_transition (hguard : k.guard r s.clock.now = .ok ()) :
    Looks s k id (after k) (k.transition r s.clock.now) := by
  rw [Settlement.transition_eq]
  cases k with
  -- A confirmation and a release ask a second time what their guard has answered already.
  | confirm =>
    have hensure : Settlement.confirm.ensure r s.clock.now = .ok () := hguard
    rw [hensure]
    exact looks_nil _
  | release =>
    have hensure : Settlement.release.ensure r s.clock.now = .ok () := hguard
    rw [hensure]
    exact looks_nil _
  | expire =>
    exact (looks_ensureExpirable hr).map _

/-- The item of the claim is looked for. -/
theorem looks_load : Looks s k id [gone] (s.ledger.load r.itemId) := by
  unfold MemoryLedger.load
  refine looks_one nofun ?_ ?_
  · rintro v hv f ⟨r', hr', hgone, -⟩
    cases hr.symm.trans hr'
    rw [hgone] at hv
    cases hv
  · intro f hf
    cases hfind : s.ledger.items.find? r.itemId with
    | some x =>
      rw [hfind] at hf
      cases hf
    | none =>
      rw [hfind] at hf
      cases hf
      exact ⟨r, hr, hfind, rfl⟩

end

/-! ## The units -/

/-- Fewer units are claimed than are to be taken out of them. -/
theorem apply_of_short {units : Int} (hunits : 0 < units) (hshort : x.reserved < units) :
    x.apply k.change units = .error (k.shortfall units x.reserved) := by
  have hle : ¬ units ≤ x.reserved := by omega
  cases k with
  | confirm => exact (dif_pos hunits).trans (dif_neg hle)
  | release => exact (dif_pos hunits).trans (dif_neg hle)
  | expire => exact (dif_pos hunits).trans (dif_neg hle)

/-- Units that are claimed can be taken out of the claimed ones. -/
theorem exists_apply {units : Int} (hunits : 0 < units) (hle : units ≤ x.reserved) :
    ∃ u, x.apply k.change units = .ok u ∧ u.id = x.id ∧ u.productId = x.productId ∧
      u.quantity = x.quantity - k.takes units ∧ u.reserved = x.reserved - units ∧
      u.version = x.version ∧ u.createdAt = x.createdAt := by
  cases k with
  | confirm =>
    have hquantity : units ≤ x.quantity := hle.trans x.reserved_le
    refine ⟨_, (dif_pos hunits).trans ((dif_pos hle).trans (if_pos hquantity)), ?_⟩
    exact ⟨rfl, rfl, rfl, rfl, rfl, rfl⟩
  | release =>
    exact ⟨_, StockItem.release_of_le hunits hle, rfl, rfl, (Int.sub_zero _).symm, rfl, rfl, rfl⟩
  | expire =>
    exact ⟨_, StockItem.release_of_le hunits hle, rfl, rfl, (Int.sub_zero _).symm, rfl, rfl, rfl⟩

theorem looks_apply (hr : s.reservations.rows.find? id = some r)
    (hx : s.ledger.items.find? r.itemId = some x) :
    Looks s k id [short] (x.apply k.change r.quantity) := by
  have hunits := r.quantity_range.1
  refine looks_one nofun ?_ ?_
  · rintro v hv f ⟨r', x', hr', hx', hshort, -⟩
    cases hr.symm.trans hr'
    cases hx.symm.trans hx'
    rw [apply_of_short hunits hshort] at hv
    cases hv
  · intro f hf
    by_cases hle : r.quantity ≤ x.reserved
    · rcases exists_apply (k := k) hunits hle with ⟨u, hu, -⟩
      rw [hu] at hf
      cases hf
    · have hshort : x.reserved < r.quantity := Int.not_le.1 hle
      rw [apply_of_short hunits hshort] at hf
      cases hf
      exact ⟨r, x, hr, hx, hshort, rfl⟩

/-- The item as it is stored once the units are taken out of the claimed ones. -/
theorem lowers_advance (now : Timestamp) (hu : x.apply k.change r.quantity = .ok u)
    (hversion : x.version.toNat + 1 < 2 ^ 64) :
    Lowers k r now x (MemoryLedger.advance u now) ∧ u.id = x.id ∧ u.version = x.version := by
  have hunits := r.quantity_range.1
  have hle : r.quantity ≤ x.reserved := by
    by_contra hle
    rw [apply_of_short hunits (Int.not_le.1 hle)] at hu
    cases hu
  rcases exists_apply (k := k) hunits hle with
    ⟨u', hu', hid, hproduct, hquantity, hreserved, hsame, hcreated⟩
  cases hu.symm.trans hu'
  have hnext : (MemoryLedger.advance u now).version.toNat = x.version.toNat + 1 := by
    change (u.version + 1).toNat = _
    rw [hsame, UInt64.toNat_add]
    exact Nat.mod_eq_of_lt hversion
  exact ⟨⟨hid, hproduct, hquantity, hreserved, hnext, hcreated, rfl⟩, hid, hsame⟩

/-! ## Walking through -/

section

variable {v : Service} {leg : Leg} {legs : List Leg} {g : Scenery}

theorem told_reservations (h : Ahead s (leg :: legs) g s₁) (hhonest : Honest s) (hleg : leg ∉ legs)
    {c : ReservationCall} (hc : c.method = leg.method) :
    (Service.reservations c).run.Safe (Stage.setting False)
      (Told s leg legs g { g with reservations := g.reservations.apply c }
        (g.reservations.reply c)) s₁ := by
  have hscenery := h.scenery
  subst hscenery
  exact h.ask (c := .reservations c) hhonest hleg (congrArg some hc) (fun a => a)
    (fun f => ⟨.error f, rfl, rfl⟩) ⟨rfl, rfl⟩

theorem told_load (hv : v.ledger = Stack.plain.ledger) (h : Ahead s (readItem :: legs) g s₁)
    (hhonest : Honest s) (hleg : readItem ∉ legs) {i : ItemId} :
    (v.item i).run.Safe (Stage.setting False) (Told s readItem legs g g (g.ledger.load i)) s₁ := by
  have hdirect : (v.item i).run = LedgerAccess.direct (.load i) := by
    rw [Service.item, hv]
    rfl
  have hscenery := h.scenery
  subst hscenery
  rw [hdirect]
  exact h.ask (c := .ledger (.load i)) hhonest hleg rfl (fun a => a)
    (fun f => ⟨.error f, rfl, rfl⟩) ⟨rfl, rfl⟩

theorem told_write (hv : v.ledger = Stack.plain.ledger) (h : Ahead s (writeItem :: legs) g s₁)
    (hhonest : Honest s) (hleg : writeItem ∉ legs) :
    (v.write u).run.Safe (Stage.setting False)
      (Told s writeItem legs g { g with ledger := g.ledger.apply g.now (.update u) }
        (g.ledger.reply g.now (.update u)).answer) s₁ := by
  have hdirect : (v.write u).run = (Written.answer <$> LedgerAccess.direct (.update u)) := by
    rw [Service.write, hv]
    rfl
  have hscenery := h.scenery
  subst hscenery
  rw [hdirect]
  exact h.ask (c := .ledger (.update u)) hhonest hleg rfl Written.answer
    (fun f => ⟨⟨.error f, u⟩, rfl, rfl⟩) ⟨rfl, rfl⟩

/-- A request to a store is refused, or what it is answered with is looked at. -/
theorem Looks.safe_told_bind {l rest : List Obstacle} {α : Type} {a : Answer α} {y : Request α}
    {f : α → Request (Reservation × StockItem)} (hlooks : Looks s k id l a)
    (hlast : leg ≠ writeClaim) (hsame : ∀ e, a = .error e → g = s.scenery)
    (hy : y.run.Safe (Stage.setting False) (Told s leg legs s.scenery g a) s₁)
    (hf : ∀ v s₂, a = .ok v → Ahead s legs g s₂ →
      (f v).run.Safe (Stage.setting False) (Concludes s k id rest) s₂) :
    (y >>= f).run.Safe (Stage.setting False)
      (Concludes s k id (refused leg :: (l ++ rest))) s₁ := by
  have hmade (hfail : (s.waiting leg.method).fail = none) (e : Fault) :
      ¬ (refused leg).Says s k id e := fun he => nomatch hfail.symm.trans he
  have hleg : refused leg ≠ refused writeClaim := fun h => hlast (Obstacle.refused.inj h)
  refine Program.Safe.bind (p := y.run) hy fun b s₂ hb => ?_
  cases hb with
  | refused hfail hs₂ => exact .stopped hfail hleg hs₂.scenery
  | made hfail hs₂ =>
    cases a with
    | ok v =>
      refine (hf v s₂ rfl hs₂).mono fun _ _ hrest => .passed (hmade hfail) ?_
      exact .passed_append (hlooks.clear v rfl) hrest
    | error e =>
      exact .passed (hmade hfail) (hlooks.stops e rfl rest s₂ (hs₂.scenery.trans (hsame e rfl)))

theorem safe_now (h : Ahead s legs g s₁) :
    Service.now.run.Safe (Stage.setting False)
      (fun a s₂ => a = .ok g.now ∧ Ahead s legs g s₂) s₁ := by
  rcases h.quiet (c := .now) rfl with ⟨hreply, hahead⟩
  refine Program.Safe.bind (p := Program.ask .now)
    (P := fun t s₂ => t = g.now ∧ Ahead s legs g s₂) (Stage.safe_ask ⟨?_, ?_⟩) fun t s₂ ht => ?_
  · rw [hreply, ← h.scenery]
    rfl
  · rw [← h.scenery]
    exact hahead
  · exact ⟨congrArg Except.ok ht.1, ht.2⟩

theorem safe_log (h : Ahead s legs g s₁) {level : LogLevel} {message : String} :
    (Program.log level message).Safe (Stage.setting False)
      (fun _ s₂ => Ahead s legs (withReport g level message) s₂) s₁ := by
  have hscenery := h.scenery
  subst hscenery
  exact Stage.safe_ask (h.quiet (c := .log ⟨level, message⟩) rfl).2

/-- What is left to do once the item is written. -/
def finish (r : Reservation) (x : StockItem) : Request (Reservation × StockItem) := do
  Service.reporting
    "reservation write failed after ledger update; ledger and reservation disagree"
    (Service.reservations (.update r))
  Service.log .info "reservation settled"
  return (r, x)

/-- Once the item is written the claim is, or its refusal is reported and nothing is undone. -/
theorem concludes_finish {x' : StockItem} (hsettles : Settles s k id r x') (hhonest : Honest s)
    (h : Ahead s [writeClaim] (withItem s.scenery x') s₁) :
    (finish (r.moveTo k.status s.clock.now) x').run.Safe (Stage.setting False)
      (Concludes s k id [refused writeClaim]) s₁ := by
  have hstored : s.reservations.rows.find? (r.moveTo k.status s.clock.now).id = some r :=
    (congrArg _ hsettles.names).trans hsettles.claim
  have hwrite := told_reservations h hhonest List.not_mem_nil
    (c := .update (r.moveTo k.status s.clock.now)) rfl
  -- The refusal is reported inside of the request and the success after it, so both are carried.
  refine Request.safe_run_bind
    (P := fun a s₂ => (∃ f, a = .error f ∧ (refused writeClaim).Says s k id f ∧
        s₂.scenery = withReport (withItem s.scenery x') .error
          "reservation write failed after ledger update; ledger and reservation disagree") ∨
      a = .ok () ∧ (s.waiting Leg.writeClaim.method).fail = none ∧ Ahead s []
        (withClaim (withItem s.scenery x') (r.moveTo k.status s.clock.now)) s₂) ?_ ?_ ?_
  · refine Program.Safe.bind hwrite fun a s₂ ha => ?_
    cases ha with
    | refused hfail hs₂ =>
      refine Program.Safe.bind (safe_log hs₂) fun _ s₃ hs₃ => ?_
      exact .inl ⟨_, rfl, hfail, hs₃.scenery⟩
    | made hfail hs₂ =>
      have hreply : (withItem s.scenery x').reservations.reply
          (.update (r.moveTo k.status s.clock.now)) = .ok () :=
        MemoryReservations.reply_update hstored
      have happly : (withItem s.scenery x').reservations.apply
          (.update (r.moveTo k.status s.clock.now)) = _ :=
        MemoryReservations.apply_update hstored
      rw [hreply]
      rw [happly] at hs₂
      exact .inr ⟨rfl, hfail, hs₂⟩
  · rintro ⟨⟩ s₂ (⟨f, hf, -⟩ | ⟨-, hfail, hs₂⟩)
    · cases hf
    refine Request.safe_run_bind (P := fun a s₃ => a = .ok () ∧ Ahead s [] _ s₃)
      (Program.Safe.bind (p := Program.log _ _) (safe_log hs₂) fun _ s₃ hs₃ => ⟨rfl, hs₃⟩) ?_ ?_
    · rintro ⟨⟩ s₃ ⟨-, hs₃⟩
      refine .passed (fun f hf => ?_) (.settled hsettles hs₃.scenery)
      cases hfail.symm.trans hf
    · rintro e s₃ ⟨he, -⟩
      cases he
  · rintro e s₂ (⟨f, hf, hsays, hs₂⟩ | ⟨he, -⟩)
    · cases hf
      exact .halfway hsays hsettles hs₂
    · cases he

/-- Once the item is changed it is written, and then the claim is. -/
theorem concludes_write (hv : v.ledger = Stack.plain.ledger) (hhonest : Honest s)
    (hclaim : s.reservations.rows.find? id = some r) (hnames : r.id = id)
    (hpending : r.status = .pending) (hx : s.ledger.items.find? r.itemId = some x)
    (hid : x.id = r.itemId) (hversion : x.version.toNat + 1 < 2 ^ 64)
    (hu : x.apply k.change r.quantity = .ok u)
    (h : Ahead s [writeItem, writeClaim] s.scenery s₁) :
    (v.write u >>= finish (r.moveTo k.status s.clock.now)).run.Safe (Stage.setting False)
      (Concludes s k id [refused writeItem, refused writeClaim]) s₁ := by
  rcases lowers_advance s.clock.now hu hversion with ⟨hlowers, huid, huversion⟩
  have hstored : s.ledger.items.find? u.id = some x := (congrArg _ (huid.trans hid)).trans hx
  have hsettles : Settles s k id r (MemoryLedger.advance u s.clock.now) :=
    ⟨hclaim, hnames, hpending, x, hx, hlowers⟩
  have hreply : s.scenery.ledger.reply s.scenery.now (.update u) = _ :=
    MemoryLedger.reply_update hstored huversion.symm
  have happly : s.scenery.ledger.apply s.scenery.now (.update u) = _ :=
    MemoryLedger.apply_update hstored huversion.symm
  have hwrite := told_write hv h hhonest (u := u) (by decide)
  rw [hreply, happly] at hwrite
  refine (looks_nil _).safe_told_bind nofun nofun hwrite ?_
  rintro x' s₂ ⟨⟩ hs₂
  exact concludes_finish hsettles hhonest hs₂

/-- A claim that is known is settled. -/
theorem concludes_settle (hv : v.ledger = Stack.plain.ledger) (hhonest : Honest s)
    (hclaim : s.reservations.rows.find? id = some r) (hnames : r.id = id)
    (hkeyed : s.ledger.Keyed)
    (hversions : ∀ i x, s.ledger.items.find? i = some x → x.version.toNat + 1 < 2 ^ 64)
    (h : Ahead s [readItem, writeItem, writeClaim] s.scenery s₁) :
    (v.settle k r).run.Safe (Stage.setting False) (Concludes s k id (checks k)) s₁ := by
  refine Request.safe_run_bind (safe_now h) ?_ fun e s₂ he => nomatch he.1
  rintro t s₂ ⟨ht, hs₂⟩
  cases ht
  -- From here on each request takes its own part of the list of checks with it.
  refine (looks_guard hclaim).safe_bind hs₂.scenery fun _ hguard => ?_
  refine (looks_load hclaim).safe_told_bind nofun (fun _ _ => rfl)
    (told_load hv hs₂ hhonest (by decide)) ?_
  intro x s₃ hload hs₃
  rcases hkeyed.find?_of_load hload with ⟨hfind, hid⟩
  have hx : s.ledger.items.find? r.itemId = some x := hid ▸ hfind
  refine (looks_apply hclaim hx).safe_bind hs₃.scenery fun u hu => ?_
  refine (looks_transition hclaim hguard).safe_bind hs₃.scenery fun r' hr' => ?_
  cases Settlement.eq_moveTo_of_transition hr'
  have hpending : r.status = .pending := (k.transition_ok hr').1.pending
  exact concludes_write hv hhonest hclaim hnames hpending hx hid (hversions _ x hx) hu hs₃

theorem looks_claim :
    Looks s k id [unknown] (s.reservations.load id) := by
  unfold MemoryReservations.load
  refine looks_one nofun ?_ ?_
  · rintro r hr f ⟨hnone, -⟩
    rw [hnone] at hr
    cases hr
  · intro f hf
    cases hfind : s.reservations.rows.find? id with
    | some r =>
      rw [hfind] at hf
      cases hf
    | none =>
      rw [hfind] at hf
      cases hf
      exact ⟨hfind, rfl⟩

variable (k id) in
/-- A claim is looked up and settled. -/
theorem concludes_load_settle (hv : v.ledger = Stack.plain.ledger) (hhonest : Honest s)
    (hledger : s.ledger.Keyed) (hclaims : s.reservations.Keyed)
    (hversions : ∀ i x, s.ledger.items.find? i = some x → x.version.toNat + 1 < 2 ^ 64)
    (h : Ahead s [readClaim, readItem, writeItem, writeClaim] s.scenery s₁) :
    (Service.reservations (.load id) >>= v.settle k).run.Safe (Stage.setting False)
      (Concludes s k id (lookUp ++ checks k)) s₁ := by
  refine looks_claim.safe_told_bind nofun (fun _ _ => rfl)
    (told_reservations h hhonest (by decide) (c := .load id) rfl) ?_
  intro r s₂ hload hs₂
  have hclaim := MemoryReservations.find?_of_load hload
  exact concludes_settle hv hhonest hclaim (hclaims id r hclaim) hledger hversions hs₂

/-- Of a settlement whose claim is looked up, only the claim is given back. -/
theorem safe_claim_only {Q : Answer (Reservation × StockItem) → Stage → Prop}
    {x : Request (Reservation × StockItem)}
    (h : x.run.Safe (Stage.setting False) Q s₁) :
    (x >>= fun p => pure p.1 : Request Reservation).run.Safe (Stage.setting False)
      (fun out s' => ∃ a, out = a.map Prod.fst ∧ Q a s') s₁ := by
  refine Program.Safe.bind (p := x.run) h fun a s' ha => ?_
  cases a with
  | ok p => exact ⟨.ok p, rfl, ha⟩
  | error e => exact ⟨.error e, rfl, ha⟩

end

/-- A settlement whose claim is looked up, as one request after another. -/
theorem run_load_settle (v : Service) (k : Settlement) (id : ReservationId) :
    (Service.reservations (.load id) >>= fun r => v.settle k r >>= fun p => pure p.1).run =
      ((Service.reservations (.load id) >>= v.settle k) >>= fun p => pure p.1 :
        Request Reservation).run := by
  refine congrArg (Program.call _) (funext fun a => ?_)
  cases a <;> rfl

theorem honest_of_fail (hcues : ∀ e ∈ s.cues, e.2 = { fail := e.2.fail }) : Honest s := by
  intro leg
  unfold Stage.waiting
  cases h : s.cues.find? (Stage.isFor leg.method) with
  | none => rfl
  | some e =>
    have hcue := hcues e (List.mem_of_find?_eq_some h)
    rw [Option.map_some, Option.getD_some, hcue]

theorem ahead_refl (hcues : ∀ e ∈ s.cues, e.2 = { fail := e.2.fail }) (legs : List Leg) :
    Ahead s legs s.scenery s := by
  refine ⟨fun e he => ?_, fun _ _ => rfl, rfl⟩
  have hcue := hcues e he
  generalize e.2 = cue at hcue
  rw [hcue]
  rfl

end Closing

open Closing in
/--
Where nobody interferes but any request to a store may be refused, every settlement without a cache
ends as its checks decide: the first obstacle is told, or the item and the claim are written.
-/
theorem settlements_conclude {s : Stage} {v : Service} (hv : v.ledger = Stack.plain.ledger)
    (hcues : ∀ e ∈ s.cues, e.2 = { fail := e.2.fail }) (hledger : s.ledger.Keyed)
    (hclaims : s.reservations.Keyed)
    (hversions : ∀ i x, s.ledger.items.find? i = some x → x.version.toNat < 2 ^ 64 - 1)
    (id : ReservationId) :
    (∃ out s', s.run none (v.confirm id).run = (.ended (out.map Prod.fst), s') ∧
        Concludes s .confirm id (lookUp ++ checks .confirm) out s') ∧
      (∃ out s', s.run none (v.release id).run = (.ended (out.map Prod.fst), s') ∧
        Concludes s .release id (lookUp ++ checks .release) out s') ∧
      ∀ r, s.reservations.rows.find? id = some r →
        ∃ out s', s.run none (v.expire r).run = (.ended out, s') ∧
          Concludes s .expire id (checks .expire) out s' := by
  have hhonest := honest_of_fail hcues
  have hroom (i : ItemId) (x : StockItem) (hx : s.ledger.items.find? i = some x) :
      x.version.toNat + 1 < 2 ^ 64 := by
    have := hversions i x hx
    omega
  have looked_up (k : Settlement) : ∃ out s',
      s.run none (Service.reservations (.load id) >>= fun r =>
        v.settle k r >>= fun p => pure p.1 : Request Reservation).run =
          (.ended (out.map Prod.fst), s') ∧ Concludes s k id (lookUp ++ checks k) out s' := by
    have hahead := ahead_refl hcues [.readClaim, .readItem, .writeItem, .writeClaim]
    have hsafe := concludes_load_settle k id hv hhonest hledger hclaims hroom hahead
    rw [run_load_settle]
    rcases Stage.run_of_safe hahead.refusing (safe_claim_only hsafe) with
      ⟨_, s', hrun, out, rfl, hends⟩ | ⟨hbroken, -⟩
    · exact ⟨out, s', hrun, hends⟩
    · exact hbroken.elim
  refine ⟨looked_up .confirm, looked_up .release, fun r hr => ?_⟩
  have hahead := ahead_refl hcues [.readItem, .writeItem, .writeClaim]
  rcases Stage.run_of_safe hahead.refusing
    (concludes_settle (k := .expire) hv hhonest hr (hclaims id r hr) hledger hroom hahead) with
    ⟨out, s', hrun, hends⟩ | ⟨hbroken, -⟩
  · exact ⟨out, s', hrun, hends⟩
  · exact hbroken.elim

namespace Closing

/-- Four of ten units are claimed, and the next write of a claim will be refused. -/
def torn : Stage where
  ledger := MemoryLedger.empty.apply .epoch (.save (.tenWith 4))
  reservations := MemoryReservations.empty.apply (.save (.four 1))
  clock := { now := .epoch }
  ids := { millis := 0 }
  cues := [(Leg.writeClaim.method, { fail := some (.storage "disk full") })]

/-- The claim is to be released, confirmed or expired, but cannot be written. -/
theorem settlements_conclude_torn :
    let v : Service := { ledger := Stack.plain.ledger }
    let id := (Reservation.four 1).id
    torn.reservations.rows.find? id = some (.four 1) ∧
      (∃ out s', torn.run none (v.confirm id).run = (.ended (out.map Prod.fst), s') ∧
        Concludes torn .confirm id (lookUp ++ checks .confirm) out s') ∧
      (∃ out s', torn.run none (v.release id).run = (.ended (out.map Prod.fst), s') ∧
        Concludes torn .release id (lookUp ++ checks .release) out s') ∧
      ∃ out s', torn.run none (v.expire (.four 1)).run = (.ended out, s') ∧
        Concludes torn .expire id (checks .expire) out s' := by
  intro v id
  have hcues : ∀ e ∈ torn.cues, e.2 = { fail := e.2.fail } := by
    intro e he
    rw [List.mem_singleton.1 he]
  have hledger : torn.ledger.Keyed :=
    MemoryLedger.keyed_empty.outcome (MemoryLedger.outcome _ .epoch (.save (.tenWith 4)))
  have hclaims : torn.reservations.Keyed :=
    MemoryReservations.keyed_empty.outcome (MemoryReservations.outcome _ (.save (.four 1)))
  have hrow : torn.reservations.rows.find? id = some (.four 1) := by rfl
  have hversions (i : ItemId) (x : StockItem) (hx : torn.ledger.items.find? i = some x) :
      x.version.toNat < 2 ^ 64 - 1 := by
    rcases Table.of_find?_insert hx with ⟨-, rfl⟩ | ⟨-, hold⟩
    · decide
    · cases hold
  rcases settlements_conclude (s := torn) (v := v) rfl hcues hledger hclaims hversions id with
    ⟨hconfirm, hrelease, hexpire⟩
  exact ⟨hrow, hconfirm, hrelease, hexpire _ hrow⟩

end Closing
end StockLedger
