import Mathlib.Tactic.Common
import StockLedger.Proofs.Memory.Reservations
import StockLedger.Proofs.ReadThrough.Copies
import StockLedger.Proofs.Stock.Reservation
import StockLedger.Service.Claim
import StockLedger.Service.Stock

/-!
# Workflows among others

What a workflow writes, whatever the others do. It offers an item only as a change of one that is
held or was held, and it stores a claim only after the item of the claim.

* `Workflow`, `Working` : the workflows, and workflows as programs;
* `Workflow.claimed`, `Workflow.settled`, `Workflow.gain` : what a workflow does to the reserved
  units of an item;
* `Workflow.Offers`, `Workflow.Moves` : what it may write to the ledger and over a claim;
* `Workflow.conduct`, `safe_workflow` : every workflow keeps to that;
* `Workflow.upheld` : rules that keep the world in order are all that is needed.
-/

namespace StockLedger

open Conduct

/-! ## Workflows as programs -/

/-- The workflows that write, and the removal and the bump of an item. -/
inductive Workflow
  | createItem (product : ProductId) (units : Int)
  | addStock (product : ProductId) (units : Int)
  | removeStock (product : ProductId) (units : Int)
  | reserve (product : ProductId) (order : OrderId) (units : Int) (ttl : Option Span)
  | confirm (id : ReservationId)
  | release (id : ReservationId)
  | expire (r : Reservation)
  | extend (id : ReservationId) (span : Span)
  | deleteItem (id : ItemId)
  | bumpItem (id : ItemId)

namespace Workflow

abbrev Value : Workflow → Type
  | createItem _ _ | addStock _ _ | removeStock _ _ | deleteItem _ | bumpItem _ => StockItem
  | reserve _ _ _ _ => Reserved
  | confirm _ | release _ | extend _ _ => Reservation
  | expire _ => Reservation × StockItem

def request (v : Service) : (t : Workflow) → Request t.Value
  | createItem product units => v.createItem product units
  | addStock product units => v.addStock product units
  | removeStock product units => v.removeStock product units
  | reserve product order units ttl => v.reserve product order units ttl
  | confirm id => v.confirm id
  | release id => v.release id
  | expire r => v.expire r
  | extend id span => Service.extend id span
  | deleteItem id => .ofProgram (v.ledger (.delete id))
  | bumpItem id => .ofProgram (v.ledger (.bumpVersion id))

/-- A claim that is to expire was read before the workflow starts. -/
def opening : Workflow → Record
  | expire r => { claim := some r }
  | _ => {}

def reads : Workflow → Option ReservationId
  | confirm id | release id | extend id _ => some id
  | _ => none

def settles : Workflow → Bool
  | confirm _ | release _ | expire _ => true
  | _ => false

end Workflow

abbrev Working (stack : Stack) (ttl : Span) : Job where
  Task := Workflow
  Outcome t := Answer t.Value
  program t := (t.request { ledger := stack.ledger, defaultTtl := ttl }).run
  opening := Workflow.opening

namespace Record

def units (k : Record) : Int :=
  (k.claim.map Reservation.quantity).getD 0

/-- The item is written, and the claim is not. -/
def Between (k : Record) (i : ItemId) : Prop :=
  k.wrote = some i ∧ k.stored = false

instance (k : Record) (i : ItemId) : Decidable (k.Between i) :=
  inferInstanceAs (Decidable (_ ∧ _))

theorem not_between {k : Record} (h : k.wrote = none) (i : ItemId) : ¬ k.Between i := by
  intro hbetween
  have hwrote := hbetween.1
  rw [h] at hwrote
  cases hwrote

theorem Between.iff_eq {k : Record} {j : ItemId} (h : k.Between j) (i : ItemId) :
    k.Between i ↔ j = i := by
  refine ⟨fun hi => ?_, fun hi => hi ▸ h⟩
  exact Option.some.inj (h.1.symm.trans hi.1)

theorem note_unchanged {k : Record} {c : LedgerCall} {r reply : c.Reply}
    (h : c.changes reply = false) : k.note (.ledger c) r (some reply) = k := by
  cases c with
  | update u =>
    match reply with
    | ⟨.ok (), _⟩ => cases h
    | ⟨.error _, _⟩ => rfl
  | _ => rfl

/-- A request that changes no claim leaves no trace, unless a claim is read. -/
theorem note_unchanged_claims {k : Record} {c : ReservationCall} {r reply : c.Reply}
    (hchanges : c.changes reply = false) (hload : ∀ id, c ≠ .load id) :
    k.note (.reservations c) r (some reply) = k := by
  cases c with
  | load id => exact absurd rfl (hload id)
  | save x | update x =>
    match reply with
    | .ok () => cases hchanges
    | .error f => rfl
  | findByOrder | findExpired | findByItem | count => rfl

end Record

namespace Workflow

/-! ## What a workflow may write -/

/-- The units that a workflow claims. -/
def claimed : Workflow → Int
  | reserve _ _ units _ => units
  | _ => 0

/-- The units of the claim that a workflow ends. -/
def settled : Workflow → Record → Int
  | confirm _, k | release _, k | expire _, k => k.units
  | _, _ => 0

/-- How many more units are reserved once the workflow has written its item. -/
def gain (t : Workflow) (k : Record) : Int :=
  t.claimed - t.settled k

/-- An item is offered as a change of one that was held; who settles has read a pending claim. -/
structure Offers (t : Workflow) (k : Record) (w : World) (u : StockItem) : Prop where
  copy : ∃ x, w.Held x ∧ x.Changed u (t.gain k)
  claim : t.settles = true → ∃ r, k.claim = some r ∧ r.status = .pending ∧ u.id = r.itemId
  first : t.gain k = 0 ∨ k.wrote = none ∧ k.stored = false

/-- A claim is stored over the one that was read; it ends only after its item was written. -/
structure Moves (t : Workflow) (k : Record) (r r' : Reservation) : Prop where
  claim : k.claim = some r
  moved : r.Moved r'
  first : k.stored = false
  last : r'.status = .pending ∧ t.gain k = 0 ∨
    r'.status ≠ .pending ∧ k.Between r.itemId ∧ t.gain k = -r.quantity

/-- What a workflow may ask of the ledger. -/
def MayAsk (t : Workflow) (k : Record) (w : World) : LedgerCall → Prop
  | .save x => t.settles = false ∧ x.reserved = 0 ∧ x.version = StockItem.firstVersion
  | .update u => t.Offers k w u
  | .delete _ | .bumpVersion _ => t.settles = false
  | _ => True

/-- What a workflow may ask of the keeper of reservations. -/
def MayClaim (t : Workflow) (k : Record) : ReservationCall → Prop
  | .load id => t.reads = some id ∧ k.wrote = none
  | .save r => r.status = .pending ∧ k.Between r.itemId ∧ t.gain k = r.quantity
  | .update r' => ∃ r, t.Moves k r r'
  | _ => True

/-- What is expected of a workflow: who ends a claim and succeeds has written the item. -/
def conduct (stack : Stack) (ttl : Span) : Conduct (Working stack ttl) where
  ledger := MayAsk
  reservations := MayClaim
  promise t a k _ := t.settles = true → ∀ v, a = .ok v → ∃ i, k.wrote = some i

end Workflow

section

variable {stack : Stack} {ttl : Span} {inv : World → Prop} {t : Workflow} {s : Record × World}

/-! ## Single requests -/

theorem safe_inRange_bind {α β : Type} {σ : Type} {E : Setting σ} {Q : β → σ → Prop}
    {a : Option (Answer α)} {f : α → Request β} {s : σ} (hbreak : E.mayBreak)
    (h : ∀ v, a = some (.ok v) → (f v).Safe E Q s) :
    (Service.inRange a >>= f).Safe E Q s := by
  match a with
  | none => exact hbreak
  | some (.ok v) => exact h v rfl
  | some (.error e) => exact fun v hv => nomatch hv

theorem safe_now {C : Conduct (Working stack ttl)} :
    Service.now.Safe (C.setting inv t) (fun _ s' => Later inv s s') s :=
  Request.safe_lift (safe_ask_quiet (fun _ => trivial) fun _ _ _ => rfl)

theorem safe_freshUuid {C : Conduct (Working stack ttl)} :
    Service.freshUuid.Safe (C.setting inv t) (fun _ s' => Later inv s s') s :=
  Request.safe_lift (safe_ask_quiet (fun _ => trivial) fun _ _ _ => rfl)

theorem safe_report {C : Conduct (Working stack ttl)} {level : LogLevel} {message : String} :
    (Service.log level message).Safe (C.setting inv t) (fun _ s' => Later inv s s') s :=
  Request.safe_lift safe_log_among

theorem safe_reservations {C : Conduct (Working stack ttl)} {c : ReservationCall}
    (hc : ∀ s', Later inv s s' → C.reservations t s'.1 c) :
    (Service.reservations c).Safe (C.setting inv t)
      (fun v s' => Later inv (s.1.note (.reservations c) (.ok v) (some (.ok v)), s.2) s') s := by
  intro s' hs'
  refine ⟨hc s' hs', fun r s'' hr => ?_⟩
  rcases hr with ⟨served, hserves, hreports, hrecord, horder⟩
  rintro v rfl
  -- Nobody is told of a success unless the request was carried out.
  have hserved : served = some (.ok v) := by
    rcases hreports with h | ⟨f, hf⟩
    · exact h
    · cases hf
  rw [hserved, hs'.record] at hrecord
  exact ⟨hrecord, hserves.extends.trans hs'.world, horder⟩

theorem safe_reporting {C : Conduct (Working stack ttl)} {α : Type} {message : String}
    {x : Request α} {Q : α → Record × World → Prop} (h : x.Safe (C.setting inv t) Q s) :
    (Service.reporting message x).Safe (C.setting inv t) Q s := by
  refine Program.Safe.bind (p := x.run) h fun a s' ha => ?_
  match a with
  | .ok v => exact ha
  | .error f =>
    refine Program.Safe.bind safe_log_among fun _ s'' _ => ?_
    exact fun v hv => nomatch hv

variable {v : Service}

theorem safe_write (hv : v.ledger = stack.ledger) {C : Conduct (Working stack ttl)} {u : StockItem}
    (hc : ∀ s', Later inv s s' → C.ledger t s'.1 s'.2 (.update u)) :
    (v.write u).Safe (C.setting inv t)
      (fun _ s' => Later inv ({ s.1 with wrote := some u.id }, s.2) s') s := by
  have hupdate := safe_update stack hc
  rw [← hv] at hupdate
  refine Program.Safe.bind hupdate fun r s' hr => ?_
  intro x hx
  rcases Answer.of_map_ok hx with ⟨_, hok, -⟩
  exact ⟨hr.success hok, hr.world, hr.order⟩

theorem safe_item (hv : v.ledger = stack.ledger) {C : Conduct (Working stack ttl)}
    (hinv : ∀ w, inv w → w.Faithful) {id : ItemId}
    (hc : ∀ s', Later inv s s' → C.ledger t s'.1 s'.2 (.load id)) :
    (v.item id).Safe (C.setting inv t)
      (fun x s' => Later inv s s' ∧ s'.2.Held x ∧ x.id = id) s := by
  have hload : (stack.ledger (.load id)).Safe (C.setting inv t) _ s := safe_load stack hinv hc
  rw [← hv] at hload
  exact hload.mono fun _ _ h x hx => ⟨h.1, h.2 x hx⟩

theorem safe_itemOf (hv : v.ledger = stack.ledger) {C : Conduct (Working stack ttl)}
    (hinv : ∀ w, inv w → w.Faithful) {p : ProductId}
    (hc : ∀ s', Later inv s s' → C.ledger t s'.1 s'.2 (.findByProduct p)) :
    (v.itemOf p).Safe (C.setting inv t) (fun x s' => Later inv s s' ∧ s'.2.Held x) s := by
  have hfind : (stack.ledger (.findByProduct p)).Safe (C.setting inv t) _ s :=
    safe_findByProduct stack hinv hc
  rw [← hv] at hfind
  exact hfind.mono fun _ _ h x hx => ⟨h.1, (h.2 x hx).1⟩

/-! ## Workflows -/

theorem create_ok {id : ItemId} {p : ProductId} {units : Int} {now : Timestamp} {x : StockItem}
    (h : StockItem.create id p units now = .ok x) :
    x.reserved = 0 ∧ x.version = StockItem.firstVersion := by
  unfold StockItem.create at h
  split at h
  · cases h
    exact ⟨rfl, rfl⟩
  · cases h

theorem safe_createItem (hv : v.ledger = stack.ledger) {p : ProductId} {units : Int}
    (ht : t.settles = false) :
    (v.createItem p units).Safe ((Workflow.conduct stack ttl).setting inv t)
      (fun _ s' => Later inv s s') s := by
  refine safe_freshUuid.bind fun id s₁ h₁ => ?_
  refine safe_now.bind fun now s₂ h₂ => ?_
  refine Request.safe_ofAnswer_bind fun x hx => ?_
  have hsave : (stack.ledger (.save x)).Safe ((Workflow.conduct stack ttl).setting inv t) _ s₂ :=
    safe_save stack fun _ _ => ⟨ht, create_ok hx⟩
  rw [← hv] at hsave
  have hsaved : (Request.ofProgram (v.ledger (.save x))).Safe
      ((Workflow.conduct stack ttl).setting inv t) (fun _ s' => Later inv s₂ s') s₂ :=
    hsave.mono fun _ _ h _ _ => h
  refine hsaved.bind fun _ s₃ h₃ => ?_
  refine safe_report.bind fun _ s₄ h₄ => ?_
  exact Request.safe_pure (((h₁.trans h₂).trans h₃).trans h₄)

theorem safe_changeStock (hv : v.ledger = stack.ledger) (hinv : ∀ w, inv w → w.Faithful)
    {change : StockItem.Change} {message : String} {p : ProductId} {units : Int}
    (hchange : change.claims units = 0) (hgain : ∀ k, t.gain k = 0) (ht : t.settles = false) :
    (v.changeStock change message p units).Safe ((Workflow.conduct stack ttl).setting inv t)
      (fun _ _ => True) s := by
  refine (safe_itemOf hv hinv fun _ _ => trivial).bind fun x s₁ hx => ?_
  rcases hx with ⟨h₁, hheld⟩
  refine Request.safe_ofAnswer_bind fun u hu => ?_
  have hchanged := StockItem.apply_ok hu
  -- Stock that comes or goes leaves the reserved units alone.
  rw [hchange] at hchanged
  have hoffers (s' : Record × World) (hs' : Later inv s₁ s') : t.Offers s'.1 s'.2 u := by
    refine ⟨⟨x, hheld.mono hs'.world, ?_⟩, fun h => ?_, .inl (hgain _)⟩
    · rw [hgain]
      exact hchanged
    · rw [ht] at h
      cases h
  refine (safe_write hv hoffers).bind fun y s₂ _ => ?_
  exact safe_report.bind fun _ _ _ => Request.safe_pure trivial

/-- The item is written first, with the units claimed, and then the claim. -/
theorem safe_reserve (hv : v.ledger = stack.ledger) (hinv : ∀ w, inv w → w.Faithful)
    {p : ProductId} {order : OrderId} {units : Int} {span : Option Span}
    (hgain : ∀ k, t.gain k = units) (ht : t.settles = false) (hwrote : s.1.wrote = none)
    (hstored : s.1.stored = false) :
    (v.reserve p order units span).Safe ((Workflow.conduct stack ttl).setting inv t)
      (fun _ _ => True) s := by
  unfold Service.reserve
  split
  · exact Request.safe_throw
  have hunclaimed : (Service.ensureUnclaimed order).Safe
      ((Workflow.conduct stack ttl).setting inv t) (fun _ s' => Later inv s s') s := by
    refine (safe_reservations fun _ _ => trivial).bind fun found s₁ h₁ => ?_
    match found with
    | some r => exact Request.safe_throw
    | none => exact Request.safe_pure h₁
  refine hunclaimed.bind fun _ s₁ h₁ => ?_
  refine (safe_itemOf hv hinv fun _ _ => trivial).bind fun x s₂ hx => ?_
  rcases hx with ⟨h₂, hheld⟩
  refine Request.safe_ofAnswer_bind fun u hu => ?_
  have happly : x.apply .reserve units = .ok u := hu
  have hchanged : x.Changed u units := StockItem.apply_ok happly
  refine safe_now.bind fun now s₃ h₃ => ?_
  refine safe_freshUuid.bind fun id s₄ h₄ => ?_
  refine safe_inRange_bind trivial fun r hr => ?_
  rcases Reservation.open?_ok hr with ⟨hpending, hitem, hquantity⟩
  -- The item is offered however much time has passed since it was read.
  have hbefore : Later inv s s₄ := ((h₁.trans h₂).trans h₃).trans h₄
  have hoffers (s' : Record × World) (hs' : Later inv s₄ s') : t.Offers s'.1 s'.2 u := by
    refine ⟨⟨x, ?_, ?_⟩, fun h => ?_, .inr ?_⟩
    · exact hheld.mono ((h₃.trans h₄).trans hs').world
    · rw [hgain]
      exact hchanged
    · rw [ht] at h
      cases h
    · rw [(hbefore.trans hs').record]
      exact ⟨hwrote, hstored⟩
  refine (safe_write hv hoffers).bind fun y s₅ h₅ => ?_
  -- Now the units are between the two writes; the claim is stored for them.
  have hclaims (s' : Record × World) (hs' : Later inv s₅ s') : t.MayClaim s'.1 (.save r) := by
    refine ⟨hpending, ?_, ?_⟩
    · rw [hs'.record, h₅.record, hitem]
      exact ⟨rfl, hbefore.record ▸ hstored⟩
    · rw [hgain, hquantity]
  refine (safe_reporting (safe_reservations hclaims)).bind fun _ _ _ => ?_
  exact safe_report.bind fun _ _ _ => Request.safe_pure trivial

/-- A settlement of a claim that was read; its item is written before the claim. -/
theorem safe_settle (hv : v.ledger = stack.ledger) (hinv : ∀ w, inv w → w.Faithful)
    {k : Settlement} {r : Reservation} (hgain : ∀ k, t.gain k = -k.units)
    (hclaim : s.1.claim = some r) (hwrote : s.1.wrote = none) (hstored : s.1.stored = false) :
    (v.settle k r).Safe ((Workflow.conduct stack ttl).setting inv t)
      (fun _ s' => ∃ i, s'.1.wrote = some i) s := by
  have hunits (k : Record) (h : k.claim = some r) : t.gain k = -r.quantity := by
    rw [hgain, Record.units, h]
    rfl
  refine safe_now.bind fun now s₁ h₁ => ?_
  refine Request.safe_ofAnswer_bind fun _ _ => ?_
  refine (safe_item hv hinv fun _ _ => trivial).bind fun x s₂ hx => ?_
  rcases hx with ⟨h₂, hheld, hid⟩
  have hbefore : Later inv s s₂ := h₁.trans h₂
  refine Request.safe_ofAnswer_bind fun u hu => ?_
  have hchanged := StockItem.apply_ok hu
  rw [k.claims_change] at hchanged
  refine Request.safe_ofAnswer_bind fun r' hr' => ?_
  rcases k.transition_ok hr' with ⟨hmoved, hended⟩
  have huid : u.id = r.itemId := hchanged.id.trans hid
  have hoffers (s' : Record × World) (hs' : Later inv s₂ s') : t.Offers s'.1 s'.2 u := by
    rw [(hbefore.trans hs').record]
    refine ⟨⟨x, hheld.mono hs'.world, ?_⟩, fun _ => ⟨r, hclaim, hmoved.pending, huid⟩,
      .inr ⟨hwrote, hstored⟩⟩
    rw [hunits _ hclaim]
    exact hchanged
  refine (safe_write hv hoffers).bind fun y s₃ h₃ => ?_
  have hrecord : s₃.1 = { s.1 with wrote := some u.id } := by
    rw [h₃.record, hbefore.record]
  -- The claim ends only here, when its item is written.
  have hmoves (s' : Record × World) (hs' : Later inv s₃ s') : t.MayClaim s'.1 (.update r') := by
    rw [hs'.record, hrecord]
    refine ⟨r, hclaim, hmoved, hstored, .inr ⟨hended, ⟨?_, hstored⟩, hunits _ hclaim⟩⟩
    rw [huid]
  refine (safe_reporting (safe_reservations hmoves)).bind fun _ s₄ h₄ => ?_
  refine safe_report.bind fun _ s₅ h₅ => Request.safe_pure ⟨u.id, ?_⟩
  rw [h₅.record, h₄.record, hrecord]
  rfl

theorem safe_extend {id : ReservationId} {span : Span} (hreads : t.reads = some id)
    (hgain : ∀ k, t.gain k = 0) (hwrote : s.1.wrote = none) (hstored : s.1.stored = false) :
    (Service.extend id span).Safe ((Workflow.conduct stack ttl).setting inv t)
      (fun _ _ => True) s := by
  have hload (s' : Record × World) (hs' : Later inv s s') : t.MayClaim s'.1 (.load id) := by
    rw [hs'.record]
    exact ⟨hreads, hwrote⟩
  refine (safe_reservations hload).bind fun r s₁ h₁ => ?_
  refine safe_now.bind fun now s₂ h₂ => ?_
  refine safe_inRange_bind trivial fun r' hr' => ?_
  -- Only the expiry is stored anew, and no item is touched.
  rcases Reservation.extend?_ok hr' with ⟨hmoved, hpending⟩
  have hmoves (s' : Record × World) (hs' : Later inv s₂ s') : t.MayClaim s'.1 (.update r') := by
    rw [hs'.record, h₂.record, h₁.record]
    exact ⟨r, rfl, hmoved, hstored, .inl ⟨hpending, hgain _⟩⟩
  refine (safe_reservations hmoves).bind fun _ _ _ => ?_
  exact safe_report.bind fun _ _ _ => Request.safe_pure trivial

theorem safe_load_settle (hv : v.ledger = stack.ledger) (hinv : ∀ w, inv w → w.Faithful)
    {k : Settlement} {id : ReservationId} (hreads : t.reads = some id)
    (hgain : ∀ k, t.gain k = -k.units) (hwrote : s.1.wrote = none) (hstored : s.1.stored = false) :
    (do let r ← Service.reservations (.load id)
        let (r, _) ← v.settle k r
        return r : Request Reservation).Safe ((Workflow.conduct stack ttl).setting inv t)
      (fun _ s' => ∃ i, s'.1.wrote = some i) s := by
  have hload (s' : Record × World) (hs' : Later inv s s') : t.MayClaim s'.1 (.load id) := by
    rw [hs'.record]
    exact ⟨hreads, hwrote⟩
  refine (safe_reservations hload).bind fun r s₁ h₁ => ?_
  have hclaim : s₁.1.claim = some r := by
    rw [h₁.record]
    rfl
  refine (safe_settle hv hinv hgain hclaim ?_ ?_).bind fun _ _ h => Request.safe_pure h
  · rw [h₁.record]
    exact hwrote
  · rw [h₁.record]
    exact hstored

/-- Every workflow keeps to what is expected of it. -/
theorem safe_workflow (hinv : ∀ w, inv w → w.Faithful) (w : World) :
    (Workflow.conduct stack ttl).Safe inv t ((Working stack ttl).program t) (t.opening, w) := by
  -- A workflow that settles nothing may end as it likes.
  have ends (ht : t.settles = false) {a : Answer t.Value} {k : Record} {w : World} :
      (Workflow.conduct stack ttl).promise t a k w := by
    intro hsettles
    rw [ht] at hsettles
    cases hsettles
  cases t with
  | createItem p units => exact (safe_createItem rfl rfl).mono fun _ _ _ => ends rfl
  | addStock p units =>
    exact (safe_changeStock rfl hinv rfl (fun _ => rfl) rfl).mono fun _ _ _ => ends rfl
  | removeStock p units =>
    exact (safe_changeStock rfl hinv rfl (fun _ => rfl) rfl).mono fun _ _ _ => ends rfl
  | reserve p order units ttl =>
    exact (safe_reserve rfl hinv (fun _ => Int.sub_zero _) rfl rfl rfl).mono fun _ _ _ => ends rfl
  | confirm id =>
    exact (safe_load_settle rfl hinv rfl (fun _ => Int.zero_sub _) rfl rfl).mono fun _ _ h _ => h
  | release id =>
    exact (safe_load_settle rfl hinv rfl (fun _ => Int.zero_sub _) rfl rfl).mono fun _ _ h _ => h
  | expire r =>
    exact (safe_settle rfl hinv (fun _ => Int.zero_sub _) rfl rfl rfl).mono fun _ _ h _ => h
  | extend id span =>
    exact (safe_extend rfl (fun _ => rfl) rfl rfl).mono fun _ _ _ => ends rfl
  | deleteItem id => exact (safe_delete stack fun _ _ => rfl).mono fun _ _ _ => ends rfl
  | bumpItem id => exact (safe_bumpVersion stack fun _ _ => rfl).mono fun _ _ _ => ends rfl

/-- Rules under which requests keep the world in order are all that is needed. -/
theorem Workflow.upheld {R : Rules (Working stack ttl)} (hinv : ∀ w, inv w → w.Faithful)
    (hserves : ∀ {w w' : World} {others t k c served r}, inv w →
      (Workflow.conduct stack ttl).allows t k w c → w.Serves c served w' → c.Reports served r →
      R.serves w others c served r w' → inv w') : (Workflow.conduct stack ttl).Upheld inv R where
  starts _ _ := safe_workflow hinv _
  serves := hserves
  lasts _ h := h

end
end StockLedger
