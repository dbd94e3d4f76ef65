import Mathlib.Data.List.Count
import Mathlib.Tactic.Common
import StockLedger.Proofs.Concurrent.Solo
import StockLedger.Proofs.Service.Settlement

/-!
# One claim for each order

The claim of an order is looked up by one request and stored by another, and claims are written over
as a whole from copies that may be old. Still an order has one claim at most, which stays what it
is: a claim is stored only where the index has none, and every copy is a copy of the same claim.

* `Workflow.order?`, `Workflow.Rewrites` : for which order a workflow makes a claim, and what it may
  write over one;
* `Workflow.keeping`, `keeps_workflow` : every workflow keeps to that;
* `Filing.rules` : any workflows at the same time, and any request may fail;
* `Filing.Filed`, `Filing.Filed.step` : the index is in order, copies are copies of what is
  stored, and no order was served twice;
* `one_claim_per_order` : an order has one claim, made by one request, and this claim stays.
-/

namespace StockLedger

open Conduct

/-! ## What a workflow may do to claims -/

namespace Workflow

/-- The order for which a workflow makes a claim. -/
def order? : Workflow → Option OrderId
  | reserve _ order _ _ => some order
  | _ => none

/--
A workflow that makes no claim writes once over the pending claim that it has read, and leaves it
the same claim. If it was given the claim to begin with, it expires it.
-/
structure Rewrites (t : Workflow) (k : Record) (r r' : Reservation) : Prop where
  claim : k.claim = some r
  first : k.stored = false
  same : r.SameClaim r'
  pending : r.status = .pending
  order : t.order? = none
  expired : t.opening.claim.isSome = true → r'.status = .expired

/-- What a workflow may do to claims, and that a claim was stored for whoever is told so. -/
def keeping (stack : Stack) (ttl : Span) : Conduct (Working stack ttl) where
  ledger _ _ _ _ := True
  reservations t k
    | .save r => t.order? = some r.orderId ∧ k.stored = false
    | .update r' => ∃ r, t.Rewrites k r r'
    | _ => True
  promise t a k _ := ∀ v, a = .ok v → t.order?.isSome = true → k.stored = true

end Workflow

section

variable {stack : Stack} {ttl : Span} {inv : World → Prop} {t : Workflow} {s : Record × World}
  {v : Service}

theorem keeps_createItem (hv : v.ledger = stack.ledger) {p : ProductId} {units : Int} :
    (v.createItem p units).Safe ((Workflow.keeping stack ttl).setting inv t) (fun _ _ => True)
      s := by
  refine safe_freshUuid.bind fun id s₁ _ => ?_
  refine safe_now.bind fun now s₂ _ => ?_
  refine Request.safe_ofAnswer_bind fun x _ => ?_
  have hsave : (stack.ledger (.save x)).Safe ((Workflow.keeping stack ttl).setting inv t) _ s₂ :=
    safe_save stack fun _ _ => trivial
  rw [← hv] at hsave
  have hsaved : (Request.ofProgram (v.ledger (.save x))).Safe
      ((Workflow.keeping stack ttl).setting inv t) (fun _ _ => True) s₂ :=
    hsave.mono fun _ _ _ _ _ => trivial
  refine hsaved.bind fun _ s₃ _ => ?_
  exact safe_report.bind fun _ _ _ => Request.safe_pure trivial

theorem keeps_changeStock (hv : v.ledger = stack.ledger) (hinv : ∀ w, inv w → w.Faithful)
    {change : StockItem.Change} {message : String} {p : ProductId} {units : Int} :
    (v.changeStock change message p units).Safe ((Workflow.keeping stack ttl).setting inv t)
      (fun _ _ => True) s := by
  refine (safe_itemOf hv hinv fun _ _ => trivial).bind fun x s₁ _ => ?_
  refine Request.safe_ofAnswer_bind fun u _ => ?_
  refine (safe_write hv fun _ _ => trivial).bind fun y s₂ _ => ?_
  exact safe_report.bind fun _ _ _ => Request.safe_pure trivial

/-- Whoever is told that a claim was made has stored one for the order. -/
theorem keeps_reserve (hv : v.ledger = stack.ledger) (hinv : ∀ w, inv w → w.Faithful)
    {p : ProductId} {order : OrderId} {units : Int} {span : Option Span}
    (ht : t.order? = some order) (hstored : s.1.stored = false) :
    (v.reserve p order units span).Safe ((Workflow.keeping stack ttl).setting inv t)
      (fun _ s' => s'.1.stored = true) s := by
  unfold Service.reserve
  split
  · exact Request.safe_throw
  have hunclaimed : (Service.ensureUnclaimed order).Safe
      ((Workflow.keeping stack ttl).setting inv t) (fun _ s' => Later inv s s') s := by
    refine (safe_reservations fun _ _ => trivial).bind fun found s₁ h₁ => ?_
    match found with
    | some r => exact Request.safe_throw
    | none => exact Request.safe_pure h₁
  refine hunclaimed.bind fun _ s₁ h₁ => ?_
  refine (safe_itemOf hv hinv fun _ _ => trivial).bind fun x s₂ h₂ => ?_
  refine Request.safe_ofAnswer_bind fun u _ => ?_
  refine safe_now.bind fun now s₃ h₃ => ?_
  refine safe_freshUuid.bind fun id s₄ h₄ => ?_
  refine safe_inRange_bind trivial fun r hr => ?_
  have horder := (Reservation.open?_names hr).2
  refine (safe_write hv fun _ _ => trivial).bind fun y s₅ h₅ => ?_
  have hbefore : s₅.1.stored = false := by
    rw [h₅.record, h₄.record, h₃.record, h₂.1.record, h₁.record]
    exact hstored
  have hclaims (s' : Record × World) (hs' : Later inv s₅ s') :
      (Workflow.keeping stack ttl).reservations t s'.1 (.save r) := by
    rw [hs'.record]
    exact ⟨horder ▸ ht, hbefore⟩
  refine (safe_reporting (safe_reservations hclaims)).bind fun _ s₆ h₆ => ?_
  refine safe_report.bind fun _ s₇ h₇ => Request.safe_pure ?_
  rw [h₇.record, h₆.record]
  rfl

/-- A settlement writes over the claim that was read what the claim has become. -/
theorem keeps_settle (hv : v.ledger = stack.ledger) (hinv : ∀ w, inv w → w.Faithful)
    {k : Settlement} {r : Reservation} (ht : t.order? = none)
    (hexpires : t.opening.claim.isSome = true → k = .expire) (hclaim : s.1.claim = some r)
    (hstored : s.1.stored = false) :
    (v.settle k r).Safe ((Workflow.keeping stack ttl).setting inv t) (fun _ _ => True) s := by
  refine safe_now.bind fun now s₁ h₁ => ?_
  refine Request.safe_ofAnswer_bind fun _ _ => ?_
  refine (safe_item hv hinv fun _ _ => trivial).bind fun x s₂ h₂ => ?_
  refine Request.safe_ofAnswer_bind fun u _ => ?_
  refine Request.safe_ofAnswer_bind fun r' hr' => ?_
  have hpending := (k.transition_ok hr').1.pending
  rcases k.eq_moveTo_of_transition hr' with rfl
  refine (safe_write hv fun _ _ => trivial).bind fun y s₃ h₃ => ?_
  have hrecord : s₃.1 = { s.1 with wrote := some u.id } := by
    rw [h₃.record, h₂.1.record, h₁.record]
  have hrewrites (s' : Record × World) (hs' : Later inv s₃ s') :
      (Workflow.keeping stack ttl).reservations t s'.1 (.update (r.moveTo k.status now)) := by
    rw [hs'.record, hrecord]
    refine ⟨r, hclaim, hstored, r.sameClaim_moveTo _ _, hpending, ht, fun hopening => ?_⟩
    rw [hexpires hopening]
    rfl
  refine (safe_reporting (safe_reservations hrewrites)).bind fun _ s₄ _ => ?_
  exact safe_report.bind fun _ _ _ => Request.safe_pure trivial

theorem keeps_load_settle (hv : v.ledger = stack.ledger) (hinv : ∀ w, inv w → w.Faithful)
    {k : Settlement} {id : ReservationId} (ht : t.order? = none)
    (hopening : t.opening.claim.isSome = false) (hstored : s.1.stored = false) :
    (do let r ← Service.reservations (.load id)
        let (r, _) ← v.settle k r
        return r : Request Reservation).Safe ((Workflow.keeping stack ttl).setting inv t)
      (fun _ _ => True) s := by
  refine (safe_reservations fun _ _ => trivial).bind fun r s₁ h₁ => ?_
  have hclaim : s₁.1.claim = some r := by
    rw [h₁.record]
    rfl
  have hstored₁ : s₁.1.stored = false := by
    rw [h₁.record]
    exact hstored
  have hexpires (h : t.opening.claim.isSome = true) : k = .expire := by
    rw [hopening] at h
    cases h
  exact (keeps_settle hv hinv ht hexpires hclaim hstored₁).bind
    fun _ _ _ => Request.safe_pure trivial

theorem keeps_extend {id : ReservationId} {span : Span} (ht : t.order? = none)
    (hopening : t.opening.claim.isSome = false) (hstored : s.1.stored = false) :
    (Service.extend id span).Safe ((Workflow.keeping stack ttl).setting inv t) (fun _ _ => True)
      s := by
  refine (safe_reservations fun _ _ => trivial).bind fun r s₁ h₁ => ?_
  refine safe_now.bind fun now s₂ h₂ => ?_
  refine safe_inRange_bind trivial fun r' hr' => ?_
  have hrewrites (s' : Record × World) (hs' : Later inv s₂ s') :
      (Workflow.keeping stack ttl).reservations t s'.1 (.update r') := by
    rw [hs'.record, h₂.record, h₁.record]
    refine ⟨r, rfl, hstored, Reservation.sameClaim_of_extend? hr', ?_, ht, fun h => ?_⟩
    · exact (Reservation.extend?_ok hr').1.pending
    · rw [hopening] at h
      cases h
  refine (safe_reservations hrewrites).bind fun _ _ _ => ?_
  exact safe_report.bind fun _ _ _ => Request.safe_pure trivial

/-- Every workflow does to claims what it may do. -/
theorem keeps_workflow (hinv : ∀ w, inv w → w.Faithful) (w : World) :
    (Workflow.keeping stack ttl).Safe inv t ((Working stack ttl).program t) (t.opening, w) := by
  -- Only a workflow that makes a claim promises anything.
  have ends (ht : t.order?.isSome = false) {a : Answer t.Value} {k : Record} {w : World} :
      (Workflow.keeping stack ttl).promise t a k w := by
    intro v _ horder
    rw [ht] at horder
    cases horder
  cases t with
  | createItem p units => exact (keeps_createItem rfl).mono fun _ _ _ => ends rfl
  | addStock p units => exact (keeps_changeStock rfl hinv).mono fun _ _ _ => ends rfl
  | removeStock p units => exact (keeps_changeStock rfl hinv).mono fun _ _ _ => ends rfl
  | reserve p order units ttl =>
    exact (keeps_reserve rfl hinv rfl rfl).mono fun _ _ h v hv _ => h v hv
  | confirm id => exact (keeps_load_settle rfl hinv rfl rfl rfl).mono fun _ _ _ => ends rfl
  | release id => exact (keeps_load_settle rfl hinv rfl rfl rfl).mono fun _ _ _ => ends rfl
  | expire r =>
    exact (keeps_settle rfl hinv rfl (fun _ => rfl) rfl rfl).mono fun _ _ _ => ends rfl
  | extend id span => exact (keeps_extend rfl rfl rfl).mono fun _ _ _ => ends rfl
  | deleteItem id => exact (safe_delete stack fun _ _ => trivial).mono fun _ _ _ => ends rfl
  | bumpItem id => exact (safe_bumpVersion stack fun _ _ => trivial).mono fun _ _ _ => ends rfl

end

namespace Filing

variable {stack : Stack} {ttl : Span}

/-! ## Workflows at the same time -/

/--
Any workflows, and any request may fail before or after it was carried out. Whoever expires a claim,
be it a sweep, has read it: the workflow starts when it is read.
-/
def rules (stack : Stack) (ttl : Span) : Rules (Working stack ttl) where
  starts σ t := ∀ r, t = .expire r → σ.world.reservations.rows.find? r.id = some r
  serves _ _ _ _ _ _ := True

theorem upheld : (Workflow.keeping stack ttl).Upheld World.Faithful (rules stack ttl) where
  starts _ _ := keeps_workflow (fun _ h => h) _
  serves {w w' others t k c served reply} hw hallows hserves _ _ := by
    refine hw.serves hserves ?_
    rintro c rfl
    exact hallows
  lasts _ h := h

theorem kept_opened {l : MemoryLedger} {m : MemoryReservations} (hl : l.Keyed) :
    (Workflow.keeping stack ttl).Kept World.Faithful
      (⟨{ ledger := l, reservations := m }, []⟩ : System (Working stack ttl)) := by
  refine ⟨⟨fun older holder => ?_, fun _ _ h => (nomatch h)⟩, fun _ h => (nomatch h)⟩
  rcases List.mem_singleton.1 holder with rfl
  exact hl

/-- A claim was stored for the order by this workflow. -/
def files (o : OrderId) (run : Run (Working stack ttl)) : Bool :=
  run.record.stored && run.task.order? == some o

/-- The workflow has made a claim for the order, and has said so. -/
def served (o : OrderId) (run : Run (Working stack ttl)) : Bool :=
  run.task.order? == some o && Program.succeeds (run.rest : Program (Answer run.task.Value))

/-! ## What every step keeps -/

/-- A copy of a claim is a copy of the claim that is stored under its identity. -/
def Copied (m : MemoryReservations) (r : Reservation) : Prop :=
  ∃ stored, m.rows.find? r.id = some stored ∧ stored.SameClaim r

/-- Every claim of one state is there in the other one, and is the same claim. -/
def Persists (m m' : MemoryReservations) : Prop :=
  ∀ id r, m.rows.find? id = some r → ∃ r', m'.rows.find? id = some r' ∧ r.SameClaim r'

theorem Persists.refl (m : MemoryReservations) : Persists m m :=
  fun _ r hr => ⟨r, hr, .refl r⟩

theorem Persists.trans {m m' m'' : MemoryReservations} (h : Persists m m')
    (h' : Persists m' m'') : Persists m m'' := by
  intro id r hr
  rcases h id r hr with ⟨r', hr', hsame⟩
  rcases h' id r' hr' with ⟨r'', hr'', hsame'⟩
  exact ⟨r'', hr'', hsame.trans hsame'⟩

/-- A claim is written that is new, or the same as the one under its identity. -/
theorem Persists.insert {m : MemoryReservations} {x : Reservation}
    (byOrder : Table OrderId ReservationId)
    (hsame : ∀ old, m.rows.find? x.id = some old → old.SameClaim x) :
    Persists m ⟨m.rows.insert x.id x, byOrder⟩ := by
  intro id r hr
  by_cases hid : id = x.id
  · exact ⟨x, (Table.find?_insert ..).trans (if_pos hid), hsame r (hid ▸ hr)⟩
  · exact ⟨r, (Table.find?_insert ..).trans ((if_neg hid).trans hr), .refl r⟩

theorem Copied.persists {m m' : MemoryReservations} (h : Persists m m') {r : Reservation}
    (hr : Copied m r) : Copied m' r := by
  rcases hr with ⟨stored, hstored, hsame⟩
  rcases h r.id stored hstored with ⟨later, hlater, hsame'⟩
  exact ⟨later, hlater, hsame'.symm.trans hsame⟩

/--
The index is in order, every copy is a copy of what is stored, an order for which a claim was stored
has one, and no two workflows stored one for the same order.
-/
structure Filed (σ : System (Working stack ttl)) : Prop where
  indexed : σ.world.reservations.Indexed
  copies : ∀ run ∈ σ.runs, ∀ r, run.record.claim = some r → Copied σ.world.reservations r
  claimed : ∀ run ∈ σ.runs, ∀ o, files o run = true →
    ∃ id, σ.world.reservations.byOrder.find? o = some id
  single : ∀ o, σ.runs.countP (files o) ≤ 1

section

variable {w : World} {before after : List (Run (Working stack ttl))}
  {run : Run (Working stack ttl)} {m : MemoryReservations}

/-- What one request does to claims: it keeps the index, and the claims that are there. -/
structure Advances (t : Workflow) (k k' : Record) (m m' : MemoryReservations) : Prop where
  indexed : m'.Indexed
  persists : Persists m m'
  orders : ∀ o id, m.byOrder.find? o = some id → m'.byOrder.find? o = some id
  copies : ∀ r, k'.claim = some r → Copied m' r
  /-- A claim that was not stored by this workflow before is the first one of its order. -/
  filed : k'.stored = true → k.stored = true ∨ t.order? = none ∨
    ∃ o id, t.order? = some o ∧ m.byOrder.find? o = none ∧ m'.byOrder.find? o = some id

theorem Advances.same {t : Workflow} {k k' : Record} (hm : m.Indexed)
    (hcopies : ∀ r, k.claim = some r → Copied m r) (hclaim : k'.claim = k.claim)
    (hstored : k'.stored = k.stored) : Advances t k k' m m where
  indexed := hm
  persists := .refl m
  orders _ _ h := h
  copies r hr := hcopies r (hclaim ▸ hr)
  filed h := .inl (hstored ▸ h)

theorem copied_of_load {id : ReservationId} {r : Reservation} (hm : m.Keyed)
    (h : m.load id = .ok r) : Copied m r :=
  ⟨r, hm.find?_of_load h, .refl r⟩

theorem stored_note_load (k : Record) (id : ReservationId) (r : Answer Reservation)
    (served : Option (Answer Reservation)) :
    (k.note (.reservations (.load id)) r served).stored = k.stored := by
  cases r <;> rfl

/-- A request to the keeper of claims that a workflow may make, and the claims after it. -/
theorem Advances.reservations {t : Workflow} {k : Record} {c : ReservationCall} {r : c.Reply}
    (hm : m.Indexed) (hcopies : ∀ r, k.claim = some r → Copied m r)
    (hallows : (Workflow.keeping stack ttl).reservations t k c)
    (hreports : Call.Reports (.reservations c) (some (m.reply c)) r) :
    Advances t k (k.note (.reservations c) r (some (m.reply c))) m (m.apply c) := by
  by_cases hload : ∃ id, c = .load id
  · rcases hload with ⟨id, rfl⟩
    refine ⟨hm, .refl m, fun _ _ h => h, fun x hx => ?_, fun h => .inl ?_⟩
    · match r with
      | .ok y =>
        cases hx
        rcases hreports with hserved | ⟨f, hf⟩
        · exact copied_of_load hm.keyed (Option.some.inj hserved)
        · cases hf
      | .error f => exact hcopies x hx
    · rw [stored_note_load] at h
      exact h
  have hclaim : (k.note (.reservations c) r (some (m.reply c))).claim = k.claim :=
    Record.claim_note_reservations fun id he => hload ⟨id, he⟩
  have ho := m.outcome c
  generalize m.reply c = reply at ho hclaim
  generalize m.apply c = after at ho ⊢
  cases ho with
  | unchanged _ hchanges =>
    have hnote := Record.note_unchanged_claims (k := k) (r := r) hchanges
      fun id he => hload ⟨id, he⟩
    rw [hnote]
    exact .same hm hcopies rfl rfl
  | saved x hid horder =>
    have hpersists : Persists m ⟨m.rows.insert x.id x, m.byOrder.insert x.orderId x.id⟩ := by
      refine .insert _ fun old hold => ?_
      rw [hid] at hold
      cases hold
    refine ⟨hm.save hid horder, hpersists, fun o id ho => ?_, fun y hy => ?_, fun _ => ?_⟩
    · have hne : o ≠ x.orderId := by
        rintro rfl
        rw [horder] at ho
        cases ho
      exact (Table.find?_insert ..).trans ((if_neg hne).trans ho)
    · exact (hcopies y (hclaim ▸ hy)).persists hpersists
    · -- The keeper has made sure that the order had no claim.
      refine .inr (.inr ⟨x.orderId, x.id, hallows.1, horder, ?_⟩)
      exact (Table.find?_insert ..).trans (if_pos rfl)
  | updated x old hid =>
    rcases hallows with ⟨read, hrewrites⟩
    -- What is written over is the claim of which the workflow has read a copy.
    rcases hcopies read hrewrites.claim with ⟨stored, hstored, hcopy⟩
    have hsame : stored.SameClaim x := hcopy.trans hrewrites.same
    rw [← hrewrites.same.id] at hstored
    cases hid.symm.trans hstored
    have hpersists : Persists m ⟨m.rows.insert x.id x, m.byOrder⟩ := by
      refine .insert _ fun y hy => ?_
      cases hid.symm.trans hy
      exact hsame
    refine ⟨hm.update hid hsame.orderId, hpersists, fun _ _ h => h, fun y hy => ?_, fun _ => ?_⟩
    · exact (hcopies y (hclaim ▸ hy)).persists hpersists
    · exact .inr (.inl hrewrites.order)

theorem files_iff {o : OrderId} :
    files o run = true ↔ run.record.stored = true ∧ run.task.order? = some o := by
  simp [files]

/-- A request after which claims are kept keeps the files in order. -/
theorem Filed.resume (h : Filed ⟨w, before ++ run :: after⟩) (w' : World) {k : Record}
    (hadvances : Advances run.task run.record k w.reservations w'.reservations)
    (rest : Program ((Working stack ttl).Outcome run.task)) :
    Filed ⟨w', before ++ run.resume k rest :: after⟩ where
  indexed := hadvances.indexed
  copies := by
    intro other hother r hr
    rcases Run.eq_or_mem_others hother with rfl | hothers
    · exact hadvances.copies r hr
    · exact (h.copies other (Run.mem_of_others run hothers) r hr).persists hadvances.persists
  claimed := by
    intro other hother o hfiles
    rcases Run.eq_or_mem_others hother with rfl | hothers
    · rcases files_iff.1 hfiles with ⟨hstored, horder⟩
      have horder : run.task.order? = some o := horder
      rcases hadvances.filed hstored with hbefore | hnone | ⟨o', id, ho', -, hid⟩
      · rcases h.claimed run (Run.mem_self ..) o (files_iff.2 ⟨hbefore, horder⟩) with ⟨id, hid⟩
        exact ⟨id, hadvances.orders o id hid⟩
      · rw [hnone] at horder
        cases horder
      · cases horder.symm.trans ho'
        exact ⟨id, hid⟩
    · rcases h.claimed other (Run.mem_of_others run hothers) o hfiles with ⟨id, hid⟩
      exact ⟨id, hadvances.orders o id hid⟩
  single := by
    intro o
    have hsingle := h.single o
    simp only [List.countP_append, List.countP_cons] at hsingle ⊢
    by_cases hfiles : files o (run.resume k rest) = true
    · rcases files_iff.1 hfiles with ⟨hstored, horder⟩
      have horder : run.task.order? = some o := horder
      rcases hadvances.filed hstored with hbefore | hnone | ⟨o', id, ho', hnew, -⟩
      · have hold : files o run = true := files_iff.2 ⟨hbefore, horder⟩
        rw [if_pos hold] at hsingle
        rw [if_pos hfiles]
        exact hsingle
      · rw [hnone] at horder
        cases horder
      · -- Nobody else has stored a claim for an order that had none.
        cases horder.symm.trans ho'
        have hnobody (other : Run (Working stack ttl)) (hother : other ∈ before ++ after) :
            ¬ files o other = true := by
          intro hclaimed
          rcases h.claimed other (Run.mem_of_others run hother) o hclaimed with ⟨id, hid⟩
          rw [hnew] at hid
          cases hid
        have hbefore : before.countP (files o) = 0 :=
          List.countP_eq_zero.2 fun other hother => hnobody other (List.mem_append_left _ hother)
        have hafter : after.countP (files o) = 0 :=
          List.countP_eq_zero.2 fun other hother => hnobody other (List.mem_append_right _ hother)
        rw [hbefore, hafter, if_pos hfiles]
    · rw [if_neg hfiles]
      omega

theorem Filed.start {σ : System (Working stack ttl)} {t : Workflow} (h : Filed σ)
    (hstart : (rules stack ttl).starts σ t) :
    Filed { σ with runs := σ.runs ++ [Run.start (Working stack ttl) t] } := by
  have hnew (o : OrderId) : files o (Run.start (Working stack ttl) t) = false := by
    cases t <;> rfl
  refine ⟨h.indexed, fun run hrun r hr => ?_, fun run hrun o hfiles => ?_, fun o => ?_⟩
  · rcases List.mem_append.1 hrun with hold | hlast
    · exact h.copies run hold r hr
    · rcases List.mem_singleton.1 hlast with rfl
      cases t with
      | expire c =>
        cases hr
        exact ⟨r, hstart r rfl, .refl r⟩
      | _ => cases hr
  · rcases List.mem_append.1 hrun with hold | hlast
    · exact h.claimed run hold o hfiles
    · rcases List.mem_singleton.1 hlast with rfl
      rw [hnew] at hfiles
      cases hfiles
  · have hsingle := h.single o
    rw [List.countP_append, List.countP_singleton, hnew]
    simpa using hsingle

end

theorem Filed.step {σ σ' : System (Working stack ttl)} (h : Filed σ)
    (hkept : (Workflow.keeping stack ttl).Kept World.Faithful σ)
    (hstep : System.Step (rules stack ttl) σ σ') :
    Filed σ' ∧ Persists σ.world.reservations σ'.world.reservations := by
  cases hstep with
  | start _ t hstart => exact ⟨h.start hstart, .refl _⟩
  | abandon w before after run =>
    have hcopies := h.copies run (Run.mem_self ..)
    exact ⟨h.resume w (.same h.indexed hcopies rfl rfl) _, .refl _⟩
  | answer w w' before after run c next served reply hrest hserves hreports =>
    have hallows := hkept.allows (Run.mem_self ..) hrest
    have hcopies := h.copies run (Run.mem_self ..)
    cases hserves with
    | skipped =>
      rw [Record.note_skipped hreports]
      exact ⟨h.resume w (.same h.indexed hcopies rfl rfl) _, .refl _⟩
    | ledger now c =>
      exact ⟨h.resume (w.afterLedger now c)
        (.same h.indexed hcopies Record.claim_note_ledger Record.stored_note_ledger) _, .refl _⟩
    | reservations c =>
      have hadvances := Advances.reservations h.indexed hcopies hallows hreports
      exact ⟨h.resume { w with reservations := w.reservations.apply c } hadvances _,
        hadvances.persists⟩
    | cache uptime c =>
      exact ⟨h.resume { w with cache := w.cache.apply uptime c }
        (.same h.indexed hcopies rfl rfl) _, .refl _⟩
    | now | uptime | freshUuid | publish | log =>
      exact ⟨h.resume w (.same h.indexed hcopies rfl rfl) _, .refl _⟩

section

variable {l : MemoryLedger} {m : MemoryReservations} {σ : System (Working stack ttl)}

theorem filed_opened (hm : m.Indexed) :
    Filed (⟨{ ledger := l, reservations := m }, []⟩ : System (Working stack ttl)) where
  indexed := hm
  copies _ h := nomatch h
  claimed _ h := nomatch h
  single _ := Nat.zero_le 1

theorem filed (hl : l.Keyed) (hm : m.Indexed)
    (hreaches : System.Reaches (rules stack ttl) ⟨{ ledger := l, reservations := m }, []⟩ σ) :
    Filed σ :=
  (kept_opened hl).invariant upheld hreaches (filed_opened hm)
    fun hkept hstep h => (h.step hkept hstep).1

/-- No claim disappears or becomes another one. -/
theorem persists (hkept : (Workflow.keeping stack ttl).Kept World.Faithful σ) (h : Filed σ)
    {σ' : System (Working stack ttl)} (hreaches : System.Reaches (rules stack ttl) σ σ') :
    Persists σ.world.reservations σ'.world.reservations := by
  have hboth := hkept.invariant upheld hreaches
    (P := fun τ => Filed τ ∧ Persists σ.world.reservations τ.world.reservations) ⟨h, .refl _⟩
    fun hkept hstep hτ =>
      ⟨(hτ.1.step hkept hstep).1, hτ.2.trans (hτ.1.step hkept hstep).2⟩
  exact hboth.2

theorem served_le_files (hkept : (Workflow.keeping stack ttl).Kept World.Faithful σ)
    (o : OrderId) : σ.runs.countP (served o) ≤ σ.runs.countP (files o) := by
  refine List.countP_mono_left fun run hrun hserved => ?_
  rcases Bool.and_eq_true_iff.1 hserved with ⟨horder, hsucceeds⟩
  have horder : run.task.order? = some o := eq_of_beq horder
  rcases Program.eq_of_succeeds hsucceeds with ⟨v, hrest⟩
  have hpromise := hkept.runs run hrun
  rw [show run.rest = .done (.ok v) from hrest] at hpromise
  have hstored : run.record.stored = true := hpromise v rfl (by rw [horder]; rfl)
  exact files_iff.2 ⟨hstored, horder⟩

end
end Filing

open Filing in
/--
Whatever workflows do at the same time, and whichever of their requests fail: no order has two
claims, and the index leads from each order that has one to it and nowhere else; a claim that is
stored stays, and stays the same claim; and of all workflows that make a claim for one order, at
most one is told that it has.
-/
theorem one_claim_per_order (stack : Stack) (ttl : Span) {l : MemoryLedger}
    {m : MemoryReservations} (hl : l.Keyed) (hm : m.Indexed) {σ : System (Working stack ttl)}
    (hreaches : System.Reaches (rules stack ttl) ⟨{ ledger := l, reservations := m }, []⟩ σ) :
    (∀ i j a b, σ.world.reservations.rows.find? i = some a →
      σ.world.reservations.rows.find? j = some b → a.orderId = b.orderId → i = j ∧ a = b) ∧
    (∀ o id, σ.world.reservations.byOrder.find? o = some id ↔
      ∃ r, σ.world.reservations.rows.find? id = some r ∧ r.orderId = o) ∧
    (∀ σ', System.Reaches (rules stack ttl) σ σ' → ∀ id r,
      σ.world.reservations.rows.find? id = some r →
        ∃ r', σ'.world.reservations.rows.find? id = some r' ∧ r.SameClaim r') ∧
    ∀ o, σ.runs.countP (served o) ≤ 1 := by
  have hkept : (Workflow.keeping stack ttl).Kept World.Faithful σ :=
    (kept_opened hl).reaches upheld hreaches
  have hfiled := filed hl hm hreaches
  refine ⟨fun i j a b ha hb horder => hfiled.indexed.single ha hb horder, hfiled.indexed.order,
    fun σ' hlater id r hr => persists hkept hfiled hlater id r hr, fun o => ?_⟩
  exact (served_le_files hkept o).trans (hfiled.single o)

namespace Filing

/-- Four of the ten units are to be claimed for an order. -/
abbrev claiming : Workflow :=
  .reserve ⟨.ofNat 1⟩ ⟨.ofNat 3⟩ 4 none

def shelf : MemoryLedger :=
  MemoryLedger.empty.apply .epoch (.save (.ten 1))

def promised : StockItem :=
  .tenWith 4

/-- Whoever has made the claim, and whoever was too late. -/
def told : Run (Working .plain Reservation.defaultTtl) :=
  ⟨claiming, { wrote := some (StockItem.ten 1).id, stored := true },
    .done (Except.ok ⟨(Reservation.four 1).id, (Reservation.four 1).expiresAt, 6⟩ :
      Answer Reserved)⟩

def refused : Run (Working .plain Reservation.defaultTtl) :=
  ⟨claiming, {},
    .done (Except.error (Service.alreadyReserved ⟨.ofNat 3⟩ (.four 1)) : Answer Reserved)⟩

/-- Two have asked for units for the same order, and only one of them has made a claim. -/
def twice : System (Working .plain Reservation.defaultTtl) where
  world :=
    { ledger := shelf.apply .epoch (.update promised)
      reservations := MemoryReservations.empty.apply (.save (.four 1))
      past := [shelf] }
  runs := [told, refused]

def rulesTest : (rules .plain Reservation.defaultTtl).Test where
  permits _ _ _ _ _ _ := true
  sound _ _ := trivial

theorem reaches_twice :
    System.Reaches (rules .plain Reservation.defaultTtl) ⟨{ ledger := shelf }, []⟩ twice := by
  let asked : Run (Working .plain Reservation.defaultTtl) := .start _ claiming
  have hstart : System.Step (rules .plain Reservation.defaultTtl) ⟨{ ledger := shelf }, []⟩
      ⟨{ ledger := shelf }, [asked]⟩ := .start ⟨{ ledger := shelf }, []⟩ _ (fun _ h => nomatch h)
  have hstart' : System.Step (rules .plain Reservation.defaultTtl) ⟨{ ledger := shelf }, [asked]⟩
      ⟨{ ledger := shelf }, [asked, asked]⟩ :=
    .start ⟨{ ledger := shelf }, [asked]⟩ _ (fun _ h => nomatch h)
  have hfirst : System.Reaches (rules .plain Reservation.defaultTtl)
      ⟨{ ledger := shelf }, [asked, asked]⟩ ⟨twice.world, [told, asked]⟩ :=
    System.Reaches.solo rulesTest .epoch (.ofNat 2) [] [asked] (by rfl)
  have hsecond : System.Reaches (rules .plain Reservation.defaultTtl)
      ⟨twice.world, [told, asked]⟩ twice :=
    System.Reaches.solo rulesTest .epoch (.ofNat 2) [told] [] (by rfl)
  exact .head hstart (.head hstart' (hfirst.trans hsecond))

/-- Of two that have asked for units for one order, one is told that it has made the claim. -/
theorem one_claim_of_two :
    shelf.Keyed ∧ MemoryReservations.empty.Indexed ∧
      System.Reaches (rules .plain Reservation.defaultTtl) ⟨{ ledger := shelf }, []⟩ twice ∧
      twice.runs.countP (served ⟨.ofNat 3⟩) ≤ 1 := by
  have hshelf : shelf.Keyed := MemoryLedger.keyed_empty.outcome (MemoryLedger.empty.outcome _ _)
  have hempty := MemoryReservations.indexed_empty
  exact ⟨hshelf, hempty, reaches_twice,
    (one_claim_per_order .plain _ hshelf hempty reaches_twice).2.2.2 _⟩

end Filing
end StockLedger
