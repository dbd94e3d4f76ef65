import Mathlib.Tactic.Common
import StockLedger.Proofs.Memory.Reservations
import StockLedger.Proofs.Program.Within
import StockLedger.Proofs.Rehearsal.Verdicts
import StockLedger.Proofs.Service.Settlement
import StockLedger.Proofs.Time.Order

/-!
# Whether a claim that has ended stays ended

Whoever writes a claim has read it while it was pending, but perhaps long ago, and a write asks for
nothing. So a claim that has ended can be pending again: somebody read it in order to extend it,
somebody else settled it, and then the extension was written. All that can prevent this is that no
settlement goes through at all.

* `Ending.rules` : any number of extensions and settlements of any claims, and no request fails;
* `Ending.Stays` : a claim that has ended stays as it has ended;
* `Ending.Copies`, `Ending.Copies.step` : what is true of each copy of a claim that was read;
* `Ending.Unpaid`, `Ending.Unpaid.step` : too few units are reserved for a claim to be settled;
* `System.Reaches.rehearsed` : if the others wait, a workflow does what it does on a stage;
* `ended_stays_iff` : a claim stays ended if and only if it had ended at first, or cannot be settled.
-/

namespace StockLedger

open Conduct

namespace Ending

variable {stack : Stack} {ttl : Span}

/-! ## Extensions and settlements -/

/-- Claims are extended and settled; those that expire one start from a stored copy. -/
def rules (stack : Stack) (ttl : Span) : Rules (Working stack ttl) where
  starts σ t := (∃ id, t = .confirm id) ∨ (∃ id, t = .release id) ∨
    (∃ id span, t = .extend id span) ∨
    ∃ id c, t = .expire c ∧ σ.world.reservations.rows.find? id = some c
  serves _ _ _ served r _ := served = some r

/-- A claim that has ended in one state is there in the other one, and has ended in the same way. -/
def Stays (id : ReservationId) (σ σ' : System (Working stack ttl)) : Prop :=
  ∀ c, σ.world.reservations.rows.find? id = some c → c.status.isTerminal = true →
    ∃ c', σ'.world.reservations.rows.find? id = some c' ∧ c'.status = c.status

theorem upheld : (Workflow.conduct stack ttl).Upheld World.Faithful (rules stack ttl) := by
  refine Workflow.upheld (fun _ h => h) ?_
  intro w w' others t k c served reply hw hallows hserves _ _
  refine hw.serves hserves ?_
  rintro c rfl
  exact hallows

/-! ## Copies of a claim -/

/-- The stored claim and every copy of it that was read have the property. -/
structure Copies (id : ReservationId) (P : Reservation → Prop) (σ : System (Working stack ttl)) :
    Prop where
  keyed : σ.world.reservations.Keyed
  row : ∃ c, σ.world.reservations.rows.find? id = some c ∧ P c
  reads : ∀ run ∈ σ.runs, ∀ c, run.record.claim = some c → c.id = id → P c

section

variable {id : ReservationId} {P : Reservation → Prop} {w : World}
  {before after : List (Run (Working stack ttl))} {run : Run (Working stack ttl)}

theorem Copies.resume (h : Copies id P ⟨w, before ++ run :: after⟩) (w' : World)
    (hrows : w'.reservations = w.reservations) {k : Record} (hclaim : k.claim = run.record.claim)
    (rest : Program ((Working stack ttl).Outcome run.task)) :
    Copies id P ⟨w', before ++ run.resume k rest :: after⟩ where
  keyed := by
    rw [hrows]
    exact h.keyed
  row := by
    rw [hrows]
    exact h.row
  reads := by
    intro other hother c hc hid
    rcases Run.eq_or_mem_others hother with rfl | hothers
    · exact h.reads run (Run.mem_self ..) c (hclaim ▸ hc) hid
    · exact h.reads other (Run.mem_of_others run hothers) c hc hid

theorem Copies.reservations {c : ReservationCall} (hallows : run.task.MayClaim run.record c)
    (hmoves : ∀ x y, run.task.Moves run.record x y → x.id = id → P x → P y)
    (h : Copies id P ⟨w, before ++ run :: after⟩)
    (rest : Program ((Working stack ttl).Outcome run.task)) :
    Copies id P ⟨{ w with reservations := w.reservations.apply c }, before ++
      run.resume (run.record.note (.reservations c) (w.reservations.reply c)
        (some (w.reservations.reply c))) rest :: after⟩ where
  keyed := h.keyed.outcome (w.reservations.outcome c)
  row := by
    rcases h.row with ⟨x, hx, hP⟩
    have hx : w.reservations.rows.find? id = some x := hx
    have ho := w.reservations.outcome c
    generalize w.reservations.reply c = reply at ho
    generalize w.reservations.apply c = later at ho ⊢
    cases ho with
    | unchanged => exact ⟨x, hx, hP⟩
    | saved y hid =>
      have hne : id ≠ y.id := by
        rintro rfl
        rw [hid] at hx
        cases hx
      exact ⟨x, (Table.find?_insert ..).trans ((if_neg hne).trans hx), hP⟩
    | updated y old hid =>
      by_cases hne : id = y.id
      · -- What is stored now was made from a copy that was read.
        rcases hallows with ⟨read, hread⟩
        have hsame : read.id = id := hread.moved.id.symm.trans hne.symm
        have hcopy := h.reads run (Run.mem_self ..) read hread.claim hsame
        exact ⟨y, (Table.find?_insert ..).trans (if_pos hne), hmoves read y hread hsame hcopy⟩
      · exact ⟨x, (Table.find?_insert ..).trans ((if_neg hne).trans hx), hP⟩
  reads := by
    intro other hother x hx hid
    rcases Run.eq_or_mem_others hother with rfl | hothers
    · by_cases hload : ∃ j, c = .load j
      · rcases hload with ⟨j, rfl⟩
        cases hreply : w.reservations.load j with
        | ok y =>
          have hreply : w.reservations.reply (.load j) = .ok y := hreply
          rw [hreply] at hx
          cases hx
          rcases h.row with ⟨z, hz, hP⟩
          have hy := h.keyed.find?_of_load hreply
          rw [hid] at hy
          cases hy.symm.trans hz
          exact hP
        | error f =>
          have hreply : w.reservations.reply (.load j) = .error f := hreply
          rw [hreply] at hx
          exact h.reads run (Run.mem_self ..) x hx hid
      · have hclaim : (run.record.note (.reservations c) (w.reservations.reply c)
            (some (w.reservations.reply c))).claim = run.record.claim :=
          Record.claim_note_reservations fun j hj => hload ⟨j, hj⟩
        exact h.reads run (Run.mem_self ..) x (hclaim ▸ hx) hid
    · exact h.reads other (Run.mem_of_others run hothers) x hx hid

theorem Copies.start {σ : System (Working stack ttl)} {t : Workflow}
    (hstart : (rules stack ttl).starts σ t) (h : Copies id P σ) :
    Copies id P { σ with runs := σ.runs ++ [Run.start (Working stack ttl) t] } := by
  refine ⟨h.keyed, h.row, fun run hrun c hc hid => ?_⟩
  rcases List.mem_append.1 hrun with hold | hnew
  · exact h.reads run hold c hc hid
  · rcases List.mem_singleton.1 hnew with rfl
    rcases hstart with ⟨j, rfl⟩ | ⟨j, rfl⟩ | ⟨j, span, rfl⟩ | ⟨j, x, rfl, hx⟩
    · cases hc
    · cases hc
    · cases hc
    · -- What is to expire was stored when it was read.
      cases hc
      rcases h.row with ⟨z, hz, hP⟩
      have hj := h.keyed j c hx
      rw [← hj, hid] at hx
      cases hx.symm.trans hz
      exact hP

/-- A property of all copies is kept if no move takes it away. -/
theorem Copies.step {σ σ' : System (Working stack ttl)}
    (hkept : (Workflow.conduct stack ttl).Kept World.Faithful σ)
    (hmoves : ∀ run ∈ σ.runs, ∀ x y, run.task.Moves run.record x y → x.id = id → P x → P y)
    (hstep : System.Step (rules stack ttl) σ σ') (h : Copies id P σ) : Copies id P σ' := by
  cases hstep with
  | start _ t hstart => exact h.start hstart
  | abandon w before after run => exact h.resume w rfl rfl _
  | answer w w' before after run c next served reply hrest hserves hreports hserved =>
    have hallows := hkept.allows (Run.mem_self ..) hrest
    cases hserves with
    | skipped => cases hserved
    | ledger now c =>
      exact h.resume (w.afterLedger now c) rfl Record.claim_note_ledger _
    | reservations c =>
      cases hserved
      exact h.reservations hallows (hmoves run (Run.mem_self ..)) _
    | cache uptime c => exact h.resume { w with cache := w.cache.apply uptime c } rfl rfl _
    | now | uptime | freshUuid | publish | log => exact h.resume w rfl rfl _

end

/-! ## Claims that cannot be settled -/

/-- A copy of a claim, pending as it is. -/
structure Open (r c : Reservation) : Prop where
  status : c.status = .pending
  itemId : c.itemId = r.itemId
  quantity : c.quantity = r.quantity

/--
Neither now nor in any copy of the item are the units of the claim reserved, and nobody has written
the item for it.
-/
structure Unpaid (r : Reservation) (σ : System (Working stack ttl)) : Prop where
  short : ∀ x, σ.world.Held x → x.id = r.itemId → x.reserved < r.quantity
  claims : ∀ run ∈ σ.runs, run.task.claimed = 0
  waits : ∀ run ∈ σ.runs, ∀ c, run.record.claim = some c → c.id = r.id →
    run.task.settles = true → run.record.wrote = none

section

variable {r : Reservation} {w : World} {before after : List (Run (Working stack ttl))}
  {run : Run (Working stack ttl)}

theorem gain_nonpos {t : Workflow} (ht : t.claimed = 0) (k : Record) : t.gain k ≤ 0 := by
  have hunits : 0 ≤ k.units := by
    cases hc : k.claim with
    | none => rw [Record.units, hc]; exact Int.le_refl 0
    | some c => rw [Record.units, hc]; exact c.quantity_range.1.le
  have hsettled : 0 ≤ t.settled k := by
    cases t with
    | confirm | release | expire => exact hunits
    | _ => exact Int.le_refl 0
  rw [Workflow.gain, ht]
  omega

/-- No copy of the item has the units, so what is made from it has not either. -/
theorem Unpaid.offers_lt (h : Unpaid r ⟨w, before ++ run :: after⟩) {u : StockItem}
    (hoffers : run.task.Offers run.record w u) (hid : u.id = r.itemId) :
    u.reserved < r.quantity := by
  rcases hoffers.copy with ⟨x, hheld, hchanged⟩
  have hshort := h.short x hheld (hchanged.id.symm.trans hid)
  have hgain := gain_nonpos (h.claims run (Run.mem_self ..)) run.record
  calc
    u.reserved = x.reserved + run.task.gain run.record := hchanged.reserved
    _ ≤ x.reserved := by omega
    _ < r.quantity := hshort

/-- A settlement of the claim offers no item. -/
theorem Unpaid.not_offers (hcopies : Copies r.id (Open r) ⟨w, before ++ run :: after⟩)
    (h : Unpaid r ⟨w, before ++ run :: after⟩) {u : StockItem}
    (hoffers : run.task.Offers run.record w u) {c : Reservation}
    (hc : run.record.claim = some c) (hid : c.id = r.id) : run.task.settles = false := by
  cases hsettles : run.task.settles with
  | false => rfl
  | true =>
    have hopen := hcopies.reads run (Run.mem_self ..) c hc hid
    rcases hoffers.claim hsettles with ⟨c', hc', -, hitem⟩
    rcases hoffers.copy with ⟨x, hheld, hchanged⟩
    cases hc.symm.trans hc'
    have hshort := h.short x hheld ((hchanged.id.symm.trans hitem).trans hopen.itemId)
    have hreserved := hchanged.reserved
    rw [Settling.gain_eq hsettles hc, hopen.quantity] at hreserved
    -- It would have taken more units than there are.
    have hnonneg := u.reserved_nonneg
    omega

theorem Unpaid.resume (h : Unpaid r ⟨w, before ++ run :: after⟩) (w' : World)
    (hshort : ∀ x, w'.Held x → x.id = r.itemId → x.reserved < r.quantity) {k : Record}
    (hwaits : ∀ c, k.claim = some c → c.id = r.id → run.task.settles = true → k.wrote = none)
    (rest : Program ((Working stack ttl).Outcome run.task)) :
    Unpaid r ⟨w', before ++ run.resume k rest :: after⟩ := by
  refine ⟨hshort, fun other hother => ?_, fun other hother => ?_⟩
  · rcases Run.eq_or_mem_others hother with rfl | hothers
    · exact h.claims run (Run.mem_self ..)
    · exact h.claims other (Run.mem_of_others run hothers)
  · rcases Run.eq_or_mem_others hother with rfl | hothers
    · exact hwaits
    · exact h.waits other (Run.mem_of_others run hothers)

/-- What a request adds to the history has not enough units reserved either. -/
theorem Unpaid.short_afterLedger (h : Unpaid r ⟨w, before ++ run :: after⟩) {now : Timestamp}
    {c : LedgerCall} (hallows : run.task.MayAsk run.record w c) {x : StockItem}
    (hx : (w.afterLedger now c).Held x) (hid : x.id = r.itemId) : x.reserved < r.quantity := by
  have stored (y : StockItem) (hy : w.ledger.items.find? y.id = some y) (hid : y.id = r.itemId) :
      y.reserved < r.quantity := h.short y ⟨w.ledger, List.mem_cons_self .., hy⟩ hid
  rcases hx with ⟨l, hl, hx⟩
  rcases World.mem_history_afterLedger hl with rfl | hpast
  · have ho := w.ledger.outcome now c
    generalize w.ledger.reply now c = reply at ho
    generalize w.ledger.apply now c = later at ho hx
    cases ho with
    | unchanged => exact stored x hx hid
    | saved y =>
      rcases Table.of_find?_insert hx with ⟨-, rfl⟩ | ⟨-, hold⟩
      · -- Nothing is reserved of a new item.
        rw [hallows.2.1]
        exact r.quantity_range.1
      · exact stored x hold hid
    | updated u =>
      rcases Table.of_find?_insert hx with ⟨-, rfl⟩ | ⟨-, hold⟩
      · exact h.offers_lt (u := u) hallows hid
      · exact stored x hold hid
    | deleted j y => exact stored x (Table.below_erase _ _ _ _ hx) hid
    | bumped j y hy =>
      rcases Table.of_find?_insert hx with ⟨rfl, rfl⟩ | ⟨-, hold⟩
      · exact stored y hy hid
      · exact stored x hold hid
  · exact h.short x ⟨l, hpast, hx⟩ hid

theorem Unpaid.ledger (hcopies : Copies r.id (Open r) ⟨w, before ++ run :: after⟩)
    {now : Timestamp} {c : LedgerCall} {reply : c.Reply}
    (hallows : run.task.MayAsk run.record w c) (h : Unpaid r ⟨w, before ++ run :: after⟩)
    (rest : Program ((Working stack ttl).Outcome run.task)) :
    Unpaid r ⟨w.afterLedger now c, before ++
      run.resume (run.record.note (.ledger c) reply (some (w.ledger.reply now c))) rest ::
        after⟩ := by
  refine h.resume _ (fun x hx => h.short_afterLedger hallows hx) ?_ rest
  have hwaits := h.waits run (Run.mem_self ..)
  rcases run.record.note_ledger c reply (some (w.ledger.reply now c)) with hnote | ⟨u, rfl, hnote⟩
  · rw [hnote]
    exact hwaits
  · rw [hnote]
    intro x hx hid hsettles
    have hnever := h.not_offers hcopies hallows hx hid
    rw [hsettles] at hnever
    cases hnever

theorem Unpaid.reservations {c : ReservationCall} {reply : c.Reply}
    (hallows : run.task.MayClaim run.record c) (h : Unpaid r ⟨w, before ++ run :: after⟩)
    (rest : Program ((Working stack ttl).Outcome run.task)) :
    Unpaid r ⟨{ w with reservations := w.reservations.apply c }, before ++
      run.resume (run.record.note (.reservations c) reply (some (w.reservations.reply c))) rest ::
        after⟩ := by
  refine h.resume { w with reservations := w.reservations.apply c } h.short
    (fun x hx hid hsettles => ?_) rest
  rw [Record.wrote_note_reservations]
  by_cases hload : ∃ j, c = .load j
  · -- Who reads a claim has written nothing yet.
    rcases hload with ⟨j, rfl⟩
    exact hallows.2
  · rw [Record.claim_note_reservations fun j hj => hload ⟨j, hj⟩] at hx
    exact h.waits run (Run.mem_self ..) x hx hid hsettles

theorem Unpaid.start {σ : System (Working stack ttl)} {t : Workflow}
    (hstart : (rules stack ttl).starts σ t) (h : Unpaid r σ) :
    Unpaid r { σ with runs := σ.runs ++ [Run.start (Working stack ttl) t] } := by
  have hnew : t.claimed = 0 ∧ t.opening.wrote = none := by
    rcases hstart with ⟨j, rfl⟩ | ⟨j, rfl⟩ | ⟨j, span, rfl⟩ | ⟨j, x, rfl, -⟩
    all_goals exact ⟨rfl, rfl⟩
  refine ⟨h.short, fun run hrun => ?_, fun run hrun => ?_⟩
  · rcases List.mem_append.1 hrun with hold | hlast
    · exact h.claims run hold
    · rcases List.mem_singleton.1 hlast with rfl
      exact hnew.1
  · rcases List.mem_append.1 hrun with hold | hlast
    · exact h.waits run hold
    · rcases List.mem_singleton.1 hlast with rfl
      exact fun _ _ _ _ => hnew.2

theorem Unpaid.step {σ σ' : System (Working stack ttl)}
    (hkept : (Workflow.conduct stack ttl).Kept World.Faithful σ)
    (hcopies : Copies r.id (Open r) σ) (hstep : System.Step (rules stack ttl) σ σ')
    (h : Unpaid r σ) : Unpaid r σ' := by
  cases hstep with
  | start _ t hstart => exact h.start hstart
  | abandon w before after run => exact h.resume w h.short (h.waits run (Run.mem_self ..)) _
  | answer w w' before after run c next served reply hrest hserves hreports hserved =>
    have hallows := hkept.allows (Run.mem_self ..) hrest
    have hwaits := h.waits run (Run.mem_self ..)
    cases hserves with
    | skipped => cases hserved
    | ledger now c => exact h.ledger hcopies hallows _
    | reservations c => exact h.reservations hallows _
    | cache uptime c => exact h.resume { w with cache := w.cache.apply uptime c } h.short hwaits _
    | now | uptime | freshUuid | publish | log => exact h.resume w h.short hwaits _

/-- Without its units a pending claim is only moved to a later expiry. -/
theorem Unpaid.moves_open {σ : System (Working stack ttl)} (h : Unpaid r σ)
    (run : Run (Working stack ttl)) (hrun : run ∈ σ.runs) (x y : Reservation)
    (hmoves : run.task.Moves run.record x y) (hid : x.id = r.id) (hopen : Open r x) :
    Open r y := by
  have hstatus : y.status = .pending := by
    rcases hmoves.last with ⟨hpending, -⟩ | ⟨-, hbetween, hgain⟩
    · exact hpending
    · -- Who ends the claim has written its item before.
      have hpositive := x.quantity_range.1
      have hsettles : run.task.settles = true := by
        have hclaimed := h.claims run hrun
        rw [Workflow.gain, hclaimed] at hgain
        cases htask : run.task with
        | confirm | release | expire => rfl
        | _ =>
          rw [htask] at hgain
          simp only [Workflow.settled] at hgain
          omega
      have hwrote := h.waits run hrun x hmoves.claim hid hsettles
      exact absurd hbetween (Record.not_between hwrote _)
  exact ⟨hstatus, hmoves.moved.itemId.trans hopen.itemId,
    hmoves.moved.quantity.trans hopen.quantity⟩

end

end Ending

/-! ## A workflow while the others wait -/

/-- The world is what a stage shows. -/
structure World.IsOn (w : World) (s : Stage) : Prop where
  ledger : w.ledger = s.ledger
  reservations : w.reservations = s.reservations
  cache : w.cache = s.cache

theorem World.IsOn.serves {w : World} {s : Rehearsal} (hw : w.IsOn s.stage)
    (uptimes : Nat → Nat) {c : Call} (hc : c.ofWorkflow = true) :
    ∃ w', w.Serves c (some (s.perform uptimes c).1) w' ∧ w'.IsOn (s.perform uptimes c).2.stage := by
  rcases w with ⟨ledger, reservations, cache, past⟩
  rcases hw with ⟨hledger, hreservations, hcache⟩
  subst hledger hreservations hcache
  cases c with
  | ledger c => exact ⟨_, .ledger s.stage.clock.now c, rfl, rfl, rfl⟩
  | reservations c => exact ⟨_, .reservations c, rfl, rfl, rfl⟩
  | cache c => exact ⟨_, .cache (uptimes s.asked) c, rfl, rfl, rfl⟩
  | now => exact ⟨_, .now _, rfl, rfl, rfl⟩
  | freshUuid => exact ⟨_, .freshUuid _, rfl, rfl, rfl⟩
  | log e => exact ⟨_, .log e, rfl, rfl, rfl⟩
  | publish | uptime | findExpiredWithin | enterSweep | leaveSweep | recordSweep | recordSkip =>
    cases hc

theorem Call.reports_served (c : Call) (r : c.Reply) : c.Reports (some r) r := by
  cases c with
  | ledger | reservations | cache => exact .inl rfl
  | _ => exact rfl

/--
If the others wait, a part of a workflow does what it does on a stage, and no request fails.
-/
theorem System.Reaches.rehearsed {J : Job} {R : Rules J} (before after : List (Run J))
    (task : J.Task) (hrules : ∀ w c r w', R.serves w (before ++ after) c (some r) r w')
    {uptimes : Nat → Nat} {α : Type} {p : Program α} {f : α → Program (J.Outcome task)}
    (hp : p.OfWorkflow) {s s' : Rehearsal} {a : α}
    (hrun : p.runOn (Rehearsal.answer? uptimes) s = some (a, s')) {k : Record} {w : World}
    (hw : w.IsOn s.stage) :
    ∃ k' w', Reaches R ⟨w, before ++ ⟨task, k, p.andThen f⟩ :: after⟩
      ⟨w', before ++ ⟨task, k', f a⟩ :: after⟩ ∧ w'.IsOn s'.stage := by
  induction p generalizing s k w with
  | done b =>
    cases hrun
    exact ⟨k, w, .refl, hw⟩
  | call c next ih =>
    rcases hp.head with ⟨hc, hnext⟩
    rcases hw.serves uptimes hc with ⟨w₁, hserves, hw₁⟩
    have hreports := c.reports_served (s.perform uptimes c).1
    -- One request is one step; what is left of the program goes on from there.
    have hstep := Step.answer (R := R) w w₁ before after
      ⟨task, k, .call c fun r => (next r).andThen f⟩ c _ _ _ rfl hserves hreports
      (hrules w c _ w₁)
    rcases ih _ (hnext _) hrun hw₁ with ⟨k', w', hsteps, hw'⟩
    exact ⟨k', w', .head hstep hsteps, hw'⟩
  | abort => cases hrun

namespace Ending

variable {stack : Stack} {ttl : Span}

/-! ## An extension that comes too late -/

/-- What is left of an extension when the claim and the clock have been read. -/
def extending (r : Reservation) (span : Span) (now : Timestamp) : Program (Answer Reservation) :=
  (do let r ← Service.inRange (r.extend? span now)
      Service.reservations (.update r)
      Service.log .debug "reservation extended"
      return r : Request Reservation).run

/-- On the instant of its expiry a pending claim can still be extended. -/
theorem extend?_expiresAt {r : Reservation} (hpending : r.status = .pending) {span : Span}
    {later : Timestamp} (hspan : span.Positive) (hlater : r.expiresAt.add? span = some later) :
    r.extend? span r.expiresAt =
      some (.ok { r with expiresAt := later, updatedAt := r.expiresAt }) := by
  have hactive : r.ensureConfirmable r.expiresAt = .ok () :=
    Reservation.ensureConfirmable_of_active hpending (Timestamp.lt_irrefl _)
  rw [Reservation.extend?, if_pos hspan, hactive, hlater]
  rfl

section

variable {since : Nat} {uptimes : Nat → Nat} {m : Scene} {r c : Reservation}

theorem extending_eq {late : Reservation} {span : Span} {now : Timestamp}
    (hextend : r.extend? span now = some (.ok late)) :
    ExceptT.mk (extending r span now) =
      (do Service.reservations (.update late)
          Service.log .debug "reservation extended"
          return late : Request Reservation) := by
  rw [extending, hextend]
  rfl

theorem comesTo_extending {late : Reservation} {span : Span} {now : Timestamp}
    (hextend : r.extend? span now = some (.ok late))
    (hc : m.reservations.rows.find? late.id = some c) :
    Request.ComesTo stack since uptimes m (ExceptT.mk (extending r span now))
      (.ok (late, m.putClaim late)) := by
  have hanswer : (m.overwrite late >>= fun p => .ok (late, p.2)) = .ok (late, m.putClaim late) := by
    rw [Scene.overwrite_eq hc]
    rfl
  rw [extending_eq hextend, ← hanswer]
  refine (comesTo_overwrite late).bind (fun _ m' _ => ?_) fun _ _ _ _ hf => nomatch hf
  refine comesTo_report.read (a := .ok ()) (b := fun _ => .ok (late, m')) fun _ _ => ?_
  exact Request.comesTo_pure late

theorem settle_release (hkeyed : m.ledger.Keyed) (hpending : r.status = .pending) {x : StockItem}
    (hx : m.ledger.items.find? r.itemId = some x) (hreserved : r.quantity ≤ x.reserved)
    (hr : m.reservations.rows.find? r.id = some r) :
    ∃ x' m', m.settle .release r = .ok ((r.moveTo .released m.now, x'), m') ∧
      m'.reservations.rows.find? r.id = some (r.moveTo .released m.now) := by
  have hready : m.Ready [⟨r, .release⟩] := .single hkeyed hr hpending hx hreserved
  rcases hready.settle with ⟨-, y, -, -, hsettle⟩
  exact ⟨y, _, hsettle, (Table.find?_insert ..).trans (if_pos rfl)⟩

end

/-- The world is what a rehearsal shows that has the scene. -/
def Plays (stack : Stack) (m : Scene) (w : World) : Prop :=
  ∃ s : Rehearsal, w.IsOn s.stage ∧ s.Stands stack 0 m

theorem Plays.reservations {m : Scene} {w : World} (hw : Plays stack m w) :
    w.reservations = m.reservations := by
  rcases hw with ⟨s, hon, hs⟩
  calc
    w.reservations = s.stage.scene.reservations := hon.reservations
    _ = m.reservations := by rw [hs.scene]

/-- If the others wait, a part of a workflow comes to its answer. -/
theorem reaches_comesTo (before after : List (Run (Working stack ttl))) (task : Workflow)
    {α : Type} {x : Request α} {f : Answer α → Program ((Working stack ttl).Outcome task)}
    {m : Scene} {a : Answer (α × Scene)} (hx : ∀ uptimes, x.ComesTo stack 0 uptimes m a)
    (hwithin : x.OfWorkflow) {k : Record} {w : World} (hw : Plays stack m w) :
    ∃ k' w', System.Reaches (rules stack ttl)
        ⟨w, before ++ ⟨task, k, x.run.andThen f⟩ :: after⟩
        ⟨w', before ++ ⟨task, k', f (a.map Prod.fst)⟩ :: after⟩ ∧
      Plays stack (m.after a) w' := by
  rcases hw with ⟨s, hon, hs⟩
  rcases (hx (fun _ => 0) s hs).runOn with ⟨_, s', hrun, rfl, hs'⟩
  rcases System.Reaches.rehearsed (R := rules stack ttl) before after task (fun _ _ _ _ => rfl)
    hwithin hrun hon with ⟨k', w', hsteps, hon'⟩
  exact ⟨k', w', hsteps, s', hon', hs'⟩

section

variable {m : Scene} {r : Reservation} {span : Span} {w : World}
  (before after : List (Run (Working stack ttl)))

/-- An extension reads the claim and the clock. -/
theorem reaches_extending (span : Span) (hr : m.reservations.rows.find? r.id = some r)
    (hw : Plays stack m w) :
    ∃ k w', System.Reaches (rules stack ttl)
        ⟨w, before ++ .start (Working stack ttl) (.extend r.id span) :: after⟩
        ⟨w', before ++ ⟨.extend r.id span, k, extending r span m.now⟩ :: after⟩ ∧
      Plays stack m w' := by
  let clocked (a : Answer Timestamp) : Program (Answer Reservation) :=
    (Request.ofAnswer a >>= fun t => ExceptT.mk (extending r span t) : Request Reservation).run
  let loaded (a : Answer Reservation) : Program (Answer Reservation) :=
    (Request.ofAnswer a >>= fun r => Service.now >>= fun t => ExceptT.mk (extending r span t) :
      Request Reservation).run
  rcases reaches_comesTo before after (.extend r.id span) (f := loaded)
    (fun _ => comesTo_load hr) (within_reservations _) (k := {}) hw with ⟨k₁, w₁, hread, hw₁⟩
  rcases reaches_comesTo before after (.extend r.id span) (f := clocked) (fun _ => comesTo_now)
    within_now.ofWorkflow (k := k₁) hw₁ with ⟨k₂, w₂, hclock, hw₂⟩
  exact ⟨k₂, w₂, hread.trans hclock, hw₂⟩

/-- Then it writes the claim that it has read. -/
theorem reaches_extended {late c : Reservation} {k : Record} {now : Timestamp}
    (hextend : r.extend? span now = some (.ok late))
    (hc : m.reservations.rows.find? late.id = some c) (hw : Plays stack m w) :
    ∃ k' w', System.Reaches (rules stack ttl)
        ⟨w, before ++ ⟨.extend r.id span, k, extending r span now⟩ :: after⟩
        ⟨w', before ++ ⟨.extend r.id span, k', .done (.ok late : Answer Reservation)⟩ :: after⟩ ∧
      Plays stack (m.putClaim late) w' := by
  have hwithin : Request.OfWorkflow (ExceptT.mk (extending r span now)) := by
    rw [extending_eq hextend]
    refine (within_reservations _).bind fun _ => ?_
    exact within_report.ofWorkflow.bind fun _ => trivial
  have hsteps := reaches_comesTo before after (.extend r.id span) (f := .done)
    (fun _ => comesTo_extending hextend hc) hwithin (k := k) hw
  rw [Program.andThen_done] at hsteps
  exact hsteps

theorem reaches_released (hkeyed : m.ledger.Keyed)
    (hr : m.reservations.rows.find? r.id = some r) {c : Reservation} {x : StockItem} {m' : Scene}
    (hsettle : m.settle .release r = .ok ((c, x), m'))
    (hw : Plays stack m w) :
    ∃ k w', System.Reaches (rules stack ttl)
        ⟨w, before ++ .start (Working stack ttl) (.release r.id) :: after⟩
        ⟨w', before ++ ⟨.release r.id, k, .done (.ok c : Answer Reservation)⟩ :: after⟩ ∧
      Plays stack m' w' := by
  let v : Service := { ledger := stack.ledger, defaultTtl := ttl }
  have hrelease (uptimes : Nat → Nat) :
      (v.release r.id).ComesTo stack 0 uptimes m (.ok (c, m')) := by
    have hanswer : (m.settle .release r >>= fun p => .ok (p.1.1, p.2)) = .ok (c, m') := by
      rw [hsettle]
      rfl
    rw [← hanswer]
    exact comesTo_loadSettle rfl (fun _ => Nat.zero_le _) hkeyed hr
  have hsteps := reaches_comesTo before after (.release r.id) (f := .done) hrelease
    (within_release rfl r.id) (k := {}) hw
  rw [Program.andThen_done] at hsteps
  exact hsteps

end

/--
Somebody reads a pending claim to extend it. Before the extension is written, somebody else releases
the claim.
-/
theorem reaches_reopened {l : MemoryLedger} {m : MemoryReservations} {r : Reservation}
    {s : StockItem} {span : Span} {later : Timestamp} (hl : l.Keyed)
    (hr : m.rows.find? r.id = some r) (hpending : r.status = .pending)
    (hs : l.items.find? r.itemId = some s) (hreserved : r.quantity ≤ s.reserved)
    (hspan : span.Positive) (hlater : r.expiresAt.add? span = some later) :
    ∃ σ σ' : System (Working stack ttl),
      System.Reaches (rules stack ttl) ⟨{ ledger := l, reservations := m }, []⟩ σ ∧
      System.Reaches (rules stack ttl) σ σ' ∧
      (∃ c, σ.world.reservations.rows.find? r.id = some c ∧ c.status = .released) ∧
      ∃ c, σ'.world.reservations.rows.find? r.id = some c ∧ c.status = .pending := by
  let m₀ : Scene := { now := r.expiresAt, ledger := l, reservations := m }
  let w₀ : World := { ledger := l, reservations := m }
  have hw₀ : Plays stack m₀ w₀ := by
    let stage : Stage :=
      { ledger := l, reservations := m, clock := { now := r.expiresAt }, ids := { millis := 0 } }
    refine ⟨{ stage }, ⟨rfl, rfl, rfl⟩, rfl, ?_⟩
    cases stack with
    | plain => exact trivial
    | cached lifetimes => exact ⟨rfl, fun _ _ h => nomatch h⟩
  have hextend := extend?_expiresAt hpending hspan hlater
  rcases settle_release (m := m₀) hl hpending hs hreserved hr with ⟨x, m₁, hsettle, hrow⟩
  have hfirst : System.Step (rules stack ttl) ⟨w₀, []⟩
      ⟨w₀, [.start (Working stack ttl) (.extend r.id span)]⟩ :=
    .start ⟨w₀, []⟩ _ (.inr (.inr (.inl ⟨r.id, span, rfl⟩)))
  rcases reaches_extending ([] : List (Run (Working stack ttl))) [] span hr hw₀ with
    ⟨k₁, w₁, hread, hw₁⟩
  let waiting : Run (Working stack ttl) :=
    ⟨.extend r.id span, k₁, extending r span r.expiresAt⟩
  have hsecond : System.Step (rules stack ttl) ⟨w₁, [waiting]⟩
      ⟨w₁, [waiting, .start (Working stack ttl) (.release r.id)]⟩ :=
    .start ⟨w₁, [waiting]⟩ _ (.inr (.inl ⟨r.id, rfl⟩))
  -- While the extension waits, the claim is released; then the extension is written.
  rcases reaches_released [waiting] [] hl hr hsettle hw₁ with ⟨k₂, w₂, hrelease, hw₂⟩
  rcases reaches_extended [] [⟨.release r.id, k₂, .done (.ok (r.moveTo .released r.expiresAt) :
    Answer Reservation)⟩] (k := k₁) hextend hrow hw₂ with ⟨k₃, w₃, hwrite, hw₃⟩
  refine ⟨_, _, .head hfirst (hread.trans (.head hsecond hrelease)), hwrite, ?_, ?_⟩
  · exact ⟨_, hw₂.reservations ▸ hrow, rfl⟩
  · let late : Reservation := { r with expiresAt := later, updatedAt := r.expiresAt }
    have hlate : (m₁.putClaim late).reservations.rows.find? late.id = some late :=
      (Table.find?_insert ..).trans (if_pos rfl)
    exact ⟨late, hw₃.reservations ▸ hlate, hpending⟩

/-! ## Claims that stay as they are -/

section

variable {l : MemoryLedger} {m : MemoryReservations} {r : Reservation}
  {σ : System (Working stack ttl)}

theorem kept_opened (hl : l.Keyed) : (Workflow.conduct stack ttl).Kept World.Faithful
    (⟨{ ledger := l, reservations := m }, []⟩ : System (Working stack ttl)) := by
  refine ⟨⟨fun older holder => ?_, fun _ _ h => (nomatch h)⟩, fun _ h => (nomatch h)⟩
  rcases List.mem_singleton.1 holder with rfl
  exact hl

/-- Nobody reads anything but the claim as it has ended, and from that nothing is made. -/
theorem stays_ended (hl : l.Keyed) (hm : m.Keyed) (hr : m.rows.find? r.id = some r)
    (hended : r.status ≠ .pending)
    (hreaches : System.Reaches (rules stack ttl) ⟨{ ledger := l, reservations := m }, []⟩ σ) :
    σ.world.reservations.rows.find? r.id = some r := by
  have hopened : Copies r.id (fun c => c = r)
      (⟨{ ledger := l, reservations := m }, []⟩ : System (Working stack ttl)) :=
    ⟨hm, ⟨r, hr, rfl⟩, fun _ h => nomatch h⟩
  have hcopies := (kept_opened hl).invariant upheld hreaches hopened fun hkept hstep h => by
    refine h.step hkept ?_ hstep
    rintro run - x y hmoves - rfl
    exact absurd hmoves.moved.pending hended
  rcases hcopies.row with ⟨c, hc, rfl⟩
  exact hc

/-- A claim whose units are not reserved stays pending. -/
theorem stays_open (hl : l.Keyed) (hm : m.Keyed) (hr : m.rows.find? r.id = some r)
    (hpending : r.status = .pending)
    (hshort : ∀ x, l.items.find? r.itemId = some x → x.reserved < r.quantity)
    (hreaches : System.Reaches (rules stack ttl) ⟨{ ledger := l, reservations := m }, []⟩ σ) :
    Copies r.id (Open r) σ := by
  have hopened : Copies r.id (Open r)
      (⟨{ ledger := l, reservations := m }, []⟩ : System (Working stack ttl)) :=
    ⟨hm, ⟨r, hr, hpending, rfl, rfl⟩, fun _ h => nomatch h⟩
  have hunpaid : Unpaid r
      (⟨{ ledger := l, reservations := m }, []⟩ : System (Working stack ttl)) := by
    refine ⟨fun x hx hid => ?_, fun _ h => (nomatch h), fun _ h => (nomatch h)⟩
    rcases hx with ⟨older, holder, hx⟩
    rcases List.mem_singleton.1 holder with rfl
    exact hshort x (hid ▸ hx)
  have hboth := (kept_opened hl).invariant upheld hreaches (P := fun σ =>
    Copies r.id (Open r) σ ∧ Unpaid r σ) ⟨hopened, hunpaid⟩ fun hkept hstep h =>
      ⟨h.1.step hkept h.2.moves_open hstep, h.2.step hkept h.1 hstep⟩
  exact hboth.1

end

end Ending

open Ending in
/--
Whatever extensions and settlements do at the same time, while no request fails: a claim that has
ended stays as it has ended, if and only if it is not pending at first, or its item is not there or
has too few units reserved for it. The expiry of the claim is not to be the last of all instants.
-/
theorem ended_stays_iff (stack : Stack) (ttl : Span) {l : MemoryLedger} {m : MemoryReservations}
    {r : Reservation} (hl : l.Keyed) (hm : m.Keyed) (hr : m.rows.find? r.id = some r)
    (hlater : ∃ span later, span.Positive ∧ r.expiresAt.add? span = some later) :
    (∀ σ σ' : System (Working stack ttl),
        System.Reaches (rules stack ttl) ⟨{ ledger := l, reservations := m }, []⟩ σ →
        System.Reaches (rules stack ttl) σ σ' → Stays r.id σ σ') ↔
      ¬ (r.status = .pending ∧ ∃ s, l.items.find? r.itemId = some s ∧ r.quantity ≤ s.reserved) := by
  constructor
  · rintro hstays ⟨hpending, s, hs, hreserved⟩
    rcases hlater with ⟨span, later, hspan, hlater⟩
    rcases reaches_reopened hl hr hpending hs hreserved hspan hlater with
      ⟨σ, σ', hfirst, hlast, ⟨c, hc, hreleased⟩, c', hc', hreopened⟩
    have hended : c.status.isTerminal = true := by
      rw [hreleased]
      rfl
    rcases hstays σ σ' hfirst hlast c hc hended with ⟨x, hx, hsame⟩
    cases hx.symm.trans hc'
    rw [hreopened, hreleased] at hsame
    cases hsame
  · intro hnever σ σ' hfirst hlast c hc hended
    by_cases hpending : r.status = .pending
    · -- The claim is never settled, so it does not end at all.
      have hshort (x : StockItem) (hx : l.items.find? r.itemId = some x) :
          x.reserved < r.quantity := by
        by_contra hreserved
        exact hnever ⟨hpending, x, hx, not_lt.1 hreserved⟩
      rcases (stays_open hl hm hr hpending hshort hfirst).row with ⟨x, hx, hopen⟩
      cases hx.symm.trans hc
      rw [hopen.status] at hended
      cases hended
    · have hbefore := stays_ended hl hm hr hpending hfirst
      have hafter := stays_ended hl hm hr hpending (hfirst.trans hlast)
      cases hc.symm.trans hbefore
      exact ⟨r, hafter, rfl⟩

namespace Ending

/-- Four of ten units are reserved, for the claim itself. -/
def claimed : StockItem :=
  .tenWith 4

/-- A claim whose units are reserved, as they should be, can be pending again after its end. -/
theorem ended_stays_iff_claimed :
    let l := MemoryLedger.empty.apply .epoch (.save claimed)
    let m := MemoryReservations.empty.apply (.save (.four 1))
    l.Keyed ∧ m.Keyed ∧ m.rows.find? (Reservation.four 1).id = some (.four 1) ∧
      ¬ ∀ σ σ' : System (Working .plain Reservation.defaultTtl),
        System.Reaches (rules .plain Reservation.defaultTtl)
          ⟨{ ledger := l, reservations := m }, []⟩ σ →
        System.Reaches (rules .plain Reservation.defaultTtl) σ σ' →
        Stays (Reservation.four 1).id σ σ' := by
  intro l m
  have hl : l.Keyed :=
    MemoryLedger.keyed_empty.outcome (MemoryLedger.outcome _ .epoch (.save claimed))
  have hm : m.Keyed :=
    MemoryReservations.keyed_empty.outcome (MemoryReservations.outcome _ (.save (.four 1)))
  have hrow : m.rows.find? (Reservation.four 1).id = some (.four 1) := by rfl
  have hlater : ∃ span later, span.Positive ∧
      (Reservation.four 1).expiresAt.add? span = some later := by
    exact ⟨.ofSeconds 60, (Timestamp.epoch.add? (.ofSeconds 960)).getD .epoch, by decide, by rfl⟩
  refine ⟨hl, hm, hrow, fun hstays => ?_⟩
  exact (ended_stays_iff .plain Reservation.defaultTtl hl hm hrow hlater).1 hstays
    ⟨rfl, claimed, by rfl, by decide⟩

end Ending
end StockLedger
