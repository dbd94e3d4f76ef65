import Mathlib.Tactic.Common
import StockLedger.Proofs.Sweep.Reclaim
import StockLedger.Proofs.Sweep.Summary

/-!
# Claims that cannot be released

A claim whose units are not reserved stays overdue, and every sweep finds it again. The limit of a
sweep counts it, so that claims like this can keep a sweep from the others.

* `reclaim_idle` : if nothing is released, nothing changes, and nothing could have been released;
* `idle_trigger` : a sweep that releases nothing was kept busy by claims that cannot be released;
* `Starving.stage` : one such claim is enough if a sweep handles one claim only.
-/

namespace StockLedger

namespace Scene

variable {m : Scene} {rs : List Reservation}

theorem length_reclaim (rs : List Reservation) (start : SweepSummary) :
    start.releasedIds.length ≤ (m.reclaim rs start).1.releasedIds.length := by
  induction rs generalizing m start with
  | nil => exact Nat.le_refl _
  | cons r rest ih =>
    cases hsettle : m.settle .expire r with
    | ok p =>
      rw [reclaim_released hsettle]
      have hrest := ih (m := p.2) (start.addReleased r.id)
      simp only [SweepSummary.addReleased, List.length_append, List.length_singleton] at hrest ⊢
      omega
    | error f =>
      rw [reclaim_refused hsettle]
      exact ih (start.addFailure r.id f)

/-- If nothing is released, no claim could have been. -/
theorem reclaim_idle (start : SweepSummary) (h : m.Awaits rs)
    (hidle : (m.reclaim rs start).1.releasedIds.length = start.releasedIds.length) :
    (m.reclaim rs start).2 = m ∧
      (m.reclaim rs start).1.failures.length = start.failures.length + rs.length ∧
      ∀ r ∈ rs, m.settles r = false := by
  induction rs generalizing start with
  | nil => exact ⟨rfl, rfl, fun _ hr => nomatch hr⟩
  | cons r rest ih =>
    cases hsettles : m.settles r with
    | true =>
      -- The claim would have been released, and no later claim takes that back.
      rcases settle_overdue h hsettles with ⟨x, y, -, -, hok⟩
      rw [reclaim_released hok] at hidle
      have hmore := length_reclaim (m := m.expire r y) rest (start.addReleased r.id)
      rw [hidle] at hmore
      simp [SweepSummary.addReleased] at hmore
    | false =>
      -- A refusal changes nothing, so the next claim meets the same scene.
      rcases settle_refused hsettles with ⟨f, hf⟩
      rw [reclaim_refused hf] at hidle ⊢
      rcases ih (start.addFailure r.id f) h.tail hidle with ⟨hsame, hfailures, hnone⟩
      refine ⟨hsame, ?_, ?_⟩
      · rw [hfailures]
        simp [SweepSummary.addFailure]
        omega
      · intro a ha
        rcases List.mem_cons.1 ha with rfl | hrest
        · exact hsettles
        · exact hnone a hrest

theorem deferredIds_reclaim (rs : List Reservation) (start : SweepSummary) :
    (m.reclaim rs start).1.deferredIds = start.deferredIds := by
  induction rs generalizing m start with
  | nil => rfl
  | cons r rest ih =>
    cases hsettle : m.settle .expire r with
    | ok p =>
      rw [reclaim_released hsettle]
      exact ih (start.addReleased r.id)
    | error f =>
      rw [reclaim_refused hsettle]
      exact ih (start.addFailure r.id f)

end Scene

/-! ## A sweep that releases nothing -/

section

variable {stack : Stack} {since : Nat} {uptimes : Nat → Nat} {m : Scene} {s : Rehearsal}
  {config : SweepConfig} {rs : List Reservation} {n : Nat} {a : Answer SweepSummary}

/-- If a sweep has neither released nor deferred a claim, it could release none that it found. -/
theorem Rehearsal.Triggered.idle (h : Rehearsal.Triggered stack since m config rs n a s)
    (hawaits : m.Awaits rs) (hfree : m.sweeping = false) {summary : SweepSummary}
    (ha : a = .ok summary) (hdeferred : summary.tally.deferred = 0)
    (hreleased : summary.tally.released = 0) :
    s.stage.scene = m ∧ summary.tally.failed = rs.length ∧ ∀ r ∈ rs, m.settles r = false := by
  let busy : Scene := { m with sweeping := true }
  let start : SweepSummary := { found := rs.length }
  have hsummary : summary =
      ((busy.reclaim (rs.take n) start).1.addDeferred ((rs.drop n).map Reservation.id)).counted :=
    Except.ok.inj (ha.symm.trans h.answer)
  subst hsummary
  have hdrop : rs.drop n = [] := by
    have hlength : (busy.reclaim (rs.take n) start).1.deferredIds ++
        (rs.drop n).map Reservation.id = [] := List.length_eq_zero_iff.1 hdeferred
    exact List.map_eq_nil_iff.1 (List.append_eq_nil_iff.1 hlength).2
  have htake : rs.take n = rs := by
    have hsplit := List.take_append_drop n rs
    rw [hdrop, List.append_nil] at hsplit
    exact hsplit
  rw [htake] at hreleased
  rcases Scene.reclaim_idle start (hawaits.sweeping true) hreleased with ⟨hsame, hfailures, hnone⟩
  refine ⟨?_, ?_, hnone⟩
  rotate_left
  · rw [htake]
    exact hfailures.trans (Nat.zero_add _)
  have hscene := h.stands.scene
  rw [htake] at hscene
  have hbefore : (busy.reclaim rs start).2 = busy := hsame
  calc
    s.stage.scene = { (busy.reclaim rs start).2 with sweeping := false } := hscene
    _ = { m with sweeping := false } := by rw [hbefore]
    _ = m := by rw [← hfree]

theorem Rehearsal.Triggered.deferred_eq (h : Rehearsal.Triggered stack since m config rs n a s)
    {summary : SweepSummary} (ha : a = .ok summary) (hbudget : config.budget = none) :
    summary.tally.deferred = 0 := by
  have hsummary := Except.ok.inj (ha.symm.trans h.answer)
  rw [h.endless hbudget, List.drop_length] at hsummary
  subst hsummary
  simp [SweepSummary.tally, SweepSummary.counted, SweepSummary.addDeferred,
    Scene.deferredIds_reclaim]

end

/--
Nothing interferes with a sweep. If it has neither released nor deferred a claim, then none of the
claims in its batch could be released; and none at all if the batch was not full. So claims that
cannot be released keep a sweep from the others only if there are as many of them as it handles.
-/
theorem starved_only_by_batch (stack : Stack) (ttl : Span) (config : SweepConfig) {s : Rehearsal}
    {since : Nat} {uptimes : Nat → Nat} {backlog : List Reservation}
    (huptimes : ∀ n, since ≤ uptimes n)
    (hcache : stack.Trusts since s.stage.ledger (fun _ => False) s.stage.cache)
    (hfree : s.stage.sweeping = false) (hledger : s.stage.ledger.Keyed)
    (hreservations : s.stage.reservations.Keyed)
    (hbacklog : s.stage.reservations.Backlog s.stage.clock.now backlog) :
    ∃ summary s', (stack.sweeper ttl config).trigger.run.runOn (Rehearsal.answer? uptimes) s =
        some (.ok summary, s') ∧
      (config.budget = none → summary.tally.deferred = 0) ∧
      (summary.tally.deferred = 0 → summary.tally.released = 0 →
        s'.stage.scene = s.stage.scene ∧
        (∀ r ∈ takeLimit config.batchLimit backlog, s.stage.scene.settles r = false) ∧
        (config.batchLimit = 0 ∨ summary.tally.failed < config.batchLimit.toNat →
          ∀ r ∈ backlog, s.stage.scene.settles r = false)) ∧
      (summary.tally.deferred = 0 → (∃ r ∈ backlog, s.stage.scene.settles r = true) →
        (config.batchLimit = 0 ∨
          backlog.countP (fun r => !s.stage.scene.settles r) < config.batchLimit.toNat) →
        0 < summary.tally.released) := by
  let limit := config.batchLimit
  have hfound : s.stage.scene.reservations.expired s.stage.scene.now limit =
      takeLimit limit backlog := hbacklog.expired_eq hreservations limit
  have hawaits : s.stage.scene.Awaits (takeLimit limit backlog) := by
    rcases exists_takeLimit_append limit backlog with ⟨rest, hrest⟩
    have hall : s.stage.scene.Awaits backlog := Scene.awaits_backlog hledger hbacklog
    rw [← hrest] at hall
    exact hall.left
  have hs : s.Stands stack since s.stage.scene := ⟨rfl, hcache⟩
  rcases (safe_trigger (w := stack.sweeper ttl config) rfl huptimes hfree hfound hawaits hs).runOn with
    ⟨a, s', hrun, n, hsweep⟩
  rcases hsweep.answer with rfl
  refine ⟨_, s', hrun, hsweep.deferred_eq rfl, fun hdeferred hreleased => ?_,
    fun hdeferred hsome hfew => ?_⟩
  · rcases hsweep.idle hawaits hfree rfl hdeferred hreleased with ⟨hsame, hfailed, hnone⟩
    refine ⟨hsame, hnone, fun hroom => ?_⟩
    rw [hfailed] at hroom
    rw [takeLimit_eq_self hroom] at hnone
    exact hnone
  · by_contra hreleased
    have hidle := Nat.eq_zero_of_not_pos hreleased
    rcases hsweep.idle hawaits hfree rfl hdeferred hidle with ⟨-, -, hnone⟩
    -- All claims in the batch cannot be released, and there are too few of these for a full one.
    have hroom : limit = 0 ∨ (takeLimit limit backlog).length < limit.toNat := by
      refine hfew.imp_right fun hfew => lt_of_le_of_lt ?_ hfew
      refine length_takeLimit_le_countP fun r hr => ?_
      simp [hnone r hr]
    rw [takeLimit_eq_self hroom] at hnone
    rcases hsome with ⟨r, hr, hsettles⟩
    rw [hnone r hr] at hsettles
    cases hsettles

namespace Starving

/-- An overdue claim whose item is not there. -/
def lost : Reservation :=
  .four 0

/-- An overdue claim whose units are reserved. -/
def sound : Reservation :=
  .four 1

def item : StockItem :=
  .tenWith 4

def stage : Stage where
  ledger := MemoryLedger.empty.apply .epoch (.save item)
  reservations := (MemoryReservations.empty.apply (.save lost)).apply (.save sound)
  clock := { now := (Timestamp.epoch.add? (.ofSeconds 901)).getD .epoch }
  ids := { millis := 0 }

theorem keyed_ledger : stage.ledger.Keyed :=
  MemoryLedger.keyed_empty.outcome (MemoryLedger.outcome _ .epoch (.save item))

theorem keyed_reservations : stage.reservations.Keyed :=
  (MemoryReservations.keyed_empty.outcome (MemoryReservations.outcome _ (.save lost))).outcome
    (MemoryReservations.outcome _ (.save sound))

theorem backlog_stage : stage.reservations.Backlog stage.clock.now [lost, sound] :=
  MemoryReservations.backlog_pair rfl rfl rfl (.inr ⟨rfl, by decide⟩)

theorem trusts_stage : (Stack.cached {}).Trusts 0 stage.ledger (fun _ => False) stage.cache :=
  ⟨rfl, fun _ _ h => nomatch h⟩

/-- A sweep that handles two claims is not kept from the second one by the first one. -/
theorem starved_only_by_batch_two :
    let config : SweepConfig := { batchLimit := 2, budget := none }
    let w := (Stack.cached {}).sweeper Reservation.defaultTtl config
    ∃ summary s', w.trigger.run.runOn (Rehearsal.answer? fun _ => 0) { stage } =
        some (.ok summary, s') ∧ 0 < summary.tally.released := by
  intro config w
  rcases starved_only_by_batch (.cached {}) Reservation.defaultTtl config (s := { stage })
    (fun _ => Nat.zero_le 0) trusts_stage rfl keyed_ledger keyed_reservations backlog_stage with
    ⟨summary, s', hrun, hdeferred, -, hreleased⟩
  refine ⟨summary, s', hrun, hreleased (hdeferred rfl) ⟨sound, ?_, rfl⟩ (.inr ?_)⟩
  · exact List.mem_pair.2 (.inr rfl)
  · decide

/-- A sweep that handles one claim fails to release the first one and never gets to the second. -/
theorem starved :
    let config : SweepConfig := { batchLimit := 1, budget := none }
    let w := Stack.plain.sweeper Reservation.defaultTtl config
    ∃ summary s', w.trigger.run.runOn (Rehearsal.answer? fun _ => 0) { stage } =
        some (.ok summary, s') ∧
      summary.tally = { released := 0, failed := 1, deferred := 0 } ∧
      s'.stage.reservations.rows.find? sound.id = some sound ∧ sound.status = .pending ∧
      sound.expiresAt < s'.stage.clock.now ∧ s'.stage.scene.settles sound = true := by
  intro config w
  have hfound : stage.scene.reservations.expired stage.scene.now 1 = [lost] :=
    backlog_stage.expired_eq keyed_reservations 1
  have hawaits : stage.scene.Awaits [lost] :=
    (Scene.awaits_backlog (m := stage.scene) keyed_ledger backlog_stage).left
  have hs : Rehearsal.Stands .plain 0 stage.scene { stage } := ⟨rfl, trivial⟩
  rcases (safe_trigger (w := w) (s := { stage }) rfl (fun _ => Nat.zero_le 0) rfl hfound hawaits
    hs).runOn with ⟨a, s', hrun, n, hsweep⟩
  rcases hsweep.endless rfl with rfl
  -- The only claim of the batch is refused, and nothing changes.
  let busy : Scene := { stage.scene with sweeping := true }
  rcases Scene.settle_refused (m := busy) (r := lost) rfl with ⟨f, hf⟩
  have hreclaim : busy.reclaim [lost] { found := 1 } =
      (SweepSummary.addFailure { found := 1 } lost.id f, busy) := Scene.reclaim_refused hf _
  have hanswer :
      a = .ok ((SweepSummary.addFailure { found := 1 } lost.id f).addDeferred []).counted :=
    hsweep.answer.trans (congrArg (fun p => Except.ok (p.1.addDeferred []).counted) hreclaim)
  have hscene : s'.stage.scene = stage.scene :=
    hsweep.stands.scene.trans (congrArg (fun p => { p.2 with sweeping := false }) hreclaim)
  subst hanswer
  refine ⟨_, s', hrun, rfl, ?_, rfl, ?_, ?_⟩
  · exact congrArg (fun m => m.reservations.rows.find? sound.id) hscene
  · have hnow : s'.stage.clock.now = stage.clock.now := congrArg Scene.now hscene
    rw [hnow]
    rfl
  · rw [hscene]
    rfl

end Starving
end StockLedger
