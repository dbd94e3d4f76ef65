import Mathlib.Tactic.Common
import StockLedger.Proofs.Sweep.Reclaim
import StockLedger.Proofs.Sweep.Summary

/-!
# Draining a backlog

If the units of all overdue claims are reserved, sweeps release them batch by batch, the oldest
first, and then find nothing any more.

* `Scene.Drained` : what is stored after some claims were released, and all else is as it was;
* `drained_iff` : they were settled one after another, and nothing left the stock;
* `Scene.Healthy`, `reclaim_healthy` : a backlog whose units are all reserved can be released;
* `Sweeper.triggers` : sweeps on request, one after another;
* `batch`, `cleared`, `ticksFor` : how far they have come;
* `triggers_drain` : each of them releases the next batch.
-/

namespace StockLedger

/-! ## Scenes in which claims were released -/

namespace Scene

/-- These claims have expired and their units were given back. All else is as it was. -/
structure Drained (m m' : Scene) (done : List Reservation) : Prop where
  now : m'.now = m.now
  byProduct : m'.ledger.byProduct = m.ledger.byProduct
  byOrder : m'.reservations.byOrder = m.reservations.byOrder
  items : ∀ id x, m.ledger.items.find? id = some x → ∃ y, m'.ledger.items.find? id = some y ∧
    x.GaveBack y (owed done id) (claimsOn done id) m.now
  noItems : ∀ id, m.ledger.items.find? id = none → m'.ledger.items.find? id = none
  ended : ∀ r ∈ done, m'.reservations.rows.find? r.id = some (r.moveTo .expired m.now)
  others : ∀ id, id ∉ done.map Reservation.id →
    m'.reservations.rows.find? id = m.reservations.rows.find? id

variable {m m' m'' : Scene} {r : Reservation} {rs rest done done' : List Reservation}

/-- The claims, each of which is to expire. -/
abbrev expiring (rs : List Reservation) : List Verdict :=
  rs.map fun r => ⟨r, .expire⟩

theorem claimsOf_expiring (rs : List Reservation) : claimsOf (expiring rs) = rs :=
  (List.map_map ..).trans (List.map_id' rs)

theorem leavingOf_expiring (rs : List Reservation) (id : ItemId) :
    leavingOf (expiring rs) id = 0 := by
  refine List.sum_eq_zero fun units hunits => ?_
  rcases List.mem_map.1 hunits with ⟨d, hd, rfl⟩
  rcases List.mem_map.1 (List.mem_of_mem_filter hd) with ⟨r, -, rfl⟩
  rfl

/-- Each claim was settled, and nothing left the stock. -/
theorem drained_iff : m.Drained m' done ↔ m.Judged m' (expiring done) := by
  have hitem (x y : StockItem) (id : ItemId) :
      x.GaveBack y (owed done id) (claimsOn done id) m.now ↔
        x.Relieved y (leavingOf (expiring done) id) (owed (claimsOf (expiring done)) id)
          (claimsOn (claimsOf (expiring done)) id) m.now := by
    rw [claimsOf_expiring, leavingOf_expiring]
    exact StockItem.gaveBack_iff
  have hothers (id : ReservationId) :
      id ∉ done.map Reservation.id ↔ ∀ d ∈ expiring done, d.claim.id ≠ id := by
    simp [expiring]
  constructor
  · intro h
    refine ⟨h.now, h.byProduct, h.byOrder, fun id x hx => ?_, h.noItems, ?_, fun id hid => ?_⟩
    · rcases h.items id x hx with ⟨y, hy, hback⟩
      exact ⟨y, hy, (hitem x y id).1 hback⟩
    · exact List.forall_mem_map.2 h.ended
    · exact h.others id ((hothers id).2 hid)
  · intro h
    refine ⟨h.now, h.byProduct, h.byOrder, fun id x hx => ?_, h.noItems, ?_, fun id hid => ?_⟩
    · rcases h.items id x hx with ⟨y, hy, hrelieved⟩
      exact ⟨y, hy, (hitem x y id).2 hrelieved⟩
    · exact List.forall_mem_map.1 h.ended
    · exact h.others id ((hothers id).1 hid)

theorem Drained.refl (m : Scene) : m.Drained m [] :=
  drained_iff.2 (.refl m)

theorem Drained.trans (h : m.Drained m' done) (h' : m'.Drained m'' done')
    (hapart : ∀ r ∈ done, r.id ∉ done'.map Reservation.id) : m.Drained m'' (done ++ done') := by
  rw [drained_iff, expiring, List.map_append]
  refine (drained_iff.1 h).trans (drained_iff.1 h') ?_
  refine List.forall_mem_map.2 fun r hr => List.forall_mem_map.2 fun r' hr' hsame => ?_
  exact hapart r hr (List.mem_map.2 ⟨r', hr', hsame⟩)

/-- One claim is released. -/
theorem drained_expire {x y : StockItem} (hkeyed : m.ledger.Keyed)
    (hx : m.ledger.items.find? r.itemId = some x) (hy : x.GaveBack y r.quantity 1 m.now) :
    m.Drained (m.expire r y) [r] :=
  drained_iff.2 (judged_judge (d := ⟨r, .expire⟩) hkeyed hx (StockItem.gaveBack_iff.1 hy))

/-! ## Backlogs -/

/-- The overdue claims, the oldest first; the units of all of them are reserved. -/
structure Healthy (m : Scene) (backlog : List Reservation) : Prop where
  ledger : m.ledger.Keyed
  reservations : m.reservations.Keyed
  overdue : m.reservations.Backlog m.now backlog
  covered : ∀ r ∈ backlog, ∃ x, m.ledger.items.find? r.itemId = some x ∧
    owed backlog r.itemId ≤ x.reserved

theorem Healthy.awaits (h : m.Healthy rs) : m.Awaits rs :=
  awaits_backlog h.ledger h.overdue

/-- Whether a sweep runs makes no difference to the backlog. -/
theorem Healthy.sweeping (h : m.Healthy rs) (b : Bool) : { m with sweeping := b }.Healthy rs where
  ledger := h.ledger
  reservations := h.reservations
  overdue := h.overdue
  covered := h.covered

/-- What is left of a backlog is still a backlog. -/
theorem Healthy.expire (h : m.Healthy (r :: rest)) {x y : StockItem}
    (hx : m.ledger.items.find? r.itemId = some x) (hy : x.GaveBack y r.quantity 1 m.now) :
    (m.expire r y).Healthy rest := by
  have hdrained := drained_expire h.ledger hx hy
  refine ⟨(h.awaits.expire y).keyed, ?_, h.overdue.tail rfl nofun, fun a ha => ?_⟩
  · intro id c hc
    rcases Table.of_find?_insert hc with ⟨rfl, rfl⟩ | ⟨-, hold⟩
    · rfl
    · exact h.reservations id c hold
  · rcases h.covered a (List.mem_cons_of_mem r ha) with ⟨z, hz, hcovered⟩
    rcases hdrained.items _ z hz with ⟨z', hz', hback⟩
    have hsplit : owed (r :: rest) a.itemId = owed [r] a.itemId + owed rest a.itemId :=
      owed_append [r] rest a.itemId
    -- The item has lost as many reserved units as the backlog has lost claimed ones.
    refine ⟨z', hz', ?_⟩
    rw [hback.reserved]
    omega

/-- Every claim of the backlog can be released. -/
theorem reclaim_healthy (h : m.Healthy (rs ++ rest)) (start : SweepSummary) :
    ∃ m', m.reclaim rs start =
        ({ start with releasedIds := start.releasedIds ++ rs.map Reservation.id }, m') ∧
      m.Drained m' rs ∧ m'.Healthy rest := by
  induction rs generalizing m start with
  | nil => exact ⟨m, by simp [reclaim], .refl m, h⟩
  | cons r rs ih =>
    rcases h.covered r (List.mem_cons_self ..) with ⟨x, hx, hcovered⟩
    have hreserved : r.quantity ≤ x.reserved := by
      have hsplit : owed (r :: (rs ++ rest)) r.itemId =
          owed [r] r.itemId + owed (rs ++ rest) r.itemId := owed_append [r] _ _
      have hothers := owed_nonneg (rs ++ rest) r.itemId
      rw [owed_self] at hsplit
      change owed (r :: (rs ++ rest)) r.itemId ≤ x.reserved at hcovered
      omega
    -- The units of this claim are reserved, because those of the whole backlog are.
    rcases settle_overdue h.awaits (settles_iff.2 ⟨x, hx, hreserved⟩) with ⟨x', y, hx', hy, hok⟩
    rcases ih (h.expire hx' hy) (start.addReleased r.id) with ⟨m', hreclaim, hdrained, hhealthy⟩
    have hapart : ∀ a ∈ [r], a.id ∉ rs.map Reservation.id := by
      intro a ha hmem
      rcases List.mem_singleton.1 ha with rfl
      rcases List.mem_map.1 hmem with ⟨b, hb, hid⟩
      exact (List.pairwise_cons.1 h.awaits.distinct).1 b (List.mem_append_left rest hb) hid.symm
    refine ⟨m', ?_, (drained_expire h.ledger hx' hy).trans hdrained hapart, hhealthy⟩
    rw [reclaim_released hok, hreclaim]
    simp [SweepSummary.addReleased]

end Scene

/-! ## One sweep after another -/

/-- So many sweeps on request, one after another. -/
def Sweeper.triggers (w : Sweeper) : Nat → Program (List (Answer SweepSummary))
  | 0 => return []
  | k + 1 => do
      let before ← w.triggers k
      let a ← w.trigger.run
      return before ++ [a]

/-- The claims that are released in a sweep after so many others; limit 0 means all at once. -/
def batch (limit : UInt64) (backlog : List Reservation) (k : Nat) : List Reservation :=
  if limit = 0 then if k = 0 then backlog else []
  else (backlog.drop (k * limit.toNat)).take limit.toNat

/-- The claims that are released in so many sweeps. -/
def cleared (limit : UInt64) (backlog : List Reservation) (k : Nat) : List Reservation :=
  if limit = 0 then if k = 0 then [] else backlog
  else backlog.take (k * limit.toNat)

/-- How many sweeps it takes to release so many claims. -/
def ticksFor (limit : UInt64) (n : Nat) : Nat :=
  if limit = 0 then min n 1 else (n + limit.toNat - 1) / limit.toNat

section

variable {limit : UInt64} {backlog rest : List Reservation} {k : Nat}

theorem cleared_zero (limit : UInt64) (backlog : List Reservation) :
    cleared limit backlog 0 = [] := by
  simp [cleared]

theorem cleared_succ (limit : UInt64) (backlog : List Reservation) (k : Nat) :
    cleared limit backlog (k + 1) = cleared limit backlog k ++ batch limit backlog k := by
  unfold cleared batch
  by_cases hlimit : limit = 0
  · by_cases hk : k = 0
    · simp [hlimit, hk]
    · simp [hlimit, hk]
  · simp only [if_neg hlimit, Nat.succ_mul]
    exact List.take_add ..

/-- What a search finds is the next batch. -/
theorem takeLimit_rest (h : backlog = cleared limit backlog k ++ rest) :
    takeLimit limit rest = batch limit backlog k := by
  unfold cleared at h
  unfold takeLimit batch
  by_cases hlimit : limit = 0
  · rw [if_pos hlimit] at h ⊢
    rw [if_pos hlimit]
    by_cases hk : k = 0
    · rw [if_pos hk] at h ⊢
      exact h.symm
    · rw [if_neg hk] at h ⊢
      exact List.self_eq_append_right.1 h
  · rw [if_neg hlimit] at h ⊢
    rw [if_neg hlimit]
    have hsame : backlog.take (k * limit.toNat) ++ rest =
        backlog.take (k * limit.toNat) ++ backlog.drop (k * limit.toNat) := by
      rw [← h, List.take_append_drop]
    rw [List.append_cancel_left hsame]

/-- After enough sweeps nothing is left. -/
theorem all_cleared (h : ticksFor limit backlog.length ≤ k) :
    cleared limit backlog k = backlog ∧ batch limit backlog k = [] := by
  unfold ticksFor at h
  unfold cleared batch
  by_cases hlimit : limit = 0
  · rw [if_pos hlimit] at h ⊢
    rw [if_pos hlimit]
    by_cases hk : k = 0
    · have hnone : backlog = [] := List.length_eq_zero_iff.1 (by omega)
      simp [hk, hnone]
    · simp [hk]
  · have hpos : 0 < limit.toNat := by
      refine Nat.pos_of_ne_zero fun hzero => hlimit ?_
      exact UInt64.toNat_inj.1 hzero
    rw [if_neg hlimit, Nat.div_le_iff_le_mul_add_pred hpos, Nat.mul_comm] at h
    have hlength : backlog.length ≤ k * limit.toNat := by omega
    simp only [if_neg hlimit]
    exact ⟨List.take_of_length_le hlength, by rw [List.drop_of_length_le hlength, List.take_nil]⟩

end

/-- The summary of a sweep that has released these claims. -/
def SweepSummary.ofReleased (rs : List Reservation) : SweepSummary where
  found := rs.length
  released := rs.length
  releasedIds := rs.map Reservation.id

/-- No claim was left because the budget was spent. -/
def Unhurried (config : SweepConfig) (summaries : List (Answer SweepSummary)) : Prop :=
  config.budget = none ∨ ∀ summary, .ok summary ∈ summaries → summary.deferredIds = []

/--
After some sweeps the first claims of the backlog are released and the rest can be. If the budget
was never spent, each sweep has released its batch.
-/
structure Rehearsal.Drains (stack : Stack) (since : Nat) (m : Scene) (config : SweepConfig)
    (backlog : List Reservation) (k : Nat) (summaries : List (Answer SweepSummary)) (s : Rehearsal)
    (done rest : List Reservation) : Prop where
  whole : backlog = done ++ rest
  free : s.stage.sweeping = false
  stands : s.Stands stack since s.stage.scene
  drained : m.Drained s.stage.scene done
  healthy : s.stage.scene.Healthy rest
  batches : Unhurried config summaries → done = cleared config.batchLimit backlog k ∧
    summaries = (List.range k).map fun j => .ok (.ofReleased (batch config.batchLimit backlog j))

section

variable {stack : Stack} {since : Nat} {uptimes : Nat → Nat} {m : Scene} {s : Rehearsal}
  {w : Sweeper} {backlog : List Reservation}

theorem Rehearsal.Stands.self (hs : s.Stands stack since m) : s.Stands stack since s.stage.scene := by
  rw [hs.scene]
  exact hs

/-- A sweep over a healthy backlog releases each claim that it tries. -/
theorem Rehearsal.Triggered.healthy {config : SweepConfig} {rs later : List Reservation} {n : Nat}
    {a : Answer SweepSummary} (h : Rehearsal.Triggered stack since m config rs n a s)
    (hm : m.Healthy (rs ++ later)) :
    m.Drained s.stage.scene (rs.take n) ∧ s.stage.scene.Healthy (rs.drop n ++ later) ∧
      s.stage.sweeping = false ∧
      a = .ok (SweepSummary.counted {
        found := rs.length, releasedIds := (rs.take n).map Reservation.id
        deferredIds := (rs.drop n).map Reservation.id }) := by
  have hbusy : { m with sweeping := true }.Healthy (rs.take n ++ (rs.drop n ++ later)) := by
    rw [← List.append_assoc, List.take_append_drop]
    exact hm.sweeping true
  rcases Scene.reclaim_healthy hbusy { found := rs.length } with
    ⟨m', hreclaim, hdrained, hhealthy⟩
  have hanswer := h.answer
  have hstands := h.stands
  rw [hreclaim] at hanswer hstands
  have hscene : s.stage.scene = { m' with sweeping := false } := hstands.scene
  refine ⟨?_, ?_, congrArg Scene.sweeping hscene, hanswer⟩
  · rw [hscene]
    exact ⟨hdrained.now, hdrained.byProduct, hdrained.byOrder, hdrained.items, hdrained.noItems,
      hdrained.ended, hdrained.others⟩
  · rw [hscene]
    exact hhealthy.sweeping false

/-- A sweep that defers nothing has tried all that it found. -/
theorem Rehearsal.Triggered.all {config : SweepConfig} {rs : List Reservation} {n : Nat}
    {before : List (Answer SweepSummary)} {a : Answer SweepSummary}
    (h : Rehearsal.Triggered stack since m config rs n a s)
    (hunhurried : Unhurried config (before ++ [a])) {found : Nat} {ids : List ReservationId}
    (ha : a = .ok (SweepSummary.counted
      { found, releasedIds := ids, deferredIds := (rs.drop n).map Reservation.id })) :
    rs.drop n = [] ∧ rs.take n = rs := by
  have hdrop : rs.drop n = [] := by
    rcases hunhurried with hbudget | hnone
    · rw [h.endless hbudget, List.drop_length]
    · have hdeferred := hnone _ (List.mem_append_right _ (List.mem_singleton.2 ha.symm))
      exact List.map_eq_nil_iff.1 hdeferred
  have hsplit := List.take_append_drop n rs
  rw [hdrop, List.append_nil] at hsplit
  exact ⟨hdrop, hsplit⟩

theorem Unhurried.before {config : SweepConfig} {before : List (Answer SweepSummary)}
    {a : Answer SweepSummary} (h : Unhurried config (before ++ [a])) : Unhurried config before :=
  h.imp_right fun h summary hmem => h summary (List.mem_append_left _ hmem)

/-- One more sweep releases the next batch, or the first part of it. -/
theorem Rehearsal.Drains.trigger {k : Nat} {before : List (Answer SweepSummary)}
    {done rest : List Reservation} (hw : w.service.ledger = stack.ledger)
    (hu : ∀ n, since ≤ uptimes n) (hm : m.Healthy backlog)
    (h : Rehearsal.Drains stack since m w.config backlog k before s done rest) :
    Program.Safe (Rehearsal.setting uptimes) (fun a s' => ∃ done' rest',
      Rehearsal.Drains stack since m w.config backlog (k + 1) (before ++ [a]) s' done' rest')
      w.trigger.run s := by
  let limit := w.config.batchLimit
  let rs := takeLimit limit rest
  rcases exists_takeLimit_append limit rest with ⟨later, hlater⟩
  have hhealthy : s.stage.scene.Healthy (rs ++ later) := hlater.symm ▸ h.healthy
  have hfound : s.stage.scene.reservations.expired s.stage.scene.now limit = rs :=
    h.healthy.overdue.expired_eq h.healthy.reservations limit
  refine (safe_trigger hw hu h.free hfound hhealthy.awaits.left h.stands).mono ?_
  rintro a s' ⟨n, hsweep⟩
  -- The sweep has tried the first `n` claims of its batch; what is left is still a backlog.
  rcases hsweep.healthy hhealthy with ⟨hdrained, hleft, hfree, hanswer⟩
  have hrest : rest = rs.take n ++ (rs.drop n ++ later) := by
    rw [← List.append_assoc, List.take_append_drop]
    exact hlater.symm
  have hapart : ∀ r ∈ done, r.id ∉ (rs.take n).map Reservation.id := by
    intro r hr hmem
    rcases List.mem_map.1 hmem with ⟨b, hb, hid⟩
    have hdistinct := hm.awaits.distinct
    rw [h.whole, hrest] at hdistinct
    exact (List.pairwise_append.1 hdistinct).2.2 r hr b (List.mem_append_left _ hb) hid.symm
  refine ⟨done ++ rs.take n, rs.drop n ++ later, ?_, hfree, hsweep.stands.self,
    h.drained.trans hdrained hapart, hleft, fun hunhurried => ?_⟩
  · rw [h.whole, List.append_assoc, ← hrest]
  · rcases h.batches hunhurried.before with ⟨hdone, hbefore⟩
    rcases hsweep.all hunhurried hanswer with ⟨hdrop, htake⟩
    have hbatch : rs = batch limit backlog k := takeLimit_rest (by rw [← hdone, ← h.whole])
    have hreleased : a = .ok (.ofReleased (batch limit backlog k)) := by
      rw [hanswer, hdrop, htake, ← hbatch]
      simp [SweepSummary.counted, SweepSummary.ofReleased]
    refine ⟨?_, ?_⟩
    · rw [htake, hdone, hbatch, cleared_succ]
    · rw [hbefore, hreleased, List.range_succ, List.map_append]
      rfl

theorem safe_triggers (hw : w.service.ledger = stack.ledger) (hu : ∀ n, since ≤ uptimes n)
    (hm : m.Healthy backlog) (hfree : m.sweeping = false) (hs : s.Stands stack since m) (k : Nat) :
    (w.triggers k).Safe (Rehearsal.setting uptimes) (fun summaries s' => ∃ done rest,
      Rehearsal.Drains stack since m w.config backlog k summaries s' done rest) s := by
  have hscene : s.stage.scene = m := hs.scene
  induction k with
  | zero =>
    refine ⟨[], backlog, rfl, ?_, hs.self, ?_, ?_, fun _ => ⟨(cleared_zero ..).symm, rfl⟩⟩
    · rw [← hscene] at hfree
      exact hfree
    · rw [hscene]
      exact .refl m
    · rw [hscene]
      exact hm
  | succ k ih =>
    refine ih.bind ?_
    rintro before s₁ ⟨done, rest, hdrains⟩
    refine (hdrains.trigger hw hu hm).bind ?_
    rintro a s₂ ⟨done', rest', hdrains'⟩
    exact ⟨done', rest', hdrains'⟩

end

namespace Draining

/-- Eight of ten units are reserved, for two claims. -/
def item : StockItem :=
  .tenWith 8

def first : Reservation :=
  .four 1

def second : Reservation :=
  { Reservation.four 1 with id := ⟨.ofNat 5⟩, orderId := ⟨.ofNat 6⟩ }

/-- Both claims have expired a second ago. -/
def stage : Stage where
  ledger := MemoryLedger.empty.apply .epoch (.save item)
  reservations := (MemoryReservations.empty.apply (.save first)).apply (.save second)
  clock := { now := (Timestamp.epoch.add? (.ofSeconds 901)).getD .epoch }
  ids := { millis := 0 }

theorem healthy_stage : stage.scene.Healthy [first, second] where
  ledger := MemoryLedger.keyed_empty.outcome (MemoryLedger.outcome _ .epoch (.save item))
  reservations := (MemoryReservations.keyed_empty.outcome
    (MemoryReservations.outcome _ (.save first))).outcome
      (MemoryReservations.outcome _ (.save second))
  overdue := MemoryReservations.backlog_pair rfl rfl rfl (.inr ⟨rfl, by decide⟩)
  covered := by
    intro r hr
    refine ⟨item, ?_, ?_⟩
    · rcases List.mem_pair.1 hr with rfl | rfl <;> rfl
    · rcases List.mem_pair.1 hr with rfl | rfl <;> decide

end Draining
end StockLedger
