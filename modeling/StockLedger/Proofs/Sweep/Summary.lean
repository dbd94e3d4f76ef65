import Mathlib.Data.List.Nodup
import Mathlib.Tactic.Common
import StockLedger.Proofs.Program.Transcript
import StockLedger.Proofs.Stock.Reservation
import StockLedger.Sweep.Basic

/-!
# What a sweep tells

Whoever answers its requests, a sweep tries to release the claims that were found one after another,
each of them once, until its budget is spent, and its summary says what became of each of them.

* `Call.ofGuard`, `unguarded_sweep` : what sweeps ask each other, and not while they run;
* `Attempt`, `makes_releaseAll` : the release of one claim, and of many;
* `StopsIn`, `Service.Tried` : no claim is tried or announced when the budget was seen to be spent;
* `SweepSummary.Divides` : every claim that was found is released, failed or deferred;
* `Sweeper.Swept`, `Sweeper.Ends` : what was asked and answered in a sweep;
* `Program.Alike` : what a publisher answers makes no difference to anything else;
* `sweep_accounts` : the summary is right, and nothing but the search makes a sweep fail.
-/

namespace StockLedger

open Sweeper

/-- A sweeper that works with a plain ledger or with a cached one. -/
def Stack.sweeper (stack : Stack) (ttl : Span) (config : SweepConfig) : Sweeper where
  service := { ledger := stack.ledger, defaultTtl := ttl }
  config

/-! ## No sweep breaks off -/

section

variable {w : Sweeper} {stack : Stack}

/-- Any request may be made. -/
abbrev Program.Sound {α : Type} (p : Program α) : Prop :=
  p.Within fun _ => True

theorem Program.Within.sound {α : Type} {S : Call → Prop} {p : Program α} (h : p.Within S) :
    p.Sound :=
  h.weaken fun _ _ => trivial

theorem sound_ask (c : Call) : (Program.ask c).Sound :=
  Program.within_ask trivial

/-- The requests by which sweeps keep out of each other's way and are counted. -/
def Call.ofGuard : Call → Bool
  | .enterSweep | .leaveSweep | .recordSweep _ | .recordSkip => true
  | .ledger _ | .reservations _ | .cache _ | .publish _ | .now | .uptime | .freshUuid
  | .findExpiredWithin _ _ _ | .log _ => false

/-- A program that makes no such request. -/
abbrev Program.Unguarded {α : Type} (p : Program α) : Prop :=
  p.Within fun c => c.ofGuard = false

theorem Program.OfWorkflow.unguarded {α : Type} {p : Program α} (h : p.OfWorkflow) :
    p.Unguarded := by
  refine h.weaken fun c hc => ?_
  cases c <;> first | rfl | cases hc

theorem unguarded_log {level : LogLevel} {message : String} :
    (Program.log level message).Unguarded :=
  Program.within_ask rfl

theorem unguarded_budgetSpent (deadline : Option Int) : (budgetSpent deadline).Unguarded := by
  cases deadline with
  | none => exact trivial
  | some d => exact Program.Within.bind (Program.within_ask rfl) fun _ => trivial

/-- An announcement is sent, and it may be reported that this failed. -/
theorem within_announce {S : Call → Prop} (hpublish : ∀ n, S (.publish n)) (hlog : ∀ e, S (.log e))
    (r : Reservation) (s : StockItem) : (announce r s).Within S := by
  refine Program.Within.bind (Program.within_ask (hpublish _)) fun told => ?_
  match told with
  | .ok () => exact trivial
  | .error _ => exact Program.within_ask (hlog _)

theorem unguarded_releaseAll (hw : w.service.ledger = stack.ledger) (deadline : Option Int)
    (rs : List Reservation) (summary : SweepSummary) :
    (w.releaseAll deadline rs summary).Unguarded := by
  induction rs generalizing summary with
  | nil => exact trivial
  | cons r rest ih =>
    refine (unguarded_budgetSpent deadline).bind fun spent => ?_
    cases spent with
    | true => exact unguarded_log.bind fun _ => trivial
    | false =>
      have hexpire : Program.OfWorkflow (w.service.expire r).run :=
        Program.Within.weaken (fun _ => Call.Settles.ofWorkflow) (within_settle hw .expire r)
      refine hexpire.unguarded.bind fun outcome => ?_
      match outcome with
      | .ok (settled, s) =>
        have hannounce : (announce settled s).Unguarded :=
          within_announce (fun _ => rfl) (fun _ => rfl) settled s
        exact hannounce.bind fun _ => ih _
      | .error f => exact unguarded_log.bind fun _ => ih _

/-- What a sweep does between its start and its end leaves other sweeps alone. -/
theorem unguarded_sweep (hw : w.service.ledger = stack.ledger) :
    Program.Unguarded w.sweep.run := by
  refine Program.Within.bind (Program.within_ask rfl) fun started => ?_
  refine Program.Within.bind (Program.within_ask rfl) fun t => ?_
  refine Program.Within.bind (Program.within_ask rfl) fun search => ?_
  match search with
  | none => exact trivial
  | some (.error _) => exact trivial
  | some (.ok []) => exact unguarded_log.bind fun _ => trivial
  | some (.ok (r :: rest)) =>
    exact (unguarded_releaseAll hw _ _ _).bind fun _ => unguarded_log.bind fun _ => trivial

theorem sound_sweepAndLeave (hw : w.service.ledger = stack.ledger) : w.sweepAndLeave.Sound := by
  refine (unguarded_sweep hw).sound.bind fun outcome => ?_
  match outcome with
  | .ok summary => exact (sound_ask _).bind fun _ => (sound_ask _).bind fun _ => trivial
  | .error f => exact (sound_ask _).bind fun _ => trivial

end

/-! ## The release of one claim -/

/-- A sweep has tried to release a claim. -/
structure Attempt where
  claim : Reservation
  /-- What was asked for that, and what was answered. -/
  asked : List Event
  outcome : Answer (Reservation × StockItem)
  /-- What the publisher said to the notice, if there was one. -/
  told : Except PublishFault Unit

namespace Attempt

/-- The claim was settled, or not, in a whole run. -/
def Made (v : Service) (a : Attempt) : Prop :=
  (v.expire a.claim).run.Makes a.asked a.outcome

def released (a : Attempt) : Bool :=
  match a.outcome with
  | .ok _ => true
  | .error _ => false

def failure? (a : Attempt) : Option SweepFailure :=
  match a.outcome with
  | .ok _ => none
  | .error f => some ⟨a.claim.id, f.code, f.text⟩

/-- A claim that was released is announced, another one is not. -/
def notices (a : Attempt) : List Event :=
  match a.outcome with
  | .ok (settled, s) =>
      [⟨.publish (.ofReservation settled s.productId .reservationExpired settled.updatedAt), a.told⟩]
  | .error _ => []

def events (a : Attempt) : List Event :=
  audible a.asked ++ a.notices

end Attempt

/-- The claims about which notices are sent. -/
def announcedIds (es : List Event) : List ReservationId :=
  es.filterMap fun
    | ⟨.publish n, _⟩ => some n.reservationId
    | _ => none

theorem announcedIds_append (es es' : List Event) :
    announcedIds (es ++ es') = announcedIds es ++ announcedIds es' :=
  List.filterMap_append ..

theorem announcedIds_audible (es : List Event) : announcedIds (audible es) = announcedIds es := by
  induction es with
  | nil => rfl
  | cons e es ih =>
    rcases e with ⟨c, r⟩
    cases c <;> simp_all [announcedIds, audible, Call.quiet]

theorem announcedIds_of_workflow {es : List Event} (h : ∀ e ∈ es, e.1.ofWorkflow = true) :
    announcedIds es = [] := by
  refine List.filterMap_eq_nil_iff.2 fun e he => ?_
  have hcall := h e he
  rcases e with ⟨c, r⟩
  cases c with
  | publish n => cases hcall
  | _ => rfl

section

variable {v : Service} {stack : Stack} {a : Attempt}

theorem Attempt.Made.settled_id (hv : v.ledger = stack.ledger) (h : a.Made v)
    {p : Reservation × StockItem} (hp : a.outcome = .ok p) : p.1.id = a.claim.id := by
  rcases Program.Makes.promise (settle_transition hv .expire a.claim) h p hp with ⟨t, ht⟩
  exact (Settlement.transition_ok ht).1.id

/-- Exactly a released claim is announced, and only once. -/
theorem Attempt.Made.announcedIds_events (hv : v.ledger = stack.ledger) (h : a.Made v) :
    announcedIds a.events = if a.released then [a.claim.id] else [] := by
  have hsettles := Program.Makes.requests (within_settle hv .expire a.claim) h
  have hasked : announcedIds (audible a.asked) = [] := by
    rw [announcedIds_audible]
    exact announcedIds_of_workflow fun e he => (hsettles e he).ofWorkflow
  rw [Attempt.events, announcedIds_append, hasked, List.nil_append]
  rw [Attempt.notices, Attempt.released]
  cases houtcome : a.outcome with
  | error f => rfl
  | ok p =>
    have hid := h.settled_id hv houtcome
    simp [announcedIds, StockRelease.ofReservation, hid]

/-- No other claim is written. -/
theorem Attempt.Made.writes (hv : v.ledger = stack.ledger) (h : a.Made v) {q : ReservationCall}
    {reply : q.Reply} (hq : ⟨.reservations q, reply⟩ ∈ a.events) :
    ∃ c, q = .update c ∧ c.id = a.claim.id := by
  have hsettles := Program.Makes.requests (within_settle hv .expire a.claim) h
  rcases List.mem_append.1 hq with hasked | hnotice
  · rcases hsettles _ (List.mem_filter.1 hasked).1 with hstock | ⟨c, hc, hid⟩
    · cases hstock
    · cases hc
      exact ⟨c, rfl, hid⟩
  · unfold Attempt.notices at hnotice
    split at hnotice
    · cases List.mem_singleton.1 hnotice
    · cases hnotice

theorem announcedIds_flatMap (hv : v.ledger = stack.ledger) {attempts : List Attempt}
    (h : ∀ a ∈ attempts, a.Made v) :
    announcedIds (attempts.flatMap Attempt.events) =
      (attempts.filter Attempt.released).map fun a => a.claim.id := by
  induction attempts with
  | nil => rfl
  | cons a rest ih =>
    have hhead := (h a (List.mem_cons_self ..)).announcedIds_events hv
    have hrest := ih fun b hb => h b (List.mem_cons_of_mem a hb)
    rw [List.flatMap_cons, announcedIds_append, hhead, hrest, List.filter_cons]
    cases a.released <;> simp

end

/-! ## The release of many claims -/

/-- The end of the budget was seen to be reached. -/
def SpentIn (deadline : Option Int) (es : List Event) : Prop :=
  ∃ d u, deadline = some d ∧ ⟨.uptime, u⟩ ∈ es ∧ d ≤ (u : Nat)

theorem SpentIn.mono {deadline : Option Int} {es es' : List Event} (h : SpentIn deadline es)
    (hsub : es ⊆ es') : SpentIn deadline es' := by
  rcases h with ⟨d, u, hd, hu, hle⟩
  exact ⟨d, u, hd, hsub hu, hle⟩

theorem spentIn_append {deadline : Option Int} {es es' : List Event} :
    SpentIn deadline (es ++ es') ↔ SpentIn deadline es ∨ SpentIn deadline es' := by
  constructor
  · rintro ⟨d, u, hd, hu, hle⟩
    exact (List.mem_append.1 hu).imp (fun h => ⟨d, u, hd, h, hle⟩) fun h => ⟨d, u, hd, h, hle⟩
  · rintro (h | h)
    · exact h.mono (List.subset_append_left ..)
    · exact h.mono (List.subset_append_right ..)

/-- Who does not look at the uptime does not see the end of the budget. -/
theorem not_spentIn {deadline : Option Int} {es : List Event} (h : ∀ e ∈ es, e.1 ≠ .uptime) :
    ¬ SpentIn deadline es := by
  rintro ⟨d, u, -, hu, -⟩
  exact h _ hu rfl

/-- Once the end of the budget was seen to be reached, nothing was asked but what nobody hears. -/
def StopsIn (deadline : Option Int) (es : List Event) : Prop :=
  ∀ before after, es = before ++ after → SpentIn deadline before → audible after = []

theorem StopsIn.of_audible {deadline : Option Int} {es : List Event} (h : audible es = []) :
    StopsIn deadline es := by
  rintro before after rfl -
  rw [audible_append] at h
  exact (List.append_eq_nil_iff.1 h).2

/-- Before the end of the budget is seen, anything may be asked. -/
theorem StopsIn.append_left {deadline : Option Int} {es es' : List Event}
    (hes : ¬ SpentIn deadline es) (h : StopsIn deadline es') : StopsIn deadline (es ++ es') := by
  intro before after hsplit hspent
  rcases List.append_eq_append_iff.1 hsplit with ⟨middle, rfl, hes'⟩ | ⟨middle, rfl, -⟩
  · exact h middle after hes' ((spentIn_append.1 hspent).resolve_left hes)
  · exact absurd (spentIn_append.2 (.inl hspent)) hes

theorem StopsIn.append_right {deadline : Option Int} {es es' : List Event}
    (h : StopsIn deadline es) (hes' : audible es' = []) : StopsIn deadline (es ++ es') := by
  intro before after hsplit hspent
  rcases List.append_eq_append_iff.1 hsplit with ⟨middle, -, rfl⟩ | ⟨middle, rfl, rfl⟩
  · rw [audible_append] at hes'
    exact (List.append_eq_nil_iff.1 hes').2
  · rw [audible_append, hes', List.append_nil]
    exact h before middle rfl hspent

/-- The first of the claims were tried in their order, and nothing was asked for the others. -/
structure Service.Tried (v : Service) (deadline : Option Int) (rs : List Reservation)
    (es : List Event) (attempts : List Attempt) (deferred : List Reservation) : Prop where
  claims : rs = attempts.map Attempt.claim ++ deferred
  made : ∀ a ∈ attempts, a.Made v
  events : audible es = attempts.flatMap Attempt.events
  /-- No claim is left for the next sweep unless there was no time for it. -/
  spent : deferred = [] ∨ SpentIn deadline es
  /-- No claim is tried or announced when the budget was seen to be spent. -/
  stops : StopsIn deadline es

/-- One more claim is tried before the others. -/
theorem Service.Tried.cons {v : Service} {deadline : Option Int} {rs : List Reservation}
    {es before : List Event} {attempts : List Attempt} {deferred : List Reservation} {a : Attempt}
    (h : v.Tried deadline rs es attempts deferred) (ha : a.Made v)
    (hbefore : audible before = a.events) (hunspent : ¬ SpentIn deadline before) :
    v.Tried deadline (a.claim :: rs) (before ++ es) (a :: attempts) deferred where
  claims := congrArg (a.claim :: ·) h.claims
  made := by
    intro b hb
    rcases List.mem_cons.1 hb with rfl | hlater
    · exact ha
    · exact h.made b hlater
  events := by
    calc
      audible (before ++ es) = audible before ++ audible es := audible_append ..
      _ = a.events ++ attempts.flatMap Attempt.events := by rw [hbefore, h.events]
      _ = (a :: attempts).flatMap Attempt.events := List.flatMap_cons.symm
  spent := h.spent.imp_right fun h => h.mono (List.subset_append_right ..)
  stops := h.stops.append_left hunspent

/-- The summary with these attempts and claims that were left. -/
def SweepSummary.plus (s : SweepSummary) (attempts : List Attempt) (deferred : List Reservation) :
    SweepSummary where
  found := s.found
  released := s.released
  failed := s.failed
  deferred := s.deferred
  releasedIds := s.releasedIds ++ (attempts.filter Attempt.released).map fun a => a.claim.id
  failures := s.failures ++ attempts.filterMap Attempt.failure?
  deferredIds := s.deferredIds ++ deferred.map Reservation.id

theorem SweepSummary.plus_released (s : SweepSummary) {a : Attempt} {p : Reservation × StockItem}
    (h : a.outcome = .ok p) : s.plus [a] [] = s.addReleased a.claim.id := by
  simp [plus, addReleased, Attempt.released, Attempt.failure?, h]

theorem SweepSummary.plus_refused (s : SweepSummary) {a : Attempt} {f : Fault}
    (h : a.outcome = .error f) : s.plus [a] [] = s.addFailure a.claim.id f := by
  simp [plus, addFailure, Attempt.released, Attempt.failure?, h]

theorem SweepSummary.plus_plus (s : SweepSummary) (as bs : List Attempt)
    (deferred : List Reservation) :
    (s.plus as []).plus bs deferred = s.plus (as ++ bs) deferred := by
  simp [plus]

section

variable {w : Sweeper} {deadline : Option Int} {es : List Event}

theorem makes_budgetSpent {spent : Bool} (h : (budgetSpent deadline).Makes es spent) :
    audible es = [] ∧ (spent = true ↔ SpentIn deadline es) := by
  cases deadline with
  | none =>
    rcases Program.makes_pure h with ⟨rfl, rfl⟩
    exact ⟨rfl, nofun, fun ⟨_, _, hd, _⟩ => nomatch hd⟩
  | some d =>
    rcases Program.makes_bind h with ⟨u, es₁, es₂, rfl, hask, hlast⟩
    rcases Program.makes_ask hask with rfl
    rcases Program.makes_pure hlast with ⟨rfl, rfl⟩
    refine ⟨rfl, fun hspent => ?_, ?_⟩
    · exact ⟨d, u, rfl, List.mem_cons_self .., of_decide_eq_true hspent⟩
    · rintro ⟨_, _, ⟨⟩, hu, hle⟩
      cases List.mem_singleton.1 hu
      exact decide_eq_true hle

theorem makes_announce {r : Reservation} {s : StockItem} (h : (announce r s).Makes es ()) :
    ∃ told, audible es =
      [⟨.publish (.ofReservation r s.productId .reservationExpired r.updatedAt), told⟩] := by
  rcases Program.makes_bind h with ⟨told, es₁, es₂, rfl, hask, hlast⟩
  rcases Program.makes_ask hask with rfl
  have hlast : audible es₂ = [] := by
    match told with
    | .ok () =>
      rw [(Program.makes_pure hlast).1]
      rfl
    | .error _ => exact audible_log hlast
  refine ⟨told, ?_⟩
  rw [audible_append, hlast]
  rfl

/-- Whatever happens to a claim, the next one is tried, as long as there is time. -/
theorem makes_releaseAll {stack : Stack} (hw : w.service.ledger = stack.ledger)
    {rs : List Reservation} {start summary : SweepSummary}
    (h : (w.releaseAll deadline rs start).Makes es summary) :
    ∃ attempts deferred, w.service.Tried deadline rs es attempts deferred ∧
      summary = start.plus attempts deferred := by
  induction rs generalizing start es with
  | nil =>
    rcases Program.makes_pure h with ⟨rfl, rfl⟩
    exact ⟨[], [], ⟨rfl, fun _ ha => (nomatch ha), rfl, .inl rfl, .of_audible rfl⟩,
      by simp [SweepSummary.plus]⟩
  | cons r rest ih =>
    rcases Program.makes_bind h with ⟨spent, es₁, es₂, rfl, hbudget, h⟩
    rcases makes_budgetSpent hbudget with ⟨hquiet, hspent⟩
    cases spent with
    | true =>
      -- The budget is spent: the claim itself is the first one that is left.
      rcases Program.makes_bind h with ⟨_, es₂, es₃, rfl, hlog, hlast⟩
      rcases Program.makes_pure hlast with ⟨rfl, rfl⟩
      have hsilent : audible (es₁ ++ (es₂ ++ [])) = [] := by
        simp [audible_append, hquiet, audible_log hlog]
      refine ⟨[], r :: rest,
        ⟨rfl, fun _ ha => (nomatch ha), hsilent, .inr ?_, .of_audible hsilent⟩, ?_⟩
      · exact (hspent.1 rfl).mono (List.subset_append_left ..)
      · simp [SweepSummary.plus, SweepSummary.addDeferred]
    | false =>
      rcases Program.makes_bind h with ⟨outcome, asked, es₃, rfl, hmade, h⟩
      let a (told : Except PublishFault Unit) : Attempt := { claim := r, asked, outcome, told }
      have hasked := Program.Makes.requests (within_settle hw .expire r) hmade
      -- Either outcome is recorded, and the loop goes on with the rest. Only a released claim is
      -- announced, so that the transcript in between is that of its notice, or silent.
      have hnext : ∃ told es₄ es₅, es₃ = es₄ ++ es₅ ∧ audible es₄ = (a told).notices ∧
          (∀ e ∈ es₄, e.1 ≠ .uptime) ∧
          (w.releaseAll deadline rest (start.plus [a told] [])).Makes es₅ summary := by
        cases outcome with
        | ok p =>
          rcases Program.makes_bind h with ⟨_, es₄, es₅, rfl, hannounce, hrest⟩
          rcases makes_announce hannounce with ⟨told, htold⟩
          have hcalls : (announce p.1 p.2).Within fun c => c ≠ .uptime :=
            within_announce (fun _ => nofun) (fun _ => nofun) p.1 p.2
          have hplus : start.plus [a told] [] = start.addReleased r.id :=
            start.plus_released (a := a told) rfl
          exact ⟨told, es₄, es₅, rfl, htold, Program.Makes.requests hcalls hannounce,
            hplus.symm ▸ hrest⟩
        | error f =>
          rcases Program.makes_bind h with ⟨_, es₄, es₅, rfl, hlog, hrest⟩
          have hcalls : (Program.log .warn "failed to expire reservation").Within
              fun c => c ≠ .uptime := Program.within_ask nofun
          have hplus : start.plus [a (.ok ())] [] = start.addFailure r.id f :=
            start.plus_refused (a := a (.ok ())) rfl
          exact ⟨.ok (), es₄, es₅, rfl, audible_log hlog, Program.Makes.requests hcalls hlog,
            hplus.symm ▸ hrest⟩
      rcases hnext with ⟨told, es₄, es₅, rfl, hnotices, hcalls, hrest⟩
      rcases ih hrest with ⟨attempts, deferred, htried, rfl⟩
      have hbefore : audible (es₁ ++ asked ++ es₄) = (a told).events := by
        rw [audible_append, audible_append, hquiet, hnotices]
        rfl
      -- The uptime was looked at only before this claim, and there was time left then.
      have hunspent : ¬ SpentIn deadline (es₁ ++ asked ++ es₄) := by
        rw [spentIn_append, spentIn_append]
        rintro ((h | h) | h)
        · cases hspent.2 h
        · refine not_spentIn (fun e he hcall => ?_) h
          have hsettles := hasked e he
          rw [hcall] at hsettles
          rcases hsettles with hstock | ⟨_, hwrite, -⟩
          · cases hstock
          · cases hwrite
        · exact not_spentIn hcalls h
      have hall := htried.cons (a := a told) hmade hbefore hunspent
      rw [List.append_assoc, List.append_assoc] at hall
      exact ⟨a told :: attempts, deferred, hall, SweepSummary.plus_plus ..⟩

end

/-! ## The summary -/

def SweepSummary.failedIds (s : SweepSummary) : List ReservationId :=
  s.failures.map SweepFailure.reservationId

/-- Every claim that was found is released, failed or deferred, and is so only once. -/
structure SweepSummary.Divides (s : SweepSummary) (ids : List ReservationId) : Prop where
  found : s.found = ids.length
  /-- The counts are those of the lists. -/
  counts : s.released = s.releasedIds.length ∧ s.failed = s.failures.length ∧
    s.deferred = s.deferredIds.length
  total : s.found = s.tally.released + s.tally.failed + s.tally.deferred
  released : s.releasedIds.Sublist ids
  failed : s.failedIds.Sublist ids
  deferred : s.deferredIds <:+ ids
  whole : (s.releasedIds ++ s.failedIds ++ s.deferredIds).Perm ids
  apart : ids.Nodup → s.releasedIds.Disjoint s.failedIds ∧
    s.releasedIds.Disjoint s.deferredIds ∧ s.failedIds.Disjoint s.deferredIds

theorem failedIds_of_attempts (attempts : List Attempt) :
    (attempts.filterMap Attempt.failure?).map SweepFailure.reservationId =
      (attempts.filter fun a => !a.released).map fun a => a.claim.id := by
  induction attempts with
  | nil => rfl
  | cons a rest ih =>
    cases houtcome : a.outcome with
    | ok p => simpa [Attempt.failure?, Attempt.released, houtcome] using ih
    | error f => simpa [Attempt.failure?, Attempt.released, houtcome] using ih

theorem mem_tried {attempts : List Attempt} {a : Attempt} (ha : a ∈ attempts) (s : SweepSummary)
    (deferred : List Reservation) : a.claim.id ∈
      (s.plus attempts deferred).releasedIds ++ (s.plus attempts deferred).failedIds := by
  have hfailed := failedIds_of_attempts attempts
  rw [List.mem_append, SweepSummary.failedIds, SweepSummary.plus, List.map_append, hfailed]
  cases hreleased : a.released with
  | true =>
    have hmem : a ∈ attempts.filter Attempt.released := List.mem_filter.2 ⟨ha, hreleased⟩
    exact .inl (List.mem_append_right _ (List.mem_map.2 ⟨a, hmem, rfl⟩))
  | false =>
    have hmem : a ∈ attempts.filter fun a => !a.released :=
      List.mem_filter.2 ⟨ha, by simp [hreleased]⟩
    exact .inr (List.mem_append_right _ (List.mem_map.2 ⟨a, hmem, rfl⟩))

theorem divides_plus {attempts : List Attempt} {deferred : List Reservation} {s : SweepSummary}
    {ids : List ReservationId}
    (hids : ids = attempts.map (fun a => a.claim.id) ++ deferred.map Reservation.id)
    (hs : s = (SweepSummary.plus { found := ids.length } attempts deferred).counted) :
    s.Divides ids := by
  have hreleased : s.releasedIds = (attempts.filter Attempt.released).map fun a => a.claim.id := by
    simp [hs, SweepSummary.counted, SweepSummary.plus]
  have hfailed : s.failedIds = (attempts.filter fun a => !a.released).map fun a => a.claim.id := by
    simpa [hs, SweepSummary.counted, SweepSummary.plus, SweepSummary.failedIds] using
      failedIds_of_attempts attempts
  have hdeferred : s.deferredIds = deferred.map Reservation.id := by
    simp [hs, SweepSummary.counted, SweepSummary.plus]
  have hcounts : s.released = s.releasedIds.length ∧ s.failed = s.failures.length ∧
      s.deferred = s.deferredIds.length := by
    rw [hs]
    exact ⟨rfl, rfl, rfl⟩
  -- The attempts that released their claim and the others are all attempts.
  have hwhole : (s.releasedIds ++ s.failedIds ++ s.deferredIds).Perm ids := by
    rw [hreleased, hfailed, hdeferred, hids, ← List.map_append]
    refine List.Perm.append_right _ (List.Perm.map _ ?_)
    exact List.filter_append_perm ..
  have hfound : s.found = ids.length := by rw [hs, SweepSummary.counted, SweepSummary.plus]
  refine ⟨hfound, hcounts, ?_, ?_, ?_, ?_, hwhole, fun hnodup => ?_⟩
  · have htotal := hwhole.length_eq
    simp only [List.length_append, SweepSummary.failedIds, List.length_map] at htotal
    calc
      s.found = s.releasedIds.length + s.failures.length + s.deferredIds.length :=
        hfound.trans htotal.symm
      _ = s.released + s.failed + s.deferred := by rw [hcounts.1, hcounts.2.1, hcounts.2.2]
  · rw [hreleased, hids]
    exact (List.filter_sublist.map _).trans (List.sublist_append_left ..)
  · rw [hfailed, hids]
    exact (List.filter_sublist.map _).trans (List.sublist_append_left ..)
  · rw [hdeferred, hids]
    exact List.suffix_append ..
  · have hapart := hwhole.nodup_iff.2 hnodup
    have hlast := List.disjoint_of_nodup_append hapart
    rw [List.disjoint_append_left] at hlast
    exact ⟨List.disjoint_of_nodup_append (List.Nodup.of_append_left hapart), hlast⟩

/-- What was asked after the search is what was asked to release the claims that were found. -/
structure Sweeper.Swept (w : Sweeper) (deadline : Option Int) (found : List Reservation)
    (es : List Event) (summary : SweepSummary) : Prop where
  divides : summary.Divides (found.map Reservation.id)
  announced : announcedIds es = summary.releasedIds
  /-- No claim that was deferred is written, nor is any other one. -/
  writes : ∀ (q : ReservationCall) (reply : q.Reply), ⟨.reservations q, reply⟩ ∈ es →
    ∃ c, q = .update c ∧ c.id ∈ summary.releasedIds ++ summary.failedIds
  tried : ∃ attempts deferred, w.service.Tried deadline found es attempts deferred ∧
    summary.releasedIds = (attempts.filter Attempt.released).map (fun a => a.claim.id) ∧
    summary.failures = attempts.filterMap Attempt.failure? ∧
    summary.deferredIds = deferred.map Reservation.id

/-- The uptime, the time, and the search with its answer. -/
def Sweeper.searched (w : Sweeper) (started : Nat) (t : Timestamp)
    (answer : Option (Answer (List Reservation))) : List Event :=
  [⟨.uptime, started⟩, ⟨.now, t⟩,
    ⟨.findExpiredWithin w.config.budget t w.config.batchLimit, answer⟩]

/-- All that can happen in a sweep, with how it ends. -/
inductive Sweeper.Ends (w : Sweeper) : Answer SweepSummary → List Event → Prop
  | timedOut (started : Nat) (t : Timestamp) :
      Ends w (.error w.timedOut) (w.searched started t none ++ [⟨.leaveSweep, ()⟩])
  | refused (started : Nat) (t : Timestamp) (f : Fault) :
      Ends w (.error f) (w.searched started t (some (.error f)) ++ [⟨.leaveSweep, ()⟩])
  | swept (started : Nat) (t : Timestamp) (found : List Reservation) (es : List Event)
      (summary : SweepSummary)
      (h : w.Swept (w.config.budget.map fun b => started + b.nanos) found es summary) :
      Ends w (.ok summary) (w.searched started t (some (.ok found)) ++ es ++
        [⟨.recordSweep summary.tally, ()⟩, ⟨.leaveSweep, ()⟩])

section

variable {w : Sweeper} {stack : Stack} {deadline : Option Int} {found : List Reservation}
  {es : List Event} {summary : SweepSummary}

theorem swept_releaseAll (hw : w.service.ledger = stack.ledger)
    (h : (w.releaseAll deadline found { found := found.length }).Makes es summary) :
    w.Swept deadline found es summary.counted := by
  rcases makes_releaseAll hw h with ⟨attempts, deferred, htried, rfl⟩
  have hids : found.map Reservation.id =
      attempts.map (fun a => a.claim.id) ++ deferred.map Reservation.id := by
    rw [htried.claims, List.map_append, List.map_map]
    rfl
  refine ⟨?_, ?_, fun q reply hq => ?_, attempts, deferred, htried, List.nil_append _,
    List.nil_append _, List.nil_append _⟩
  · refine divides_plus hids ?_
    rw [List.length_map]
  · calc
      announcedIds es = announcedIds (attempts.flatMap Attempt.events) := by
        rw [← htried.events, announcedIds_audible]
      _ = (attempts.filter Attempt.released).map fun a => a.claim.id :=
        announcedIds_flatMap hw htried.made
      _ = _ := (List.nil_append _).symm
  · -- A request to the keeper of claims is heard, so it belongs to one of the attempts.
    have hheard : ⟨.reservations q, reply⟩ ∈ audible es := List.mem_filter.2 ⟨hq, rfl⟩
    rw [htried.events] at hheard
    rcases List.mem_flatMap.1 hheard with ⟨a, ha, hmem⟩
    rcases (htried.made a ha).writes hw hmem with ⟨c, rfl, hid⟩
    refine ⟨c, rfl, ?_⟩
    rw [hid]
    exact mem_tried ha { found := found.length } deferred

/-- Reports may follow. -/
theorem Sweeper.Swept.quiet (h : w.Swept deadline found es summary) {es' : List Event}
    (hquiet : audible es' = []) : w.Swept deadline found (es ++ es') summary := by
  rcases h.tried with ⟨attempts, deferred, htried, hids⟩
  have hsame : audible (es ++ es') = audible es := by
    rw [audible_append, hquiet, List.append_nil]
  refine ⟨h.divides, ?_, fun q reply hq => ?_, attempts, deferred,
    ⟨htried.claims, htried.made, ?_, ?_, ?_⟩, hids⟩
  · calc
      announcedIds (es ++ es') = announcedIds (audible (es ++ es')) :=
        (announcedIds_audible _).symm
      _ = announcedIds es := by rw [hsame, announcedIds_audible]
      _ = summary.releasedIds := h.announced
  · have hheard : ⟨.reservations q, reply⟩ ∈ audible (es ++ es') := List.mem_filter.2 ⟨hq, rfl⟩
    rw [hsame] at hheard
    exact h.writes q reply (List.mem_filter.1 hheard).1
  · exact hsame.trans htried.events
  · exact htried.spent.imp_right fun h => h.mono (List.subset_append_left ..)
  · exact htried.stops.append_right hquiet

/-- A sweep fails only if its search does. -/
theorem makes_sweep (hw : w.service.ledger = stack.ledger) {outcome : Answer SweepSummary}
    (h : Program.Makes w.sweep.run es outcome) : ∃ started t answer es',
      es = w.searched started t answer ++ es' ∧
      match answer with
      | none => outcome = .error w.timedOut ∧ es' = []
      | some (.error f) => outcome = .error f ∧ es' = []
      | some (.ok found) => ∃ summary, outcome = .ok summary ∧
          w.Swept (w.config.budget.map fun b => started + b.nanos) found es' summary := by
  rcases Program.makes_bind h with ⟨started, es₁, es₂, rfl, huptime, htimed⟩
  rcases Program.makes_bind htimed with ⟨t, es₂, es₃, rfl, hnow, hfind⟩
  rcases Program.makes_bind hfind with ⟨answer, es₃, es₄, rfl, hsearch, hafter⟩
  rcases Program.makes_ask huptime with rfl
  rcases Program.makes_ask hnow with rfl
  rcases Program.makes_ask hsearch with rfl
  refine ⟨started, t, answer, es₄, rfl, ?_⟩
  match answer with
  | none =>
    rcases Program.makes_pure hafter with ⟨rfl, rfl⟩
    exact ⟨rfl, rfl⟩
  | some (.error f) =>
    rcases Program.makes_pure hafter with ⟨rfl, rfl⟩
    exact ⟨rfl, rfl⟩
  | some (.ok []) =>
    rcases Program.makes_bind hafter with ⟨_, es₅, es₆, rfl, hlog, hlast⟩
    rcases Program.makes_pure hlast with ⟨rfl, rfl⟩
    -- Nothing was found, as if none of no claims had been left.
    have hnone : (w.releaseAll (w.config.budget.map fun b => started + b.nanos) []
        { found := 0 }).Makes [] { found := 0 } := .done _
    refine ⟨_, rfl, ?_⟩
    rw [List.append_nil]
    exact (swept_releaseAll hw hnone).quiet (audible_log hlog)
  | some (.ok (r :: rest)) =>
    rcases Program.makes_bind hafter with ⟨summary, es₅, es₆, rfl, hrelease, hreport⟩
    rcases Program.makes_bind hreport with ⟨_, es₆, es₇, rfl, hlog, hlast⟩
    rcases Program.makes_pure hlast with ⟨rfl, rfl⟩
    refine ⟨summary.counted, rfl, ?_⟩
    rw [List.append_nil]
    exact (swept_releaseAll hw hrelease).quiet (audible_log hlog)

theorem makes_sweepAndLeave (hw : w.service.ledger = stack.ledger) {outcome : Answer SweepSummary}
    (h : w.sweepAndLeave.Makes es outcome) : w.Ends outcome es := by
  rcases Program.makes_bind h with ⟨a, es₁, es₂, rfl, hsweep, hafter⟩
  rcases makes_sweep hw hsweep with ⟨started, t, answer, es', rfl, hanswer⟩
  -- After a failed search others may start, and that is all.
  have hrefused (f : Fault) (ha : a = .error f) (hes' : es' = []) :
      outcome = .error f ∧ es' ++ es₂ = [⟨.leaveSweep, ()⟩] := by
    subst ha hes'
    rcases Program.makes_bind hafter with ⟨_, es₂, es₃, rfl, hleave, hlast⟩
    rcases Program.makes_pure hlast with ⟨rfl, rfl⟩
    rcases Program.makes_ask hleave with rfl
    exact ⟨rfl, rfl⟩
  match answer with
  | none =>
    rcases hrefused _ hanswer.1 hanswer.2 with ⟨rfl, hes⟩
    rw [List.append_assoc, hes]
    exact .timedOut started t
  | some (.error f) =>
    rcases hrefused _ hanswer.1 hanswer.2 with ⟨rfl, hes⟩
    rw [List.append_assoc, hes]
    exact .refused started t f
  | some (.ok found) =>
    rcases hanswer with ⟨summary, rfl, hswept⟩
    rcases Program.makes_bind hafter with ⟨_, es₂, es₃, rfl, hrecord, hend⟩
    rcases Program.makes_bind hend with ⟨_, es₃, es₄, rfl, hleave, hlast⟩
    rcases Program.makes_pure hlast with ⟨rfl, rfl⟩
    rcases Program.makes_ask hrecord with rfl
    rcases Program.makes_ask hleave with rfl
    exact .swept started t found es' summary hswept

end

/-! ## The publisher -/

/-- A publisher, who may decide by what it was told before. -/
abbrev Announcer : Type :=
  List StockRelease → StockRelease → Except PublishFault Unit

def Call.isNotice : Call → Bool
  | .publish _ => true
  | _ => false

/-- Notices go to the publisher and reports to nobody; somebody else answers all other requests. -/
def Announcer.beside {σ : Type} (publisher : Announcer) (answer : σ → (c : Call) → c.Reply × σ)
    (s : σ × List StockRelease) : (c : Call) → Option (c.Reply × (σ × List StockRelease))
  | .publish n => some (publisher s.2 n, (s.1, s.2 ++ [n]))
  | .log _ => some ((), s)
  | c => some ((answer s.1 c).1, ((answer s.1 c).2, s.2))

section

variable {σ α β : Type} {answer : σ → (c : Call) → c.Reply × σ} {publisher publisher' : Announcer}
  {w : Sweeper} {stack : Stack}

/-- With the one publisher the program does the same as with the other. -/
def Program.Alike (answer : σ → (c : Call) → c.Reply × σ) (publisher publisher' : Announcer)
    (p : Program α) : Prop :=
  ∀ s, p.runOn (publisher.beside answer) s = p.runOn (publisher'.beside answer) s

theorem Program.Alike.bind {p : Program α} {f : α → Program β}
    (hp : p.Alike answer publisher publisher') (hf : ∀ a, (f a).Alike answer publisher publisher') :
    (p >>= f).Alike answer publisher publisher' := by
  intro s
  rw [runOn_andThen, runOn_andThen, hp s]
  exact congrArg _ (funext fun (a, t) => hf a t)

/-- A program that sends no notices does not depend on a publisher. -/
theorem Program.Within.alike {p : Program α} (hp : p.Within fun c => c.isNotice = false) :
    p.Alike answer publisher publisher' := by
  induction p with
  | done a => exact fun s => rfl
  | call c next ih =>
    intro s
    rcases hp.head with ⟨hc, hnext⟩
    have hanswer : publisher.beside answer s c = publisher'.beside answer s c := by
      cases c with
      | publish n => cases hc
      | _ => rfl
    -- The reply and the state after it are the same, so the rest starts in the same way.
    rw [runOn, runOn, hanswer]
    exact congrArg _ (funext fun a => ih a.1 (hnext a.1) a.2)
  | abort => exact hp.elim

theorem Program.OfWorkflow.alike {p : Program α} (hp : p.OfWorkflow) :
    p.Alike answer publisher publisher' := by
  have hquiet (c : Call) (hc : c.ofWorkflow = true) : c.isNotice = false := by
    cases c with
    | publish n => cases hc
    | _ => rfl
  exact (Program.Within.weaken hquiet hp).alike

/-- Whether a notice is accepted is only reported. -/
theorem alike_announce (r : Reservation) (x : StockItem) :
    (announce r x).Alike answer publisher publisher' := by
  let n : StockRelease := .ofReservation r x.productId .reservationExpired r.updatedAt
  have hsent (p : Announcer) (s : σ × List StockRelease) :
      (announce r x).runOn (p.beside answer) s = some ((), (s.1, s.2 ++ [n])) := by
    have hask : (Program.ask (.publish n)).runOn (p.beside answer) s =
        some (p s.2 n, (s.1, s.2 ++ [n])) := rfl
    refine (Program.runOn_bind hask).trans ?_
    match p s.2 n with
    | .ok () => rfl
    | .error _ => rfl
  intro s
  rw [hsent, hsent]

theorem alike_ask {c : Call} (hc : c.isNotice = false) :
    (Program.ask c).Alike answer publisher publisher' :=
  Program.Within.alike (Program.within_ask hc)

theorem alike_log {level : LogLevel} {message : String} :
    (Program.log level message).Alike answer publisher publisher' :=
  alike_ask rfl

theorem alike_done (a : α) : (Program.done a).Alike answer publisher publisher' :=
  fun _ => rfl

theorem alike_budgetSpent (deadline : Option Int) :
    (budgetSpent deadline).Alike answer publisher publisher' := by
  cases deadline with
  | none => exact alike_done false
  | some d => exact (alike_ask rfl).bind fun _ => alike_done _

theorem alike_releaseAll (hw : w.service.ledger = stack.ledger) (deadline : Option Int)
    (rs : List Reservation) (summary : SweepSummary) :
    (w.releaseAll deadline rs summary).Alike answer publisher publisher' := by
  induction rs generalizing summary with
  | nil => exact alike_done _
  | cons r rest ih =>
    refine (alike_budgetSpent deadline).bind fun spent => ?_
    cases spent with
    | true => exact alike_log.bind fun _ => alike_done _
    | false =>
      have hexpire : Program.OfWorkflow (w.service.expire r).run :=
        (within_settle hw .expire r).weaken fun _ => Call.Settles.ofWorkflow
      refine hexpire.alike.bind fun outcome => ?_
      match outcome with
      | .ok (settled, x) => exact (alike_announce settled x).bind fun _ => ih _
      | .error f => exact alike_log.bind fun _ => ih _

theorem alike_sweep (hw : w.service.ledger = stack.ledger) :
    Program.Alike answer publisher publisher' w.sweep.run := by
  refine (alike_ask rfl).bind fun started => ?_
  refine (alike_ask rfl).bind fun t => ?_
  refine (alike_ask rfl).bind fun search => ?_
  match search with
  | none => exact alike_done _
  | some (.error _) => exact alike_done _
  | some (.ok []) => exact alike_log.bind fun _ => alike_done _
  | some (.ok (r :: rest)) =>
    refine (alike_releaseAll hw _ _ _).bind fun summary => ?_
    exact alike_log.bind fun _ => alike_done _

theorem alike_sweepAndLeave (hw : w.service.ledger = stack.ledger) :
    w.sweepAndLeave.Alike answer publisher publisher' := by
  refine (alike_sweep hw).bind fun outcome => ?_
  match outcome with
  | .ok summary => exact (alike_ask rfl).bind fun _ => (alike_ask rfl).bind fun _ => alike_done _
  | .error f => exact (alike_ask rfl).bind fun _ => alike_done _

end

/--
Whoever answers, a sweep ends, and its summary says of each claim that was found what became of it;
only a search that fails or takes too long makes it fail, before anything was written. What a
publisher answers makes no difference to its summary or to anything that others are asked.
-/
theorem sweep_accounts (stack : Stack) (ttl : Span) (config : SweepConfig) :
    let w := stack.sweeper ttl config
    (∀ R : Respondent, ∃ outcome es,
      w.sweepAndLeave.runOn R.answer? [] = some (outcome, es) ∧ w.Ends outcome es) ∧
    ∀ (σ : Type) (answer : σ → (c : Call) → c.Reply × σ) (publisher publisher' : Announcer)
      (s : σ × List StockRelease), w.sweepAndLeave.runOn (publisher.beside answer) s =
        w.sweepAndLeave.runOn (publisher'.beside answer) s := by
  intro w
  have hw : w.service.ledger = stack.ledger := rfl
  refine ⟨fun R => ?_, fun σ answer publisher publisher' s => alike_sweepAndLeave hw s⟩
  rcases (sound_sweepAndLeave hw).makes R [] with ⟨outcome, es, hrun, hmakes⟩
  exact ⟨outcome, es, hrun, makes_sweepAndLeave hw hmakes⟩

end StockLedger
