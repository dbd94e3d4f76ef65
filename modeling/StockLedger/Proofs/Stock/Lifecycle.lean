import Mathlib.Data.List.Basic
import Mathlib.Tactic.Common
import StockLedger.Proofs.Stock.Reservation
import StockLedger.Proofs.Time.Order

/-!
# The life of a claim

Anybody may settle a claim or move its expiry, at any time and as often as they like, and clocks may
run backwards. Still a claim ends once at most, and it is only ever ended while it is pending.

* `Reservation.Act`, `Reservation.perform` : what can be done to a claim, and what comes of it;
* `Act.Permitted`, `Act.refusal?` : when it is done, and the first reason why it is not;
* `Step.Lawful`, `lawful_perform` : one act;
* `Reservation.live` : any acts, one after another;
* `claim_ends_once` : whatever they are.
-/

namespace StockLedger

namespace Timestamp

/-- A longer time leads to a later instant, also out of a leap second and inside of one. -/
theorem lt_of_add? {t u : Timestamp} {d : Span} (hd : d.Positive) (h : t.add? d = some u) :
    t < u := by
  have hd : 0 < d.nanos := hd
  have hepoch : t.sinceEpoch = t.seconds * 1000000000 + t.nanos := rfl
  have hsecond : Span.perSecond = 1000000000 := rfl
  rw [lt_iff]
  unfold add? at h
  rw [hepoch, hsecond] at h
  split at h
  · rcases of_ofNanos? h with ⟨hnanos, hlt⟩
    omega
  · split at h
    · -- The second in which the move starts is counted once, not twice.
      rcases of_ofNanos? h with ⟨hnanos, hlt⟩
      omega
    · split at h
      · rcases of_ofNanos? h with ⟨hnanos, hlt⟩
        omega
      · rcases of_ofParts? h with ⟨hseconds, hnanos⟩
        omega

end Timestamp

namespace Reservation

/-! ## Acts -/

/-- What can be done to a claim, and when. -/
inductive Act
  | settle (k : Settlement) (now : Timestamp)
  | extend (by_ : Span) (now : Timestamp)
deriving DecidableEq, Repr

/-- One act: the claim before it, the answer if there is one, and the claim after it. -/
structure Step where
  before : Reservation
  act : Act
  answer : Option (Answer Unit)
  after : Reservation

/-- Does an act to a claim. An expiry that would lie out of range has no answer. -/
def answer? (r : Reservation) : Act → Option (Answer Reservation)
  | .settle k now => some (k.transition r now)
  | .extend by_ now => r.extend? by_ now

def perform (r : Reservation) (a : Act) : Step :=
  match r.answer? a with
  | some (.ok r') => ⟨r, a, some (.ok ()), r'⟩
  | some (.error f) => ⟨r, a, some (.error f), r⟩
  | none => ⟨r, a, none, r⟩

namespace Act

/-- May this be done to the claim as it stands? -/
def Permitted (r : Reservation) : Act → Prop
  | settle .confirm now => r.status = .pending ∧ now ≤ r.expiresAt
  | settle .release _ => r.status = .pending
  | settle .expire now => r.status = .pending ∧ r.expiresAt < now
  | extend by_ now => by_.Positive ∧ r.status = .pending ∧ now ≤ r.expiresAt

/-- Is there an instant to which the act would move the expiry? -/
def InRange (r : Reservation) : Act → Prop
  | settle _ _ => True
  | extend by_ _ => ∃ t, r.expiresAt.add? by_ = some t

/-- The act is for a time that is none. -/
def tooShort? : Act → Option Fault.Code
  | extend by_ _ => if by_.Positive then none else some .invalidDuration
  | settle _ _ => none

def ended? (r : Reservation) : Option Fault.Code :=
  if r.status = .pending then none else some .reservationNotPending

/-- The act comes too late, or too early. -/
def untimely? (r : Reservation) : Act → Option Fault.Code
  | settle .confirm now | extend _ now =>
      if r.expiresAt < now then some .reservationExpired else none
  | settle .expire now => if r.expiresAt < now then none else some .reservationNotExpired
  | settle .release _ => none

/-- The first reason to refuse an act: its duration, then the status, then the expiry. -/
def refusal? (r : Reservation) (a : Act) : Option Fault.Code :=
  a.tooShort?.or ((ended? r).or (a.untimely? r))

theorem refusal?_eq_none_iff (r : Reservation) (a : Act) : a.refusal? r = none ↔ a.Permitted r := by
  have hended : ended? r = none ↔ r.status = .pending := by simp [ended?]
  rw [refusal?, Option.or_eq_none_iff, Option.or_eq_none_iff, hended]
  cases a with
  | settle k now =>
    cases k with
    | confirm => simp [tooShort?, untimely?, Permitted, LE.le]
    | release => simp [tooShort?, untimely?, Permitted]
    | expire => simp [tooShort?, untimely?, Permitted]
  | extend by_ now => simp [tooShort?, untimely?, Permitted, LE.le]

/-- What a claim becomes by an act, if there is an instant for its expiry. -/
def result? (r : Reservation) : Act → Option Reservation
  | settle k now => some (r.moveTo k.status now)
  | extend by_ now =>
      (r.expiresAt.add? by_).map fun expiresAt => { r with expiresAt, updatedAt := now }

end Act

/-! ## One act -/

section

variable {r : Reservation} {a : Act} {now : Timestamp} {c : Fault.Code}

theorem ensureConfirmable_of_refusal
    (h : (Act.ended? r).or (if r.expiresAt < now then some .reservationExpired else none) = some c) :
    ∃ f, r.ensureConfirmable now = .error f ∧ f.code = c := by
  by_cases hpending : r.status = .pending
  · rw [Act.ended?, if_pos hpending, Option.none_or] at h
    rcases Option.ite_none_right_eq_some.1 h with ⟨hlate, hc⟩
    exact ⟨_, ensureConfirmable_of_expired hpending hlate, Option.some.inj hc⟩
  · rw [Act.ended?, if_neg hpending, Option.some_or] at h
    exact ⟨_, if_pos hpending, Option.some.inj h⟩

theorem ensure_of_permitted {k : Settlement} (h : (Act.settle k now).Permitted r) :
    k.ensure r now = .ok () := by
  cases k with
  | confirm => exact ensureConfirmable_of_active h.1 h.2
  | release => exact ensureReleasable_of_pending h
  | expire => exact ensureExpirable_of_expired h.1 h.2

theorem ensure_of_refusal {k : Settlement} (h : (Act.settle k now).refusal? r = some c) :
    ∃ f, k.ensure r now = .error f ∧ f.code = c := by
  cases k with
  | confirm => exact ensureConfirmable_of_refusal h
  | release =>
    have h : (Act.ended? r).or none = some c := h
    rw [Option.or_none] at h
    rcases Option.ite_none_left_eq_some.1 h with ⟨hended, hc⟩
    have hkept : ¬ r.isReleasable = true := fun hpending => hended (beq_iff_eq.1 hpending)
    exact ⟨r.notPending, if_neg hkept, Option.some.inj hc⟩
  | expire =>
    have h : (Act.ended? r).or (if r.expiresAt < now then none else some .reservationNotExpired) =
      some c := h
    by_cases hpending : r.status = .pending
    · rw [Act.ended?, if_pos hpending, Option.none_or] at h
      rcases Option.ite_none_left_eq_some.1 h with ⟨hearly, hc⟩
      exact ⟨_, ensureExpirable_of_active hpending hearly, Option.some.inj hc⟩
    · rw [Act.ended?, if_neg hpending, Option.some_or] at h
      exact ⟨_, if_pos hpending, Option.some.inj h⟩

/-- An act that is permitted is done, if there is an instant for the expiry. -/
theorem answer?_of_permitted (h : a.Permitted r) : r.answer? a = (a.result? r).map .ok := by
  cases a with
  | settle k now =>
    rw [answer?, k.transition_eq, ensure_of_permitted h]
    rfl
  | extend by_ now =>
    rcases h with ⟨hlong, hpending, htime⟩
    rw [answer?, extend?, if_pos hlong, ensureConfirmable_of_active hpending htime, Act.result?,
      Option.map_map]
    rfl

/-- An act that is not permitted is refused, for the first reason that there is. -/
theorem answer?_of_refusal (h : a.refusal? r = some c) :
    ∃ f, r.answer? a = some (.error f) ∧ f.code = c := by
  cases a with
  | settle k now =>
    rcases ensure_of_refusal h with ⟨f, hf, hc⟩
    refine ⟨f, ?_, hc⟩
    rw [answer?, k.transition_eq, hf]
    rfl
  | extend by_ now =>
    by_cases hlong : by_.Positive
    · rw [Act.refusal?, Act.tooShort?, if_pos hlong, Option.none_or] at h
      rcases ensureConfirmable_of_refusal h with ⟨f, hf, hc⟩
      exact ⟨f, by rw [answer?, extend?, if_pos hlong, hf], hc⟩
    · rw [Act.refusal?, Act.tooShort?, if_neg hlong, Option.some_or] at h
      exact ⟨_, if_neg hlong, Option.some.inj h⟩

end

/-- What is true of every act. -/
structure Step.Lawful (s : Step) : Prop where
  /-- Only an act that succeeds changes anything, and none changes what is claimed. -/
  unchanged : s.answer ≠ some (.ok ()) → s.after = s.before
  same : s.before.SameClaim s.after
  succeeds : s.answer = some (.ok ()) ↔ s.act.Permitted s.before ∧ s.act.InRange s.before
  refused : ∀ c, (∃ f, s.answer = some (.error f) ∧ f.code = c) ↔ s.act.refusal? s.before = some c
  settled : ∀ k now, s.act = .settle k now → s.answer = some (.ok ()) →
    s.before.status = .pending ∧ s.after.status = k.status ∧
      s.after.expiresAt = s.before.expiresAt
  extended : ∀ by_ now, s.act = .extend by_ now → s.answer = some (.ok ()) →
    s.after.status = s.before.status ∧ s.before.expiresAt < s.after.expiresAt

section

variable {r r' : Reservation} {a : Act}

theorem inRange_iff : a.InRange r ↔ ∃ r', a.result? r = some r' := by
  cases a with
  | settle k now => exact ⟨fun _ => ⟨_, rfl⟩, fun _ => trivial⟩
  | extend by_ now =>
    simp only [Act.InRange, Act.result?, Option.map_eq_some_iff]
    constructor
    · rintro ⟨t, ht⟩
      exact ⟨_, t, ht, rfl⟩
    · rintro ⟨_, t, ht, -⟩
      exact ⟨t, ht⟩

theorem sameClaim_of_result? (h : a.result? r = some r') : r.SameClaim r' := by
  cases a with
  | settle k now =>
    cases h
    exact r.sameClaim_moveTo _ _
  | extend by_ now =>
    rcases Option.map_eq_some_iff.1 h with ⟨t, -, rfl⟩
    exact ⟨rfl, rfl, rfl, rfl, rfl⟩

/-- An act that is refused, or breaks off, leaves the claim as it is. -/
theorem lawful_unchanged {answer : Option (Answer Unit)} (hanswer : answer ≠ some (.ok ()))
    (hsucceeds : ¬ (a.Permitted r ∧ a.InRange r))
    (hrefused : ∀ c, (∃ f, answer = some (.error f) ∧ f.code = c) ↔ a.refusal? r = some c) :
    Step.Lawful ⟨r, a, answer, r⟩ where
  unchanged _ := rfl
  same := .refl r
  succeeds := iff_of_false hanswer hsucceeds
  refused := hrefused
  settled _ _ _ h := absurd h hanswer
  extended _ _ _ h := absurd h hanswer

theorem lawful_done (hpermitted : a.Permitted r) (h : a.result? r = some r') :
    Step.Lawful ⟨r, a, some (.ok ()), r'⟩ where
  unchanged h := absurd rfl h
  same := sameClaim_of_result? h
  succeeds := iff_of_true rfl ⟨hpermitted, inRange_iff.2 ⟨r', h⟩⟩
  refused c := by
    rw [(Act.refusal?_eq_none_iff r a).2 hpermitted]
    refine iff_of_false ?_ (Option.some_ne_none c).symm
    rintro ⟨_, hf, -⟩
    cases hf
  settled := by
    rintro k now rfl -
    cases h
    refine ⟨?_, rfl, rfl⟩
    cases k with
    | confirm => exact hpermitted.1
    | release => exact hpermitted
    | expire => exact hpermitted.1
  extended := by
    rintro by_ now rfl -
    rcases Option.map_eq_some_iff.1 h with ⟨t, ht, rfl⟩
    exact ⟨rfl, Timestamp.lt_of_add? hpermitted.1 ht⟩

theorem before_perform (r : Reservation) (a : Act) : (r.perform a).before = r := by
  unfold perform
  split <;> rfl

/-- All that can come of an act. -/
theorem perform_cases (r : Reservation) (a : Act) :
    (∃ f, a.refusal? r = some f.code ∧ r.perform a = ⟨r, a, some (.error f), r⟩) ∨
      (∃ r', a.Permitted r ∧ a.result? r = some r' ∧ r.perform a = ⟨r, a, some (.ok ()), r'⟩) ∨
      a.Permitted r ∧ a.result? r = none ∧ r.perform a = ⟨r, a, none, r⟩ := by
  unfold perform
  cases hrefusal : a.refusal? r with
  | some c =>
    rcases answer?_of_refusal hrefusal with ⟨f, hanswer, rfl⟩
    rw [hanswer]
    exact .inl ⟨f, rfl, rfl⟩
  | none =>
    have hpermitted := (Act.refusal?_eq_none_iff r a).1 hrefusal
    rw [answer?_of_permitted hpermitted]
    cases a.result? r with
    | some r' => exact .inr (.inl ⟨r', hpermitted, rfl, rfl⟩)
    | none => exact .inr (.inr ⟨hpermitted, rfl, rfl⟩)

/-- Every act is lawful, whatever the claim. -/
theorem lawful_perform (r : Reservation) (a : Act) : (r.perform a).Lawful := by
  rcases r.perform_cases a with ⟨f, hrefusal, hstep⟩ | ⟨r', hpermitted, hresult, hstep⟩ |
    ⟨hpermitted, hresult, hstep⟩
  · have hforbidden : ¬ a.Permitted r := by
      rw [← Act.refusal?_eq_none_iff, hrefusal]
      exact Option.some_ne_none _
    rw [hstep]
    refine lawful_unchanged (fun h => (nomatch h)) (fun h => hforbidden h.1) fun c => ?_
    rw [hrefusal, Option.some.injEq]
    constructor
    · rintro ⟨_, hf, hc⟩
      cases hf
      exact hc
    · exact fun hc => ⟨f, rfl, hc⟩
  · rw [hstep]
    exact lawful_done hpermitted hresult
  · have hrange : ¬ a.InRange r := by
      rw [inRange_iff, hresult]
      rintro ⟨_, h⟩
      cases h
    rw [hstep]
    refine lawful_unchanged (fun h => (nomatch h)) (fun h => hrange h.2) fun c => ?_
    rw [(Act.refusal?_eq_none_iff r a).2 hpermitted]
    refine iff_of_false ?_ (Option.some_ne_none c).symm
    rintro ⟨_, hf, -⟩
    cases hf

end

/-! ## Acts one after another -/

/-- Does acts to a claim, each to what the one before it has left. -/
def live (r : Reservation) : List Act → List Step
  | [] => []
  | a :: acts => r.perform a :: (r.perform a).after.live acts

/-- The claim was ended by this act. -/
def Step.ends (s : Step) : Bool :=
  match s.act, s.answer with
  | .settle _ _, some (.ok ()) => true
  | _, _ => false

theorem Act.Permitted.pending {r : Reservation} {a : Act} (h : a.Permitted r) :
    r.status = .pending := by
  cases a with
  | settle k now =>
    cases k with
    | confirm => exact h.1
    | release => exact h
    | expire => exact h.1
  | extend by_ now => exact h.2.1

/-- An act that ends a claim takes it out of pending. -/
theorem Step.Lawful.ended {s : Step} (hs : s.Lawful) (h : s.ends = true) :
    s.after.status ≠ .pending := by
  unfold Step.ends at h
  split at h
  · next k now hact hanswer =>
    rw [(hs.settled k now hact hanswer).2.1]
    cases k <;> exact nofun
  · cases h

/-- Whatever is done to a claim that has ended is refused, and leaves it as it is. -/
theorem refused_of_ended {r : Reservation} (hr : r.status ≠ .pending) (acts : List Act) :
    ∀ s ∈ r.live acts, (∃ f, s.answer = some (.error f)) ∧ s.after = r := by
  induction acts with
  | nil => exact fun _ h => nomatch h
  | cons a acts ih =>
    intro s hs
    -- A refused act leaves the claim ended for the next one; any other act needs it pending.
    rcases r.perform_cases a with ⟨f, -, hstep⟩ | ⟨_, hpermitted, -⟩ | ⟨hpermitted, -⟩
    · rw [live, hstep] at hs
      rcases List.mem_cons.1 hs with rfl | hlater
      · exact ⟨⟨f, rfl⟩, rfl⟩
      · exact ih s hlater
    · exact absurd hpermitted.pending hr
    · exact absurd hpermitted.pending hr

theorem not_ends_of_ended {r : Reservation} (hr : r.status ≠ .pending) (acts : List Act) :
    (r.live acts).countP Step.ends = 0 := by
  refine List.countP_eq_zero.2 fun s hs hends => ?_
  rcases (refused_of_ended hr acts s hs).1 with ⟨f, hf⟩
  unfold Step.ends at hends
  split at hends
  · next hanswer =>
    rw [hf] at hanswer
    cases hanswer
  · cases hends

/-- Every act is lawful, and the claim stays the same claim. -/
theorem lawful_live (r : Reservation) (acts : List Act) :
    ∀ s ∈ r.live acts, s.Lawful ∧ r.SameClaim s.after := by
  induction acts generalizing r with
  | nil => exact fun _ h => nomatch h
  | cons a acts ih =>
    intro s hs
    have hlawful := lawful_perform r a
    have hsame : r.SameClaim (r.perform a).after := by
      have hbefore := hlawful.same
      rw [before_perform] at hbefore
      exact hbefore
    rcases List.mem_cons.1 hs with rfl | hlater
    · exact ⟨hlawful, hsame⟩
    · rcases ih _ s hlater with ⟨hs, hlast⟩
      exact ⟨hs, hsame.trans hlast⟩

theorem countP_ends_le_one (r : Reservation) (acts : List Act) :
    (r.live acts).countP Step.ends ≤ 1 := by
  induction acts generalizing r with
  | nil => exact Nat.zero_le 1
  | cons a acts ih =>
    rw [live, List.countP_cons]
    by_cases hends : (r.perform a).ends = true
    · -- After an act that ends the claim there is no other one.
      have hlater := not_ends_of_ended ((lawful_perform r a).ended hends) acts
      refine Nat.le_of_eq ?_
      rw [if_pos hends, hlater]
    · rw [if_neg hends]
      exact ih _

/-- What comes after a step of a life is the life of what the step has left. -/
theorem exists_live_of_append {r : Reservation} {acts : List Act} {before after : List Step}
    {s : Step} (h : r.live acts = before ++ s :: after) :
    ∃ later, after = s.after.live later := by
  induction acts generalizing r before with
  | nil => simp [live] at h
  | cons a acts ih =>
    cases before with
    | nil =>
      rcases List.cons.inj h with ⟨rfl, rfl⟩
      exact ⟨acts, rfl⟩
    | cons x before => exact ih (List.cons.inj h).2

end Reservation

open Reservation in
/--
Whatever is done to a claim, at whatever times: every act is refused for the first check that
fails and else done, and the claim stays the same claim; at most one act ends it, and after that
every act is refused and leaves the claim as it has ended.
-/
theorem claim_ends_once (r : Reservation) (acts : List Act) :
    (∀ s ∈ r.live acts, s.Lawful ∧ r.SameClaim s.after) ∧
    (r.live acts).countP Step.ends ≤ 1 ∧
    ∀ before s after, r.live acts = before ++ s :: after → s.ends = true →
      ∀ t ∈ after, (∃ f, t.answer = some (.error f)) ∧ t.after = s.after := by
  refine ⟨lawful_live r acts, countP_ends_le_one r acts, fun before s after hlive hends => ?_⟩
  have hs : s ∈ r.live acts := hlive ▸ List.mem_append_right _ (List.mem_cons_self ..)
  have hended := (lawful_live r acts s hs).1.ended hends
  rcases exists_live_of_append hlive with ⟨later, rfl⟩
  exact refused_of_ended hended later

end StockLedger
