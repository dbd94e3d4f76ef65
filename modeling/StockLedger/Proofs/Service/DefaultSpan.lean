import Mathlib.Tactic.Common
import StockLedger.Proofs.Service.Reserve
import StockLedger.Proofs.Service.Retry
import StockLedger.Proofs.Settings.Spans
import StockLedger.Proofs.Time.Order

/-!
# Claims for as long as the settings say

Settings bound the time for which units are claimed by what a span can count. An instant counts less
far: of the longest times that settings may ask for, the claim has no expiry, and no claim can be
made.

* `Reserving.Unhindered` : a request that nothing but its time can be in the way of;
* `Reserving.outcome_of_unhindered` : what it comes to, for any positive number of whole seconds;
* `reserve_by_settings` : what it comes to if the settings say for how long.
-/

namespace StockLedger
namespace Reserving

open Retrying (service)

/-- Nothing is in the way of a claim, unless it be the time for which it is to be made. -/
structure Unhindered (stack : Stack) (s : Stage) (product : ProductId) (order : OrderId)
    (units : Int) : Prop where
  cues : s.cues = []
  ledger : s.ledger.Indexed
  reservations : s.reservations.Indexed
  /-- The product is looked up in the ledger itself. -/
  uncopied : ∀ lifetimes, stack = .cached lifetimes →
    Lacking (some (CacheKey.product product)) s.cache
  positive : 0 < units
  unclaimed : ¬ Claimed s.reservations order
  stocked : ∃ x, Stocks s.ledger product x ∧ units ≤ x.available
  fresh : s.reservations.rows.find? ⟨s.ids.next.1⟩ = none

/-- What a request comes to whose claim would expire in this second. -/
structure Expiring (d : Tableau) (w : Wish) (second : Int) (out : Progress (Answer Reserved))
    (d' : Tableau) : Prop where
  made : second ≤ Timestamp.lastSecond →
    ∃ a, out = .ended (.ok a) ∧ a.expiresAt.seconds = second ∧ Done d w a d'
  broken : Timestamp.lastSecond < second → out = .broken ∧ SameStores d d'

variable {stack : Stack} {s : Stage} {product : ProductId} {order : OrderId} {units : Int}
  {ttl : Span} {n : Nat}

/-- Only the time can be in the way. -/
theorem Unhindered.eq_outOfRange (h : Unhindered stack s product order units) (hn : 0 < n)
    {o : Obstacle} (ho : o.Met s.tableau ⟨product, order, units, .ofSeconds n⟩) :
    o = .outOfRange := by
  cases o with
  | badUnits => exact absurd h.positive (Int.not_lt.2 ho)
  | claimed => exact absurd ho h.unclaimed
  | unknown =>
    rcases h.stocked with ⟨x, hx, -⟩
    exact absurd ⟨x, hx⟩ ho
  | short =>
    rcases h.stocked with ⟨x, hx, henough⟩
    rcases ho with ⟨y, hy, hshort⟩
    rw [hx.unique h.ledger hy] at henough
    exact absurd hshort (Int.not_lt.2 henough)
  | badSpan =>
    have hpositive : (Span.ofSeconds n).Positive := by
      have hnanos : (Span.ofSeconds n).nanos = n * 1000000000 := rfl
      unfold Span.Positive
      omega
    exact absurd hpositive ho
  | outOfRange => rfl

/-- Without a copy of the item the cache makes no difference. -/
theorem Unhindered.run_eq (h : Unhindered stack s product order units) {span : Option Span}
    {out : Progress (Answer Reserved)} {s' : Stage}
    (hplain : s.run none ((service .plain ttl).reserve product order units span).run = (out, s')) :
    ∃ s'', s.run none ((service stack ttl).reserve product order units span).run = (out, s'') ∧
      s''.tableau = s'.tableau := by
  cases stack with
  | plain => exact ⟨s', hplain, rfl⟩
  | cached lifetimes =>
    -- The stage is its own twin: one rehearsal uses its cache, and the other does not.
    have hst : Twins (Lacking (some (CacheKey.product product))) s s :=
      ⟨h.cues, h.cues, rfl, h.uncopied lifetimes rfl⟩
    have hmirrors : ((service (.cached lifetimes) ttl).reserve product order units span).Mirrors
        (Lacking (some (CacheKey.product product))) Answering
        ((service .plain ttl).reserve product order units span) := Retrying.mirrors_reserve rfl
    rcases hmirrors s s hst with
      ⟨a, s₁, t₁, hcached, hdirect, hst₁⟩ | ⟨s₁, t₁, hcached, hdirect, htableau⟩
    · cases hplain.symm.trans hdirect
      exact ⟨s₁, hcached, hst₁.tableau⟩
    · cases hplain.symm.trans hdirect
      exact ⟨s₁, hcached, htableau⟩

/-- The claim is made if its expiry is in range, and otherwise the program breaks off. -/
theorem expiring_of_answers (h : Unhindered stack s product order units) (hn : 0 < n)
    {out : Progress (Answer Reserved)} {d' : Tableau}
    (hanswers : Answers s.tableau ⟨product, order, units, .ofSeconds n⟩ out d') :
    Expiring s.tableau ⟨product, order, units, .ofSeconds n⟩ (s.clock.now.seconds + n) out d' := by
  have hrange := s.clock.now.add?_seconds hn
  refine ⟨fun hin => ?_, fun hout => ?_⟩
  · rw [if_pos hin] at hrange
    rcases hrange with ⟨b, hb, hsecond⟩
    have hfree (o : Obstacle) : ¬ o.Met s.tableau ⟨product, order, units, .ofSeconds n⟩ := by
      intro ho
      cases h.eq_outOfRange hn ho
      cases hb.symm.trans ho
    rcases hanswers.made.2 hfree with ⟨a, ha⟩
    have hdone := hanswers.done a ha
    cases hb.symm.trans hdone.expiresAt
    exact ⟨a, ha, hsecond, hdone⟩
  · rw [if_neg (Int.not_le.2 hout)] at hrange
    have hmet : Obstacle.outOfRange.Met s.tableau ⟨product, order, units, .ofSeconds n⟩ := hrange
    -- It is looked at last, and nothing that is looked at before it is in the way.
    have hfirst : Obstacle.outOfRange.First s.tableau ⟨product, order, units, .ofSeconds n⟩ := by
      refine ⟨hmet, fun o ho hearlier => ?_⟩
      cases h.eq_outOfRange hn hearlier
      exact absurd ho (by decide)
    have hbroken : out = .broken := (hanswers.stopped .outOfRange).2 hfirst
    refine ⟨hbroken, hanswers.same fun a ha => ?_⟩
    cases hbroken.symm.trans ha

end Reserving

open Reserving in
/--
Units are in stock, their order has no claim yet, and they are asked for without saying for how
long. Accepted settings then say a positive number of whole seconds. The claim is made if it expires
by the last second that there is; else the program breaks off, and both stores stay as they are.
-/
theorem reserve_by_settings {env : Settings.Lookup} {settings : Settings}
    (haccepted : Settings.ofLookup env = .ok settings) {stack : Stack} {s : Stage}
    {product : ProductId} {order : OrderId} {units : Int}
    (h : Unhindered stack s product order units) :
    let v : Service := { ledger := stack.ledger, defaultTtl := settings.reservationTtl }
    ∃ n : Nat, 0 < n ∧ n ≤ Span.maxSeconds ∧ settings.reservationTtl = .ofSeconds n ∧
      ∃ out s', s.run none (v.reserve product order units none).run = (out, s') ∧
        Expiring s.tableau ⟨product, order, units, .ofSeconds n⟩ (s.clock.now.seconds + n) out
          s'.tableau := by
  intro v
  rcases (Settings.timed_ofLookup haccepted).reservationTtl with ⟨n, hpositive, hmost, hspan⟩
  refine ⟨n, hpositive, hmost, hspan, ?_⟩
  have hspan' : (none : Option Span).getD settings.reservationTtl = .ofSeconds n := hspan
  -- Without the cache all that the request comes to is known; then the cache is put in front.
  rcases exists_answers (v := Retrying.service .plain settings.reservationTtl) (d := s.tableau)
    (w := ⟨product, order, units, .ofSeconds n⟩) rfl hspan' h.ledger h.reservations
    h.fresh with ⟨out, d', hends, hanswers⟩
  rcases hends s ⟨h.cues, rfl⟩ with ⟨s', hplain, -, rfl⟩
  rcases h.run_eq hplain with ⟨s'', hrun, htableau⟩
  exact ⟨out, s'', hrun, htableau ▸ expiring_of_answers h hpositive hanswers⟩

namespace Reserving

/-- Claims are to be made for a time that spans can count and instants cannot. -/
def tooLong : Settings.Lookup
  | "RESERVATION_TTL_SECS" => some "8300000000000"
  | _ => none

theorem unhindered_shop : Unhindered .plain shop ⟨.ofNat 1⟩ ⟨.ofNat 3⟩ 4 := by
  rcases Shelving.indexed reaches_created with ⟨hledger, hclaims⟩
  refine ⟨rfl, hledger, hclaims, nofun, by decide, free_shop .claimed, ?_, rfl⟩
  rcases not_not.1 (free_shop .unknown) with ⟨x, hx⟩
  exact ⟨x, hx, Int.not_lt.1 fun hshort => free_shop .short ⟨x, hx, hshort⟩⟩

/-- Four of ten units are asked for at the start of 1970, and the program breaks off. -/
theorem reserve_by_settings_tooLong :
    let settings : Settings := { reservationTtl := .ofSeconds 8300000000000 }
    let v : Service := { ledger := Stack.plain.ledger, defaultTtl := settings.reservationTtl }
    Settings.ofLookup tooLong = .ok settings ∧
      Unhindered .plain shop ⟨.ofNat 1⟩ ⟨.ofNat 3⟩ 4 ∧
      ∃ s', shop.run none (v.reserve ⟨.ofNat 1⟩ ⟨.ofNat 3⟩ 4 none).run = (.broken, s') ∧
        SameStores shop.tableau s'.tableau := by
  intro settings v
  have haccepted : Settings.ofLookup tooLong = .ok settings := by rfl
  rcases reserve_by_settings haccepted unhindered_shop with
    ⟨n, -, -, hspan, out, s', hrun, hexpiring⟩
  have hn : Timestamp.lastSecond < shop.clock.now.seconds + n := by
    have hlast : Timestamp.lastSecond = 8210266876799 := rfl
    have hnow : shop.clock.now.seconds = 0 := rfl
    have hcount : (8300000000000 : Int) * 1000000000 = n * 1000000000 := congrArg Span.nanos hspan
    omega
  rcases hexpiring.broken hn with ⟨rfl, hsame⟩
  exact ⟨haccepted, unhindered_shop, s', hrun, hsame⟩

end Reserving
end StockLedger
