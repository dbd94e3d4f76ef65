import Mathlib.Tactic.Common
import StockLedger.Proofs.Concurrent.Conduct
import StockLedger.Proofs.Concurrent.Solo
import StockLedger.Proofs.Memory.Reservations
import StockLedger.Proofs.Sweep.Summary

/-!
# Programs one after another, and what they announce

Nobody else makes requests while a program runs. Each request may fail all the same, before or after
it was carried out, except that the publisher takes every notice.

* `Notice`, `Broadcast` : the stores, and what was announced so far, each notice with the stores as
  they were when it was sent;
* `Broadcast.Answers`, `Program.Performs` : what becomes of one request, and of a whole program;
* `Program.performs_bind`, `Request.succeeds_bind` : one program after another;
* `Program.Within.performs`, `Program.Within.ends` : what all requests of a kind preserve, a program
  of them does, and it does not break off;
* `Conduct.performs` : a program that is safe among others is safe alone, and announces nothing;
* `Broadcast.attend`, `Program.Performs.attended` : one of the ways in which programs are answered.
-/

namespace StockLedger

/-- A notice, and the stores when it was sent. -/
structure Notice where
  world : World
  release : StockRelease

/-- The stores, and all notices that were sent so far. -/
structure Broadcast where
  world : World := {}
  notices : List Notice := []

namespace Broadcast

variable {b b' : Broadcast} {c : Call} {r : c.Reply}

/-- The claims about which notices were sent, in that order. -/
def ids (b : Broadcast) : List ReservationId :=
  b.notices.map fun n => n.release.reservationId

def announce (b : Broadcast) (n : StockRelease) : Broadcast :=
  { b with notices := b.notices ++ [⟨b.world, n⟩] }

/-- What becomes of a request, and what the program is told. -/
inductive Answers (b : Broadcast) : (c : Call) → c.Reply → Broadcast → Prop
  | served {c : Call} {served : Option c.Reply} {r : c.Reply} {w : World}
      (hquiet : c.isNotice = false) (hserves : b.world.Serves c served w)
      (hreports : c.Reports served r) : Answers b c r { b with world := w }
  | published (n : StockRelease) : Answers b (.publish n) (.ok ()) (b.announce n)
  | found (budget : Option Span) (now : Timestamp) (limit : UInt64) :
      Answers b (.findExpiredWithin budget now limit)
        (some (.ok (b.world.reservations.expired now limit))) b
  | refused (budget : Option Span) (now : Timestamp) (limit : UInt64) (f : Fault) :
      Answers b (.findExpiredWithin budget now limit) (some (.error f)) b
  | timedOut (budget : Option Span) (now : Timestamp) (limit : UInt64) :
      Answers b (.findExpiredWithin budget now limit) none b
  | entered (free : Bool) : Answers b .enterSweep free b
  | left : Answers b .leaveSweep () b
  | recorded (tally : SweepTally) : Answers b (.recordSweep tally) () b
  | skipped : Answers b .recordSkip () b

/-! ## What a request leaves as it is -/

/-- A request to the cache touches no store. -/
theorem Answers.ofCache (hc : c.ofCache = true) (h : b.Answers c r b') :
    b'.notices = b.notices ∧ b'.world.ledger = b.world.ledger ∧
      b'.world.reservations = b.world.reservations := by
  cases h with
  | served hquiet hserves =>
    cases hserves with
    | skipped | cache | log => exact ⟨rfl, rfl, rfl⟩
    | ledger | reservations | now | uptime | freshUuid | publish => cases hc
  | published | found | refused | timedOut | entered | left | recorded | skipped => cases hc

/-- A request of a settlement touches no other claim, and is no notice. -/
theorem Answers.settles {x : Reservation} (hc : c.Settles x) (h : b.Answers c r b') :
    b'.notices = b.notices ∧ ∀ id, id ≠ x.id →
      b'.world.reservations.rows.find? id = b.world.reservations.rows.find? id := by
  cases h with
  | served hquiet hserves =>
    cases hserves with
    | reservations c =>
      rcases hc with hstock | ⟨y, hy, hid⟩
      · cases hstock
      · cases hy
        exact ⟨rfl, fun id hne => MemoryReservations.find?_update_of_ne (hid ▸ hne)⟩
    | skipped | ledger | cache | now | uptime | freshUuid | publish | log =>
      exact ⟨rfl, fun _ _ => rfl⟩
  | published | found | refused | timedOut | entered | left | recorded | skipped =>
    rcases hc with hstock | ⟨y, hy, -⟩
    · cases hstock
    · cases hy

end Broadcast

/-- The requests of a sweep that leave the stores alone and announce nothing. -/
def Call.idle : Call → Bool
  | .now | .uptime | .findExpiredWithin _ _ _ | .enterSweep | .leaveSweep | .recordSweep _
  | .recordSkip | .log _ => true
  | .ledger _ | .reservations _ | .cache _ | .publish _ | .freshUuid => false

theorem Broadcast.Answers.idle {b b' : Broadcast} {c : Call} {r : c.Reply} (hc : c.idle = true)
    (h : b.Answers c r b') : b' = b := by
  cases h with
  | served hquiet hserves =>
    cases hserves with
    | skipped | now | uptime | log => rfl
    | ledger | reservations | cache | freshUuid | publish => cases hc
  | published => cases hc
  | found | refused | timedOut | entered | left | recorded | skipped => rfl

/-! ## Whole programs -/

/-- A program is carried out: it ends in this value, or it breaks off. -/
inductive Program.Performs {α : Type} : Program α → Broadcast → Option α → Broadcast → Prop
  | done (a : α) (b : Broadcast) : Performs (.done a) b (some a) b
  | abort (b : Broadcast) : Performs .abort b none b
  | call {c : Call} {next : c.Reply → Program α} {r : c.Reply} {b b₁ b₂ : Broadcast}
      {a? : Option α} (hanswers : b.Answers c r b₁) (hrest : Performs (next r) b₁ a? b₂) :
      Performs (.call c next) b a? b₂

namespace Program

variable {α β : Type} {b b' : Broadcast}

theorem performs_bind {p : Program α} {f : α → Program β} {v? : Option β}
    (h : (p >>= f).Performs b v? b') :
    (∃ a b₁, p.Performs b (some a) b₁ ∧ (f a).Performs b₁ v? b') ∨
      v? = none ∧ p.Performs b none b' := by
  change (p.andThen f).Performs b v? b' at h
  induction p generalizing b with
  | done a => exact .inl ⟨a, b, .done a b, h⟩
  | call c next ih =>
    cases h with
    | call hanswers hrest =>
      rcases ih _ hrest with ⟨a, b₁, hp, hf⟩ | ⟨hnone, hp⟩
      · exact .inl ⟨a, b₁, .call hanswers hp, hf⟩
      · exact .inr ⟨hnone, .call hanswers hp⟩
  | abort =>
    cases h
    exact .inr ⟨rfl, .abort _⟩

/-- A program that has ended has come to the end of its first part. -/
theorem performs_bind_some {p : Program α} {f : α → Program β} {v : β}
    (h : (p >>= f).Performs b (some v) b') :
    ∃ a b₁, p.Performs b (some a) b₁ ∧ (f a).Performs b₁ (some v) b' := by
  rcases performs_bind h with hboth | ⟨hnone, -⟩
  · exact hboth
  · cases hnone

theorem performs_ask {c : Call} {r? : Option c.Reply} (h : (ask c).Performs b r? b') :
    ∃ r, r? = some r ∧ b.Answers c r b' := by
  cases h with
  | call hanswers hrest =>
    cases hrest
    exact ⟨_, rfl, hanswers⟩

theorem performs_pure {a : α} {a? : Option α} (h : (pure a : Program α).Performs b a? b') :
    a? = some a ∧ b' = b := by
  cases h
  exact ⟨rfl, rfl⟩

/-- What each request of a kind preserves, a program of such requests does. -/
theorem Within.performs {S : Call → Prop} {p : Program α} (hp : p.Within S)
    {P : Broadcast → Prop}
    (hstep : ∀ {b c r b'}, S c → Broadcast.Answers b c r b' → P b → P b') {a? : Option α}
    (h : p.Performs b a? b') (hP : P b) : P b' := by
  induction h with
  | done | abort => exact hP
  | call hanswers _ ih => exact ih (hp.head.2 _) (hstep hp.head.1 hanswers hP)

/-- Such a program does not break off. -/
theorem Within.ends {S : Call → Prop} {p : Program α} (hp : p.Within S) {a? : Option α}
    (h : p.Performs b a? b') : ∃ a, a? = some a := by
  induction h with
  | done a b => exact ⟨a, rfl⟩
  | abort => exact hp.elim
  | call _ _ ih => exact ih (hp.head.2 _)

theorem OfCache.performs {p : Program α} (hp : p.OfCache) {a? : Option α}
    (h : p.Performs b a? b') : b'.notices = b.notices ∧ b'.world.ledger = b.world.ledger ∧
      b'.world.reservations = b.world.reservations := by
  refine Within.performs hp (P := fun b' => b'.notices = b.notices ∧
    b'.world.ledger = b.world.ledger ∧ b'.world.reservations = b.world.reservations)
    (fun hc hanswers hb => ?_) h ⟨rfl, rfl, rfl⟩
  rcases hanswers.ofCache hc with ⟨hnotices, hledger, hreservations⟩
  exact ⟨hnotices.trans hb.1, hledger.trans hb.2.1, hreservations.trans hb.2.2⟩

theorem performs_idle {p : Program α} (hp : p.Within fun c => c.idle = true) {a? : Option α}
    (h : p.Performs b a? b') : b' = b :=
  Within.performs hp (P := fun b' => b' = b)
    (fun hc hanswers hb => (hanswers.idle hc).trans hb) h rfl

/-- What comes after an idle program finds everything as it was. -/
theorem performs_bind_idle {p : Program α} {f : α → Program β}
    (hp : p.Within fun c => c.idle = true) {v : β} (h : (p >>= f).Performs b (some v) b') :
    ∃ a, (f a).Performs b (some v) b' := by
  rcases performs_bind_some h with ⟨a, b₁, hfirst, hrest⟩
  cases performs_idle hp hfirst
  exact ⟨a, hrest⟩

end Program

/-- A program that is safe among others is safe when nobody else makes requests. -/
theorem Conduct.performs {J : Job} {C : Conduct J} {t : J.Task} {α : Type} {p : Program α}
    {Q : α → Record × World → Prop} {P : Record → World → Prop}
    (hstep : ∀ {k w c served r w'}, w.Faithful → P k w → C.allows t k w c →
      World.Serves w c served w' → c.Reports served r → P (k.note c r served) w')
    {k : Record} {b b' : Broadcast} {a? : Option α}
    (hsafe : p.Safe (C.setting World.Faithful t) Q (k, b.world)) (hb : b.world.Faithful)
    (hP : P k b.world) (h : p.Performs b a? b') :
    b'.notices = b.notices ∧ b'.world.Faithful ∧
      ∃ k', P k' b'.world ∧ ∀ a, a? = some a → Q a (k', b'.world) := by
  induction h generalizing k with
  | done a b =>
    refine ⟨rfl, hb, k, hP, ?_⟩
    rintro _ ⟨⟩
    exact hsafe
  | abort => exact ⟨rfl, hb, k, hP, fun _ h => nomatch h⟩
  | call hanswers _ ih =>
    rcases hsafe _ (.refl hb) with ⟨hallows, hnext⟩
    cases hanswers with
    | served hquiet hserves hreports =>
      have hfaithful := hb.serves hserves (by rintro c rfl; exact hallows)
      exact ih (hnext _ (_, _) ⟨_, hserves, hreports, rfl, hfaithful⟩) hfaithful
        (hstep hb hP hallows hserves hreports)
    | published | found | refused | timedOut | entered | left | recorded | skipped =>
      exact hallows.elim

/-! ## Programs that may be refused -/

namespace Request

variable {α β : Type} {b b' : Broadcast}

/-- The program ends, and is not refused. -/
abbrev Succeeds (x : Request α) (b : Broadcast) (v : α) (b' : Broadcast) : Prop :=
  Program.Performs x.run b (some (.ok v)) b'

theorem succeeds_bind {x : Request α} {f : α → Request β} {v : β}
    (h : (x >>= f).Succeeds b v b') : ∃ a b₁, x.Succeeds b a b₁ ∧ (f a).Succeeds b₁ v b' := by
  rcases Program.performs_bind_some (p := x.run) h with ⟨a, b₁, hx, hf⟩
  match a with
  | .ok a => exact ⟨a, b₁, hx, hf⟩
  | .error f => cases hf

theorem succeeds_ofAnswer {a : Answer α} {v : α} (h : (ofAnswer a).Succeeds b v b') :
    a = .ok v ∧ b' = b := by
  cases h
  exact ⟨rfl, rfl⟩

theorem succeeds_pure {a v : α} (h : (pure a : Request α).Succeeds b v b') :
    v = a ∧ b' = b := by
  cases h
  exact ⟨rfl, rfl⟩

end Request

/-! ## Programs that are answered -/

/-- Each request is carried out at one instant, except that the cache cannot be reached. -/
def Broadcast.attend (now : Timestamp) (fresh : Uuid) (b : Broadcast) :
    (c : Call) → Option (c.Reply × Broadcast)
  | .publish n => some (.ok (), b.announce n)
  | .leaveSweep | .recordSweep _ => some ((), b)
  | c => (b.world.attend now fresh false c).map fun (_, r, w) => (r, { b with world := w })

theorem Broadcast.attend_answers {now : Timestamp} {fresh : Uuid} {b b' : Broadcast} {c : Call}
    {r : c.Reply} (h : b.attend now fresh c = some (r, b')) : b.Answers c r b' := by
  cases c with
  | publish n =>
    cases h
    exact .published n
  | leaveSweep =>
    cases h
    exact .left
  | recordSweep tally =>
    cases h
    exact .recorded tally
  | _ =>
    have h : (b.world.attend now fresh false _).map (fun a => (a.2.1, { b with world := a.2.2 })) =
        some (r, b') := h
    rcases Option.map_eq_some_iff.1 h with ⟨⟨served, r', w⟩, hattend, heq⟩
    cases heq
    rcases World.attend_serves hattend with ⟨hserves, hreports⟩
    exact .served rfl hserves hreports

theorem Program.Performs.attended (now : Timestamp) (fresh : Uuid) {α : Type} {p : Program α}
    {b b' : Broadcast} {a : α} (h : p.runOn (Broadcast.attend now fresh) b = some (a, b')) :
    p.Performs b (some a) b' := by
  induction p generalizing b with
  | done a =>
    cases h
    exact .done a _
  | call c next ih =>
    rcases Option.bind_eq_some_iff.1 h with ⟨⟨r, b₁⟩, hattend, hrest⟩
    exact .call (Broadcast.attend_answers hattend) (ih r hrest)
  | abort => cases h

end StockLedger
