import Mathlib.Tactic.Common
import StockLedger.Rehearsal.Stage
import StockLedger.Service.Claim

/-!
# Rehearsals without cues

Where no cue waits, every request is carried out and its reply arrives. Then what a program does is
known from what it shows of the stores, the clock and the source of identities, also if the program
breaks off half-way.

* `Tableau`, `Stage.Shows` : what matters of a stage on which no cue waits;
* `Program.Ends`, `Request.Ends` : how far a program comes, and what the stage shows then;
* `Request.Ends.bind`, `Request.Ends.refused`, `Request.Ends.broken` : a request after another;
* `ends_itemOf`, `ends_write`, `ends_reservations` : single requests, without a cache.
-/

namespace StockLedger

/-- What a stage shows, apart from its cache and from what was reported. -/
structure Tableau where
  now : Timestamp
  ids : IdSource
  ledger : MemoryLedger
  reservations : MemoryReservations

namespace Stage

def tableau (s : Stage) : Tableau :=
  { now := s.clock.now, ids := s.ids, ledger := s.ledger, reservations := s.reservations }

/-- No cue waits, and this is what the stage shows. -/
structure Shows (s : Stage) (d : Tableau) : Prop where
  cues : s.cues = []
  tableau : s.tableau = d

variable {α β : Type} {budget : Option Span} {s s' : Stage} {d d' : Tableau}

/-! ## One program after another -/

theorem run_andThen_of_ended {p : Program α} {f : α → Program β} {a : α}
    (h : s.run budget p = (.ended a, s')) : s.run budget (p.andThen f) = s'.run budget (f a) := by
  induction p generalizing s with
  | done b =>
    cases h
    rfl
  | abort => cases h
  | call c next ih =>
    rw [run] at h
    rw [Program.andThen, run]
    generalize s.prepare budget c = prepared at h ⊢
    rcases prepared with ⟨cue, s₁, sound⟩
    dsimp only at h ⊢
    split at h
    · cases h
    · split at h
      · cases h
      · next hsound hhung =>
        rw [if_neg hsound, if_neg hhung]
        exact ih _ h

theorem run_andThen_of_broken {p : Program α} {f : α → Program β}
    (h : s.run budget p = (.broken, s')) : s.run budget (p.andThen f) = (.broken, s') := by
  induction p generalizing s with
  | done b => cases h
  | abort =>
    cases h
    rfl
  | call c next ih =>
    rw [run] at h
    rw [Program.andThen, run]
    generalize s.prepare budget c = prepared at h ⊢
    rcases prepared with ⟨cue, s₁, sound⟩
    dsimp only at h ⊢
    split at h
    · next hsound =>
      cases h
      rw [if_pos hsound]
    · split at h
      · cases h
      · next hsound hhung =>
        rw [if_neg hsound, if_neg hhung]
        exact ih _ h

/-! ## One request -/

theorem Shows.introduce (hs : s.Shows d) (c : Call) : (s.introduce c).Shows d := by
  unfold Stage.introduce
  split
  · split <;> exact ⟨hs.cues, hs.tableau⟩
  · split <;> exact ⟨hs.cues, hs.tableau⟩
  · exact hs

/-- Without a cue nothing happens before the request. -/
theorem Shows.prepare (hs : s.Shows d) (c : Call) :
    ∃ s₁, s.prepare budget c = ({}, s₁, true) ∧ s₁.Shows d := by
  unfold Stage.prepare
  cases c.method? with
  | none => exact ⟨s, rfl, hs⟩
  | some method =>
    have hintroduced := hs.introduce c
    have htake : (s.introduce c).takeCue method = ({}, s.introduce c) := by
      rw [takeCue, hintroduced.cues]
      rfl
    refine ⟨s.introduce c, ?_, hintroduced⟩
    dsimp only
    rw [htake]
    rfl

end Stage

/-! ## How programs end -/

open Stage (Shows)

variable {α β : Type} {d d' d'' : Tableau}

/-- Wherever this is shown, the program comes as far as this, and then that is shown. -/
def Program.Ends (p : Program α) (d : Tableau) (o : Progress α) (d' : Tableau) : Prop :=
  ∀ s : Stage, s.Shows d → ∃ s', s.run none p = (o, s') ∧ s'.Shows d'

namespace Program

theorem Ends.bind {p : Program α} {f : α → Program β} {a : α} {o : Progress β}
    (hp : p.Ends d (.ended a) d') (hf : (f a).Ends d' o d'') : (p >>= f).Ends d o d'' := by
  intro s hs
  rcases hp s hs with ⟨s', hrun, hs'⟩
  rcases hf s' hs' with ⟨s'', hrun', hs''⟩
  exact ⟨s'', (Stage.run_andThen_of_ended hrun).trans hrun', hs''⟩

theorem Ends.broken {p : Program α} {f : α → Program β} (hp : p.Ends d .broken d') :
    (p >>= f).Ends d .broken d' := by
  intro s hs
  rcases hp s hs with ⟨s', hrun, hs'⟩
  exact ⟨s', Stage.run_andThen_of_broken hrun, hs'⟩

theorem ends_pure (a : α) : (pure a : Program α).Ends d (.ended a) d :=
  fun s hs => ⟨s, rfl, hs⟩

theorem ends_abort : (.abort : Program α).Ends d .broken d :=
  fun s hs => ⟨s, rfl, hs⟩

/-- A single request ends with its reply. -/
theorem ends_ask {c : Call} {r : c.Reply}
    (h : ∀ s : Stage, s.Shows d → (s.perform c).1 = r ∧ (s.perform c).2.Shows d') :
    (ask c).Ends d (.ended r) d' := by
  intro s hs
  rcases hs.prepare c with ⟨s₁, hprepare, hs₁⟩
  rcases h s₁ hs₁ with ⟨hreply, hafter⟩
  have hrun : s.run none (ask c) =
      (.ended (s₁.perform c).1, (s₁.complete {} c).2) := by
    rw [ask, Stage.run, hprepare]
    rfl
  rw [hreply] at hrun
  exact ⟨_, hrun, hafter.cues, hafter.tableau⟩

end Program

/-- Wherever this is shown, the request comes as far as this, and then that is shown. -/
abbrev Request.Ends (x : Request α) (d : Tableau) (o : Progress (Answer α)) (d' : Tableau) : Prop :=
  Program.Ends x.run d o d'

namespace Request

variable {x : Request α} {f : α → Request β}

theorem Ends.bind {a : α} {o : Progress (Answer β)} (hx : x.Ends d (.ended (.ok a)) d')
    (hf : (f a).Ends d' o d'') : (x >>= f).Ends d o d'' :=
  Program.Ends.bind (p := x.run) hx hf

/-- After a refusal nothing more is done. -/
theorem Ends.refused {e : Fault} (hx : x.Ends d (.ended (.error e)) d') :
    (x >>= f).Ends d (.ended (.error e)) d' :=
  Program.Ends.bind (p := x.run) hx (Program.ends_pure _)

theorem Ends.broken (hx : x.Ends d .broken d') : (x >>= f).Ends d .broken d' :=
  Program.Ends.broken (p := x.run) hx

theorem ends_pure (a : α) : (pure a : Request α).Ends d (.ended (.ok a)) d :=
  Program.ends_pure _

theorem ends_throw (e : Fault) : (throw e : Request α).Ends d (.ended (.error e)) d :=
  Program.ends_pure _

theorem ends_ofAnswer (a : Answer α) : (Request.ofAnswer a).Ends d (.ended a) d :=
  Program.ends_pure a

theorem ends_lift {p : Program α} {a : α} (hp : p.Ends d (.ended a) d') :
    (Request.lift p).Ends d (.ended (.ok a)) d' :=
  hp.bind (Program.ends_pure _)

end Request

/-! ## Single requests -/

theorem ends_now : Service.now.Ends d (.ended (.ok d.now)) d :=
  Request.ends_lift (Program.ends_ask fun _ hs => ⟨congrArg Tableau.now hs.tableau, hs⟩)

theorem ends_freshUuid :
    Service.freshUuid.Ends d (.ended (.ok d.ids.next.1)) { d with ids := d.ids.next.2 } := by
  refine Request.ends_lift (Program.ends_ask ?_)
  rintro s ⟨hcues, rfl⟩
  exact ⟨rfl, hcues, rfl⟩

theorem ends_log (level : LogLevel) (message : String) :
    (Service.log level message).Ends d (.ended (.ok ())) d :=
  Request.ends_lift (Program.ends_ask fun _ hs => ⟨rfl, hs.cues, hs.tableau⟩)

theorem ends_inRange (a : Answer α) : (Service.inRange (some a)).Ends d (.ended a) d :=
  Program.ends_pure a

theorem ends_outOfRange : (Service.inRange none : Request α).Ends d .broken d :=
  Program.ends_abort

theorem ends_reservations (c : ReservationCall) :
    (Service.reservations c).Ends d (.ended (d.reservations.reply c))
      { d with reservations := d.reservations.apply c } := by
  refine Program.ends_ask ?_
  rintro s ⟨hcues, rfl⟩
  exact ⟨rfl, hcues, rfl⟩

theorem ends_ledger (c : LedgerCall) :
    (LedgerAccess.direct c).Ends d (.ended (d.ledger.reply d.now c))
      { d with ledger := d.ledger.apply d.now c } := by
  refine Program.ends_ask ?_
  rintro s ⟨hcues, rfl⟩
  exact ⟨rfl, hcues, rfl⟩

theorem ends_reporting {message : String} {x : Request α} {a : α}
    (hx : x.Ends d (.ended (.ok a)) d') :
    (Service.reporting message x).Ends d (.ended (.ok a)) d' :=
  Program.Ends.bind (p := x.run) hx (Program.ends_pure _)

section

variable {v : Service} (hv : v.ledger = Stack.plain.ledger)

include hv

theorem ends_itemOf (p : ProductId) :
    (v.itemOf p).Ends d (.ended (d.ledger.findByProduct p)) d := by
  have hfind := ends_ledger (d := d) (.findByProduct p)
  have hdirect : v.ledger (.findByProduct p) = LedgerAccess.direct (.findByProduct p) := by
    rw [hv]
    rfl
  rw [← hdirect] at hfind
  exact hfind

theorem ends_write (u : StockItem) :
    (v.write u).Ends d (.ended (d.ledger.reply d.now (.update u)).answer)
      { d with ledger := d.ledger.apply d.now (.update u) } := by
  have hupdate := ends_ledger (d := d) (.update u)
  have hdirect : v.ledger (.update u) = LedgerAccess.direct (.update u) := by
    rw [hv]
    rfl
  rw [← hdirect] at hupdate
  exact hupdate.bind (Program.ends_pure _)

end

end StockLedger
