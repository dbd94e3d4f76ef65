import Mathlib
import StockLedger.Proofs.Concurrent.Solo
import StockLedger.Proofs.Memory.Reservations
import StockLedger.Proofs.Service.Workflows

/-!
# Reserved units are accounted for

Any number of workflows run at the same time, their requests may fail, and they may be given up.
The two writes of a workflow are not one, so the reserved units of an item can differ from what its
pending claims say; they differ by what is between these two writes, and by nothing else.

* `World.Orderly` : no version is larger than the number of ledger writes so far;
* `Accounting.rules` : no identity is used again, and who has read a claim is alone in writing it;
* `World.pending`, `Workflow.gap` : the units of pending claims, and those between two writes;
* `Accounting.Books` : the account of every item;
* `Accounting.books_ledger`, `Accounting.books_reservations` : one request;
* `reserved_eq` : any number of steps from empty stores.
-/

namespace StockLedger

open Conduct

/-! ## Versions -/

/-- No version is larger than the number of writes so far, which is small. -/
structure World.Orderly (w : World) : Prop extends World.Sound w where
  counted : ∀ id s, w.ledger.items.find? id = some s → s.version.toNat ≤ w.past.length
  few : w.past.length < 2 ^ 63 - 1

theorem World.orderly_empty : ({} : World).Orderly where
  toSound := World.sound_empty
  counted _ _ h := nomatch h
  few := by decide

theorem MemoryLedger.Outcome.counted {l l' : MemoryLedger} {now : Timestamp} {c : LedgerCall}
    {r : c.Reply} (ho : Outcome l now c r l') (hl : l.Storable) {n : Nat}
    (hcounted : ∀ id s, l.items.find? id = some s → s.version.toNat ≤ n)
    (hsave : ∀ x, c = .save x → x.version = StockItem.firstVersion) :
    ∀ id s, l'.items.find? id = some s → s.version.toNat ≤ n + 1 := by
  intro id s hs
  cases ho.row hs with
  | kept _ hold => exact Nat.le_succ_of_le (hcounted id s hold)
  | saved _ hc =>
    rw [hsave s hc]
    exact Nat.succ_le_succ (Nat.zero_le n)
  | written u stored hold hversion =>
    rw [(hl id stored hold).toNat_advance hversion]
    exact Nat.succ_le_succ (hcounted id stored hold)

theorem World.Orderly.serves {w w' : World} {c : Call} {served : Option c.Reply} (h : w.Orderly)
    (hserves : w.Serves c served w') (hspares : w.Spares c served)
    (hcache : ∀ r, c = .cache r → w.MayCache r)
    (hsave : ∀ x, c = .ledger (.save x) → x.version = StockItem.firstVersion)
    (hfew : w'.past.length < 2 ^ 63 - 1) : w'.Orderly := by
  have hcounted : ∀ id s, w'.ledger.items.find? id = some s → s.version.toNat ≤ w'.past.length := by
    cases hserves with
    | ledger now c =>
      rcases w.afterLedger_cases now c with ⟨hsame, -⟩ | ⟨hnew, -⟩
      · rw [hsame]
        exact h.counted
      · rw [hnew]
        exact (w.ledger.outcome now c).counted h.storable h.counted
          fun x hx => hsave x (hx ▸ rfl)
    | skipped | reservations | cache | now | uptime | freshUuid | publish | log => exact h.counted
  -- Versions that count the writes stay below the sign bit as long as the writes are few.
  refine ⟨h.toSound.serves hserves ⟨hspares, hcache, fun id s hs => ?_⟩, hcounted, hfew⟩
  have hversion := hcounted id s hs
  have hbit : signBit = 2 ^ 63 := rfl
  have hstorable : s.version.toNat < signBit := by omega
  exact hstorable

/-! ## Units -/

/-- The units of an item that a claim keeps reserved. -/
def Reservation.pendingOn (r : Reservation) (i : ItemId) : Int :=
  if r.itemId = i ∧ r.status = .pending then r.quantity else 0

namespace World

variable {w w' : World}

/-- The units of an item that the stored claims keep reserved. -/
def pending (w : World) (i : ItemId) : Int :=
  w.reservations.rows.total fun r => r.pendingOn i

/-- There is or was an item of this identity. -/
def Known (w : World) (i : ItemId) : Prop :=
  ∃ x, w.Held x ∧ x.id = i

theorem Known.mono {i : ItemId} (h : w'.Extends w) (hi : w.Known i) : w'.Known i := by
  rcases hi with ⟨x, hx, hid⟩
  exact ⟨x, hx.mono h, hid⟩

/-- The claim that was read is still stored, unless another one has been written since. -/
def Stores (w : World) (k : Record) : Prop :=
  k.stored = false → ∀ r, k.claim = some r → w.reservations.rows.find? r.id = some r

/-- The stored claims are in order, and claim items that there are or were. -/
structure Claims (w : World) : Prop where
  keyed : w.reservations.Keyed
  known : ∀ id r, w.reservations.rows.find? id = some r → w.Known r.itemId

theorem Claims.pending_eq_zero (h : w.Claims) {i : ItemId} (hi : ¬ w.Known i) :
    w.pending i = 0 := by
  refine List.sum_eq_zero fun n hn => ?_
  rcases List.mem_map.1 hn with ⟨r, hr, rfl⟩
  rcases (Table.mem_values_iff ..).1 hr with ⟨id, hid⟩
  have hne : r.itemId ≠ i := by
    intro he
    exact hi (he ▸ h.known id r hid)
  exact if_neg fun hboth => hne hboth.1

end World

namespace Workflow

/-- Units that are reserved already, for a claim that is not stored yet. -/
def ahead (t : Workflow) (k : Record) (i : ItemId) : Int :=
  if k.Between i then t.claimed else 0

/-- Units that are not reserved any more, for a claim that is still stored as it was. -/
def behind (t : Workflow) (k : Record) (i : ItemId) : Int :=
  if k.Between i then t.settled k else 0

/-- The units between the two writes of a workflow. -/
def gap (t : Workflow) (k : Record) (i : ItemId) : Int :=
  if k.Between i then t.gain k else 0

theorem gap_eq (t : Workflow) (k : Record) (i : ItemId) :
    t.gap k i = t.ahead k i - t.behind k i := by
  unfold gap ahead behind
  split
  · rfl
  · rfl

theorem gap_eq_zero {t : Workflow} {k : Record} {i : ItemId} (h : ¬ k.Between i) :
    t.gap k i = 0 :=
  if_neg h

theorem gain_wrote (t : Workflow) (k : Record) (o : Option ItemId) :
    t.gain { k with wrote := o } = t.gain k := by
  cases t <;> rfl

/-- The write of an item opens the gap. -/
theorem gap_wrote {t : Workflow} {k : Record}
    (h : t.gain k = 0 ∨ k.wrote = none ∧ k.stored = false) (j i : ItemId) :
    t.gap { k with wrote := some j } i = t.gap k i + if i = j then t.gain k else 0 := by
  have hgain := t.gain_wrote k (some j)
  rcases h with hzero | ⟨hwrote, hstored⟩
  · -- A workflow that leaves the reserved units alone has no gap.
    simp only [gap, hgain, hzero, ite_self, Int.add_zero]
  · have hbefore : t.gap k i = 0 := gap_eq_zero (Record.not_between hwrote i)
    have hafter : ({ k with wrote := some j } : Record).Between i ↔ i = j :=
      ⟨fun hbetween => (Option.some.inj hbetween.1).symm, fun he => ⟨he ▸ rfl, hstored⟩⟩
    rw [hbefore, Int.zero_add]
    simp only [gap, hgain, hafter]

theorem gap_stored (t : Workflow) (k : Record) (i : ItemId) :
    t.gap { k with stored := true } i = 0 :=
  gap_eq_zero fun hbetween => nomatch hbetween.2

end Workflow

/-! ## One request -/

namespace Accounting

variable {w w' : World} {t : Workflow} {k : Record} {rest : ItemId → Int}

/-- The account of every stored item, if so many units are between two writes. -/
def Books (w : World) (gaps : ItemId → Int) : Prop :=
  ∀ i s, w.ledger.items.find? i = some s → s.reserved = w.pending i + gaps i

theorem books_new (hclaims : w.Claims) (hwrote : ∀ i, k.wrote = some i → w.Known i)
    (hrest : ∀ i, ¬ w.Known i → rest i = 0) {i : ItemId} (hi : ¬ w.Known i) :
    w.pending i + (rest i + t.gap k i) = 0 := by
  have hgap : t.gap k i = 0 := Workflow.gap_eq_zero fun hbetween => hi (hwrote i hbetween.1)
  calc
    w.pending i + (rest i + t.gap k i)
      = 0 + (0 + 0) := by rw [hclaims.pending_eq_zero hi, hrest i hi, hgap]
    _ = 0 := rfl

theorem not_known_of_spares {x : StockItem} {now : Timestamp}
    (hfind : w.ledger.items.find? x.id = none) (hreply : w.ledger.reply now (.save x) = .ok ())
    (hspares : w.Spares (.ledger (.save x)) (some (w.ledger.reply now (.save x)))) :
    ¬ w.Known x.id := by
  rw [hreply] at hspares
  rintro ⟨y, ⟨l, hl, hy⟩, hid⟩
  rw [hid] at hy
  rcases List.mem_cons.1 hl with rfl | hpast
  · rw [hfind] at hy
    cases hy
  · rw [hspares l hpast] at hy
    cases hy

/-- What a request to the ledger adds to the reserved units is what opens the gap. -/
theorem books_ledger (hw : w.Orderly) (hclaims : w.Claims)
    (hwrote : ∀ i, k.wrote = some i → w.Known i) (hrest : ∀ i, ¬ w.Known i → rest i = 0)
    {now : Timestamp} {c : LedgerCall} {r : c.Reply} (hallows : t.MayAsk k w c)
    (hspares : w.Spares (.ledger c) (some (w.ledger.reply now c)))
    (h : Books w fun i => rest i + t.gap k i) :
    Books (w.afterLedger now c) fun i =>
      rest i + t.gap (k.note (.ledger c) r (some (w.ledger.reply now c))) i := by
  rcases w.afterLedger_cases now c with ⟨hsame, hchanges⟩ | ⟨hnew, -⟩
  · rw [hsame, Record.note_unchanged hchanges]
    exact h
  · have ho := w.ledger.outcome now c
    rw [hnew]
    intro i s hs
    have hpending : World.pending { w with ledger := w.ledger.apply now c, past := w.history } i =
        w.pending i := rfl
    rw [hpending]
    have hs : (w.ledger.apply now c).items.find? i = some s := hs
    generalize hreply : w.ledger.reply now c = reply at ho
    generalize w.ledger.apply now c = after at ho hs
    cases ho with
    | unchanged _ hchanges =>
      rw [← hreply, Record.note_unchanged hchanges]
      exact h i s hs
    | saved x hid =>
      rcases Table.of_find?_insert hs with ⟨rfl, rfl⟩ | ⟨-, hold⟩
      · -- Nobody can have claimed any of it, nor be about to.
        have hunknown := not_known_of_spares hid hreply hspares
        have hzero := books_new (t := t) hclaims hwrote hrest hunknown
        exact hallows.2.1.trans hzero.symm
      · exact h i s hold
    | updated u stored hid hversion =>
      -- What is offered was changed from the stored item, since the versions agree.
      rcases hallows.copy with ⟨x, hheld, hchanged⟩
      have hcopy : stored = x := World.eq_stored hw.toFaithful hw.grows (hchanged.id ▸ hid) hheld
        (hversion.trans hchanged.version)
      have hnote : k.note (.ledger (.update u)) r (some ⟨.ok (), MemoryLedger.advance u now⟩) =
          { k with wrote := some u.id } := rfl
      simp only [hnote, Workflow.gap_wrote hallows.first]
      rcases Table.of_find?_insert hs with ⟨rfl, rfl⟩ | ⟨hi, hold⟩
      · have hbefore : stored.reserved = w.pending u.id + (rest u.id + t.gap k u.id) :=
          h u.id stored hid
        calc
          (MemoryLedger.advance u now).reserved
            = stored.reserved + t.gain k := by
              rw [hcopy]
              exact hchanged.reserved
          _ = w.pending u.id + (rest u.id + (t.gap k u.id + t.gain k)) := by
              rw [hbefore]
              omega
          _ = w.pending u.id +
                (rest u.id + (t.gap k u.id + if u.id = u.id then t.gain k else 0)) := by
              rw [if_pos rfl]
      · rw [if_neg hi, Int.add_zero]
        exact h i s hold
    | deleted j stored =>
      rw [Table.find?_erase] at hs
      split at hs
      · cases hs
      · exact h i s hs
    | bumped j stored hid =>
      rcases Table.of_find?_insert hs with ⟨rfl, rfl⟩ | ⟨-, hold⟩
      · exact h i stored hid
      · exact h i s hold

theorem pendingOn_moved {r r' : Reservation} (h : t.Moves k r r') (i : ItemId) :
    r'.pendingOn i = r.pendingOn i + t.gap k i := by
  have hpending := h.moved.pending
  unfold Reservation.pendingOn
  rw [h.moved.itemId, h.moved.quantity, hpending]
  rcases h.last with ⟨hsame, hgain⟩ | ⟨hended, hbetween, hgain⟩
  · -- The claim stays pending, and its workflow reserves nothing and gives nothing back.
    have hgap : t.gap k i = 0 := by
      unfold Workflow.gap
      rw [hgain, ite_self]
    rw [hsame, hgap, Int.add_zero]
  · -- The claim ends, and its units are between the two writes.
    have hgap : t.gap k i = if r.itemId = i then -r.quantity else 0 := by
      simp only [Workflow.gap, hbetween.iff_eq, hgain]
    rw [hgap, if_neg fun hboth => hended hboth.2]
    by_cases hi : r.itemId = i
    · rw [if_pos ⟨hi, rfl⟩, if_pos hi, Int.add_right_neg]
    · rw [if_neg fun hboth => hi hboth.1, if_neg hi]
      rfl

theorem pendingOn_new {r : Reservation} (hpending : r.status = .pending)
    (hbetween : k.Between r.itemId) (hgain : t.gain k = r.quantity) (i : ItemId) :
    r.pendingOn i = t.gap k i := by
  simp only [Workflow.gap, Reservation.pendingOn, hbetween.iff_eq, hpending, hgain, and_true]

theorem gap_unchanged {c : ReservationCall} {r reply : c.Reply} (hallows : t.MayClaim k c)
    (hchanges : c.changes reply = false) (i : ItemId) :
    t.gap (k.note (.reservations c) r (some reply)) i = t.gap k i := by
  by_cases hload : ∃ id, c = .load id
  · rcases hload with ⟨id, rfl⟩
    match r with
    | .ok x =>
      -- A claim is read before anything is written, so there is no gap yet.
      rw [Workflow.gap_eq_zero (Record.not_between hallows.2 i)]
      exact Workflow.gap_eq_zero (Record.not_between hallows.2 i)
    | .error f => rfl
  · rw [Record.note_unchanged_claims hchanges fun id he => hload ⟨id, he⟩]

/-- What a request to the keeper of reservations adds to the pending claims closes the gap. -/
theorem books_reservations {c : ReservationCall} {r : c.Reply} (hallows : t.MayClaim k c)
    (hread : w.Stores k)
    (h : Books w fun i => rest i + t.gap k i) :
    Books { w with reservations := w.reservations.apply c } fun i =>
      rest i + t.gap (k.note (.reservations c) r (some (w.reservations.reply c))) i := by
  have ho := w.reservations.outcome c
  intro i s hs
  have hbooks : s.reserved = w.pending i + (rest i + t.gap k i) := h i s hs
  have hbefore : w.pending i = w.reservations.rows.total fun x => x.pendingOn i := rfl
  have hafter : World.pending { w with reservations := w.reservations.apply c } i =
      (w.reservations.apply c).rows.total fun x => x.pendingOn i := rfl
  rw [hafter]
  beta_reduce
  generalize w.reservations.reply c = reply at ho ⊢
  generalize w.reservations.apply c = after at ho ⊢
  cases ho with
  | unchanged _ hchanges =>
    rw [gap_unchanged hallows hchanges, ← hbefore]
    exact hbooks
  | saved x hid =>
    rcases hallows with ⟨hpending, hbetween, hgain⟩
    have hnote : k.note (.reservations (.save x)) r (some (.ok ())) = { k with stored := true } :=
      rfl
    have hnew := pendingOn_new hpending hbetween hgain i
    rw [hnote, Workflow.gap_stored, Table.total_insert, hid, Option.map_none, Option.getD_none]
    omega
  | updated x old hid =>
    rcases hallows with ⟨read, hmoves⟩
    -- Nobody else has written the claim, so it is the one that was read.
    have hstored := hread hmoves.first read hmoves.claim
    rw [← hmoves.moved.id, hid] at hstored
    have hold : old = read := Option.some.inj hstored
    have hnote : k.note (.reservations (.update x)) r (some (.ok ())) =
        { k with stored := true } := rfl
    have hmoved := pendingOn_moved hmoves i
    rw [hnote, Workflow.gap_stored, Table.total_insert, hid, hold, Option.map_some,
      Option.getD_some]
    omega

/-- One request of a workflow keeps the account, whatever becomes of it. -/
theorem books_serves {stack : Stack} {ttl : Span} (hw : w.Orderly) (hclaims : w.Claims)
    (hread : w.Stores k)
    (hwrote : ∀ i, k.wrote = some i → w.Known i) (hrest : ∀ i, ¬ w.Known i → rest i = 0)
    {c : Call} {served : Option c.Reply} {r : c.Reply}
    (hallows : (Workflow.conduct stack ttl).allows t k w c) (hserves : w.Serves c served w')
    (hreports : c.Reports served r) (hspares : w.Spares c served)
    (h : Books w fun i => rest i + t.gap k i) :
    Books w' fun i => rest i + t.gap (k.note c r served) i := by
  cases hserves with
  | skipped =>
    rw [Record.note_skipped hreports]
    exact h
  | ledger now c => exact books_ledger hw hclaims hwrote hrest hallows hspares h
  | reservations c => exact books_reservations hallows hread h
  | cache | now | uptime | freshUuid | publish | log => exact h

/-! ## What workflows have read -/

/-- What a workflow has read is still stored until it writes, and what it wrote is known. -/
structure Reads (k : Record) (live : Prop) (w : World) : Prop where
  claim : live → w.Stores k
  wrote : ∀ i, k.wrote = some i → w.Known i

/-- The claim that a request has written over. -/
def overwritten : (c : Call) → Option c.Reply → Option ReservationId
  | .reservations (.update x), some (.ok _) => some x.id
  | _, _ => none

/-- No other workflow that is under way has read the claim that is written over. -/
def Unread {J : Job} (others : List (Run J)) (c : Call) (served : Option c.Reply) : Prop :=
  ∀ id, overwritten c served = some id →
    ∀ run ∈ others, run.Live → ∀ r, run.record.claim = some r → r.id ≠ id

theorem Reads.other {J : Job} {others : List (Run J)} {run : Run J}
    (h : Reads run.record run.Live w) (hrun : run ∈ others) {c : Call} {served : Option c.Reply}
    (hserves : w.Serves c served w') (hunread : Unread others c served) :
    Reads run.record run.Live w' where
  claim hlive hstored r hr := by
    have hbefore := h.claim hlive hstored r hr
    cases hserves with
    | reservations c =>
      have ho := w.reservations.outcome c
      have hafter : (w.reservations.apply c).rows.find? r.id = some r := by
        generalize w.reservations.reply c = reply at ho hunread
        generalize w.reservations.apply c = after at ho ⊢
        cases ho with
        | unchanged => exact hbefore
        | saved x hid =>
          have hne : r.id ≠ x.id := by
            intro he
            rw [he, hid] at hbefore
            cases hbefore
          rw [Table.find?_insert, if_neg hne]
          exact hbefore
        | updated x old hid =>
          -- It is another claim that is written over.
          rw [Table.find?_insert, if_neg (hunread x.id rfl run hrun hlive r hr)]
          exact hbefore
      exact hafter
    | skipped | ledger | cache | now | uptime | freshUuid | publish | log => exact hbefore
  wrote i hi := (h.wrote i hi).mono hserves.extends

theorem stored_after_own {c : ReservationCall} {r : c.Reply} (hkeyed : w.reservations.Keyed)
    (hread : w.Stores k)
    (hreports : Call.Reports (.reservations c) (some (w.reservations.reply c)) r) {x : Reservation}
    (hstored : (k.note (.reservations c) r (some (w.reservations.reply c))).stored = false)
    (hclaim : (k.note (.reservations c) r (some (w.reservations.reply c))).claim = some x) :
    (w.reservations.apply c).rows.find? x.id = some x := by
  have ho := w.reservations.outcome c
  generalize w.reservations.reply c = reply at ho hreports hstored hclaim
  generalize w.reservations.apply c = after at ho ⊢
  cases ho with
  -- Once it has written a claim, a workflow need not know what is stored.
  | saved y | updated y => cases hstored
  | unchanged _ hchanges =>
    by_cases hload : ∃ id, c = .load id
    · rcases hload with ⟨id, rfl⟩
      match r with
      | .ok y =>
        cases hclaim
        rcases hreports with hserved | ⟨f, hf⟩
        · exact hkeyed.find?_of_load (Option.some.inj hserved)
        · cases hf
      | .error f => exact hread hstored x hclaim
    · rw [Record.note_unchanged_claims hchanges fun id he => hload ⟨id, he⟩] at hstored hclaim
      exact hread hstored x hclaim

theorem Reads.own {stack : Stack} {ttl : Span} {live live' : Prop} (hlive : live)
    (hclaims : w.Claims) (h : Reads k live w) {c : Call} {served : Option c.Reply} {r : c.Reply}
    (hallows : (Workflow.conduct stack ttl).allows t k w c) (hserves : w.Serves c served w')
    (hreports : c.Reports served r) : Reads (k.note c r served) live' w' := by
  have hextends := hserves.extends
  have hread := h.claim hlive
  have hknown (i : ItemId) (hi : k.wrote = some i) : w'.Known i := (h.wrote i hi).mono hextends
  cases hserves with
  | skipped =>
    rw [Record.note_skipped hreports]
    exact ⟨fun _ => hread, hknown⟩
  | ledger now c =>
    rcases Record.note_ledger k c r (some (w.ledger.reply now c)) with hnote | ⟨u, rfl, hnote⟩
    · rw [hnote]
      exact ⟨fun _ => hread, hknown⟩
    · rw [hnote]
      refine ⟨fun _ => hread, fun i hi => ?_⟩
      rcases hallows.copy with ⟨x, hheld, hchanged⟩
      cases hi
      exact World.Known.mono hextends ⟨x, hheld, hchanged.id.symm⟩
  | reservations c =>
    refine ⟨fun _ hstored x hx => ?_, fun i hi => hknown i ?_⟩
    · exact stored_after_own hclaims.keyed hread hreports hstored hx
    · rw [← hi, Record.wrote_note_reservations]
  | cache | now | uptime | freshUuid | publish | log => exact ⟨fun _ => hread, hknown⟩

theorem claims_serves {stack : Stack} {ttl : Span} (hclaims : w.Claims)
    (hread : w.Stores k)
    (hwrote : ∀ i, k.wrote = some i → w.Known i) {c : Call} {served : Option c.Reply}
    (hallows : (Workflow.conduct stack ttl).allows t k w c) (hserves : w.Serves c served w') :
    w'.Claims := by
  have hextends := hserves.extends
  cases hserves with
  | reservations c =>
    have ho := w.reservations.outcome c
    refine ⟨hclaims.keyed.outcome ho, fun id r hr => ?_⟩
    have hr : (w.reservations.apply c).rows.find? id = some r := hr
    refine World.Known.mono hextends ?_
    generalize w.reservations.reply c = reply at ho
    generalize w.reservations.apply c = after at ho hr
    cases ho with
    | unchanged => exact hclaims.known id r hr
    | saved x =>
      rcases Table.of_find?_insert hr with ⟨-, rfl⟩ | ⟨-, hold⟩
      · exact hwrote _ hallows.2.1.1
      · exact hclaims.known id r hold
    | updated x =>
      rcases Table.of_find?_insert hr with ⟨-, rfl⟩ | ⟨-, hold⟩
      · rcases hallows with ⟨read, hmoves⟩
        rw [hmoves.moved.itemId]
        exact hclaims.known read.id read (hread hmoves.first read hmoves.claim)
      · exact hclaims.known id r hold
  | skipped | ledger | cache | now | uptime | freshUuid | publish | log =>
    exact ⟨hclaims.keyed, fun id r hr => (hclaims.known id r hr).mono hextends⟩

/-! ## Any number of steps -/

section

variable {stack : Stack} {ttl : Span}

/--
A claim that is to expire is read when its workflow starts. No identity is used again, there are
fewer than `2 ^ 63 - 1` ledger writes, and nobody writes a claim that another one has read and is
still working on.
-/
def rules (stack : Stack) (ttl : Span) : Rules (Working stack ttl) where
  starts σ t := ∀ r, t = .expire r → σ.world.reservations.rows.find? r.id = some r
  serves w others c served _ w' :=
    w.Spares c served ∧ w'.past.length < 2 ^ 63 - 1 ∧ Unread others c served

theorem upheld : (Workflow.conduct stack ttl).Upheld World.Orderly (rules stack ttl) := by
  refine Workflow.upheld (fun _ h => h.toFaithful) ?_
  intro w w' others t k c served r hw hallows hserves _ hrules
  refine hw.serves hserves hrules.1 ?_ ?_ hrules.2.1
  · rintro r rfl
    exact hallows
  · rintro x rfl
    exact hallows.2.2

/-- The units between two writes, over all workflows. -/
def gaps (runs : List (Run (Working stack ttl))) (i : ItemId) : Int :=
  (runs.map fun run => run.task.gap run.record i).sum

theorem gaps_middle (before after : List (Run (Working stack ttl))) (run : Run (Working stack ttl))
    (i : ItemId) :
    gaps (before ++ run :: after) i = gaps (before ++ after) i + run.task.gap run.record i := by
  simp only [gaps, List.map_append, List.map_cons, List.sum_append, List.sum_cons]
  omega

theorem gaps_eq_zero {runs : List (Run (Working stack ttl))} {i : ItemId}
    (hwrote : ∀ run ∈ runs, ∀ j, run.record.wrote = some j → w.Known j) (hi : ¬ w.Known i) :
    gaps runs i = 0 := by
  refine List.sum_eq_zero fun n hn => ?_
  rcases List.mem_map.1 hn with ⟨run, hrun, rfl⟩
  exact Workflow.gap_eq_zero fun hbetween => hi (hwrote run hrun i hbetween.1)

theorem wrote_opening (t : Workflow) : t.opening.wrote = none := by
  cases t <;> rfl

/-- The stores, what the workflows have read of them, and the account of every item. -/
structure Balanced (σ : System (Working stack ttl)) : Prop where
  claims : σ.world.Claims
  reads : ∀ run ∈ σ.runs, Reads run.record run.Live σ.world
  books : Books σ.world (gaps σ.runs)

theorem balanced_empty : Balanced ({} : System (Working stack ttl)) where
  claims := ⟨MemoryReservations.keyed_empty, fun _ _ h => nomatch h⟩
  reads _ h := nomatch h
  books _ _ h := nomatch h

theorem Balanced.start {σ : System (Working stack ttl)} (h : Balanced σ) {t : Workflow}
    (hstart : (rules stack ttl).starts σ t) :
    Balanced { σ with runs := σ.runs ++ [Run.start (Working stack ttl) t] } where
  claims := h.claims
  reads run hrun := by
    rcases List.mem_append.1 hrun with hold | hnew
    · exact h.reads run hold
    · rcases List.mem_singleton.1 hnew with rfl
      refine ⟨fun _ _ r hr => ?_, fun i hi => ?_⟩
      · -- Of a new workflow only one that expires a claim has read any.
        cases t with
        | expire x =>
          cases hr
          exact hstart _ rfl
        | _ => cases hr
      · have hwrote : t.opening.wrote = some i := hi
        rw [wrote_opening] at hwrote
        cases hwrote
  books i s hs := by
    have hgap : t.gap t.opening i = 0 :=
      Workflow.gap_eq_zero (Record.not_between (wrote_opening t) i)
    have hsame : gaps (σ.runs ++ [Run.start (Working stack ttl) t]) i = gaps σ.runs i :=
      calc
        gaps (σ.runs ++ [Run.start (Working stack ttl) t]) i
          = gaps (σ.runs ++ []) i + t.gap t.opening i := gaps_middle ..
        _ = gaps σ.runs i := by rw [List.append_nil, hgap, Int.add_zero]
    rw [hsame]
    exact h.books i s hs

theorem Balanced.step {σ σ' : System (Working stack ttl)}
    (hkept : (Workflow.conduct stack ttl).Kept World.Orderly σ)
    (hstep : System.Step (rules stack ttl) σ σ') (h : Balanced σ) : Balanced σ' := by
  cases hstep with
  | start _ t hstart => exact h.start hstart
  | abandon w before after run =>
    refine ⟨h.claims, fun other hother => ?_, fun i s hs => ?_⟩
    · rcases Run.eq_or_mem_others hother with rfl | hothers
      · -- Who has been given up holds on to no claim.
        refine ⟨fun hlive => ?_, (h.reads run (Run.mem_self ..)).wrote⟩
        rcases hlive with ⟨c, next, hrest⟩
        cases hrest
      · exact h.reads other (Run.mem_of_others run hothers)
    · have hbooks := h.books i s hs
      rw [gaps_middle] at hbooks ⊢
      exact hbooks
  | answer w w' before after run c next served r hrest hserves hreports hrules =>
    have hmem : run ∈ before ++ run :: after := Run.mem_self ..
    have hlive : run.Live := ⟨c, next, hrest⟩
    have hallows := hkept.allows hmem hrest
    have hreads := h.reads run hmem
    have hread := hreads.claim hlive
    have hothers (other : Run (Working stack ttl)) (hother : other ∈ before ++ after) :=
      h.reads other (Run.mem_of_others run hother)
    refine ⟨claims_serves h.claims hread hreads.wrote hallows hserves, fun other hother => ?_, ?_⟩
    · -- Its own request and those of others are two matters for what a workflow has read.
      rcases Run.eq_or_mem_others hother with rfl | hin
      · exact hreads.own hlive h.claims hallows hserves hreports
      · exact (hothers other hin).other hin hserves hrules.2.2
    · have hbooks : Books w fun i => gaps (before ++ after) i + run.task.gap run.record i := by
        intro i s hs
        have hrow := h.books i s hs
        rw [gaps_middle] at hrow
        exact hrow
      have hrest (i : ItemId) (hi : ¬ w.Known i) : gaps (before ++ after) i = 0 :=
        gaps_eq_zero (fun other hother => (hothers other hother).wrote) hi
      have hafter := books_serves hkept.world h.claims hread hreads.wrote hrest hallows hserves
        hreports hrules.1 hbooks
      intro i s hs
      rw [gaps_middle]
      exact hafter i s hs

end

end Accounting

open Accounting in
/--
However the requests of the workflows are interleaved, whichever of them fail and whoever is given
up: what is reserved of an item is what its pending claims say, with the units of those who have
reserved them and not stored their claim, and without the units of those who have given them back
or taken them out and not stored that.
-/
theorem reserved_eq (stack : Stack) (ttl : Span) {σ : System (Working stack ttl)}
    (hreaches : System.Reaches (rules stack ttl) {} σ) {i : ItemId} {s : StockItem}
    (hs : σ.world.ledger.items.find? i = some s) :
    s.reserved = σ.world.pending i +
      (σ.runs.map fun run => run.task.ahead run.record i).sum -
      (σ.runs.map fun run => run.task.behind run.record i).sum := by
  have hempty : (Workflow.conduct stack ttl).Kept World.Orderly {} :=
    ⟨World.orderly_empty, fun _ h => nomatch h⟩
  have hbalanced : Balanced σ := hempty.invariant upheld hreaches balanced_empty
    fun hkept hstep h => h.step hkept hstep
  -- What is between two writes is ahead of a claim or behind one.
  have hsplit (runs : List (Run (Working stack ttl))) :
      gaps runs i = (runs.map fun run => run.task.ahead run.record i).sum -
        (runs.map fun run => run.task.behind run.record i).sum := by
    induction runs with
    | nil => rfl
    | cons run runs ih =>
      have hgap := Workflow.gap_eq run.task run.record i
      simp only [gaps, List.map_cons, List.sum_cons] at ih ⊢
      omega
  have hbooks := hbalanced.books i s hs
  rw [hsplit] at hbooks
  omega

namespace Accounting

/-- Writes over claims are not let through. -/
def rulesTest (stack : Stack) (ttl : Span) : (rules stack ttl).Test where
  permits _ w _ c served w' :=
    match overwritten c served with
    | none => decide (w.Spares c served ∧ w'.past.length < 2 ^ 63 - 1)
    | some _ => false
  sound _ h := by
    split at h
    · next hnone =>
      rcases of_decide_eq_true h with ⟨hspares, hfew⟩
      refine ⟨hspares, hfew, fun id hid => ?_⟩
      rw [hnone] at hid
      cases hid
    · cases h

/-- An item is created, two orders ask for units of it, and the claim of the first is released. -/
def tasks : List Workflow :=
  [.createItem ⟨.ofNat 1⟩ 10, .reserve ⟨.ofNat 1⟩ ⟨.ofNat 3⟩ 4 none,
    .reserve ⟨.ofNat 1⟩ ⟨.ofNat 4⟩ 3 none, .release (Reservation.four 1).id]

/-- The first order has made its claim, and the other two are between their two writes. -/
def order : List Nat :=
  -- The release reads the item only after the second order has written it; so neither is refused.
  [0, 0, 0, 0, 1, 1, 1, 1, 1, 1, 1, 2, 2, 2, 2, 3, 3, 2, 3, 3]

/-- The workflows when they have taken these turns. -/
def halfway : System (Working .plain Reservation.defaultTtl) :=
  (System.turns (rulesTest .plain Reservation.defaultTtl) .epoch
    ⟨{}, tasks.map (Run.start _)⟩ (order.map (·, true))).getD {}

theorem reaches_halfway : System.Reaches (rules .plain Reservation.defaultTtl) {} halfway := by
  have hstarts : System.Reaches (rules .plain Reservation.defaultTtl) {}
      ⟨{}, tasks.map (Run.start _)⟩ := by
    refine System.Reaches.starts (R := rules .plain Reservation.defaultTtl) {} tasks ?_
    rintro t ht σ r rfl
    simp [tasks] at ht
  refine hstarts.trans (System.Reaches.turns (rulesTest _ _) .epoch (order.map (·, true)) ?_)
  cbv

/--
Four units are claimed. Three more are reserved and not claimed yet; and the four have been given
back, and their claim is still stored as it was.
-/
theorem reserved_eq_halfway :
    System.Reaches (rules .plain Reservation.defaultTtl) {} halfway ∧
      (∃ s, halfway.world.ledger.items.find? (StockItem.ten 1).id = some s ∧ s.reserved = 3 ∧
        s.reserved = halfway.world.pending (StockItem.ten 1).id +
          (halfway.runs.map fun run => run.task.ahead run.record (StockItem.ten 1).id).sum -
          (halfway.runs.map fun run => run.task.behind run.record (StockItem.ten 1).id).sum) ∧
      halfway.world.pending (StockItem.ten 1).id = 4 ∧
      (halfway.runs.map fun run => run.task.ahead run.record (StockItem.ten 1).id) = [0, 0, 3, 0] ∧
      (halfway.runs.map fun run => run.task.behind run.record (StockItem.ten 1).id) =
        [0, 0, 0, 4] := by
  have hrow : (halfway.world.ledger.items.find? (StockItem.ten 1).id).map (·.reserved) =
      some 3 := by cbv
  rcases Option.map_eq_some_iff.1 hrow with ⟨s, hs, hreserved⟩
  exact ⟨reaches_halfway, ⟨s, hs, hreserved, reserved_eq _ _ reaches_halfway hs⟩, by cbv, by cbv,
    by cbv⟩

end Accounting
end StockLedger
