import Mathlib.Tactic.Common
import StockLedger.Database.Reservations
import StockLedger.Proofs.Database.Server
import StockLedger.Proofs.Memory.Cuts
import StockLedger.Proofs.Wire.Signed

/-!
# Searches with a limit

* `Database.admissible_limitValue_iff` : a limit is sent as null or as a number that is not negative
  exactly if it is below 2^63;
* `Database.execute_search` : a search without a limit;
* `Database.execute_limited` : a search with such a limit gives the first rows of the search without
  one, and with any other limit it is refused;
* `Database.execute_lowStock_limited`, `execute_expired_limited` : so do the two searches of the
  ledger, whatever the rows are.

A limit of 64 bits is sent as a number with a sign, so the upper half of the limits turns negative.
-/

namespace StockLedger
namespace Database

/-! ## The value that is sent -/

/-- What a database takes as a limit: null, which is no limit, or a number that is not negative. -/
def Value.Admissible (v : Value) : Prop :=
  v = .null ∨ ∃ n : Nat, v = .int8 n

theorem admissible_limitValue_iff {limit : UInt64} :
    (limitValue limit).Admissible ↔ limit.toNat < signBit := by
  constructor
  · rintro (hnull | ⟨n, hn⟩)
    · unfold limitValue at hnull
      split at hnull
      · next hzero =>
        rw [hzero]
        decide
      · cases hnull
    · unfold limitValue at hn
      split at hn
      · cases hn
      · rw [Value.int8.injEq] at hn
        by_contra hlt
        have hneg := (signed64_neg_iff limit).2 hlt
        omega
  · intro h
    unfold limitValue
    split
    · exact .inl rfl
    · exact .inr ⟨limit.toNat, by rw [signed64_of_lt h]⟩

/-! ## Clauses -/

variable {x y : Scope} {rows picked others : List Row}

theorem divide_congr {c : Condition} (h : ∀ r, c.value x r = c.value y r) (rows : List Row) :
    divide x c rows = divide y c rows := by
  induction rows with
  | nil => rfl
  | cons r rows ih => rw [divide, divide, h, ih]

theorem sortRows_congr {order : List Term}
    (h : ∀ r, order.mapM (Term.value x r) = order.mapM (Term.value y r)) (rows : List Row) :
    sortRows x order rows = sortRows y order rows := by
  have heq : (fun r => order.mapM (Term.value x r)) = fun r => order.mapM (Term.value y r) :=
    funext h
  unfold sortRows
  simp only [h]

theorem length_divide {c : Condition} (h : divide x c rows = .ok (picked, others)) :
    picked.length ≤ rows.length := by
  induction rows generalizing picked others with
  | nil =>
    cases h
    exact Nat.le_refl _
  | cons r rows ih =>
    rw [divide] at h
    cases hv : c.value x r with
    | error t =>
      rw [hv] at h
      cases h
    | ok v =>
      cases hrest : divide x c rows with
      | error t =>
        rw [hv, hrest] at h
        cases h
      | ok parts =>
        have hle := ih hrest
        rw [hv, hrest] at h
        simp only [bind, Except.bind, pure, Except.pure, Except.ok.injEq] at h
        split at h
        · cases h
          exact Nat.succ_le_succ hle
        · cases h
          exact Nat.le_succ_of_le hle

theorem length_sortRows {order : List Term} {sorted : List Row}
    (h : sortRows x order rows = .ok sorted) : sorted.length = rows.length := by
  unfold sortRows at h
  cases hkeyed : rows.mapM fun r => return (← order.mapM (Term.value x r), r) with
  | error t =>
    rw [hkeyed] at h
    cases h
  | ok keyed =>
    rw [hkeyed] at h
    cases h
    rw [List.length_map, List.length_mergeSort, (forall₂_of_mapM hkeyed).length_eq]

theorem cut_negative {place : Nat} {limit : UInt64}
    (hplace : x.param place = .ok (limitValue limit)) (h : ¬ limit.toNat < signBit)
    (rows : List Row) :
    cut x rows (some place) = .error negativeLimit := by
  have hzero : limit ≠ 0 := by
    rintro rfl
    exact h (by decide)
  have hneg : signed64 limit < 0 := (signed64_neg_iff limit).2 h
  rw [cut, hplace, limitValue, if_neg hzero]
  simp only [bind, Except.bind, if_pos hneg]
  rfl

theorem mapM_take {α β ε : Type} {g : α → Except ε β} {as : List α} {bs : List β}
    (h : as.mapM g = .ok bs) (n : Nat) : (as.take n).mapM g = .ok (bs.take n) :=
  mapM_of_forall₂ (List.forall₂_take n (forall₂_of_mapM h))

theorem mapM_takeLimit {α β ε : Type} {g : α → Except ε β} {as : List α} {bs : List β}
    (h : as.mapM g = .ok bs) (limit : UInt64) :
    (takeLimit limit as).mapM g = .ok (takeLimit limit bs) := by
  unfold takeLimit
  split
  · exact h
  · exact mapM_take h limit.toNat

/-! ## Searches -/

section Search

variable {S : Server} {now : Timestamp} {columns : List String} {table : String}
  {where_ : Condition} {order : List Term} {place : Nat} {params : List Value} {found : List Row}
  {n : Nat}

/-- A search without a limit has gone through all its clauses. -/
theorem of_execute_select (hplace : (⟨now, params⟩ : Scope).param place = .ok .null)
    (h : (S.execute now rows ⟨.select columns table where_ order (some place), params⟩).1 =
      .ok ⟨found, n⟩) :
    table = S.table.name ∧ (params.any fun v => !S.receives v) = false ∧
    ∃ picked others sorted, divide ⟨now, params⟩ where_ rows = .ok (picked, others) ∧
      sortRows ⟨now, params⟩ order picked = .ok sorted ∧
      sorted.mapM (project columns) = .ok found ∧ n = sorted.length := by
  obtain ⟨htable, hparams, after, hcarry⟩ := carryOut_of_execute h
  refine ⟨htable, hparams, ?_⟩
  -- a clause that fails would make the search fail
  simp only [Server.carryOut, cut, hplace, bind, Except.bind, pure, Except.pure] at hcarry
  cases hdivide : divide ⟨now, params⟩ where_ rows with
  | error t =>
    rw [hdivide] at hcarry
    cases hcarry
  | ok parts =>
    cases hsort : sortRows ⟨now, params⟩ order parts.1 with
    | error t =>
      simp only [hdivide, hsort] at hcarry
      cases hcarry
    | ok sorted =>
      cases hproject : sorted.mapM (project columns) with
      | error t =>
        simp only [hdivide, hsort, hproject] at hcarry
        cases hcarry
      | ok projected =>
        simp only [hdivide, hsort, hproject] at hcarry
        cases hcarry
        exact ⟨parts.1, parts.2, sorted, rfl, hsort, hproject, rfl⟩

theorem receives_limitValue (S : Server) (limit : UInt64) :
    S.receives (limitValue limit) = true := by
  unfold limitValue
  split <;> rfl

/-- A search without a limit over rows that stand for something. -/
theorem execute_search {α : Type} {f : α → Row} {xs : List α} {p : α → Bool} {k : α → List Value}
    (htable : table = S.table.name) (hparams : (params.any fun v => !S.receives v) = false)
    (hplace : (⟨now, params⟩ : Scope).param place = .ok .null)
    (hwhere : ∀ a ∈ xs, where_.value ⟨now, params⟩ (f a) = .ok (some (p a)))
    (horder : ∀ a, order.mapM (Term.value ⟨now, params⟩ (f a)) = .ok (k a))
    (hcolumns : ∀ a, project columns (f a) = .ok (f a)) :
    S.execute now (xs.map f) ⟨.select columns table where_ order (some place), params⟩ =
      (.ok ⟨((xs.filter p).mergeSort fun a b => keysAtMost (k a) (k b)).map f,
          (((xs.filter p).mergeSort fun a b => keysAtMost (k a) (k b)).map f).length⟩,
        xs.map f) := by
  have hproject (ys : List α) : (ys.map f).mapM (project columns) = .ok (ys.map f) :=
    mapM_map fun a _ => hcolumns a
  refine execute_of_ok htable hparams ?_
  simp only [Server.carryOut, divide_map hwhere, sortRows_map fun a _ => horder a, cut, hplace,
    hproject, bind, Except.bind, pure, Except.pure]

variable (pre : List Value) (hplace : ∀ v, (⟨now, pre ++ [v]⟩ : Scope).param place = .ok v)
  (hwhere : ∀ v r, where_.value ⟨now, pre ++ [v]⟩ r = where_.value ⟨now, pre⟩ r)
  (horder : ∀ v r, order.mapM (Term.value ⟨now, pre ++ [v]⟩ r) =
    order.mapM (Term.value ⟨now, pre⟩ r))

include hplace hwhere horder

/-- A search of which only the limit depends on the last value sent along. -/
theorem execute_limited
    (h : (S.execute now rows
      ⟨.select columns table where_ order (some place), pre ++ [.null]⟩).1 = .ok ⟨found, n⟩)
    (limit : UInt64) :
    S.execute now rows
        ⟨.select columns table where_ order (some place), pre ++ [limitValue limit]⟩ =
      (if limit.toNat < signBit then .ok ⟨takeLimit limit found, (takeLimit limit found).length⟩
        else .error negativeLimit, rows) := by
  obtain ⟨htable, hparams, picked, others, sorted, hdivide, hsort, hproject, -⟩ :=
    of_execute_select (hplace .null) h
  have hreceives : ((pre ++ [limitValue limit]).any fun v => !S.receives v) = false := by
    rw [List.any_append, Bool.or_eq_false_iff] at hparams ⊢
    exact ⟨hparams.1, by simp [receives_limitValue]⟩
  -- the rows that are found and their order do not depend on the limit
  rw [divide_congr fun r => (hwhere .null r).trans (hwhere (limitValue limit) r).symm] at hdivide
  rw [sortRows_congr fun r => (horder .null r).trans (horder (limitValue limit) r).symm] at hsort
  split
  · next hlimit =>
    have hcut := cut_limit (hplace (limitValue limit)) hlimit sorted
    have hlength := (forall₂_of_mapM (mapM_takeLimit hproject limit)).length_eq
    refine execute_of_ok htable hreceives ?_
    simp only [Server.carryOut, hdivide, hsort, hcut, mapM_takeLimit hproject limit, hlength, bind,
      Except.bind, pure, Except.pure]
  · next hlimit =>
    have hcut := cut_negative (hplace (limitValue limit)) hlimit sorted
    refine execute_of_error htable hreceives ?_
    simp only [Server.carryOut, hdivide, hsort, hcut, bind, Except.bind]

omit hwhere horder in
/-- A search finds no more rows than there are. -/
theorem length_found
    (h : (S.execute now rows
      ⟨.select columns table where_ order (some place), pre ++ [.null]⟩).1 = .ok ⟨found, n⟩) :
    found.length ≤ rows.length := by
  obtain ⟨-, -, picked, others, sorted, hdivide, hsort, hproject, -⟩ :=
    of_execute_select (hplace .null) h
  rw [← (forall₂_of_mapM hproject).length_eq, length_sortRows hsort]
  exact length_divide hdivide

end Search

/-! ## The searches of the ledger -/

section Ledger

variable {S : Server} {now : Timestamp} {found : List Row} {n : Nat}

theorem execute_lowStock_limited {threshold : Int}
    (h : (S.execute now rows ⟨DatabaseLedger.selectLowStock, [.int8 threshold, .null]⟩).1 =
      .ok ⟨found, n⟩) (limit : UInt64) :
    S.execute now rows ⟨DatabaseLedger.selectLowStock, [.int8 threshold, limitValue limit]⟩ =
      (if limit.toNat < signBit then .ok ⟨takeLimit limit found, (takeLimit limit found).length⟩
        else .error negativeLimit, rows) :=
  execute_limited [.int8 threshold] (fun _ => rfl) (fun _ _ => rfl) (fun _ _ => rfl) h limit

/-- The values that a search for overdue claims sends along. -/
abbrev overdueParams (instant : Timestamp) (limit : Value) : List Value :=
  [.text Reservation.Status.pending.word, .ofInstant instant, limit]

theorem execute_expired_limited {instant : Timestamp}
    (h : (S.execute now rows
      ⟨DatabaseReservations.selectExpired, overdueParams instant .null⟩).1 = .ok ⟨found, n⟩)
    (limit : UInt64) :
    S.execute now rows
        ⟨DatabaseReservations.selectExpired, overdueParams instant (limitValue limit)⟩ =
      (if limit.toNat < signBit then .ok ⟨takeLimit limit found, (takeLimit limit found).length⟩
        else .error negativeLimit, rows) :=
  execute_limited [.text Reservation.Status.pending.word, .ofInstant instant]
    (fun _ => rfl) (fun _ _ => rfl) (fun _ _ => rfl) h limit

end Ledger

end Database
end StockLedger
