import Mathlib.Data.List.Sort
import Mathlib.Tactic.Common
import StockLedger.Database.Ledger
import StockLedger.Database.Server

/-!
# Rows that stand for something

Lemmas about a server whose rows are the images of other things.

* `Database.Comparison.test_eq_uuid`, `test_eq_int8`, `test_le_int8` : comparisons of values;
* `Database.divide_map`, `sortRows_map`, `mapM_map` : the clauses of a statement on such rows;
* `Database.cut_limit`, `execute_of_ok`, `execute_of_error` : limits, and whole statements;
* `Database.Dialogue.Always` : what holds at the end of a dialogue wherever the rows move;
* `Database.Dialogue.Always.of_held`, `Dialogue.exists_held` : it holds at the end of every
  dialogue, and every dialogue comes to an end.
-/

namespace StockLedger
namespace Database

variable {α β : Type} {x : Scope} {f : α → Row} {xs : List α}

/-! ## Conditions -/

theorem Comparison.test_eq_uuid (u v : Uuid) :
    Comparison.eq.test (.uuid u) (.uuid v) = .ok (some (decide (u = v))) := by
  have hvalue : u.value = v.value ↔ u = v := by
    rcases u with ⟨m, _⟩
    rcases v with ⟨n, _⟩
    simp
  have heq : (u.compare v).isEq = decide (u = v) := by
    rw [Bool.eq_iff_iff, Ordering.isEq_iff_eq_eq, decide_eq_true_iff, Uuid.compare,
      compare_eq_iff_eq, hvalue]
  simp [Comparison.test, Value.order?, Comparison.holds, heq]

theorem Comparison.test_eq_int8 (m n : Int) :
    Comparison.eq.test (.int8 m) (.int8 n) = .ok (some (decide (m = n))) := by
  have heq : (compare m n).isEq = decide (m = n) := by
    rw [Bool.eq_iff_iff, Ordering.isEq_iff_eq_eq, compare_eq_iff_eq, decide_eq_true_iff]
  simp [Comparison.test, Value.order?, Comparison.holds, heq]

theorem Comparison.test_le_int8 (m n : Int) :
    Comparison.le.test (.int8 m) (.int8 n) = .ok (some (decide (m ≤ n))) := by
  have hle : (compare m n).isLE = decide (m ≤ n) := by
    rw [Bool.eq_iff_iff, Int.isLE_compare, decide_eq_true_iff]
  simp [Comparison.test, Value.order?, Comparison.holds, hle]

theorem Comparison.test_ge_int8 (m n : Int) :
    Comparison.ge.test (.int8 m) (.int8 n) = .ok (some (decide (n ≤ m))) := by
  have hge : (compare m n).isGE = decide (n ≤ m) := by
    rw [Bool.eq_iff_iff, Int.isGE_compare, decide_eq_true_iff]
  simp [Comparison.test, Value.order?, Comparison.holds, hge]

theorem Condition.value_is {r : Row} {name : String} {place : Nat} {v w : Value}
    (hv : r.column name = .ok v) (hw : x.param place = .ok w) :
    (Condition.is name place).value x r = Comparison.eq.test v w := by
  simp only [Condition.is, Condition.value, Term.value, hv, hw]
  rfl

/-! ## Clauses -/

theorem mapM_of_forall₂ {ε : Type} {as : List α} {bs : List β} {g : α → Except ε β}
    (h : List.Forall₂ (fun a b => g a = .ok b) as bs) : as.mapM g = .ok bs := by
  induction h with
  | nil => rfl
  | cons hab _ ih =>
    rw [List.mapM_cons, hab, ih]
    rfl

theorem forall₂_of_mapM {ε : Type} {as : List α} {bs : List β} {g : α → Except ε β}
    (h : as.mapM g = .ok bs) : List.Forall₂ (fun a b => g a = .ok b) as bs := by
  induction as generalizing bs with
  | nil =>
    cases h
    exact .nil
  | cons a as ih =>
    rw [List.mapM_cons] at h
    cases ha : g a with
    | error e =>
      rw [ha] at h
      cases h
    | ok b =>
      cases has : as.mapM g with
      | error e =>
        rw [ha, has] at h
        cases h
      | ok rest =>
        rw [ha, has] at h
        cases h
        exact .cons ha (ih has)

theorem mapM_map {ε : Type} {g : Row → Except ε β} {e : α → β}
    (h : ∀ a ∈ xs, g (f a) = .ok (e a)) : (xs.map f).mapM g = .ok (xs.map e) := by
  refine mapM_of_forall₂ ?_
  rw [List.forall₂_map_left_iff, List.forall₂_map_right_iff, List.forall₂_same]
  exact h

theorem divide_map {c : Condition} {p : α → Bool}
    (h : ∀ a ∈ xs, c.value x (f a) = .ok (some (p a))) :
    divide x c (xs.map f) = .ok ((xs.filter p).map f, (xs.filter fun a => !p a).map f) := by
  induction xs with
  | nil => rfl
  | cons a xs ih =>
    rw [List.map_cons, divide, h a (List.mem_cons_self ..),
      ih fun b hb => h b (List.mem_cons_of_mem a hb)]
    cases hp : p a with
    | true => simp [hp, bind, Except.bind, pure, Except.pure]
    | false => simp [hp, bind, Except.bind, pure, Except.pure]

theorem sortRows_map {order : List Term} {k : α → List Value}
    (h : ∀ a ∈ xs, order.mapM (Term.value x (f a)) = .ok (k a)) :
    sortRows x order (xs.map f) =
      .ok ((xs.mergeSort fun a b => keysAtMost (k a) (k b)).map f) := by
  have hkeyed : ((xs.map f).mapM fun r => return (← order.mapM (Term.value x r), r)) =
      (.ok (xs.map fun a => (k a, f a)) : Except Trouble (List (List Value × Row))) := by
    refine mapM_map fun a ha => ?_
    rw [h a ha]
    rfl
  have hsorted : (xs.map fun a => (k a, f a)).mergeSort (fun a b => keysAtMost a.1 b.1) =
      (xs.mergeSort fun a b => keysAtMost (k a) (k b)).map fun a => (k a, f a) :=
    (List.map_mergeSort (f := fun a => (k a, f a))
      (s := fun a b => keysAtMost a.1 b.1) fun _ _ _ _ => rfl).symm
  rw [sortRows, hkeyed]
  simp only [bind, Except.bind, pure, Except.pure, hsorted, List.map_map]
  rfl

/-! ## Limits -/

/-- Null is sent where there is no limit, and any other limit below 2^63 is received as it is. -/
theorem cut_limit {place : Nat} {limit : UInt64} (hplace : x.param place = .ok (limitValue limit))
    (h : limit.toNat < signBit) (rows : List Row) :
    cut x rows (some place) = .ok (takeLimit limit rows) := by
  rw [cut, hplace, limitValue, takeLimit]
  split
  · rfl
  · simp only [bind, Except.bind, signed64_of_lt h, Int.toNat_natCast]
    rfl

/-! ## Statements -/

section Statements

variable {S : Server} {now : Timestamp} {params : List Value} {rows after : List Row}
  {q : Statement}

/-- The table is looked at first, then the values sent along. -/
theorem attempt_def : S.attempt now rows ⟨q, params⟩ =
    if q.target?.getD S.table.name ≠ S.table.name then .error (noSuchTable (q.target?.getD ""))
    else if params.any fun v => !S.receives v then .error instantOutOfRange
    else S.carryOut ⟨now, params⟩ rows q := by
  unfold Server.attempt
  split
  · rfl
  · split <;> rfl

theorem attempt_eq (hq : q.target?.getD S.table.name = S.table.name)
    (hparams : (params.any fun v => !S.receives v) = false) :
    S.attempt now rows ⟨q, params⟩ = S.carryOut ⟨now, params⟩ rows q := by
  rw [attempt_def, if_neg (not_not_intro hq), hparams, if_neg Bool.false_ne_true]

theorem execute_of_ok {result : Result} (hq : q.target?.getD S.table.name = S.table.name)
    (hparams : (params.any fun v => !S.receives v) = false)
    (h : S.carryOut ⟨now, params⟩ rows q = .ok (result, after)) :
    S.execute now rows ⟨q, params⟩ = (.ok result, after) := by
  rw [Server.execute, attempt_eq hq hparams, h]

theorem execute_of_error {t : Trouble} (hq : q.target?.getD S.table.name = S.table.name)
    (hparams : (params.any fun v => !S.receives v) = false)
    (h : S.carryOut ⟨now, params⟩ rows q = .error t) :
    S.execute now rows ⟨q, params⟩ = (.error t, rows) := by
  rw [Server.execute, attempt_eq hq hparams, h]

/-- A statement that was answered has been carried out. -/
theorem carryOut_of_execute {result : Result}
    (h : (S.execute now rows ⟨q, params⟩).1 = .ok result) :
    q.target?.getD S.table.name = S.table.name ∧ (params.any fun v => !S.receives v) = false ∧
      ∃ after, S.carryOut ⟨now, params⟩ rows q = .ok (result, after) := by
  rw [Server.execute] at h
  cases hattempt : S.attempt now rows ⟨q, params⟩ with
  | error t =>
    rw [hattempt] at h
    cases h
  | ok outcome =>
    rw [hattempt] at h
    cases h
    rw [attempt_def] at hattempt
    split at hattempt
    · cases hattempt
    · next htable =>
      split at hattempt
      · cases hattempt
      · next hparams =>
        exact ⟨not_not.1 htable, by simpa using hparams, outcome.2, hattempt⟩

end Statements

/-! ## Dialogues -/

/-- What holds at the end of a dialogue wherever the rows move between its statements. -/
def Dialogue.Always (S : Server) (now : Timestamp) :
    Dialogue α → (α → List Row → Prop) → List Row → Prop
  | .done a, Q, rows => Q a rows
  | .send s next, Q, rows => ∀ moved : List Row, moved.Perm rows →
      (next (S.execute now moved s).1).Always S now Q (S.execute now moved s).2

namespace Dialogue

variable {S : Server} {now : Timestamp} {d : Dialogue α} {rows after : List Row} {a : α}

theorem Always.of_held {Q : α → List Row → Prop} (h : d.Always S now Q rows)
    (hheld : d.Held S now rows a after) : Q a after := by
  induction hheld with
  | done => exact h
  | send s next rows moved a after hmoved _ ih => exact ih (h moved hmoved)

/-- A dialogue comes to an end, whatever it is answered. -/
theorem exists_held (S : Server) (now : Timestamp) (d : Dialogue α) (rows : List Row) :
    ∃ a after, d.Held S now rows a after := by
  induction d generalizing rows with
  | done a => exact ⟨a, rows, .done a rows⟩
  | send s next ih =>
    rcases ih (S.execute now rows s).1 (S.execute now rows s).2 with ⟨a, after, hrest⟩
    exact ⟨a, after, .send s next rows rows a after (.refl rows) hrest⟩

theorem Always.bind {d : Dialogue α} {k : α → Dialogue β} {P : α → List Row → Prop}
    {Q : β → List Row → Prop} (h : d.Always S now P rows)
    (hk : ∀ a after, P a after → (k a).Always S now Q after) :
    (d >>= k).Always S now Q rows := by
  induction d generalizing rows with
  | done a => exact hk a rows h
  | send s next ih => exact fun moved hmoved => ih _ (h moved hmoved)

end Dialogue
end Database
end StockLedger
