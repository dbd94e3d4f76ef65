import Mathlib.Data.List.Perm.Basic
import Mathlib.Tactic.Common
import StockLedger.Proofs.Database.Server

/-!
# Dialogues about rows that stand for something

One statement after another over a server whose rows are the images of some things. The rows may be
stored in any order, so a rule asks about the statement for every order of the things.

* `Database.exists_images` : rows in another order are the images of the things in another order;
* `Database.always_execute`, `always_fetchAll`, `always_fetchOptional`, `always_fetchValue` : rows
  and values;
* `Database.always_fetchRead`, `always_fetchRead_refused` : things that are read back from all the
  rows of a statement.
-/

namespace StockLedger
namespace Database

variable {S : Server} {now : Timestamp} {params : List Value} {rows : List Row} {α β : Type}
  {f : β → Row} {vs : List β} {operation : String} {q : Statement}

theorem exists_images (h : rows.Perm (vs.map f)) :
    ∃ xs : List β, xs.Perm vs ∧ rows = xs.map f := by
  have hcomp : Relation.Comp (fun rows xs => rows = xs.map f) List.Perm rows vs := by
    rw [List.eq_map_comp_perm]
    exact h
  rcases hcomp with ⟨xs, hxs, hperm⟩
  exact ⟨xs, hperm, hxs⟩

section Fetch

variable (hrows : rows.Perm (vs.map f))

include hrows

theorem always_send {Q : Reply → List Row → Prop}
    (h : ∀ xs : List β, xs.Perm vs →
      Q (S.execute now (xs.map f) ⟨q, params⟩).1 (S.execute now (xs.map f) ⟨q, params⟩).2) :
    (send q params).Always S now Q rows := by
  intro moved hmoved
  obtain ⟨xs, hxs, rfl⟩ := exists_images (hmoved.trans hrows)
  exact h xs hxs

theorem always_execute {refusal : Trouble → Fault} {Q : Answer Nat → List Row → Prop}
    (h : ∀ xs : List β, xs.Perm vs → ∃ reply after,
      S.execute now (xs.map f) ⟨q, params⟩ = (reply, after) ∧
      Q ((reply.map Result.affected).mapError refusal) after) :
    (execute q params refusal).Always S now Q rows := by
  refine (always_send (Q := fun reply after =>
    Q ((reply.map Result.affected).mapError refusal) after) hrows fun xs hxs => ?_).bind
      fun reply after hq => ?_
  · rcases h xs hxs with ⟨reply, after, he, hq⟩
    rw [he]
    exact hq
  · cases reply <;> exact hq

theorem always_fetchAll {Q : Answer (List Row) → List Row → Prop}
    (h : ∀ xs : List β, xs.Perm vs → ∃ result after,
      S.execute now (xs.map f) ⟨q, params⟩ = (.ok result, after) ∧ Q (.ok result.rows) after) :
    (fetchAll operation q params).Always S now Q rows := by
  refine (always_send (Q := fun r after => ∃ result, r = .ok result ∧ Q (.ok result.rows) after)
    hrows fun xs hxs => ?_).bind fun r after hr => ?_
  · rcases h xs hxs with ⟨result, after, he, hq⟩
    rw [he]
    exact ⟨result, rfl, hq⟩
  · rcases hr with ⟨result, rfl, hq⟩
    exact hq

theorem always_fetchOptional {Q : Answer (Option Row) → List Row → Prop}
    (h : ∀ xs : List β, xs.Perm vs → ∃ result after,
      S.execute now (xs.map f) ⟨q, params⟩ = (.ok result, after) ∧
      Q (.ok result.rows.head?) after) :
    (fetchOptional operation q params).Always S now Q rows :=
  (always_fetchAll (Q := fun r after => Q (r.map List.head?) after) hrows h).bind fun _ _ hr => hr

theorem always_fetchValue {column : Row → Except Trouble α} {Q : Answer α → List Row → Prop}
    (h : ∀ xs : List β, xs.Perm vs → ∃ name v a after,
      S.execute now (xs.map f) ⟨q, params⟩ = (.ok (.single name v), after) ∧
      column [(name, v)] = .ok a ∧ Q (.ok a) after) :
    (fetchValue operation q params column).Always S now Q rows := by
  refine (always_fetchOptional (Q := fun r after => ∃ row a, r = .ok (some row) ∧
    column row = .ok a ∧ Q (.ok a) after) hrows fun xs hxs => ?_).bind fun r after hr => ?_
  · rcases h xs hxs with ⟨name, v, a, after, he, hcolumn, hq⟩
    exact ⟨_, after, he, _, a, rfl, hcolumn, hq⟩
  · rcases hr with ⟨row, a, rfl, hcolumn, hq⟩
    show Q ((column row).mapError (Trouble.fault operation)) after
    rw [hcolumn]
    exact hq

/-! ## Rows that are all read -/

/-- The things that a statement gives are read back from their rows. -/
theorem always_fetchRead {read : Row → Answer β} {Q : Answer (List β) → List Row → Prop}
    (h : ∀ xs : List β, xs.Perm vs → ∃ (ys : List β) (result : Result) (after : List Row),
      S.execute now (xs.map f) ⟨q, params⟩ = (.ok result, after) ∧
      result.rows = ys.map f ∧ (∀ b ∈ ys, read (f b) = .ok b) ∧ Q (.ok ys) after) :
    Dialogue.Always S now (do
      let found ← fetchAll operation q params
      return found.bind fun found => found.mapM read) Q rows := by
  refine (always_fetchAll (Q := fun r after => ∃ ys : List β,
    r = .ok (ys.map f) ∧ (∀ b ∈ ys, read (f b) = .ok b) ∧ Q (.ok ys) after)
    hrows fun xs hxs => ?_).bind fun r after hr => ?_
  · rcases h xs hxs with ⟨ys, result, after, he, hresult, hread, hq⟩
    exact ⟨result, after, he, ys, congrArg Except.ok hresult, hread, hq⟩
  · rcases hr with ⟨ys, rfl, hread, hq⟩
    have hall : (ys.map f).mapM read = .ok (ys.map id) := mapM_map hread
    show Q ((ys.map f).mapM read) after
    rw [hall, List.map_id]
    exact hq

/-- A statement that is refused gives nothing to read. -/
theorem always_fetchRead_refused {read : Row → Answer β} {t : Trouble}
    {Q : Answer (List β) → List Row → Prop}
    (h : ∀ xs : List β, xs.Perm vs → ∃ after,
      S.execute now (xs.map f) ⟨q, params⟩ = (.error t, after) ∧
      Q (.error (t.fault operation)) after) :
    Dialogue.Always S now (do
      let found ← fetchAll operation q params
      return found.bind fun found => found.mapM read) Q rows := by
  have hsend : (send q params).Always S now
      (fun r after => r = .error t ∧ Q (.error (t.fault operation)) after) rows := by
    refine always_send hrows fun xs hxs => ?_
    rcases h xs hxs with ⟨after, he, hq⟩
    rw [he]
    exact ⟨rfl, hq⟩
  have hfetch : (fetchAll operation q params).Always S now
      (fun r after => r = .error (t.fault operation) ∧ Q (.error (t.fault operation)) after)
      rows := by
    refine hsend.bind fun r after hr => ?_
    rcases hr with ⟨rfl, hq⟩
    exact ⟨rfl, hq⟩
  refine hfetch.bind fun r after hr => ?_
  rcases hr with ⟨rfl, hq⟩
  exact hq

end Fetch

end Database
end StockLedger
