import Mathlib.Tactic.Common
import StockLedger.KeyValue.Cache

/-!
# Walks that delete the keys of a pattern

* `Client.runFrom_ended`, `runFrom_send` : a client over replies, step by step;
* `KeyValue.Page` : a page whose keys are gone, with the commands for it and the replies to them;
* `KeyValue.Linked` : pages that lead from one cursor to another;
* `KeyValue.Ending` : how a walk goes on after pages that lead on;
* `KeyValue.Purge.walks_run` : every walk, over any replies, is pages that lead on and an ending.
-/

namespace StockLedger
namespace KeyValue

/-! ## Clients -/

namespace Client

variable {α : Type} {k : Client α} {s : k.State} {c : Command}

theorem runFrom_ended {a : α} (h : k.turn s = .ended a) (replies : List Reply) :
    k.runFrom s replies = (some a, []) := by
  unfold runFrom
  simp only [h]

theorem runFrom_send_nil (h : k.turn s = .send c) : k.runFrom s [] = (none, [c]) := by
  unfold runFrom
  simp only [h]

theorem runFrom_send_cons (h : k.turn s = .send c) (r : Reply) (rs : List Reply) :
    k.runFrom s (r :: rs) =
      ((k.runFrom (k.hear s r) rs).1, c :: (k.runFrom (k.hear s r) rs).2) := by
  conv_lhs => unfold runFrom
  simp only [h]

end Client

/-! ## Pages -/

/-- The replies that tell of a page where the next one is, its keys and how many were removed. -/
inductive Told : UInt64 → List String → UInt64 → List Reply → Prop
  | empty {r : Reply} {next : UInt64} (hpage : r.page = .ok (next, [])) : Told next [] 0 [r]
  | full {r c : Reply} {next : UInt64} {keys : List String} {n : Int}
      (hpage : r.page = .ok (next, keys)) (hkeys : keys ≠ []) (hcount : c.count = .ok n) :
      Told next keys (.ofNat n.toNat) [r, c]

/-- A page whose keys are gone: where it was asked for, what it holds and the replies about it. -/
structure Page where
  cursor : UInt64
  next : UInt64
  keys : List String
  removed : UInt64
  replies : List Reply
  told : Told next keys removed replies

/-- The commands for a page; its keys are deleted if it has any. -/
def Page.commands (pattern : String) (p : Page) : List Command :=
  .scan p.cursor pattern :: if p.keys = [] then [] else [.del p.keys]

/-- How many keys were removed with some pages, in a word of 64 bits. -/
def removedWith (pages : List Page) : UInt64 :=
  match pages with
  | [] => 0
  | p :: ps => p.removed + removedWith ps

/-- Pages that lead from one cursor to another; none of them is the last one. -/
def Linked (start : UInt64) (pages : List Page) (finish : UInt64) : Prop :=
  match pages with
  | [] => start = finish
  | p :: ps => p.cursor = start ∧ p.next ≠ 0 ∧ Linked p.next ps finish

/--
How a walk goes on from a cursor: the replies that are left to it, the commands that it still sends
and its outcome, if it comes to one. It ends with the page that leads to cursor 0 and with the first
reply that is not of use.
-/
inductive Ending (pattern : String) (cursor removed : UInt64) :
    List Reply → List Command → Option (Except CacheFault Nat) → Prop
  | complete (p : Page) (rest : List Reply) (hcursor : p.cursor = cursor) (hlast : p.next = 0) :
      Ending pattern cursor removed (p.replies ++ rest) (p.commands pattern)
        (some (.ok (removed + p.removed).toNat))
  | noPage {r : Reply} {t : Trouble} (rest : List Reply) (hpage : r.page = .error t) :
      Ending pattern cursor removed (r :: rest) [.scan cursor pattern]
        (some (.error (.unavailable t.text)))
  | noCount {r c : Reply} {next : UInt64} {keys : List String} {t : Trouble} (rest : List Reply)
      (hpage : r.page = .ok (next, keys)) (hkeys : keys ≠ []) (hcount : c.count = .error t) :
      Ending pattern cursor removed (r :: c :: rest) [.scan cursor pattern, .del keys]
        (some (.error (.unavailable t.text)))
  | awaitingPage :
      Ending pattern cursor removed [] [.scan cursor pattern] none
  | awaitingCount {r : Reply} {next : UInt64} {keys : List String}
      (hpage : r.page = .ok (next, keys)) (hkeys : keys ≠ []) :
      Ending pattern cursor removed [r] [.scan cursor pattern, .del keys] none

/-- A run is a walk: pages that lead on, and an ending. -/
def Walks (pattern : String) (cursor removed : UInt64) (replies : List Reply)
    (run : Option (Except CacheFault Nat) × List Command) : Prop :=
  ∃ (pages : List Page) (last : UInt64) (rest : List Reply) (sent : List Command),
    Linked cursor pages last ∧
    replies = pages.flatMap Page.replies ++ rest ∧
    run.2 = pages.flatMap (Page.commands pattern) ++ sent ∧
    Ending pattern last (removed + removedWith pages) rest sent run.1

namespace Purge

variable {pattern : String} {cursor next removed : UInt64} {keys : List String} {r c : Reply}
  {rs : List Reply} {run : Option (Except CacheFault Nat) × List Command}

theorem walks_of_ending {rest : List Reply} {sent : List Command}
    {outcome : Option (Except CacheFault Nat)}
    (h : Ending pattern cursor removed rest sent outcome) :
    Walks pattern cursor removed rest (outcome, sent) := by
  refine ⟨[], cursor, rest, sent, rfl, rfl, rfl, ?_⟩
  rw [removedWith, UInt64.add_zero]
  exact h

/-- A page in front of a walk from where it leads. -/
theorem walks_cons (p : Page) (hnext : p.next ≠ 0)
    (h : Walks pattern p.next (removed + p.removed) rs run) :
    Walks pattern p.cursor removed (p.replies ++ rs) (run.1, p.commands pattern ++ run.2) := by
  rcases h with ⟨pages, last, rest, sent, hlinked, rfl, hsent, hending⟩
  refine ⟨p :: pages, last, rest, sent, ⟨rfl, hnext, hlinked⟩, ?_, ?_, ?_⟩
  · rw [List.flatMap_cons, List.append_assoc]
  · rw [hsent, List.flatMap_cons, List.append_assoc]
  · rw [removedWith, ← UInt64.add_assoc]
    exact hending

/-- A walk from any of its states. -/
def runFrom (pattern : String) (q : Purge) (replies : List Reply) :
    Option (Except CacheFault Nat) × List Command :=
  (client pattern).runFrom q replies

theorem runFrom_ended (outcome : Except CacheFault Nat) :
    runFrom pattern (.ended outcome) rs = (some outcome, []) :=
  Client.runFrom_ended (k := client pattern) rfl rs

theorem runFrom_scanning_nil :
    runFrom pattern (.scanning cursor removed) [] = (none, [.scan cursor pattern]) :=
  Client.runFrom_send_nil (k := client pattern) rfl

theorem runFrom_scanning_cons :
    runFrom pattern (.scanning cursor removed) (r :: rs) =
      ((runFrom pattern (hear (.scanning cursor removed) r) rs).1,
        .scan cursor pattern :: (runFrom pattern (hear (.scanning cursor removed) r) rs).2) :=
  Client.runFrom_send_cons (k := client pattern) rfl r rs

theorem runFrom_dropping_nil :
    runFrom pattern (.dropping keys next removed) [] = (none, [.del keys]) :=
  Client.runFrom_send_nil (k := client pattern) rfl

theorem runFrom_dropping_cons :
    runFrom pattern (.dropping keys next removed) (r :: rs) =
      ((runFrom pattern (hear (.dropping keys next removed) r) rs).1,
        .del keys :: (runFrom pattern (hear (.dropping keys next removed) r) rs).2) :=
  Client.runFrom_send_cons (k := client pattern) rfl r rs

/-- After a page the walk has ended, or it goes on from where the page leads. -/
theorem walks_proceed (p : Page) {removed' : UInt64} (hremoved : removed + p.removed = removed')
    (h : Walks pattern p.next removed' rs (runFrom pattern (.scanning p.next removed') rs)) :
    Walks pattern p.cursor removed (p.replies ++ rs)
      ((runFrom pattern (proceed p.next removed') rs).1,
        p.commands pattern ++ (runFrom pattern (proceed p.next removed') rs).2) := by
  subst hremoved
  by_cases hlast : p.next = 0
  · rw [proceed, if_pos hlast, runFrom_ended, List.append_nil]
    exact walks_of_ending (.complete p rs rfl hlast)
  · rw [proceed, if_neg hlast]
    exact walks_cons p hlast h

/-- Every walk, from any cursor and over any replies. -/
theorem walks_runFrom (pattern : String) (replies : List Reply) (cursor removed : UInt64) :
    Walks pattern cursor removed replies (runFrom pattern (.scanning cursor removed) replies) := by
  -- A page takes one or two replies, so the induction is on their number.
  induction hn : replies.length using Nat.strongRecOn generalizing replies cursor removed with
  | ind n ih =>
    subst hn
    cases replies with
    | nil =>
      rw [runFrom_scanning_nil]
      exact walks_of_ending .awaitingPage
    | cons r rs =>
      rw [runFrom_scanning_cons]
      cases hpage : r.page with
      | error t =>
        simp only [hear, hpage, runFrom_ended]
        exact walks_of_ending (.noPage rs hpage)
      | ok found =>
        rcases found with ⟨next, keys⟩
        simp only [hear, hpage]
        by_cases hkeys : keys = []
        · subst hkeys
          rw [drop, if_pos rfl]
          have hshorter : rs.length < (r :: rs).length := Nat.lt_succ_self _
          exact walks_proceed ⟨cursor, next, [], 0, [r], .empty hpage⟩ (UInt64.add_zero removed)
            (ih rs.length hshorter rs next removed rfl)
        rw [drop, if_neg hkeys]
        cases rs with
        | nil =>
          rw [runFrom_dropping_nil]
          exact walks_of_ending (.awaitingCount hpage hkeys)
        | cons c rs =>
          rw [runFrom_dropping_cons]
          cases hcount : c.count with
          | error t =>
            simp only [hear, hcount, runFrom_ended]
            exact walks_of_ending (.noCount rs hpage hkeys hcount)
          | ok n =>
            simp only [hear, hcount]
            have hshorter : rs.length < (r :: c :: rs).length := by
              rw [List.length_cons, List.length_cons]
              omega
            let p : Page :=
              ⟨cursor, next, keys, .ofNat n.toNat, [r, c], .full hpage hkeys hcount⟩
            have hcommands : p.commands pattern = [.scan cursor pattern, .del keys] := by
              rw [Page.commands, if_neg hkeys]
            have hremoved : removed + p.removed = removed + .ofNat n.toNat := rfl
            have hrest := ih rs.length hshorter rs p.next (removed + .ofNat n.toNat) rfl
            have hwalks := walks_proceed p hremoved hrest
            rw [hcommands] at hwalks
            exact hwalks

theorem walks_run (pattern : String) (replies : List Reply) :
    Walks pattern 0 0 replies ((client pattern).run replies) :=
  walks_runFrom pattern replies 0 0

end Purge
end KeyValue
end StockLedger
