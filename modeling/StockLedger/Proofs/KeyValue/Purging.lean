import Mathlib.Tactic.Common
import StockLedger.Memory.Cache
import StockLedger.Proofs.KeyValue.Walks
import StockLedger.Proofs.Table.Changes

/-!
# What a walk deletes

* `KeyValue.Keyspace` : the texts that a server keeps;
* `KeyValue.Round` : a command, the reply to it and what was kept before, with `Round.Honest`
  for a reply that tells the truth;
* `KeyValue.Served` : rounds with a server that nobody else writes to, and whose pages miss no key
  that is there all along;
* `Purge.Cleared`, `Purge.cleared_drop` : what is left and what is counted, in one deletion;
* `Purge.Inv`, `Purge.Inv.step`, `Purge.Inv.run` : the same in a walk, reply by reply;
* `RemoteCache.deletePattern_walks` : what is sent, and that a walk that ends deletes the keys of the
  pattern, leaves all others and counts each key once.
-/

namespace StockLedger
namespace KeyValue

/-! ## A server -/

/-- The texts that a server keeps; it counts them in words of 64 bits. -/
structure Keyspace where
  texts : Table String String
  counted : texts.size < 2 ^ 64

namespace Keyspace

/-- How many keys pass a test. -/
def count (s : Keyspace) (p : String → Bool) : Nat :=
  s.texts.keys.countP p

/-- The texts without those under some keys. -/
def drop (s : Keyspace) (keys : List String) : Keyspace where
  texts := s.texts.eraseIf fun key _ => keys.contains key
  counted := Nat.lt_of_le_of_lt (List.length_filter_le ..) s.counted

theorem count_lt (s : Keyspace) (p : String → Bool) : s.count p < 2 ^ 64 := by
  have hsize : s.texts.keys.length = s.texts.size := List.length_map ..
  exact Nat.lt_of_le_of_lt (List.countP_le_length.trans_eq hsize) s.counted

theorem texts_drop (s : Keyspace) (keys : List String) :
    (s.drop keys).texts = s.texts.eraseIf fun key _ => keys.contains key := rfl

theorem find?_drop (s : Keyspace) (keys : List String) (key : String) :
    (s.drop keys).texts.find? key = if key ∈ keys then none else s.texts.find? key := by
  rw [texts_drop, Table.find?_eraseIf]
  by_cases h : key ∈ keys <;> cases s.texts.find? key <;> simp [h]

end Keyspace

/-- A command, the reply to it, and what the server kept before. -/
structure Round where
  before : Keyspace
  command : Command
  reply : Reply

namespace Round

/-- The keys that the reply to a request for a page lists. -/
def listed (e : Round) : List String :=
  match e.command, e.reply.page with
  | .scan _ _, .ok (_, keys) => keys
  | _, _ => []

/-- What the server keeps after a request for a page or a deletion. -/
def after (e : Round) : Keyspace :=
  match e.command with
  | .del keys => e.before.drop keys
  | _ => e.before

/--
A page lists nothing but keys that fit the pattern, whether or not they are kept; it may list none
and may repeat itself. The reply to a deletion says how many of the keys were kept.
-/
inductive Honest (fits : String → String → Bool) : Round → Prop
  | scan {s : Keyspace} {cursor next : UInt64} {pattern : String} {r : Reply} {keys : List String}
      (hpage : r.page = .ok (next, keys)) (hfits : ∀ key ∈ keys, fits pattern key = true) :
      Honest fits ⟨s, .scan cursor pattern, r⟩
  | del {s : Keyspace} {keys : List String} {r : Reply}
      (hcount : r.count = .ok (s.count keys.contains)) : Honest fits ⟨s, .del keys, r⟩

end Round

/-- Each round finds what the one before it has left: nobody else writes. -/
def Chained (start : Keyspace) (log : List Round) (finish : Keyspace) : Prop :=
  match log with
  | [] => start = finish
  | e :: es => e.before = start ∧ Chained e.after es finish

/--
Rounds with a server that nobody else writes to. Its replies are honest, and its pages list each
key that fits the pattern and is kept all along.
-/
structure Served (fits : String → String → Bool) (pattern : String) (start : Keyspace)
    (log : List Round) (finish : Keyspace) : Prop where
  chained : Chained start log finish
  honest : ∀ e ∈ log, e.Honest fits
  covers : ∀ key, fits pattern key = true →
    (∀ e ∈ log, (e.before.texts.find? key).isSome) → ∃ e ∈ log, key ∈ e.listed

/-- Whatever is kept at the end was kept all along. -/
theorem Chained.kept {start finish : Keyspace} {log : List Round}
    (h : Chained start log finish) {key : String} (hkey : (finish.texts.find? key).isSome) :
    (start.texts.find? key).isSome ∧ ∀ e ∈ log, (e.before.texts.find? key).isSome := by
  induction log generalizing start with
  | nil =>
    cases h
    exact ⟨hkey, List.forall_mem_nil _⟩
  | cons e es ih =>
    rcases h with ⟨rfl, hrest⟩
    rcases ih hrest with ⟨hafter, hlater⟩
    have hbefore : (e.before.texts.find? key).isSome := by
      unfold Round.after at hafter
      split at hafter
      · rw [Keyspace.find?_drop] at hafter
        split at hafter
        · cases hafter
        · exact hafter
      · exact hafter
    exact ⟨hbefore, List.forall_mem_cons.2 ⟨hbefore, hlater⟩⟩

namespace Client

variable {α : Type} {k : Client α} {s : k.State} {a : α}

/-- A client that has its outcome without a reply has ended. -/
theorem of_runFrom_nil {sent : List Command} (h : k.runFrom s [] = (some a, sent)) :
    k.turn s = .ended a := by
  cases hturn : k.turn s with
  | ended b =>
    rw [runFrom_ended hturn] at h
    cases h
    rfl
  | send c =>
    rw [runFrom_send_nil hturn] at h
    cases h

/-- A client that has sent something goes on with the reply. -/
theorem of_runFrom_cons {c : Command} {cs : List Command} {r : Reply} {rs : List Reply}
    (h : k.runFrom s (r :: rs) = (some a, c :: cs)) :
    k.turn s = .send c ∧ k.runFrom (k.hear s r) rs = (some a, cs) := by
  cases hturn : k.turn s with
  | ended b =>
    rw [runFrom_ended hturn] at h
    cases h
  | send c' =>
    rw [runFrom_send_cons hturn, Prod.mk.injEq, List.cons.injEq] at h
    rcases h with ⟨houtcome, rfl, hsent⟩
    exact ⟨rfl, Prod.ext houtcome hsent⟩

/-- A client that has not ended has sent more than it was told. -/
theorem length_of_waiting {replies : List Reply} (h : (k.runFrom s replies).1 = none) :
    (k.runFrom s replies).2.length = replies.length + 1 := by
  induction replies generalizing s with
  | nil =>
    cases hturn : k.turn s with
    | ended b =>
      rw [runFrom_ended hturn] at h
      cases h
    | send c =>
      rw [runFrom_send_nil hturn]
      rfl
  | cons r rs ih =>
    cases hturn : k.turn s with
    | ended b =>
      rw [runFrom_ended hturn] at h
      cases h
    | send c =>
      rw [runFrom_send_cons hturn] at h ⊢
      exact congrArg (· + 1) (ih h)

end Client

namespace Purge

variable {fits : String → String → Bool} {pattern : String} {start s finish : Keyspace}
  {seen dropped keys : List String} {removed : UInt64} {q : Purge} {e : Round}
  {log : List Round} {outcome : Except CacheFault Nat}

/-! ## One deletion -/

/-- The keys that have been dropped are gone, nothing else is, and they are counted. -/
structure Cleared (start s : Keyspace) (dropped : List String) (removed : UInt64) : Prop where
  texts : s.texts = start.texts.eraseIf fun key _ => dropped.contains key
  removed : removed = .ofNat (start.count dropped.contains)

/-- What passes one of two tests, counted in two steps. -/
theorem countP_add_filter {α : Type} (p q : α → Bool) (xs : List α) :
    xs.countP p + (xs.filter fun x => !p x).countP q = xs.countP fun x => p x || q x := by
  induction xs with
  | nil => rfl
  | cons x xs ih => cases hp : p x <;> cases hq : q x <;> simp [hp, hq] <;> omega

theorem cleared_start (start : Keyspace) : Cleared start start [] 0 where
  texts := by
    simp [Table.eraseIf]
  removed := by
    have hnone : start.texts.keys.countP ([] : List String).contains = 0 :=
      List.countP_eq_zero.2 fun _ _ => by simp
    rw [Keyspace.count, hnone]
    rfl

/-- Keys that are kept count, and others that are dropped once more do not. -/
theorem cleared_drop (h : Cleared start s dropped removed) (keys : List String) :
    Cleared start (s.drop keys) (dropped ++ keys)
      (removed + .ofNat (s.count keys.contains)) where
  texts := by
    rw [Keyspace.texts_drop, h.texts]
    simp [Table.eraseIf, List.filter_filter, Bool.and_comm]
  removed := by
    have hkeys : s.texts.keys = start.texts.keys.filter fun key => !dropped.contains key := by
      rw [h.texts, Table.keys, Table.keys, List.filter_map]
      rfl
    have hcount : start.count (dropped ++ keys).contains =
        start.count dropped.contains + s.count keys.contains := by
      rw [Keyspace.count, Keyspace.count, Keyspace.count, hkeys, countP_add_filter]
      exact List.countP_congr fun key _ => by simp
    rw [h.removed, hcount, UInt64.ofNat_add]

/-! ## A walk -/

/-- What holds in each state of a walk: `seen` are the keys of all pages so far. -/
def Inv (start : Keyspace) (seen : List String) (q : Purge) (s : Keyspace) : Prop :=
  match q with
  | .scanning _ removed => Cleared start s seen removed
  | .dropping keys _ removed =>
      ∃ dropped, seen = dropped ++ keys ∧ Cleared start s dropped removed
  | .ended outcome => ∃ removed : UInt64, outcome = .ok removed.toNat ∧ Cleared start s seen removed

theorem inv_proceed (h : Cleared start s seen removed) (next : UInt64) :
    Inv start seen (proceed next removed) s := by
  unfold proceed
  split
  · exact ⟨removed, rfl, h⟩
  · exact h

theorem inv_drop (h : Cleared start s seen removed) (keys : List String) (next : UInt64) :
    Inv start (seen ++ keys) (drop keys next removed) s := by
  unfold drop
  split
  · next hkeys =>
    rw [hkeys, List.append_nil]
    exact inv_proceed h next
  · exact ⟨seen, rfl, h⟩

/-- One round of a walk; the keys that it lists fit the pattern. -/
theorem Inv.step (h : Inv start seen q e.before) (hturn : turn pattern q = .send e.command)
    (hhonest : e.Honest fits) :
    Inv start (seen ++ e.listed) (q.hear e.reply) e.after ∧
      ∀ key ∈ e.listed, fits pattern key = true := by
  cases q with
  | scanning cursor removed =>
    cases hhonest with
    | scan hpage hfits =>
      cases hturn
      simp only [Round.listed, Round.after, hear, hpage]
      exact ⟨inv_drop h _ _, hfits⟩
    | del => cases hturn
  | dropping keys next removed =>
    cases hhonest with
    | scan => cases hturn
    | del hcount =>
      cases hturn
      rcases h with ⟨dropped, rfl, hcleared⟩
      simp only [Round.listed, Round.after, hear, hcount, List.append_nil, Int.toNat_natCast]
      exact ⟨inv_proceed (cleared_drop hcleared keys) next, List.forall_mem_nil _⟩
  | ended outcome => cases hturn

/-- All rounds of a walk that ends. -/
theorem Inv.run (h : Inv start seen q s)
    (hrun : runFrom pattern q (log.map Round.reply) =
      (some outcome, log.map Round.command))
    (hchained : Chained s log finish) (hhonest : ∀ e ∈ log, e.Honest fits) :
    Inv start (seen ++ log.flatMap Round.listed) (.ended outcome) finish ∧
      ∀ key ∈ log.flatMap Round.listed, fits pattern key = true := by
  induction log generalizing seen q s with
  | nil =>
    cases hchained
    rw [List.flatMap_nil, List.append_nil]
    refine ⟨?_, List.forall_mem_nil _⟩
    have hturn : turn pattern q = .ended outcome :=
      Client.of_runFrom_nil (k := client pattern) hrun
    cases q with
    | ended => cases hturn; exact h
    | scanning => cases hturn
    | dropping => cases hturn
  | cons e es ih =>
    rcases hchained with ⟨rfl, hrest⟩
    have hsent : turn pattern q = .send e.command ∧
        runFrom pattern (q.hear e.reply) (es.map Round.reply) =
          (some outcome, es.map Round.command) :=
      Client.of_runFrom_cons (k := client pattern) hrun
    rcases List.forall_mem_cons.1 hhonest with ⟨he, hes⟩
    rcases h.step hsent.1 he with ⟨hafter, hlisted⟩
    rcases ih hafter hsent.2 hrest hes with ⟨hend, hlater⟩
    rw [List.flatMap_cons]
    refine ⟨?_, List.forall_mem_append.2 ⟨hlisted, hlater⟩⟩
    rw [← List.append_assoc]
    exact hend

/-- A walk that ends has seen the keys that fit the pattern, and no others. -/
theorem seen_iff (hserved : Served fits pattern start log finish)
    (hcleared : Cleared start finish (log.flatMap Round.listed) removed)
    (hfits : ∀ key ∈ log.flatMap Round.listed, fits pattern key = true) {key : String}
    (hkey : (start.texts.find? key).isSome) :
    key ∈ log.flatMap Round.listed ↔ fits pattern key = true := by
  refine ⟨hfits key, fun hfit => ?_⟩
  by_contra hseen
  -- A key that no page lists is kept all along, so that some page lists it.
  rcases Option.isSome_iff_exists.1 hkey with ⟨v, hv⟩
  have hfinish : (finish.texts.find? key).isSome := by
    rw [hcleared.texts, Table.find?_eraseIf, hv, Option.filter_some_pos]
    · rfl
    · simp [hseen]
  rcases hserved.covers key hfit (hserved.chained.kept hfinish).2 with ⟨e, he, hlisted⟩
  exact hseen (List.mem_flatMap.2 ⟨e, he, hlisted⟩)

end Purge
end KeyValue

open KeyValue

/--
Over any replies, a walk that deletes the keys of a pattern asks for pages from cursor 0 on, each at
the cursor that the last one gave. It deletes the keys of each page that has any, and ends with the
page that leads back to cursor 0 or with the first reply that is not of use. With an honest server
that nobody else writes to, a walk that has nothing more to send has ended well: it leaves no key
that fits the pattern and all others, and its outcome is how many keys fitted.
-/
theorem RemoteCache.deletePattern_walks (pattern : String) :
    (∀ replies, Walks pattern 0 0 replies
      ((RemoteCache.client (.deletePattern pattern)).run replies)) ∧
    ∀ (fits : String → String → Bool) (start finish : Keyspace) (log : List Round),
      Served fits pattern start log finish →
      ((RemoteCache.client (.deletePattern pattern)).run (log.map Round.reply)).2 =
        log.map Round.command →
      ((RemoteCache.client (.deletePattern pattern)).run (log.map Round.reply)).1 =
          some (.ok (start.count (fits pattern))) ∧
        ∀ key, finish.texts.find? key =
          if fits pattern key = true then none else start.texts.find? key := by
  refine ⟨Purge.walks_run pattern, fun fits start finish log hserved hsent => ?_⟩
  have hended : ((RemoteCache.client (.deletePattern pattern)).run (log.map Round.reply)).1 ≠
      none := by
    intro hwaiting
    have hlength := congrArg List.length hsent
    rw [Client.run, Client.length_of_waiting hwaiting, List.length_map, List.length_map] at hlength
    exact Nat.succ_ne_self _ hlength
  rcases Option.ne_none_iff_exists'.1 hended with ⟨outcome, houtcome⟩
  have hrun : (RemoteCache.client (.deletePattern pattern)).run (log.map Round.reply) =
      (some outcome, log.map Round.command) := Prod.ext houtcome hsent
  rw [houtcome]
  have hinv : Purge.Inv start [] (.scanning 0 0) start := Purge.cleared_start start
  rcases hinv.run hrun hserved.chained hserved.honest with ⟨⟨removed, rfl, hcleared⟩, hfits⟩
  rw [List.nil_append] at hcleared
  have hseen {key : String} (hkey : (start.texts.find? key).isSome) :=
    Purge.seen_iff hserved hcleared hfits hkey
  constructor
  · have hcount : start.count (log.flatMap Round.listed).contains =
        start.count (fits pattern) := by
      refine List.countP_congr fun key hkey => ?_
      rcases List.mem_map.1 hkey with ⟨⟨_, v⟩, hpair, rfl⟩
      have hstored : start.texts.find? _ = some v := (Table.find?_eq_some_iff ..).2 hpair
      rw [List.contains_iff_mem]
      exact hseen (Option.isSome_of_eq_some hstored)
    rw [hcleared.removed, hcount, UInt64.toNat_ofNat_of_lt' (start.count_lt _)]
  · intro key
    rw [hcleared.texts, Table.find?_eraseIf]
    cases hkey : start.texts.find? key with
    | none => simp
    | some v =>
      have hiff := hseen (Option.isSome_of_eq_some hkey)
      by_cases hfit : fits pattern key = true <;> simp_all

namespace Cleaning

/-- Two keys of one kind, and one of another. -/
def full : Keyspace where
  texts := ⟨[("low:1", "a"), ("item:1", "b"), ("low:2", "c")], by decide⟩
  counted := by decide

/-- What is left once the first key is gone, and then the other one of its kind. -/
def half : Keyspace :=
  full.drop ["low:1", "low:1"]

def bare : Keyspace :=
  half.drop ["low:2", "low:1"]

/-- A page that repeats a key, an empty page, and a page with a key that is gone. -/
def log : List Round := [
  ⟨full, .scan 0 "low:*", .array [.bulk "5", .array [.bulk "low:1", .bulk "low:1"]]⟩,
  ⟨full, .del ["low:1", "low:1"], .int 1⟩,
  ⟨half, .scan 5 "low:*", .array [.bulk "3", .array []]⟩,
  ⟨half, .scan 3 "low:*", .array [.bulk "0", .array [.bulk "low:2", .bulk "low:1"]]⟩,
  ⟨half, .del ["low:2", "low:1"], .int 1⟩]

theorem served_log : Served MemoryCache.fits "low:*" full log bare where
  chained := ⟨rfl, rfl, rfl, rfl, rfl, rfl⟩
  honest := by
    have hfirst : ∀ key ∈ ["low:1", "low:1"], MemoryCache.fits "low:*" key = true := by decide
    have hlast : ∀ key ∈ ["low:2", "low:1"], MemoryCache.fits "low:*" key = true := by decide
    simp only [log, List.forall_mem_cons]
    exact ⟨.scan rfl hfirst, .del rfl, .scan rfl (List.forall_mem_nil _), .scan rfl hlast, .del rfl,
      List.forall_mem_nil _⟩
  covers := by
    intro key hfits hkept
    rcases Option.isSome_iff_exists.1 (hkept _ List.mem_cons_self) with ⟨v, hv⟩
    have hstored : (key, v) ∈ full.texts.pairs := (Table.find?_eq_some_iff ..).1 hv
    simp only [full, List.mem_cons, Prod.mk.injEq, List.not_mem_nil, or_false] at hstored
    rcases hstored with ⟨rfl, -⟩ | ⟨rfl, -⟩ | ⟨rfl, -⟩
    · exact ⟨_, List.mem_cons_self, List.mem_cons_self⟩
    · exact absurd hfits (by decide)
    · exact ⟨log[3], List.getElem_mem _, List.mem_cons_self⟩

end Cleaning

open Cleaning in
/-- Of three keys two fit; the third one is left. -/
theorem RemoteCache.deletePattern_walks_log :
    Served MemoryCache.fits "low:*" full log bare ∧
      (RemoteCache.client (.deletePattern "low:*")).run (log.map Round.reply) =
        (some (.ok 2), log.map Round.command) ∧
      full.count (MemoryCache.fits "low:*") = 2 ∧ bare.texts.find? "low:1" = none ∧
      bare.texts.find? "low:2" = none ∧ bare.texts.find? "item:1" = some "b" := by
  have hrun : (RemoteCache.client (.deletePattern "low:*")).run (log.map Round.reply) =
      (some (.ok 2), log.map Round.command) := by rfl
  have hcount : full.count (MemoryCache.fits "low:*") = 2 := by decide
  rcases (RemoteCache.deletePattern_walks "low:*").2 _ full bare log served_log
    (congrArg Prod.snd hrun) with ⟨-, hleft⟩
  refine ⟨served_log, hrun, hcount, ?_, ?_, ?_⟩
  · exact (hleft "low:1").trans (if_pos (by decide))
  · exact (hleft "low:2").trans (if_pos (by decide))
  · exact ((hleft "item:1").trans (if_neg (by decide))).trans (by decide)

end StockLedger
