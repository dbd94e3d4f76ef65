/-!
# Tables

A table holds one value for each of finitely many keys, in no order that anyone may rely on.

* `Table` : key-value pairs without a repeated key;
* `Table.find?`, `insert`, `erase`, `eraseIf` : look-up and changes;
* `Table.values` : what is stored.

Main statements: `find?_insert` and `find?_erase` say what each change does to every look-up, and
`find?_eq_some_iff` ties look-up to the pairs.
-/

namespace StockLedger

/-- Key-value pairs in which no key is repeated. -/
structure Table (κ ν : Type) where
  pairs : List (κ × ν)
  nodup : (pairs.map Prod.fst).Nodup

namespace Table

variable {κ ν : Type}

/-- The table that holds nothing. -/
def empty : Table κ ν :=
  ⟨[], .nil⟩

instance : EmptyCollection (Table κ ν) := ⟨empty⟩

/-- What is stored. -/
def values (t : Table κ ν) : List ν :=
  t.pairs.map Prod.snd

def keys (t : Table κ ν) : List κ :=
  t.pairs.map Prod.fst

def size (t : Table κ ν) : Nat :=
  t.pairs.length

/-- Removes the pairs that a test picks out. -/
def eraseIf (t : Table κ ν) (p : κ → ν → Bool) : Table κ ν :=
  ⟨t.pairs.filter fun (k, v) => !p k v,
    t.nodup.sublist ((List.filter_sublist ..).map _)⟩

variable [DecidableEq κ]

/-- The value under a key. -/
def find? (t : Table κ ν) (k : κ) : Option ν :=
  (t.pairs.find? fun (k', _) => k' = k).map Prod.snd

def contains (t : Table κ ν) (k : κ) : Bool :=
  (t.find? k).isSome

/-- Removes a key and its value. -/
def erase (t : Table κ ν) (k : κ) : Table κ ν :=
  t.eraseIf fun k' _ => k' = k

/-- Puts a value under a key in place of any other. -/
def insert (t : Table κ ν) (k : κ) (v : ν) : Table κ ν :=
  ⟨(k, v) :: (t.erase k).pairs, by
    refine List.nodup_cons.2 ⟨?_, (t.erase k).nodup⟩
    simp [erase, eraseIf]⟩

/-! ## Look-up after a change -/

theorem find?_erase (t : Table κ ν) (k k' : κ) :
    (t.erase k).find? k' = if k' = k then none else t.find? k' := by
  unfold find? erase eraseIf
  simp only [List.find?_filter]
  split
  · next h =>
    subst h
    simp only [Option.map_eq_none_iff, List.find?_eq_none]
    rintro ⟨a, b⟩ - hp
    simp_all
  · next h =>
    congr 1
    congr 1
    funext ⟨a, b⟩
    by_cases hak : a = k' <;> simp_all

theorem find?_insert (t : Table κ ν) (k k' : κ) (v : ν) :
    (t.insert k v).find? k' = if k' = k then some v else t.find? k' := by
  by_cases h : k' = k
  · subst h
    simp [find?, insert]
  · have h' : ¬ k = k' := fun e => h e.symm
    have := find?_erase t k k'
    simp only [if_neg h] at this ⊢
    rw [← this]
    simp [find?, insert, h']

/-- A look-up finds exactly what is stored. -/
theorem find?_eq_some_iff (t : Table κ ν) (k : κ) (v : ν) :
    t.find? k = some v ↔ (k, v) ∈ t.pairs := by
  obtain ⟨pairs, nodup⟩ := t
  induction pairs with
  | nil => simp [find?]
  | cons p ps ih =>
    obtain ⟨a, b⟩ := p
    have ih := ih (by simpa using (List.nodup_cons.1 nodup).2)
    have hn := (List.nodup_cons.1 nodup).1
    simp only [find?, List.mem_cons, Prod.mk.injEq] at ih ⊢
    by_cases h : a = k
    · subst h
      have : (a, v) ∉ ps := fun hm => hn (List.mem_map.2 ⟨(a, v), hm, rfl⟩)
      simp [this, eq_comm]
    · have h' : ¬ k = a := fun e => h e.symm
      simp [h, h', ih]

end Table
end StockLedger
