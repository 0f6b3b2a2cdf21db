/-
  Tables: finite maps that remember the order in which their keys came.

  A table is a list of entries without two entries of one key.  `insert` keeps
  the place of a key that is already there, `push` moves it to the end, and
  `erase` removes it.

  * `find?_insert`, `find?_erase`, `find?_push`: what each operation does to a
    look-up;
  * `keys_insert`, `keys_erase`, `keys_push`: what each operation does to the
    keys and their order.
-/

namespace Runbook

variable {α β γ : Type}

/-- A finite map with its keys in order of insertion. -/
structure Table (α β : Type) where
  entries : List (α × β)
  nodup : (entries.map Prod.fst).Nodup

namespace Table

instance [DecidableEq α] [DecidableEq β] : DecidableEq (Table α β) := fun s t =>
  if h : s.entries = t.entries then .isTrue (by cases s; cases t; cases h; rfl)
  else .isFalse fun e => h (e ▸ rfl)

@[ext] theorem ext_entries {s t : Table α β} (h : s.entries = t.entries) : s = t := by
  cases s; cases t; cases h; rfl

/-- The table without entries. -/
def empty : Table α β := ⟨[], List.nodup_nil⟩

instance : Inhabited (Table α β) := ⟨empty⟩

/-- The keys, in order. -/
def keys (t : Table α β) : List α := t.entries.map Prod.fst

/-- The number of keys. -/
def size (t : Table α β) : Nat := t.entries.length

/-- The values, in the order of their keys. -/
def values (t : Table α β) : List β := t.entries.map Prod.snd

/-- Changes every value and no key. -/
def map (f : α → β → γ) (t : Table α β) : Table α γ :=
  ⟨t.entries.map fun e => (e.1, f e.1 e.2), by
    have : (t.entries.map fun e => (e.1, f e.1 e.2)).map Prod.fst = t.entries.map Prod.fst := by
      simp [Function.comp_def]
    rw [this]; exact t.nodup⟩

variable [DecidableEq α]

/-! ## Look-up -/

/-- The value of the first entry with a key. -/
def findEntry (k : α) : List (α × β) → Option β
  | [] => none
  | (k', v) :: l => if k' = k then some v else findEntry k l

/-- The value of a key. -/
def find? (t : Table α β) (k : α) : Option β := findEntry k t.entries

/-- Whether a key has a value. -/
def contains (t : Table α β) (k : α) : Bool := (t.find? k).isSome

theorem findEntry_eq_none_iff {k : α} {l : List (α × β)} :
    findEntry k l = none ↔ k ∉ l.map Prod.fst := by
  induction l with
  | nil => simp [findEntry]
  | cons e l ih => by_cases h : e.1 = k <;> simp_all [findEntry, eq_comm]

theorem contains_iff {t : Table α β} {k : α} : t.contains k = true ↔ k ∈ t.keys := by
  have h := @findEntry_eq_none_iff α β _ k t.entries
  rw [contains, find?, keys, Option.isSome_iff_ne_none]
  constructor
  · intro hn; exact Classical.not_not.1 fun hm => hn (h.2 hm)
  · intro hm hn; exact h.1 hn hm

/-! ## Insertion in place -/

/-- Overwrites the value of a key where it stands, or adds the entry at the end. -/
def insertEntry (k : α) (v : β) : List (α × β) → List (α × β)
  | [] => [(k, v)]
  | (k', v') :: l => if k' = k then (k, v) :: l else (k', v') :: insertEntry k v l

theorem map_fst_insertEntry (k : α) (v : β) (l : List (α × β)) :
    (insertEntry k v l).map Prod.fst =
      if k ∈ l.map Prod.fst then l.map Prod.fst else l.map Prod.fst ++ [k] := by
  induction l with
  | nil => simp [insertEntry]
  | cons e l ih =>
    by_cases h : e.1 = k
    · simp [insertEntry, h]
    · by_cases hm : k ∈ l.map Prod.fst
      · simp only [insertEntry, h, if_false, List.map_cons, ih, hm, if_true, List.mem_cons,
          or_true]
      · simp only [insertEntry, h, if_false, List.map_cons, ih, hm, List.mem_cons, or_false,
          eq_comm (a := k), List.cons_append]

theorem nodup_insertEntry {k : α} {v : β} {l : List (α × β)} (h : (l.map Prod.fst).Nodup) :
    ((insertEntry k v l).map Prod.fst).Nodup := by
  rw [map_fst_insertEntry]
  split
  · exact h
  · next hk => exact List.nodup_append.2 ⟨h, by simp, by
      intro a ha b hb; cases List.mem_singleton.1 hb; exact fun e => hk (e ▸ ha)⟩

/-- Sets the value of a key, which keeps its place if it has one. -/
def insert (t : Table α β) (k : α) (v : β) : Table α β :=
  ⟨insertEntry k v t.entries, nodup_insertEntry t.nodup⟩

theorem findEntry_insertEntry (k k' : α) (v : β) (l : List (α × β)) :
    findEntry k' (insertEntry k v l) = if k' = k then some v else findEntry k' l := by
  induction l with
  | nil => simp [insertEntry, findEntry, eq_comm]
  | cons e l ih =>
    by_cases h : e.1 = k <;> by_cases h' : k' = k <;>
      simp_all [insertEntry, findEntry, eq_comm]

/-- **Setting a key changes what is found under that key alone.** -/
theorem find?_insert (t : Table α β) (k k' : α) (v : β) :
    (t.insert k v).find? k' = if k' = k then some v else t.find? k' :=
  findEntry_insertEntry k k' v t.entries

theorem keys_insert (t : Table α β) (k : α) (v : β) :
    (t.insert k v).keys = if k ∈ t.keys then t.keys else t.keys ++ [k] :=
  map_fst_insertEntry k v t.entries

/-! ## Removal -/

/-- The table without a key. -/
def erase (t : Table α β) (k : α) : Table α β :=
  ⟨t.entries.filter fun e => e.1 ≠ k, t.nodup.sublist (List.filter_sublist.map Prod.fst)⟩

theorem findEntry_filter_ne (k k' : α) (l : List (α × β)) :
    findEntry k' (l.filter fun e => e.1 ≠ k) = if k' = k then none else findEntry k' l := by
  induction l with
  | nil => simp [findEntry]
  | cons e l ih =>
    obtain ⟨a, v⟩ := e
    by_cases h : a = k
    · subst h; by_cases h' : k' = a
      · simpa [List.filter_cons, h'] using ih
      · simpa [List.filter_cons, findEntry, h', Ne.symm h'] using ih
    · by_cases h' : k' = k
      · subst h'; simpa [List.filter_cons, findEntry, h] using ih
      · by_cases ha : a = k' <;> simp_all [findEntry]

theorem find?_erase (t : Table α β) (k k' : α) :
    (t.erase k).find? k' = if k' = k then none else t.find? k' :=
  findEntry_filter_ne k k' t.entries

theorem keys_erase (t : Table α β) (k : α) : (t.erase k).keys = t.keys.filter (· ≠ k) := by
  simp [keys, erase, List.filter_map, Function.comp_def]

/-! ## Insertion at the end -/

/-- Sets the value of a key and moves the key to the end. -/
def push (t : Table α β) (k : α) (v : β) : Table α β := (t.erase k).insert k v

theorem find?_push (t : Table α β) (k k' : α) (v : β) :
    (t.push k v).find? k' = if k' = k then some v else t.find? k' := by
  rw [push, find?_insert, find?_erase]; by_cases h : k' = k <;> simp [h]

theorem keys_push (t : Table α β) (k : α) (v : β) :
    (t.push k v).keys = t.keys.filter (· ≠ k) ++ [k] := by
  rw [push, keys_insert, keys_erase, if_neg (by simp)]

/-! ## From and to lists -/

/-- The table of a list of entries: a repeated key keeps its first place and its last value. -/
def ofList (l : List (α × β)) : Table α β := l.foldl (fun t e => t.insert e.1 e.2) empty

/-- Sets every key of `t` in `s`, in order. -/
def update (s t : Table α β) : Table α β := t.entries.foldl (fun s e => s.insert e.1 e.2) s

end Table

end Runbook
