/-
  Tables are their keys in order with what is found under each.

  * `ext_find?`: two tables with the same keys, in the same order, and the same
    value under every key are equal;
  * `keys_update` and `find?_update`: updating a table keeps its keys in place,
    adds the new ones at the end, and lets the later value win;
  * `update_insert`: **an update can be put off until a key is set**;
  * `find?_foldl_insert_last` and `foldl_insert_idem`: after setting keys one after
    another the last value of each is found, and setting them again changes nothing;
  * `keys_ofList` and `find?_ofList_of_last`: in the table of a list every key keeps
    its first place and its last value, and by `find?_ofList_swap` two entries in a
    row can be exchanged that agree;
  * `entries_ofList` and `entries_ofList_map`: the table of entries with different
    keys has just these, and changing values goes before or after making a table;
  * `entries_push` and `entries_foldl_push`: pushing adds the entry at the end, and
    pushing new keys one after another adds all of their entries.
-/
import Runbook.Table

namespace Runbook

namespace Table

variable {α β γ : Type} [DecidableEq α]

theorem find?_eq_none_iff {t : Table α β} {k : α} : t.find? k = none ↔ k ∉ t.keys :=
  findEntry_eq_none_iff

theorem findEntry_eq_some_iff {k : α} {v : β} : ∀ {l : List (α × β)}, (l.map Prod.fst).Nodup →
    (findEntry k l = some v ↔ (k, v) ∈ l)
  | [], _ => by simp [findEntry]
  | (a, u) :: l, hn => by
    obtain ⟨ha, hl⟩ := List.nodup_cons.1 hn
    by_cases h : a = k
    · subst h
      have hv : (a, v) ∉ l := fun hv => ha (List.mem_map.2 ⟨_, hv, rfl⟩)
      simp [findEntry, hv, eq_comm]
    · simp [findEntry, h, Ne.symm h, findEntry_eq_some_iff hl]

/-- What is found under a key is what its entry holds. -/
theorem find?_eq_some_iff {t : Table α β} {k : α} {v : β} :
    t.find? k = some v ↔ (k, v) ∈ t.entries :=
  findEntry_eq_some_iff t.nodup

theorem mem_keys_of_find? {t : Table α β} {k : α} {v : β} (h : t.find? k = some v) : k ∈ t.keys :=
  List.mem_map_of_mem (find?_eq_some_iff.1 h)

theorem entries_ext : ∀ {l m : List (α × β)}, l.map Prod.fst = m.map Prod.fst →
    (l.map Prod.fst).Nodup → (∀ k, findEntry k l = findEntry k m) → l = m
  | [], [], _, _, _ => rfl
  | (a, v) :: l, (b, u) :: m, hk, hn, hf => by
    obtain ⟨hab, hlm⟩ := List.cons.inj hk
    obtain ⟨ha, hl⟩ := List.nodup_cons.1 hn
    simp only at hab ha
    subst hab
    have hv : v = u := by simpa [findEntry] using hf a
    have hfind : ∀ k, findEntry k l = findEntry k m := by
      intro k
      by_cases h : a = k
      · subst h
        rw [findEntry_eq_none_iff.2 ha, findEntry_eq_none_iff.2 (hlm ▸ ha)]
      · simpa [findEntry, h] using hf k
    rw [hv, entries_ext hlm hl hfind]

/-- Tables are equal if their keys are, in order, and the values of all keys. -/
theorem ext_find? {s t : Table α β} (hk : s.keys = t.keys) (hf : ∀ k, s.find? k = t.find? k) :
    s = t :=
  ext_entries (entries_ext hk s.nodup hf)

/-! ## Sizes -/

omit [DecidableEq α] in
theorem length_keys (t : Table α β) : t.keys.length = t.size := List.length_map ..

theorem size_insert (t : Table α β) (k : α) (v : β) :
    (t.insert k v).size = if k ∈ t.keys then t.size else t.size + 1 := by
  rw [← length_keys, keys_insert, ← length_keys]
  by_cases h : k ∈ t.keys
  · rw [if_pos h, if_pos h]
  · rw [if_neg h, if_neg h, List.length_append, List.length_singleton]

/-! ## Updates -/

theorem eraseDups_eq_self : ∀ {l : List α}, l.Nodup → l.eraseDups = l
  | [], _ => rfl
  | a :: l, hn => by
    obtain ⟨ha, hl⟩ := List.nodup_cons.1 hn
    have hself : l.filter (fun b => !b == a) = l :=
      List.filter_eq_self.2 fun b hb => by simpa using fun e : b = a => ha (e ▸ hb)
    rw [List.eraseDups_cons, hself, eraseDups_eq_self hl]

theorem keys_foldl_insert : ∀ (l : List (α × β)) (s : Table α β),
    (l.foldl (fun s e => s.insert e.1 e.2) s).keys =
      s.keys ++ ((l.map Prod.fst).filter (· ∉ s.keys)).eraseDups
  | [], s => by simp
  | (a, v) :: l, s => by
    rw [List.foldl_cons, keys_foldl_insert l, keys_insert, List.map_cons]
    by_cases h : a ∈ s.keys
    · simp [h]
    · -- the key is there from here on, so its later entries add none
      have hlater : (l.map Prod.fst).filter (· ∉ s.keys ++ [a]) =
          ((l.map Prod.fst).filter (· ∉ s.keys)).filter fun b => !b == a := by
        rw [List.filter_filter]
        refine List.filter_congr fun b _ => ?_
        by_cases hb : b = a <;> simp [hb]
      simp only [h, if_false, hlater, List.append_assoc]
      simp [h, List.eraseDups_cons]

/-- An update keeps the keys and adds the new ones in their order. -/
theorem keys_update (s t : Table α β) :
    (s.update t).keys = s.keys ++ t.keys.filter (· ∉ s.keys) := by
  rw [update, keys_foldl_insert, eraseDups_eq_self (t.nodup.filter _)]
  rfl

theorem findEntry_append (k : α) : ∀ l m : List (α × β),
    findEntry k (l ++ m) = (findEntry k l).or (findEntry k m)
  | [], _ => rfl
  | (a, v) :: l, m => by
    by_cases h : a = k
    · simp [findEntry, h]
    · simp [findEntry, h, findEntry_append k l m]

theorem findEntry_eq_find? (k : α) : ∀ l : List (α × β),
    findEntry k l = (l.find? (·.1 = k)).map Prod.snd
  | [] => rfl
  | (a, v) :: l => by
    by_cases h : a = k
    · simp [findEntry, h]
    · simp [findEntry, h, findEntry_eq_find? k l]

/-- Entries with different keys can be looked through from either end. -/
theorem findEntry_reverse {l : List (α × β)} (hn : (l.map Prod.fst).Nodup) (k : α) :
    findEntry k l.reverse = findEntry k l := by
  have hn' : (l.reverse.map Prod.fst).Nodup := by
    rw [List.map_reverse]
    exact (List.reverse_perm _).nodup_iff.2 hn
  ext v
  rw [findEntry_eq_some_iff hn', findEntry_eq_some_iff hn, List.mem_reverse]

/-- What is found after setting keys one after another is the last value of the key, or what was
there. -/
theorem find?_foldl_insert_last (k : α) : ∀ (l : List (α × β)) (s : Table α β),
    (l.foldl (fun s e => s.insert e.1 e.2) s).find? k = (findEntry k l.reverse).or (s.find? k)
  | [], _ => rfl
  | (a, v) :: l, s => by
    rw [List.foldl_cons, find?_foldl_insert_last k l, List.reverse_cons, findEntry_append,
      Option.or_assoc, find?_insert]
    by_cases h : k = a
    · simp [findEntry, h]
    · simp [findEntry, h, Ne.symm h]

theorem find?_foldl_insert (k : α) (l : List (α × β)) (s : Table α β)
    (hn : (l.map Prod.fst).Nodup) :
    (l.foldl (fun s e => s.insert e.1 e.2) s).find? k = (findEntry k l).or (s.find? k) := by
  rw [find?_foldl_insert_last, findEntry_reverse hn]

/-- What is found after an update is the later value, if there is one. -/
theorem find?_update (s t : Table α β) (k : α) :
    (s.update t).find? k = (t.find? k).or (s.find? k) :=
  find?_foldl_insert k t.entries s t.nodup

theorem update_empty (s : Table α β) : s.update empty = s := rfl

/-- **Updating with a key set is setting the key after the update.** -/
theorem update_insert (s t : Table α β) (k : α) (v : β) :
    s.update (t.insert k v) = (s.update t).insert k v := by
  refine ext_find? ?_ fun k' => ?_
  · have hk : k ∈ (s.update t).keys ↔ k ∈ s.keys ∨ k ∈ t.keys := by
      by_cases hs : k ∈ s.keys <;> simp [keys_update, hs]
    rw [keys_insert, keys_update, keys_insert, keys_update]
    by_cases ht : k ∈ t.keys
    · rw [if_pos ht, if_pos (keys_update s t ▸ hk.2 (Or.inr ht))]
    · by_cases hs : k ∈ s.keys
      · rw [if_neg ht, if_pos (keys_update s t ▸ hk.2 (Or.inl hs)), List.filter_append]
        simp [hs]
      · rw [if_neg ht, if_neg fun h => (hk.1 (keys_update s t ▸ h)).elim hs ht,
          List.filter_append]
        simp [hs]
  · simp only [find?_update, find?_insert]
    by_cases h : k' = k <;> simp [h]

/-- Setting keys a second time changes nothing. -/
theorem foldl_insert_idem (l : List (α × β)) (s : Table α β) :
    l.foldl (fun s e => s.insert e.1 e.2) (l.foldl (fun s e => s.insert e.1 e.2) s) =
      l.foldl (fun s e => s.insert e.1 e.2) s := by
  refine ext_find? ?_ fun k => ?_
  · -- every key is there already
    have hold : (l.map Prod.fst).filter
        (· ∉ (l.foldl (fun s e => s.insert e.1 e.2) s).keys) = [] := by
      refine List.filter_eq_nil_iff.2 fun a ha => ?_
      by_cases hs : a ∈ s.keys <;> simp [keys_foldl_insert, List.mem_eraseDups, ha, hs]
    rw [keys_foldl_insert l (l.foldl _ s), hold]
    simp
  · rw [find?_foldl_insert_last k l (l.foldl _ s), find?_foldl_insert_last k l s, ← Option.or_assoc,
      Option.or_self]

/-! ## From lists -/

theorem ofList_concat (l : List (α × β)) (e : α × β) :
    ofList (l ++ [e]) = (ofList l).insert e.1 e.2 := by
  rw [ofList, List.foldl_append]
  rfl

/-- The keys of the table of a list are those of the list, each where it comes first. -/
theorem keys_ofList (l : List (α × β)) : (ofList l).keys = (l.map Prod.fst).eraseDups := by
  have hnew : (l.map Prod.fst).filter (· ∉ (empty : Table α β).keys) = l.map Prod.fst :=
    List.filter_eq_self.2 fun a _ => by simp [empty, keys]
  rw [ofList, keys_foldl_insert, hnew]
  rfl

/-- The table of entries with different keys has just these entries. -/
theorem entries_ofList {l : List (α × β)} (hn : (l.map Prod.fst).Nodup) :
    (ofList l).entries = l := by
  have hk : (ofList l).keys = l.map Prod.fst := by rw [keys_ofList, eraseDups_eq_self hn]
  have hf : ∀ k, (ofList l).find? k = findEntry k l := by
    intro k
    rw [ofList, find?_foldl_insert k l _ hn]
    simp [empty, find?, findEntry]
  exact entries_ext hk (ofList l).nodup hf

theorem find?_foldl_insert_of_not_mem {k : α} {l : List (α × β)} (h : k ∉ l.map Prod.fst)
    (s : Table α β) : (l.foldl (fun s e => s.insert e.1 e.2) s).find? k = s.find? k := by
  have hnone : findEntry k l.reverse = none :=
    findEntry_eq_none_iff.2 fun hm => h (by simpa using hm)
  rw [find?_foldl_insert_last, hnone, Option.none_or]

/-- The last value of a key in a list is found in the list's table. -/
theorem find?_ofList_of_last {k : α} {v : β} {before after : List (α × β)}
    (h : k ∉ after.map Prod.fst) : (ofList (before ++ (k, v) :: after)).find? k = some v := by
  rw [ofList, List.foldl_append, List.foldl_cons, find?_foldl_insert_of_not_mem h, find?_insert,
    if_pos rfl]

theorem find?_foldl_insert_congr {k : α} (l : List (α × β)) {s t : Table α β}
    (h : s.find? k = t.find? k) :
    (l.foldl (fun s e => s.insert e.1 e.2) s).find? k =
      (l.foldl (fun s e => s.insert e.1 e.2) t).find? k := by
  rw [find?_foldl_insert_last, find?_foldl_insert_last, h]

/-- A key keeps its value, up to a relation, if two entries in a row are exchanged that do not give
it two values. -/
theorem find?_ofList_swap {r : β → β → Prop} (hr : ∀ v, r v v) {before after : List (α × β)}
    {d d' e e' : α × β} {k : α} (hd : d.1 = d'.1 ∧ r d.2 d'.2) (he : e.1 = e'.1 ∧ r e.2 e'.2)
    (h : d.1 = k → e.1 = k → r e.2 d'.2) :
    Option.Rel r ((ofList (before ++ d :: e :: after)).find? k)
      ((ofList (before ++ e' :: d' :: after)).find? k) := by
  have hrefl : ∀ o : Option β, Option.Rel r o o
    | none => .none
    | some v => .some (hr v)
  simp only [ofList, List.foldl_append, List.foldl_cons, find?_foldl_insert_last k after]
  cases findEntry k after.reverse with
  | some v => exact .some (hr v)
  | none =>
    simp only [Option.none_or, find?_insert, ← hd.1, ← he.1]
    by_cases hkd : k = d.1
    · by_cases hke : k = e.1
      · rw [if_pos hke, if_pos hkd]
        exact .some (h hkd.symm hke.symm)
      · rw [if_neg hke, if_pos hkd, if_pos hkd]
        exact .some hd.2
    · by_cases hke : k = e.1
      · rw [if_pos hke, if_neg hkd, if_pos hke]
        exact .some he.2
      · rw [if_neg hke, if_neg hkd, if_neg hkd, if_neg hke]
        exact hrefl _

theorem mem_of_mem_insertEntry {k : α} {v : β} {e : α × β} : ∀ {l : List (α × β)},
    e ∈ insertEntry k v l → e = (k, v) ∨ e ∈ l
  | [], h => .inl (List.mem_singleton.1 h)
  | (a, u) :: l, h => by
    by_cases ha : a = k
    · simp only [insertEntry, ha, if_true, List.mem_cons] at h ⊢
      exact h.imp_right .inr
    · simp only [insertEntry, ha, if_false, List.mem_cons] at h ⊢
      rcases h with h | h
      · exact .inr (.inl h)
      · exact (mem_of_mem_insertEntry h).imp_right .inr

/-- The entries of the table of a list are entries of the list. -/
theorem mem_of_mem_ofList {l : List (α × β)} {e : α × β} (h : e ∈ (ofList l).entries) : e ∈ l := by
  have hfold : ∀ (l : List (α × β)) (t : Table α β),
      e ∈ (l.foldl (fun t e => t.insert e.1 e.2) t).entries → e ∈ t.entries ∨ e ∈ l := by
    intro l
    induction l with
    | nil => exact fun t h => .inl h
    | cons a l ih =>
      intro t h
      rcases ih _ h with ht | hl
      · rcases mem_of_mem_insertEntry ht with ha | ht
        · exact .inr (ha ▸ List.mem_cons_self)
        · exact .inl ht
      · exact .inr (.tail _ hl)
  rcases hfold l empty h with hempty | hl
  · cases hempty
  · exact hl

theorem insertEntry_map (f : β → γ) (k : α) (v : β) : ∀ l : List (α × β),
    insertEntry k (f v) (l.map fun e => (e.1, f e.2)) =
      (insertEntry k v l).map fun e => (e.1, f e.2)
  | [] => rfl
  | (a, u) :: l => by
    by_cases h : a = k
    · simp [insertEntry, h]
    · simp [insertEntry, h, insertEntry_map f k v l]

/-- The table of entries whose values are changed is the table of the entries with its values
changed. -/
theorem entries_ofList_map (f : β → γ) (l : List (α × β)) :
    (ofList (l.map fun e => (e.1, f e.2))).entries =
      (ofList l).entries.map fun e => (e.1, f e.2) := by
  have hfold : ∀ (l : List (α × β)) (s : Table α β) (t : Table α γ),
      t.entries = s.entries.map (fun e => (e.1, f e.2)) →
      ((l.map fun e => (e.1, f e.2)).foldl (fun t e => t.insert e.1 e.2) t).entries =
        (l.foldl (fun s e => s.insert e.1 e.2) s).entries.map fun e => (e.1, f e.2) := by
    intro l
    induction l with
    | nil => exact fun s t h => h
    | cons e l ih =>
      intro s t h
      refine ih _ _ ?_
      show insertEntry e.1 (f e.2) t.entries = (insertEntry e.1 e.2 s.entries).map _
      rw [h, insertEntry_map]
  exact hfold l empty empty rfl

/-! ## Pushes -/

theorem insertEntry_of_not_mem {k : α} {v : β} : ∀ {l : List (α × β)}, k ∉ l.map Prod.fst →
    insertEntry k v l = l ++ [(k, v)]
  | [], _ => rfl
  | (a, u) :: l, h => by
    obtain ⟨ha, hl⟩ := not_or.1 fun hm => h (List.mem_cons.2 hm)
    simp only [insertEntry, Ne.symm ha, if_false, insertEntry_of_not_mem hl, List.cons_append]

/-- Pushing takes the key out and adds its entry at the end. -/
theorem entries_push (t : Table α β) (k : α) (v : β) :
    (t.push k v).entries = t.entries.filter (fun e => e.1 ≠ k) ++ [(k, v)] :=
  insertEntry_of_not_mem fun hk => by
    have hk : k ∈ (t.erase k).keys := hk
    rw [keys_erase] at hk
    simp at hk

/-- Pushing new keys adds their entries. -/
theorem entries_foldl_push : ∀ (l : List (α × β)) (t : Table α β),
    (t.keys ++ l.map Prod.fst).Nodup →
    (l.foldl (fun t e => t.push e.1 e.2) t).entries = t.entries ++ l
  | [], t, _ => by simp
  | (k, v) :: l, t, hn => by
    have hk : k ∉ t.keys := fun hm => (List.nodup_append.1 hn).2.2 k hm k (by simp) rfl
    have hpush : (t.push k v).entries = t.entries ++ [(k, v)] := by
      rw [entries_push, List.filter_eq_self.2]
      intro e he
      simpa using fun hek : e.1 = k => hk (hek ▸ List.mem_map_of_mem he)
    have hn' : ((t.push k v).keys ++ l.map Prod.fst).Nodup := by
      simpa [keys, hpush] using hn
    rw [List.foldl_cons, entries_foldl_push l _ hn', hpush, List.append_assoc]
    rfl

end Table

end Runbook
