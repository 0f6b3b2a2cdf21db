/-
  The text of a value and the order of its maps' entries.

  Two values are `Reordered` if they differ only in the order in which the entries
  of their maps stand, at any depth.  The keys of a value are `KeysApart` if no two
  keys of one map in it have the same text.

  * `canonical_map`, `canonical_record`, ...: what the sorted document of a value is
    made of;
  * `stringify_of_reordered`: **values that differ only in the order of entries have
    one text, if their keys are apart**;
  * `stringify_wholeAndText`: they need not have one if two keys share a text.
-/
import Mathlib.Data.List.Nodup
import Runbook.Proofs.Table
import Runbook.Proofs.Value.Plain

namespace Runbook

/-! ## Documents entry by entry -/

namespace Json

section
variable {τ : Type} [LE τ] [DecidableLE τ]

theorem sortKeysItems_eq_map (items : List (Json τ)) : sortKeysItems items = items.map sortKeys := by
  induction items with
  | nil => rfl
  | cons j js ih => rw [sortKeysItems, ih, List.map_cons]

theorem sortKeysFields_eq_map (fields : List (τ × Json τ)) :
    sortKeysFields fields = fields.map fun e => (e.1, e.2.sortKeys) := by
  induction fields with
  | nil => rfl
  | cons e fields ih => rw [sortKeysFields, ih, List.map_cons]

end

/-- Fields with different keys are sorted alike in whatever order they stand. -/
theorem sortFields_eq_of_perm {fields fields' : List (String × Json)}
    (hn : (fields.map Prod.fst).Nodup) (hp : fields.Perm fields') :
    sortFields fields = sortFields fields' := by
  have hsorted (fields : List (String × Json)) :
      (sortFields fields).Pairwise fun a b => decide (a.1 ≤ b.1) = true := by
    refine List.pairwise_mergeSort (fun a b c hab hbc => ?_) (fun a b => ?_) fields
    · exact decide_eq_true (String.le_trans (of_decide_eq_true hab) (of_decide_eq_true hbc))
    · simpa using String.le_total a.1 b.1
  have hsort : (sortFields fields).Perm fields := List.mergeSort_perm ..
  refine List.Perm.eq_of_pairwise (fun a b ha hb hab hba => ?_) (hsorted fields) (hsorted fields')
    ((hsort.trans hp).trans (List.mergeSort_perm ..).symm)
  -- Two fields of one key are one field, so the sorted order is antisymmetric on the fields.
  have hb : b ∈ fields := hp.symm.mem_iff.1 ((List.mergeSort_perm ..).mem_iff.1 hb)
  exact List.inj_on_of_nodup_map hn (hsort.mem_iff.1 ha) hb
    (String.le_antisymm (of_decide_eq_true hab) (of_decide_eq_true hba))

end Json

namespace Value

open Json (sortFields)

section
variable {τ φ : Type} [Texts τ] (leaf : Value τ φ → τ)

theorem jsonItems_eq_map : ∀ items : List (Value τ φ),
    jsonItems leaf items = items.map (jsonWith leaf)
  | [] => rfl
  | v :: vs => by rw [jsonItems, jsonItems_eq_map vs, List.map_cons]

theorem jsonEntries_eq_map : ∀ entries : List (Key τ × Value τ φ),
    jsonEntries leaf entries = entries.map fun e => (e.1.text, jsonWith leaf e.2)
  | [] => rfl
  | (k, v) :: entries => by rw [jsonEntries, jsonEntries_eq_map entries, List.map_cons]

theorem jsonWith_object (fields : List (τ × Value τ φ)) :
    (object fields).jsonWith leaf = .obj (fields.map fun e => (e.1, e.2.jsonWith leaf)) := by
  rw [object, jsonWith, jsonEntries_eq_map, List.map_map]
  rfl

variable [LE τ] [DecidableLE τ]

theorem sortKeys_list (items : List (Value τ φ)) :
    (list items).json.sortKeys = .arr (items.map fun v => v.json.sortKeys) := by
  rw [json, jsonWith, jsonItems_eq_map, Json.sortKeys, Json.sortKeysItems_eq_map, List.map_map]
  rfl

theorem sortKeys_object (fields : List (τ × Value τ φ)) :
    (object fields).json.sortKeys =
      .obj (sortFields (fields.map fun e => (e.1, e.2.json.sortKeys))) := by
  rw [json, jsonWith_object, Json.sortKeys, Json.sortKeysFields_eq_map, List.map_map]
  rfl

theorem sortKeys_ofFields [DecidableEq τ] (fields : List (τ × Value τ φ)) :
    (ofFields fields).json.sortKeys =
      .obj (sortFields (Table.ofList (fields.map fun e => (e.1, e.2.json.sortKeys))).entries) := by
  rw [Table.entries_ofList_map fun v : Value τ φ => v.json.sortKeys]
  exact sortKeys_object _

end

/-! ## Values that refuse nothing -/

theorem keepsTexts_stock {τ φ : Type} [Texts τ] [DecidableEq τ] :
    (Library.stock : Library τ φ).KeepsTexts :=
  fun _ _ h => (Except.ok.inj h).symm

theorem plainIn_stock (v : Value) : plainIn .stock false v = .ok v.plain := by
  rw [plain, plainIn]
  cases v.plain? .stock with
  | ok p => rfl
  | error e => exact e.elim

/-- In a record or not, a value that refuses nothing has the plain data `plain`. -/
theorem eq_plain {inside : Bool} {v p : Value} (h : plainIn .stock inside v = .ok p) : p = v.plain :=
  plainIn_agree keepsTexts_stock keepsTexts_stock rfl h (plainIn_stock v)

theorem plain_list (items : List Value) : (list items).plain = list (items.map plain) := by
  have h := yields_of_plainIn (plainIn_stock (list items))
  generalize (list items).plain = p at h
  cases h with
  | simple hs => exact hs.elim
  | list hdata => rw [forall₂_eq_map hdata fun v _ p hp => eq_plain hp]

theorem plain_tuple (items : List Value) : (tuple items).plain = list (items.map plain) := by
  have h := yields_of_plainIn (plainIn_stock (tuple items))
  generalize (tuple items).plain = p at h
  cases h with
  | simple hs => exact hs.elim
  | tuple hdata => rw [forall₂_eq_map hdata fun v _ p hp => eq_plain hp]

theorem plain_map (entries : List (Key × Value)) :
    (map entries).plain = ofFields (entries.map fun e => (e.1.text, e.2.plain)) := by
  have h := yields_of_plainIn (plainIn_stock (map entries))
  generalize (map entries).plain = p at h
  cases h with
  | simple hs => exact hs.elim
  | map hdata =>
    rw [forall₂_eq_map (g := fun e => (e.1.text, e.2.plain)) hdata fun e _ f hf =>
      Prod.ext (Except.ok.inj hf.1).symm (eq_plain hf.2)]

theorem plain_record (name : String) (fields : List (String × Value)) :
    (record name fields).plain = ofFields (fields.map fun e => (e.1, e.2.plain)) := by
  have h := yields_of_plainIn (plainIn_stock (record name fields))
  generalize (record name fields).plain = p at h
  cases h with
  | simple hs => exact hs.elim
  | record hdata =>
    rw [forall₂_eq_map (g := fun e => (e.1, e.2.plain)) hdata fun e _ f hf =>
      Prod.ext hf.1.symm (eq_plain hf.2)]

theorem plain_model (name : String) (fields : List (String × Value)) :
    (model name fields).plain = ofJson (.obj (dumpedFields fields)) := by
  have h := yields_of_plainIn (plainIn_stock (model name fields))
  generalize (model name fields).plain = p at h
  cases h with
  | simple hs => exact hs.elim
  | model hfields hdump =>
    cases hfields
    cases hdump
    rfl

/-! ## Models -/

theorem dumpedItems_eq_map : ∀ items : List Value, dumpedItems items = items.map dumped
  | [] => rfl
  | v :: vs => by rw [dumpedItems, dumpedItems_eq_map vs, List.map_cons]

theorem dumpedEntries_eq_map : ∀ entries : List (Key × Value),
    dumpedEntries entries = entries.map fun e => (e.1.text, e.2.dumped)
  | [] => rfl
  | (k, v) :: entries => by rw [dumpedEntries, dumpedEntries_eq_map entries, List.map_cons]

theorem dumpedFields_eq_map : ∀ fields : List (String × Value),
    dumpedFields fields = fields.map fun e => (e.1, e.2.dumped)
  | [] => rfl
  | (k, v) :: fields => by rw [dumpedFields, dumpedFields_eq_map fields, List.map_cons]

/-- The document that the text of a value is written from, for a value that may be part of a
model. -/
def canonical : Bool → Value → Json
  | false, v => v.plain.json.sortKeys
  | true, v => (ofJson v.dumped : Value).json.sortKeys

/-- The entries of a table stay in a document. -/
theorem sortKeys_dumped (fields : List (String × Json)) :
    (ofJson (.obj (Table.ofList fields).entries) : Value).json.sortKeys = .obj (sortFields
      (Table.ofList (fields.map fun e => (e.1, (ofJson e.2 : Value).json.sortKeys))).entries) := by
  have hnodup : (((Table.ofList fields).entries.map fun e =>
      (e.1, (ofJson e.2 : Value).json.sortKeys)).map Prod.fst).Nodup := by
    rw [List.map_map]
    exact (Table.ofList fields).nodup
  rw [ofJson, sortKeys_ofFields, ofJsonFields_eq_map, List.map_map]
  show Json.obj (sortFields (Table.ofList ((Table.ofList fields).entries.map fun e =>
    (e.1, (ofJson e.2 : Value).json.sortKeys))).entries) = _
  rw [Table.entries_ofList hnodup, Table.entries_ofList_map fun j : Json =>
    (ofJson j : Value).json.sortKeys]

theorem canonical_list (inModel : Bool) (items : List Value) :
    canonical inModel (.list items) = .arr (items.map (canonical inModel)) := by
  cases inModel with
  | false => rw [canonical, plain_list, sortKeys_list, List.map_map]; rfl
  | true =>
    rw [canonical, dumped, ofJson, ofJsonItems_eq_map, dumpedItems_eq_map, sortKeys_list,
      List.map_map, List.map_map]
    rfl

theorem canonical_tuple (inModel : Bool) (items : List Value) :
    canonical inModel (.tuple items) = .arr (items.map (canonical inModel)) := by
  cases inModel with
  | false => rw [canonical, plain_tuple, sortKeys_list, List.map_map]; rfl
  | true =>
    rw [canonical, dumped, ofJson, ofJsonItems_eq_map, dumpedItems_eq_map, sortKeys_list,
      List.map_map, List.map_map]
    rfl

theorem canonical_map (inModel : Bool) (entries : List (Key × Value)) :
    canonical inModel (.map entries) = .obj (sortFields
      (Table.ofList (entries.map fun e => (e.1.text, canonical inModel e.2))).entries) := by
  cases inModel with
  | false => rw [canonical, plain_map, sortKeys_ofFields, List.map_map]; rfl
  | true => rw [canonical, dumped, sortKeys_dumped, dumpedEntries_eq_map, List.map_map]; rfl

theorem canonical_record (inModel : Bool) (name : String) (fields : List (String × Value)) :
    canonical inModel (.record name fields) = .obj (sortFields
      (Table.ofList (fields.map fun e => (e.1, canonical inModel e.2))).entries) := by
  cases inModel with
  | false => rw [canonical, plain_record, sortKeys_ofFields, List.map_map]; rfl
  | true => rw [canonical, dumped, sortKeys_dumped, dumpedFields_eq_map, List.map_map]; rfl

theorem canonical_model (inModel : Bool) (name : String) (fields : List (String × Value)) :
    canonical inModel (.model name fields) = .obj (sortFields
      (Table.ofList (fields.map fun e => (e.1, canonical true e.2))).entries) := by
  cases inModel with
  | false =>
    rw [canonical, plain_model, ofJson, sortKeys_ofFields, ofJsonFields_eq_map,
      dumpedFields_eq_map, List.map_map, List.map_map]
    rfl
  | true => rw [canonical, dumped, sortKeys_dumped, dumpedFields_eq_map, List.map_map]; rfl

/-! ## The order of entries -/

mutual

/-- Two values are the same but for the order of the entries of maps, at any depth. -/
inductive Reordered : Value → Value → Prop
  | same (v : Value) : Reordered v v
  | list {us vs : List Value} : ReorderedItems us vs → Reordered (.list us) (.list vs)
  | tuple {us vs : List Value} : ReorderedItems us vs → Reordered (.tuple us) (.tuple vs)
  | map {l m n : List (Key × Value)} :
      ReorderedEntries l m → m.Perm n → Reordered (.map l) (.map n)
  | record {name : String} {l m : List (String × Value)} :
      ReorderedFields l m → Reordered (.record name l) (.record name m)
  | model {name : String} {l m : List (String × Value)} :
      ReorderedFields l m → Reordered (.model name l) (.model name m)

/-- Items in the same places are `Reordered`. -/
inductive ReorderedItems : List Value → List Value → Prop
  | nil : ReorderedItems [] []
  | cons {u v : Value} {us vs : List Value} :
      Reordered u v → ReorderedItems us vs → ReorderedItems (u :: us) (v :: vs)

/-- Entries in the same places have one key and values that are `Reordered`. -/
inductive ReorderedEntries : List (Key × Value) → List (Key × Value) → Prop
  | nil : ReorderedEntries [] []
  | cons {k : Key} {u v : Value} {l m : List (Key × Value)} :
      Reordered u v → ReorderedEntries l m → ReorderedEntries ((k, u) :: l) ((k, v) :: m)

/-- Fields in the same places have one name and values that are `Reordered`. -/
inductive ReorderedFields : List (String × Value) → List (String × Value) → Prop
  | nil : ReorderedFields [] []
  | cons {k : String} {u v : Value} {l m : List (String × Value)} :
      Reordered u v → ReorderedFields l m → ReorderedFields ((k, u) :: l) ((k, v) :: m)

end

mutual

/-- No two keys of one map have the same text, at any depth. -/
def KeysApart : Value → Prop
  | list items => KeysApartItems items
  | tuple items => KeysApartItems items
  | map entries => (entries.map fun e => e.1.text).Nodup ∧ KeysApartEntries entries
  | record _ fields => KeysApartFields fields
  | model _ fields => KeysApartFields fields
  | _ => True

/-- `KeysApart` of every item. -/
def KeysApartItems : List Value → Prop
  | [] => True
  | v :: vs => KeysApart v ∧ KeysApartItems vs

/-- `KeysApart` of the value of every entry. -/
def KeysApartEntries : List (Key × Value) → Prop
  | [] => True
  | (_, v) :: entries => KeysApart v ∧ KeysApartEntries entries

/-- `KeysApart` of the value of every field. -/
def KeysApartFields : List (String × Value) → Prop
  | [] => True
  | (_, v) :: fields => KeysApart v ∧ KeysApartFields fields

end

mutual

theorem Reordered.canonical_eq (inModel : Bool) : ∀ {u v : Value},
    Reordered u v → u.KeysApart → canonical inModel u = canonical inModel v
  | _, _, .same v, _ => rfl
  | _, _, .list h, hk => by rw [canonical_list, canonical_list, h.map_canonical inModel hk]
  | _, _, .tuple h, hk => by rw [canonical_tuple, canonical_tuple, h.map_canonical inModel hk]
  | .map l, .map n, .map h hp, ⟨hn, hk⟩ => by
    -- With keys apart no entry replaces another, so the two tables hold the same fields.
    have hperm := hp.map fun e => (e.1.text, canonical inModel e.2)
    rw [← h.map_canonical inModel hk] at hperm
    have hl : ((l.map fun e => (e.1.text, canonical inModel e.2)).map Prod.fst).Nodup := by
      rwa [List.map_map]
    have hn := (hperm.map Prod.fst).nodup_iff.1 hl
    rw [canonical_map, canonical_map, Table.entries_ofList hl, Table.entries_ofList hn,
      Json.sortFields_eq_of_perm hl hperm]
  | _, _, .record h, hk => by rw [canonical_record, canonical_record, h.map_canonical inModel hk]
  | _, _, .model h, hk => by rw [canonical_model, canonical_model, h.map_canonical true hk]

theorem ReorderedItems.map_canonical (inModel : Bool) : ∀ {us vs : List Value},
    ReorderedItems us vs → KeysApartItems us →
      us.map (canonical inModel) = vs.map (canonical inModel)
  | _, _, .nil, _ => rfl
  | _, _, .cons h hs, ⟨hk, hks⟩ => by
    rw [List.map_cons, List.map_cons, h.canonical_eq inModel hk, hs.map_canonical inModel hks]

theorem ReorderedEntries.map_canonical (inModel : Bool) : ∀ {l m : List (Key × Value)},
    ReorderedEntries l m → KeysApartEntries l →
      (l.map fun e => (e.1.text, canonical inModel e.2)) =
        m.map fun e => (e.1.text, canonical inModel e.2)
  | _, _, .nil, _ => rfl
  | _, _, .cons h hs, ⟨hk, hks⟩ => by
    rw [List.map_cons, List.map_cons, h.canonical_eq inModel hk, hs.map_canonical inModel hks]

theorem ReorderedFields.map_canonical (inModel : Bool) : ∀ {l m : List (String × Value)},
    ReorderedFields l m → KeysApartFields l →
      (l.map fun e => (e.1, canonical inModel e.2)) = m.map fun e => (e.1, canonical inModel e.2)
  | _, _, .nil, _ => rfl
  | _, _, .cons h hs, ⟨hk, hks⟩ => by
    rw [List.map_cons, List.map_cons, h.canonical_eq inModel hk, hs.map_canonical inModel hks]

end

theorem stringify_of_isContainer {v : Value} (hv : v.IsContainer) :
    v.stringify = (canonical false v).write .compact := by
  have hplain : v.plain? .stock = .ok v.plain := plainIn_stock v
  rw [stringify, stringify?_eq, hplain]
  exact plainText_of_yields (yields_of_plainIn (plainIn_stock v)) hv

/-- **One text for values that differ only in the order of entries**, if no two keys of one map have
the same text. -/
theorem stringify_of_reordered {u v : Value} (h : Reordered u v) (hk : u.KeysApart) :
    u.stringify = v.stringify := by
  have hcontainer (hu : u.IsContainer) (hv : v.IsContainer) : u.stringify = v.stringify := by
    rw [stringify_of_isContainer hu, stringify_of_isContainer hv, h.canonical_eq false hk]
  -- A text, bytes and a token are passed without their document, but these are only the `same`.
  cases h with
  | same => rfl
  | _ => exact hcontainer trivial trivial

/-- Entries of many kinds of keys, with maps in a list and in a record. -/
def nested : Value :=
  .map [(.null, .list [.map [(.int 2, .null), (.bool true, .str "x")]]),
    (.tuple [.int 1], .record "Settings" [("f", .map [(.str "b", .int 1), (.str "a", .int 2)])])]

/-- The same with the entries of every map the other way round. -/
def nestedReversed : Value :=
  .map [(.tuple [.int 1], .record "Settings" [("f", .map [(.str "a", .int 2), (.str "b", .int 1)])]),
    (.null, .list [.map [(.bool true, .str "x"), (.int 2, .null)]])]

theorem stringify_of_reordered_nested : Reordered nested nestedReversed ∧ nested.KeysApart ∧
    nested.stringify = nestedReversed.stringify := by
  have h : Reordered nested nestedReversed := by
    refine .map (.cons (.list (.cons (.map ?_ (.swap ..)) .nil)) (.cons (.record (.cons
      (.map ?_ (.swap ..)) .nil)) .nil)) (.swap ..)
    · exact .cons (.same _) (.cons (.same _) .nil)
    · exact .cons (.same _) (.cons (.same _) .nil)
  have hk : nested.KeysApart := by
    refine ⟨by decide +kernel, ⟨⟨by decide +kernel, trivial, trivial, trivial⟩, trivial⟩,
      ⟨⟨by decide +kernel, trivial, trivial, trivial⟩, trivial⟩, trivial⟩
  exact ⟨h, hk, stringify_of_reordered h hk⟩

/-- A map with a whole number and its text as keys. -/
def wholeAndText : Value := .map [(.int 1, .str "a"), (.str "1", .str "b")]

/-- The same map with its entries the other way round. -/
def textAndWhole : Value := .map [(.str "1", .str "b"), (.int 1, .str "a")]

/-- Keys with one text let the order of entries show. -/
theorem stringify_wholeAndText :
    Reordered wholeAndText textAndWhole ∧ wholeAndText.stringify ≠ textAndWhole.stringify := by
  refine ⟨.map (.cons (.same _) (.cons (.same _) .nil)) (.swap ..), ?_⟩
  decide +kernel

end Value

end Runbook
