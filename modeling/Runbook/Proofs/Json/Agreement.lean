/-
  Documents that say the same in another order.

  Two documents agree if their objects are the same mappings: of each object the keys
  are all different, and the other one has the same keys with values that agree,
  wherever they stand.

  * `agrees_sortKeys`: **a document agrees with itself with sorted keys**, if the keys
    of its objects are different;
  * `readBack_sortKeys`: sorting keys goes before or after reading back.
-/
import Runbook.Proofs.Json.Reading
import Runbook.Proofs.Value.Canonical

namespace Runbook.Json

mutual

/-- Two documents say the same, objects as mappings. -/
inductive Agrees : Json → Json → Prop
  | null : Agrees null null
  | bool (b : Bool) : Agrees (bool b) (bool b)
  | int (i : Int) : Agrees (int i) (int i)
  | float (x : Float) : Agrees (float x) (float x)
  | str (s : String) : Agrees (str s) (str s)
  | arr {items items' : List Json} : AgreeItems items items' → Agrees (arr items) (arr items')
  | obj {fields middle fields' : List (String × Json)} : (fields.map Prod.fst).Nodup →
      AgreeFields fields middle → middle.Perm fields' → Agrees (obj fields) (obj fields')

/-- Items in the same places agree. -/
inductive AgreeItems : List Json → List Json → Prop
  | nil : AgreeItems [] []
  | cons {j j' : Json} {items items' : List Json} :
      Agrees j j' → AgreeItems items items' → AgreeItems (j :: items) (j' :: items')

/-- Fields in the same places have one key and values that agree. -/
inductive AgreeFields : List (String × Json) → List (String × Json) → Prop
  | nil : AgreeFields [] []
  | cons {k : String} {j j' : Json} {fields fields' : List (String × Json)} :
      Agrees j j' → AgreeFields fields fields' → AgreeFields ((k, j) :: fields) ((k, j') :: fields')

end

mutual

/-- The keys of each object are all different. -/
def KeysDistinct : Json → Prop
  | arr items => KeysDistinctItems items
  | obj fields => (fields.map Prod.fst).Nodup ∧ KeysDistinctFields fields
  | _ => True

/-- In every item, the keys of each object are all different. -/
def KeysDistinctItems : List Json → Prop
  | [] => True
  | j :: items => KeysDistinct j ∧ KeysDistinctItems items

/-- In the value of every field, the keys of each object are all different. -/
def KeysDistinctFields : List (String × Json) → Prop
  | [] => True
  | (_, j) :: fields => KeysDistinct j ∧ KeysDistinctFields fields

end

theorem keysDistinctItems_iff : ∀ {items : List Json},
    KeysDistinctItems items ↔ ∀ j ∈ items, j.KeysDistinct
  | [] => by simp [KeysDistinctItems]
  | j :: items => by rw [KeysDistinctItems, keysDistinctItems_iff, List.forall_mem_cons]

theorem keysDistinctFields_iff : ∀ {fields : List (String × Json)},
    KeysDistinctFields fields ↔ ∀ e ∈ fields, e.2.KeysDistinct
  | [] => by simp [KeysDistinctFields]
  | (k, j) :: fields => by rw [KeysDistinctFields, keysDistinctFields_iff, List.forall_mem_cons]

theorem agreeItems_map {f : Json → Json} : ∀ {items : List Json},
    (∀ j ∈ items, Agrees j (f j)) → AgreeItems items (items.map f)
  | [], _ => .nil
  | j :: _, h => .cons (h j List.mem_cons_self) (agreeItems_map fun i hi => h i (.tail _ hi))

theorem agreeFields_map {f : Json → Json} : ∀ {fields : List (String × Json)},
    (∀ e ∈ fields, Agrees e.2 (f e.2)) → AgreeFields fields (fields.map fun e => (e.1, f e.2))
  | [], _ => .nil
  | e :: _, h => .cons (h e List.mem_cons_self) (agreeFields_map fun i hi => h i (.tail _ hi))

/-- **A document with distinct keys agrees with itself with sorted keys.** -/
theorem agrees_sortKeys (j : Json) : j.KeysDistinct → Agrees j j.sortKeys := by
  induction j using induction_on with
  | token j cs hcs =>
    intro _
    cases j with
    | str | arr | obj => cases hcs
    | _ => constructor
  | str s => exact fun _ => .str s
  | arr items ih =>
    intro h
    have hitems := keysDistinctItems_iff.1 h
    rw [sortKeys, sortKeysItems_eq_map]
    exact .arr (agreeItems_map fun j hj => ih j hj (hitems j hj))
  | obj fields ih =>
    rintro ⟨hn, h⟩
    have hfields := keysDistinctFields_iff.1 h
    rw [sortKeys, sortKeysFields_eq_map]
    exact .obj hn (agreeFields_map fun e he => ih e he (hfields e he)) (List.mergeSort_perm ..).symm

/-! ## Reading back -/

theorem readBack_sortKeys (j : Json) : j.sortKeys.readBack = j.readBack.sortKeys := by
  induction j using induction_on with
  | token j cs hcs =>
    cases j with
    | str | arr | obj => cases hcs
    | _ => rfl
  | str s => rfl
  | arr items ih =>
    simp only [sortKeys, readBack, sortKeysItems_eq_map, readBackItems_eq_map, List.map_map]
    exact congrArg arr (List.map_congr_left ih)
  | obj fields ih =>
    have hsort : (sortFields (fields.map fun e => (e.1, e.2.sortKeys))).map
          (fun e => (e.1, e.2.readBack)) =
        sortFields ((fields.map fun e => (e.1, e.2.sortKeys)).map fun e => (e.1, e.2.readBack)) :=
      List.map_mergeSort fun _ _ _ _ => rfl
    simp only [sortKeys, readBack, sortKeysFields_eq_map, readBackFields_eq_map]
    rw [hsort, List.map_map, List.map_map]
    have hmap : fields.map (fun e => (e.1, e.2.sortKeys.readBack)) =
        fields.map fun e => (e.1, e.2.readBack.sortKeys) :=
      List.map_congr_left fun e he => by rw [ih e he]
    exact congrArg (fun l => obj (sortFields l)) hmap

theorem KeysDistinct.readBack (j : Json) : j.KeysDistinct → j.readBack.KeysDistinct := by
  induction j using induction_on with
  | token j cs hcs =>
    intro _
    cases j with
    | str | arr | obj => cases hcs
    | _ => trivial
  | str s => exact id
  | arr items ih =>
    intro h
    have hitems := keysDistinctItems_iff.1 h
    rw [Json.readBack, readBackItems_eq_map]
    exact keysDistinctItems_iff.2 (List.forall_mem_map.2 fun j hj => ih j hj (hitems j hj))
  | obj fields ih =>
    rintro ⟨hn, h⟩
    have hfields := keysDistinctFields_iff.1 h
    rw [Json.readBack, readBackFields_eq_map]
    refine ⟨?_, keysDistinctFields_iff.2 (List.forall_mem_map.2 fun e he => ih e he (hfields e he))⟩
    rwa [List.map_map]

end Runbook.Json
