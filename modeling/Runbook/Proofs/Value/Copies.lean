/-
  Copies of values.

  A record is copied with all that it holds before it is rendered.  A copy has the
  shape of the value, but its opaque leaves are others, and a view in the value keeps
  it from being copied.

  * `mapM_eq_ok_iff`, `exists_of_mapM_eq_error`: results of rows;
  * `parts_induction`: induction over a value, through its parts;
  * `copied_eq`: **a copy that keeps the texts of opaque leaves is the same value**;
  * `uncopied_of_copied`: what a value holds that cannot be copied.
-/
import Mathlib.Data.List.Forall2
import Runbook.Proofs.Table
import Runbook.Value.Stringify

namespace Runbook

/-! ## Results of rows -/

section
variable {α β γ ε : Type}

theorem bind_eq_ok {x : Except ε α} {f : α → Except ε β} {b : β} (h : x >>= f = .ok b) :
    ∃ a, x = .ok a ∧ f a = .ok b := by
  cases x with
  | error e => cases h
  | ok a => exact ⟨a, rfl, h⟩

theorem bind_eq_error {x : Except ε α} {f : α → Except ε β} {e : ε} (h : x >>= f = .error e) :
    x = .error e ∨ ∃ a, x = .ok a ∧ f a = .error e := by
  cases x with
  | error e' => cases h; exact .inl rfl
  | ok a => exact .inr ⟨a, rfl, h⟩

theorem map_eq_ok {x : Except ε α} {f : α → β} {b : β} (h : x.map f = .ok b) :
    ∃ a, x = .ok a ∧ f a = b := by
  cases x with
  | error e => cases h
  | ok a => exact ⟨a, rfl, Except.ok.inj h⟩

theorem map_eq_error {x : Except ε α} {f : α → β} {e : ε} (h : x.map f = .error e) :
    x = .error e := by
  cases x with
  | error e' => cases h; rfl
  | ok a => cases h

/-- A row has a result if all of it has, one beside the other. -/
theorem mapM_eq_ok_iff {f : α → Except ε β} {as : List α} {bs : List β} :
    as.mapM f = .ok bs ↔ List.Forall₂ (fun a b => f a = .ok b) as bs := by
  induction as generalizing bs with
  | nil => cases bs <;> simp [pure, Except.pure]
  | cons a as ih =>
    rw [List.mapM_cons]
    constructor
    · intro h
      obtain ⟨b, hb, h⟩ := bind_eq_ok h
      obtain ⟨bs, hbs, h⟩ := bind_eq_ok h
      cases h
      exact .cons hb (ih.1 hbs)
    · rintro (_ | ⟨hb, hbs⟩)
      rw [hb, ih.2 hbs]
      rfl

/-- A row without a result has one in it without. -/
theorem exists_of_mapM_eq_error {f : α → Except ε β} {as : List α} {e : ε}
    (h : as.mapM f = .error e) : ∃ a ∈ as, f a = .error e := by
  induction as with
  | nil => cases h
  | cons a as ih =>
    rw [List.mapM_cons] at h
    rcases bind_eq_error h with ha | ⟨b, -, h⟩
    · exact ⟨a, List.mem_cons_self, ha⟩
    · rcases bind_eq_error h with has | ⟨bs, -, h⟩
      · obtain ⟨a', ha', he⟩ := ih has
        exact ⟨a', .tail _ ha', he⟩
      · cases h

theorem exists_of_mem_right {R : α → β → Prop} {as : List α} {bs : List β}
    (h : List.Forall₂ R as bs) {b : β} (hb : b ∈ bs) : ∃ a ∈ as, R a b := by
  induction h with
  | nil => cases hb
  | cons hab _ ih =>
    rcases List.mem_cons.1 hb with rfl | hb
    · exact ⟨_, List.mem_cons_self, hab⟩
    · obtain ⟨a, ha, hr⟩ := ih hb
      exact ⟨a, .tail _ ha, hr⟩

/-- Two rows one after the other make one. -/
theorem forall₂_comp {R : α → β → Prop} {S : β → γ → Prop} {T : α → γ → Prop}
    (hT : ∀ a b c, R a b → S b c → T a c) : ∀ {as : List α} {bs : List β} {cs : List γ},
    List.Forall₂ R as bs → List.Forall₂ S bs cs → List.Forall₂ T as cs
  | _, _, _, .nil, .nil => .nil
  | _, _, _, .cons hab hr, .cons hbc hs => .cons (hT _ _ _ hab hbc) (forall₂_comp hT hr hs)

/-- Two rows from the same things are the same if there is one result of each of these. -/
theorem forall₂_unique {R S : α → β → Prop} {as : List α} {bs bs' : List β}
    (h : List.Forall₂ R as bs) (h' : List.Forall₂ S as bs')
    (heq : ∀ a ∈ as, ∀ b b', R a b → S a b' → b = b') : bs = bs' := by
  induction h generalizing bs' with
  | nil => cases h'; rfl
  | cons hab _ ih =>
    obtain _ | ⟨hab', h'⟩ := h'
    rw [heq _ List.mem_cons_self _ _ hab hab', ih h' fun a ha => heq a (.tail _ ha)]

/-- A row of results that are known is the row of these. -/
theorem forall₂_eq_map {R : α → β → Prop} {g : α → β} {as : List α} {bs : List β}
    (h : List.Forall₂ R as bs) (heq : ∀ a ∈ as, ∀ b, R a b → b = g a) : bs = as.map g := by
  induction h with
  | nil => rfl
  | cons hab _ ih =>
    rw [heq _ List.mem_cons_self _ hab, ih fun a ha => heq a (.tail _ ha), List.map_cons]

end

namespace Value

variable {τ φ : Type}

/-! ## Parts -/

/-- The values that a value is made of. -/
def parts : Value τ φ → List (Value τ φ)
  | list items | tuple items => items
  | map entries | view _ entries => entries.map Prod.snd
  | record _ fields | model _ fields => fields.map Prod.snd
  | _ => []

theorem sizeOf_lt_of_mem_parts {u v : Value τ φ} (h : u ∈ v.parts) : sizeOf u < sizeOf v := by
  have hsnd {α : Type} [SizeOf α] {entries : List (α × Value τ φ)} (h : u ∈ entries.map Prod.snd) :
      sizeOf u < sizeOf entries := by
    obtain ⟨e, he, rfl⟩ := List.mem_map.1 h
    have := List.sizeOf_lt_of_mem he
    grind
  cases v with
  | list items | tuple items =>
    have := List.sizeOf_lt_of_mem h
    grind [parts]
  | map entries | view _ entries | record _ entries | model _ entries =>
    have := hsnd h
    grind
  | _ => cases h

/-- Induction over a value, through its parts. -/
theorem parts_induction {P : Value τ φ → Prop} (step : ∀ v, (∀ u ∈ v.parts, P u) → P v)
    (v : Value τ φ) : P v :=
  step v fun u hu => have := sizeOf_lt_of_mem_parts hu; parts_induction step u
termination_by sizeOf v

/-- A value stands in another one, at any depth. -/
inductive Within (u : Value τ φ) : Value τ φ → Prop
  | self : Within u u
  | part {v w : Value τ φ} : v ∈ w.parts → Within u v → Within u w

theorem Within.eq_or_part {u v : Value τ φ} (h : u.Within v) : u = v ∨ ∃ w ∈ v.parts, u.Within w := by
  cases h with
  | self => exact .inl rfl
  | part hw h => exact .inr ⟨_, hw, h⟩

theorem Within.trans {u v w : Value τ φ} (huv : u.Within v) (hvw : v.Within w) : u.Within w := by
  induction hvw with
  | self => exact huv
  | part h _ ih => exact .part h ih

/-- The parts of a map of fields are values of the fields. -/
theorem exists_of_mem_parts_ofFields [DecidableEq τ] {u : Value τ φ} {fields : List (τ × Value τ φ)}
    (h : u ∈ (ofFields fields).parts) : ∃ e ∈ fields, e.2 = u := by
  simp only [ofFields, object, parts, List.map_map, List.mem_map] at h
  obtain ⟨e, he, rfl⟩ := h
  exact ⟨e, Table.mem_of_mem_ofList he, rfl⟩

/-! ## Rows of copies -/

section
variable (l : Library τ φ) (spread : Bool)

theorem copiedItems_eq_mapM : ∀ items : List (Value τ φ),
    copiedItems l spread items = items.mapM (copied l spread)
  | [] => rfl
  | v :: vs => by
    rw [copiedItems, copiedItems_eq_mapM vs, List.mapM_cons]
    rfl

theorem copiedEntries_eq_mapM : ∀ entries : List (Key τ × Value τ φ),
    copiedEntries l spread entries = entries.mapM fun e => do
      let k ← e.1.copied l
      let v ← e.2.copied l spread
      .ok (k, v)
  | [] => rfl
  | (k, v) :: entries => by
    rw [copiedEntries, copiedEntries_eq_mapM entries, List.mapM_cons]
    cases k.copied l <;> cases v.copied l spread <;> rfl

theorem copiedFields_eq_mapM : ∀ fields : List (τ × Value τ φ),
    copiedFields l spread fields = fields.mapM fun e => (e.2.copied l spread).map fun v => (e.1, v)
  | [] => rfl
  | (k, v) :: fields => by
    rw [copiedFields, copiedFields_eq_mapM fields, List.mapM_cons]
    cases v.copied l spread <;> rfl

end

/-! ## Copies that keep their texts -/

section

variable {l : Library τ φ}

/-- Copies have the texts of their originals. -/
def Library.KeepsTexts (l : Library τ φ) : Prop :=
  ∀ text text', l.copy text = .ok text' → text' = text

mutual

theorem copied_key_eq (hl : l.KeepsTexts) : ∀ {k k' : Key τ}, k.copied l = .ok k' → k' = k
  | .null, _, h | .bool _, _, h | .int _, _, h | .float _, _, h | .str _, _, h | .bytes _, _, h => by
    cases h
    rfl
  | .tuple items, _, h => by
    obtain ⟨items', hitems, rfl⟩ := map_eq_ok h
    rw [copied_keys_eq hl hitems]
  | .token text, _, h => by
    obtain ⟨text', htext, rfl⟩ := map_eq_ok h
    rw [hl text text' htext]

theorem copied_keys_eq (hl : l.KeepsTexts) : ∀ {ks ks' : List (Key τ)},
    Key.copiedAll l ks = .ok ks' → ks' = ks
  | [], _, h => by cases h; rfl
  | k :: ks, _, h => by
    obtain ⟨k', hk, h⟩ := bind_eq_ok h
    obtain ⟨ks', hks, h⟩ := bind_eq_ok h
    cases h
    rw [copied_key_eq hl hk, copied_keys_eq hl hks]

end

/-- A copy that keeps the texts is the same value. -/
theorem copied_eq (hl : l.KeepsTexts) {v w : Value τ φ} (h : v.copied l false = .ok w) : w = v := by
  induction v using parts_induction generalizing w with
  | step v ih =>
    have hfields {fields fields' : List (τ × Value τ φ)}
        (hparts : ∀ e ∈ fields, e.2 ∈ v.parts) (h : copiedFields l false fields = .ok fields') :
        fields' = fields := by
      rw [copiedFields_eq_mapM, mapM_eq_ok_iff] at h
      refine (forall₂_eq_map h fun e he f hf => ?_).trans (List.map_id fields)
      obtain ⟨u, hu, rfl⟩ := map_eq_ok hf
      rw [ih e.2 (hparts e he) hu, id]
    cases v with
    | null | bool | int | float | str | bytes => cases h; rfl
    | token text =>
      obtain ⟨text', htext, rfl⟩ := map_eq_ok h
      rw [hl text text' htext]
    | list items | tuple items =>
      obtain ⟨items', hitems, rfl⟩ := map_eq_ok h
      rw [copiedItems_eq_mapM, mapM_eq_ok_iff] at hitems
      rw [forall₂_eq_map hitems fun u hu b hb => ih u hu hb, List.map_id']
    | map entries =>
      obtain ⟨entries', hentries, rfl⟩ := map_eq_ok h
      rw [copiedEntries_eq_mapM, mapM_eq_ok_iff] at hentries
      have hsame : entries' = entries := by
        refine (forall₂_eq_map hentries fun e he f hf => ?_).trans (List.map_id entries)
        obtain ⟨k, hk, hf⟩ := bind_eq_ok hf
        obtain ⟨u, hu, hf⟩ := bind_eq_ok hf
        cases hf
        rw [copied_key_eq hl hk, ih e.2 (List.mem_map_of_mem he) hu, id]
      rw [hsame]
    | view refusal entries => cases h
    | record name fields | model name fields =>
      obtain ⟨fields', hfields', rfl⟩ := map_eq_ok h
      cases hfields (fun e he => List.mem_map_of_mem he) hfields'
      rfl

/-! ## Refusals to copy -/

variable {e : φ}

mutual

theorem exists_of_copied_key_error : ∀ {k : Key τ}, k.copied l = .error e →
    ∃ text, l.copy text = .error e
  | .tuple _, h => exists_of_copied_keys_error (map_eq_error h)
  | .token text, h => ⟨text, map_eq_error h⟩

theorem exists_of_copied_keys_error : ∀ {ks : List (Key τ)},
    Key.copiedAll l ks = .error e → ∃ text, l.copy text = .error e
  | _ :: _, h => by
    rcases bind_eq_error h with hk | ⟨_, -, h⟩
    · exact exists_of_copied_key_error hk
    · rcases bind_eq_error h with hks | ⟨_, -, h⟩
      · exact exists_of_copied_keys_error hks
      · cases h

end

/-- Something in a value refuses to be copied: a view, or a token. -/
def Uncopied (l : Library τ φ) (e : φ) (v : Value τ φ) : Prop :=
  (∃ entries, (view e entries).Within v) ∨ ∃ text, l.copy text = .error e

theorem Uncopied.of_part {u v : Value τ φ} (h : Uncopied l e u) (hu : u ∈ v.parts) :
    Uncopied l e v := by
  rcases h with ⟨entries, h⟩ | h
  · exact .inl ⟨entries, .part hu h⟩
  · exact .inr h

theorem uncopied_of_copied {spread : Bool} {v : Value τ φ} (h : v.copied l spread = .error e) :
    Uncopied l e v := by
  induction v using parts_induction generalizing spread with
  | step v ih =>
    have hfields {spread : Bool} {fields : List (τ × Value τ φ)}
        (hv : v.parts = fields.map Prod.snd) (h : copiedFields l spread fields = .error e) :
        Uncopied l e v := by
      rw [copiedFields_eq_mapM] at h
      obtain ⟨f, hf, h⟩ := exists_of_mapM_eq_error h
      have hpart : f.2 ∈ v.parts := hv ▸ List.mem_map_of_mem hf
      exact (ih f.2 hpart (map_eq_error h)).of_part hpart
    cases v with
    | null | bool | int | float | str | bytes => cases h
    | token text => exact .inr ⟨text, map_eq_error h⟩
    | list items | tuple items =>
      have h := map_eq_error h
      rw [copiedItems_eq_mapM] at h
      obtain ⟨u, hu, h⟩ := exists_of_mapM_eq_error h
      exact (ih u hu h).of_part hu
    | map entries =>
      have h := map_eq_error h
      rw [copiedEntries_eq_mapM] at h
      obtain ⟨f, hf, h⟩ := exists_of_mapM_eq_error h
      have hpart : f.2 ∈ (map entries).parts := List.mem_map_of_mem hf
      rcases bind_eq_error h with hk | ⟨_, -, h⟩
      · exact .inr (exists_of_copied_key_error hk)
      · rcases bind_eq_error h with hu | ⟨_, -, h⟩
        · exact (ih f.2 hpart hu).of_part hpart
        · cases h
    | view refusal entries =>
      cases h
      exact .inl ⟨entries, .self⟩
    | record name fields | model name fields => exact hfields rfl (map_eq_error h)

end

end Value

end Runbook
