/-
  Plain data as a normal form of values.

  The plain data of a value hold nothing but plain data, are their own plain data, and
  have the text of the value.  Their opaque leaves are leaves of the value, or copies of
  tokens in its records.  `encode` makes a document of data alone: it stops at keys that
  are no texts, as it has no order for them, and asks what stands for any other value.

  * `isCopy_of_within_plainIn`, `within_or_isCopy_of_within_plain?`: where opaque leaves
    come from;
  * `stringify?_of_plain?_eq`: plain data have the text of the value;
  * `IsPlain.encode_eq`: on plain data the encoder does not stop, and asks for nothing
    but opaque leaves;
  * `plain_normal`: **so a value that is not refused has a normal form**, which its text
    is written from;
  * `plain_copied`: a second rendering may have other leaves and another text.
-/
import Runbook.Proofs.Value.Form

namespace Runbook.Value

open Json (sortFields)
open Text (CodePoint codePoints)

variable {τ φ : Type}

/-! ## Opaque leaves -/

/-- Values that are only known by their texts. -/
def IsOpaque : Value τ φ → Prop
  | bytes _ | token _ => True
  | _ => False

/-- A token is the copy of one in a value. -/
def IsCopyIn (l : Library τ φ) (v u : Value τ φ) : Prop :=
  ∃ text text', u = token text' ∧ l.copy text = .ok text' ∧ (token text).Within v

/-- A token is the copy of one in a record, which stands in a value. -/
def IsCopy (l : Library τ φ) (v u : Value τ φ) : Prop :=
  ∃ name fields, (record name fields).Within v ∧ IsCopyIn l (record name fields) u

section
variable {l : Library τ φ} {u v w p : Value τ φ}

theorem IsCopyIn.of_part (h : IsCopyIn l w u) (hw : w ∈ v.parts) : IsCopyIn l v u :=
  let ⟨text, text', hu, hcopy, hin⟩ := h
  ⟨text, text', hu, hcopy, .part hw hin⟩

theorem IsCopy.of_part (h : IsCopy l w u) (hw : w ∈ v.parts) : IsCopy l v u :=
  let ⟨name, fields, hin, hu⟩ := h
  ⟨name, fields, .part hw hin, hu⟩

variable [DecidableEq τ]

/-- Documents hold no opaque leaves. -/
theorem not_isOpaque_of_within_ofJson {j : Json τ} (h : u.Within (ofJson j)) : ¬ u.IsOpaque := by
  generalize hv : (ofJson j : Value τ φ) = v at h
  induction h generalizing j with
  | self => cases j <;> cases hv <;> exact id
  | part hpart _ ih =>
    obtain ⟨j', hj'⟩ := exists_of_mem_parts_ofJson (hv ▸ hpart)
    exact ih hj'.symm

variable [Texts τ]

/-- Where the opaque leaves of plain data come from. -/
theorem origin_of_within_plainIn {inside : Bool} (h : plainIn l inside v = .ok p) (hu : u.IsOpaque)
    (hin : u.Within p) : u.Within v ∨ IsCopy l v u ∨ inside = true ∧ IsCopyIn l v u := by
  induction v using parts_induction generalizing inside p with
  | step v ih =>
    have hy := yields_of_plainIn h
    cases hin with
    | self =>
      cases hy with
      | simple | token => exact .inl .self
      | copy hinside hcopy => exact .inr (.inr ⟨hinside, _, _, rfl, hcopy, .self⟩)
      | _ => exact hu.elim
    | part hpart hin =>
      rcases exists_of_mem_parts_of_yields hy hpart with ⟨inside', w, hw, hwp, hinside⟩ | ⟨j, rfl⟩
      · rcases ih w hw hwp hin with hin | hcopy | ⟨rfl, hcopy⟩
        · exact .inl (.part hw hin)
        · exact .inr (.inl (hcopy.of_part hw))
        · have hcopy := hcopy.of_part hw
          rcases hinside rfl with hinside | ⟨name, fields, rfl⟩
          · exact .inr (.inr ⟨hinside, hcopy⟩)
          · exact .inr (.inl ⟨name, fields, .self, hcopy⟩)
      · exact absurd hu (not_isOpaque_of_within_ofJson hin)

/-- The opaque leaves of plain data are leaves of the value, or copies of tokens in records. -/
theorem within_or_isCopy_of_within_plain? (h : v.plain? l = .ok p) (hu : u.IsOpaque)
    (hin : u.Within p) : u.Within v ∨ IsCopy l v u :=
  have hplain : plainIn l false v = .ok p := h
  (origin_of_within_plainIn hplain hu hin).imp_right (·.resolve_right fun h => Bool.false_ne_true h.1)

end

/-! ## Encoding plain data -/

section
variable [LE τ] [DecidableLE τ]

mutual

/-- The document of a value, with sorted fields, by an encoder of its own.  Of keys only texts are
sure to have an order, so the encoder stops at any other; `other` gives the document of a value that
is no data. -/
def encode (other : Value τ φ → Json τ) : Value τ φ → Except (Key τ) (Json τ)
  | null => .ok .null
  | bool b => .ok (.bool b)
  | int i => .ok (.int i)
  | float x => .ok (.float x)
  | str s => .ok (.str s)
  | list items | tuple items => (encodeItems other items).map .arr
  | map entries => (encodeEntries other entries).map fun fields => .obj (sortFields fields)
  | v => .ok (other v)

/-- The documents of items. -/
def encodeItems (other : Value τ φ → Json τ) : List (Value τ φ) → Except (Key τ) (List (Json τ))
  | [] => .ok []
  | v :: vs => do
    let j ← encode other v
    let js ← encodeItems other vs
    .ok (j :: js)

/-- The fields of entries. -/
def encodeEntries (other : Value τ φ → Json τ) :
    List (Key τ × Value τ φ) → Except (Key τ) (List (τ × Json τ))
  | [] => .ok []
  | (.str k, v) :: entries => do
    let j ← encode other v
    let fields ← encodeEntries other entries
    .ok ((k, j) :: fields)
  | (k, _) :: _ => .error k

end

variable [Texts τ] {other : Value τ φ → Json τ}

theorem encodeItems_eq {items : List (Value τ φ)}
    (h : ∀ v ∈ items, v.encode other = .ok v.json.sortKeys) :
    encodeItems other items = .ok (items.map fun v => v.json.sortKeys) := by
  induction items with
  | nil => rfl
  | cons v vs ih =>
    have hv := h v List.mem_cons_self
    have hvs := ih fun u hu => h u (.tail _ hu)
    simp only [encodeItems, hv, hvs, bind, Except.bind, List.map_cons]

theorem encodeEntries_eq {fields : List (τ × Value τ φ)}
    (h : ∀ e ∈ fields, e.2.encode other = .ok e.2.json.sortKeys) :
    encodeEntries other (fields.map fun e => (.str e.1, e.2)) =
      .ok (fields.map fun e => (e.1, e.2.json.sortKeys)) := by
  induction fields with
  | nil => rfl
  | cons e fields ih =>
    have he := h e List.mem_cons_self
    have hfields := ih fun d hd => h d (.tail _ hd)
    simp only [List.map_cons, encodeEntries, he, hfields, bind, Except.bind]

/-- Plain data are encoded as their sorted document, if opaque leaves become their texts. -/
theorem IsPlain.encode_eq (hother : ∀ u : Value τ φ, u.IsOpaque → other u = .str u.display)
    {v : Value τ φ} (h : v.IsPlain) : v.encode other = .ok v.json.sortKeys := by
  induction h with
  | null | bool | int | float | str => rfl
  | bytes bs => exact congrArg Except.ok (hother (.bytes bs) trivial)
  | token text => exact congrArg Except.ok (hother (.token text) trivial)
  | list _ ih =>
    rw [encode, encodeItems_eq ih, sortKeys_list]
    rfl
  | object _ _ ih =>
    rw [sortKeys_object, Value.object, encode, encodeEntries_eq ih]
    rfl

/-! ## The normal form -/

variable [DecidableEq τ]

/-- Plain data and their value have one text. -/
theorem stringify?_of_plain?_eq {l : Library τ φ} (l' : Library τ φ) {v p : Value τ φ}
    (h : v.plain? l = .ok p) : p.stringify? l' = v.stringify? l := by
  have hplain : p.IsPlain := isPlain_of_plain? h
  rw [stringify?_eq, stringify?_eq, h, hplain.plain?_eq]

/-- A value is in its normal form as data. -/
structure IsNormalForm (l : Library τ φ) (v p : Value τ φ) : Prop where
  /-- There is nothing but plain data, at any depth. -/
  plain : p.IsPlain
  /-- Opaque leaves are those of the value, or copies of tokens in its records. -/
  leaves : ∀ u : Value τ φ, u.IsOpaque → u.Within p → u.Within v ∨ IsCopy l v u
  /-- If copies keep their texts, all of them are leaves of the value. -/
  untouched : l.KeepsTexts → ∀ u : Value τ φ, u.IsOpaque → u.Within p → u.Within v
  /-- The data are their own plain data. -/
  again : ∀ l' : Library τ φ, p.plain? l' = .ok p
  /-- The data have the text that is written with them. -/
  text : ∀ l' : Library τ φ, p.stringify? l' = v.stringify? l
  /-- If copies keep their texts, this is every text of the value. -/
  texts : l.KeepsTexts → ∀ l' : Library τ φ, l'.KeepsTexts → l.dump = l'.dump →
    ∀ s, v.stringify? l' = .ok s → ∀ l'' : Library τ φ, p.stringify? l'' = .ok s
  /-- The text is written from the document of an encoder which takes no keys but texts, and knows
  no more of other values than the texts of opaque leaves. -/
  document : ∃ document,
    (∀ other : Value τ φ → Json τ, (∀ u : Value τ φ, u.IsOpaque → other u = .str u.display) →
      p.encode other = .ok document) ∧
    (¬ v.IsOpaque → (∀ s, v ≠ .str s) →
      v.stringify? l = .ok (Texts.ofString (document.write .compact)))

theorem isNormalForm_of_plain? {l : Library τ φ} {v p : Value τ φ} (h : v.plain? l = .ok p) :
    IsNormalForm l v p := by
  have hplain : p.IsPlain := isPlain_of_plain? h
  have hleaves (u : Value τ φ) (hu : u.IsOpaque) (hin : u.Within p) : u.Within v ∨ IsCopy l v u :=
    within_or_isCopy_of_within_plain? h hu hin
  refine
    { plain := hplain
      leaves := hleaves
      untouched := fun hl u hu hin => (hleaves u hu hin).elim id ?_
      again := hplain.plain?_eq
      text := fun l' => stringify?_of_plain?_eq l' h
      texts := fun hl l' hl' hdump s hs l'' => ?_
      document := ⟨p.json.sortKeys, fun other hother => hplain.encode_eq hother, ?_⟩ }
  · rintro ⟨name, fields, hrecord, text, text', rfl, hcopy, htoken⟩
    rw [hl text text' hcopy]
    exact htoken.trans hrecord
  · obtain ⟨q, hq, rfl⟩ := map_eq_ok (stringify?_eq l' v ▸ hs)
    have hpq : p = q := plain?_agree hl hl' hdump h hq
    rw [stringify?_eq, hplain.plain?_eq, hpq]
    rfl
  · intro hopaque hstr
    have hy : Yields l false v p := yields_of_plainIn h
    rw [stringify?_eq, h]
    cases hy with
    | simple hs =>
      cases v with
      | str s => exact absurd rfl (hstr s)
      | bytes => exact absurd trivial hopaque
      | null | bool | int | float => rfl
      | _ => exact hs.elim
    | token | copy => exact absurd trivial hopaque
    | _ => rfl

end

end Runbook.Value
