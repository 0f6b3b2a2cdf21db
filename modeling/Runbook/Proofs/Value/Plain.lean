/-
  How plain data come about.

  A value is rendered outside of records, or in one, where it is copied and spread
  before.  `plainIn` gives the plain data in either case, and `Yields` says what they
  are made of, constructor by constructor.  They are null, truth values, numbers, texts
  and opaque leaves, lists of plain data, and maps from texts to plain data (`IsPlain`).

  * `yields_of_plainIn`: **what the plain data of a value are made of**;
  * `exists_of_mem_parts_of_yields`: their parts are the plain data of parts, or dumped;
  * `isPlain_of_plainIn` and `IsPlain.plain?_eq`: they are plain data, which stay as they
    are;
  * `plainIn_agree`: **where copies keep their texts, a value has one plain form**;
  * `refused_of_plain?`: what a value without plain data holds.
-/
import Runbook.Proofs.Value.Copies

namespace Runbook

namespace Value

variable {τ φ : Type}

/-! ## Plain data -/

section
variable [DecidableEq τ]

/-- Plain data.  The keys of a map are texts, no two of them the same. -/
inductive IsPlain : Value τ φ → Prop
  | null : IsPlain null
  | bool (b : Bool) : IsPlain (bool b)
  | int (i : Int) : IsPlain (int i)
  | float (x : Float) : IsPlain (float x)
  | str (s : τ) : IsPlain (str s)
  | bytes (bs : List UInt8) : IsPlain (bytes bs)
  | token (text : τ) : IsPlain (token text)
  | list {items : List (Value τ φ)} : (∀ v ∈ items, IsPlain v) → IsPlain (list items)
  | object {fields : List (τ × Value τ φ)} :
      (fields.map Prod.fst).Nodup → (∀ e ∈ fields, IsPlain e.2) → IsPlain (object fields)

theorem isPlain_ofFields {fields : List (τ × Value τ φ)} (h : ∀ e ∈ fields, e.2.IsPlain) :
    (ofFields fields).IsPlain :=
  .object (Table.ofList fields).nodup fun e he => h e (Table.mem_of_mem_ofList he)

mutual

theorem isPlain_ofJson : ∀ j : Json τ, (ofJson j : Value τ φ).IsPlain
  | .null => .null
  | .bool b => .bool b
  | .int i => .int i
  | .float x => .float x
  | .str s => .str s
  | .arr items => .list (isPlain_ofJsonItems items)
  | .obj fields => isPlain_ofFields (isPlain_ofJsonFields fields)

theorem isPlain_ofJsonItems : ∀ items : List (Json τ),
    ∀ v ∈ (ofJsonItems items : List (Value τ φ)), v.IsPlain
  | [] => nofun
  | j :: js => List.forall_mem_cons.2 ⟨isPlain_ofJson j, isPlain_ofJsonItems js⟩

theorem isPlain_ofJsonFields : ∀ fields : List (τ × Json τ),
    ∀ e ∈ (ofJsonFields fields : List (τ × Value τ φ)), e.2.IsPlain
  | [] => nofun
  | (_, j) :: fields => List.forall_mem_cons.2 ⟨isPlain_ofJson j, isPlain_ofJsonFields fields⟩

end

theorem ofJsonItems_eq_map : ∀ items : List (Json τ),
    (ofJsonItems items : List (Value τ φ)) = items.map ofJson
  | [] => rfl
  | j :: js => by rw [ofJsonItems, ofJsonItems_eq_map js, List.map_cons]

theorem ofJsonFields_eq_map : ∀ fields : List (τ × Json τ),
    (ofJsonFields fields : List (τ × Value τ φ)) = fields.map fun e => (e.1, ofJson e.2)
  | [] => rfl
  | (k, j) :: fields => by rw [ofJsonFields, ofJsonFields_eq_map fields, List.map_cons]

/-- The parts of a document's value are those of documents. -/
theorem exists_of_mem_parts_ofJson {j : Json τ} {u : Value τ φ} (h : u ∈ (ofJson j).parts) :
    ∃ j', u = ofJson j' := by
  cases j with
  | null | bool | int | float | str => cases h
  | arr items =>
    rw [ofJson, parts, ofJsonItems_eq_map] at h
    obtain ⟨j', -, rfl⟩ := List.mem_map.1 h
    exact ⟨j', rfl⟩
  | obj fields =>
    obtain ⟨f, hf, rfl⟩ := exists_of_mem_parts_ofFields h
    rw [ofJsonFields_eq_map] at hf
    obtain ⟨e, -, rfl⟩ := List.mem_map.1 hf
    exact ⟨e.2, rfl⟩

end

/-! ## Rows of plain data -/

section
variable (l : Library τ φ) [DecidableEq τ] [Texts τ]
  (onRecord : String → List (τ × Value τ φ) → Except φ (Value τ φ))

theorem plainItems_eq_mapM : ∀ items : List (Value τ φ),
    plainItems l onRecord items = items.mapM (plainWith l onRecord)
  | [] => rfl
  | v :: vs => by
    rw [plainItems, plainItems_eq_mapM vs, List.mapM_cons]
    rfl

theorem plainEntries_eq_mapM : ∀ entries : List (Key τ × Value τ φ),
    plainEntries l onRecord entries =
      entries.mapM fun e => (plainWith l onRecord e.2).map fun v => (e.1.text, v)
  | [] => rfl
  | (k, v) :: entries => by
    rw [plainEntries, plainEntries_eq_mapM entries, List.mapM_cons]
    cases plainWith l onRecord v <;> rfl

end

/-! ## What plain data are made of -/

variable [DecidableEq τ] [Texts τ] (l : Library τ φ)

/-- The text of a key, which is copied in a record. -/
def keyTextIn : Bool → Key τ → Except φ τ
  | true, k => (k.copied l).map Key.text
  | false, k => .ok k.text

/-- The fields of a model, which are copied in a record. -/
def fieldsIn : Bool → List (τ × Value τ φ) → Except φ (List (τ × Value τ φ))
  | true, fields => copiedFields l false fields
  | false, fields => .ok fields

/-- Plain data of a value, which is copied and spread in a record. -/
def plainIn : Bool → Value τ φ → Except φ (Value τ φ)
  | true, v => v.copied l true >>= plainSpread l
  | false, v => v.plain? l

/-- Leaves that are never copied. -/
def IsSimple : Value τ φ → Prop
  | null | bool _ | int _ | float _ | str _ | bytes _ => True
  | _ => False

/-- The plain data of a value, in a record or not, are made of these. -/
inductive Yields (inside : Bool) : Value τ φ → Value τ φ → Prop
  | simple {v : Value τ φ} : v.IsSimple → Yields inside v v
  | token {text : τ} : inside = false → Yields inside (token text) (token text)
  | copy {text text' : τ} : inside = true → l.copy text = .ok text' →
      Yields inside (.token text) (.token text')
  | list {items data : List (Value τ φ)} :
      List.Forall₂ (fun v p => plainIn l inside v = .ok p) items data →
      Yields inside (.list items) (.list data)
  | tuple {items data : List (Value τ φ)} :
      List.Forall₂ (fun v p => plainIn l inside v = .ok p) items data →
      Yields inside (.tuple items) (.list data)
  | map {entries : List (Key τ × Value τ φ)} {data : List (τ × Value τ φ)} :
      List.Forall₂ (fun e f => keyTextIn l inside e.1 = .ok f.1 ∧ plainIn l inside e.2 = .ok f.2)
        entries data →
      Yields inside (.map entries) (ofFields data)
  | view {refusal : φ} {entries : List (Key τ × Value τ φ)} {data : List (τ × Value τ φ)} :
      inside = false →
      List.Forall₂ (fun e f => keyTextIn l inside e.1 = .ok f.1 ∧ plainIn l inside e.2 = .ok f.2)
        entries data →
      Yields inside (.view refusal entries) (ofFields data)
  | record {name : String} {fields data : List (τ × Value τ φ)} :
      List.Forall₂ (fun e f => e.1 = f.1 ∧ plainIn l true e.2 = .ok f.2) fields data →
      Yields inside (.record name fields) (ofFields data)
  | model {name : String} {fields fields' : List (τ × Value τ φ)} {data : List (τ × Json τ)} :
      fieldsIn l inside fields = .ok fields' → l.dump name fields' = .ok data →
      Yields inside (.model name fields) (ofJson (.obj data))

variable {l} {inside : Bool} {v p : Value τ φ}

/-- A record is copied wherever it stands. -/
theorem plainIn_record (inside : Bool) (name : String) (fields : List (τ × Value τ φ)) :
    plainIn l inside (.record name fields) = plainIn l true (.record name fields) := by
  cases inside <;> rfl

theorem yields_of_plain? (h : plainIn l false v = .ok p) (hv : ∀ name fields, v ≠ record name fields) :
    Yields l false v p := by
  rw [plainIn, plain?] at h
  have hitems {items data : List (Value τ φ)}
      (h : plainItems l (plainRecord l) items = .ok data) :
      List.Forall₂ (fun v p => plainIn l false v = .ok p) items data := by
    rw [plainItems_eq_mapM] at h
    exact mapM_eq_ok_iff.1 h
  have hentries {entries : List (Key τ × Value τ φ)} {data : List (τ × Value τ φ)}
      (h : plainEntries l (plainRecord l) entries = .ok data) :
      List.Forall₂ (fun e f => keyTextIn l false e.1 = .ok f.1 ∧ plainIn l false e.2 = .ok f.2)
        entries data := by
    rw [plainEntries_eq_mapM] at h
    refine (mapM_eq_ok_iff.1 h).imp fun e f hf => ?_
    obtain ⟨u, hu, rfl⟩ := map_eq_ok hf
    exact ⟨rfl, hu⟩
  cases v with
  | null | bool | int | float | str | bytes =>
    cases h
    exact .simple trivial
  | token text =>
    cases h
    exact .token rfl
  | list items =>
    obtain ⟨data, hdata, rfl⟩ := map_eq_ok h
    exact .list (hitems hdata)
  | tuple items =>
    obtain ⟨data, hdata, rfl⟩ := map_eq_ok h
    exact .tuple (hitems hdata)
  | map entries =>
    obtain ⟨data, hdata, rfl⟩ := map_eq_ok h
    exact .map (hentries hdata)
  | view refusal entries =>
    obtain ⟨data, hdata, rfl⟩ := map_eq_ok h
    exact .view rfl (hentries hdata)
  | record name fields => exact absurd rfl (hv name fields)
  | model name fields =>
    obtain ⟨data, hdata, rfl⟩ := map_eq_ok h
    exact .model rfl hdata

theorem yields_of_copied (h : plainIn l true v = .ok p) : Yields l true v p := by
  obtain ⟨w, hw, h⟩ := bind_eq_ok h
  rw [plainSpread] at h
  have hitems {items copies data : List (Value τ φ)} (hc : copiedItems l true items = .ok copies)
      (hd : plainItems l (fun name fields => .ok (record name fields)) copies = .ok data) :
      List.Forall₂ (fun v p => plainIn l true v = .ok p) items data := by
    rw [copiedItems_eq_mapM] at hc
    rw [plainItems_eq_mapM] at hd
    refine forall₂_comp (fun _ _ _ hc hd => ?_) (mapM_eq_ok_iff.1 hc) (mapM_eq_ok_iff.1 hd)
    rw [plainIn, hc]
    exact hd
  cases v with
  | null | bool | int | float | str | bytes =>
    cases hw
    cases h
    exact .simple trivial
  | token text =>
    obtain ⟨text', htext, rfl⟩ := map_eq_ok hw
    cases h
    exact .copy rfl htext
  | list items =>
    obtain ⟨copies, hcopies, rfl⟩ := map_eq_ok hw
    obtain ⟨data, hdata, rfl⟩ := map_eq_ok h
    exact .list (hitems hcopies hdata)
  | tuple items =>
    obtain ⟨copies, hcopies, rfl⟩ := map_eq_ok hw
    obtain ⟨data, hdata, rfl⟩ := map_eq_ok h
    exact .tuple (hitems hcopies hdata)
  | map entries =>
    rw [copied, copiedEntries_eq_mapM] at hw
    obtain ⟨copies, hcopies, rfl⟩ := map_eq_ok hw
    rw [plainWith, plainEntries_eq_mapM] at h
    obtain ⟨data, hdata, rfl⟩ := map_eq_ok h
    refine .map (forall₂_comp (fun _ _ _ hc hd => ?_) (mapM_eq_ok_iff.1 hcopies)
      (mapM_eq_ok_iff.1 hdata))
    obtain ⟨k, hk, hc⟩ := bind_eq_ok hc
    obtain ⟨u, hu, hc⟩ := bind_eq_ok hc
    cases hc
    obtain ⟨q, hq, rfl⟩ := map_eq_ok hd
    exact ⟨by rw [keyTextIn, hk]; rfl, by rw [plainIn, hu]; exact hq⟩
  | view refusal entries => cases hw
  | record name fields =>
    rw [copied, copiedFields_eq_mapM] at hw
    obtain ⟨copies, hcopies, rfl⟩ := map_eq_ok hw
    rw [if_pos rfl, object, plainWith, plainEntries_eq_mapM, List.mapM_map] at h
    obtain ⟨data, hdata, rfl⟩ := map_eq_ok h
    refine .record (forall₂_comp (fun _ _ _ hc hd => ?_) (mapM_eq_ok_iff.1 hcopies)
      (mapM_eq_ok_iff.1 hdata))
    obtain ⟨u, hu, rfl⟩ := map_eq_ok hc
    obtain ⟨q, hq, rfl⟩ := map_eq_ok hd
    exact ⟨rfl, by rw [plainIn, hu]; exact hq⟩
  | model name fields =>
    obtain ⟨fields', hfields, rfl⟩ := map_eq_ok hw
    obtain ⟨data, hdata, rfl⟩ := map_eq_ok h
    exact .model hfields hdata

/-- **What the plain data of a value are made of.** -/
theorem yields_of_plainIn (h : plainIn l inside v = .ok p) : Yields l inside v p := by
  cases inside with
  | true => exact yields_of_copied h
  | false =>
    by_cases hv : ∃ name fields, v = record name fields
    · obtain ⟨name, fields, rfl⟩ := hv
      cases yields_of_copied ((plainIn_record false name fields).symm.trans h) with
      | simple hs => exact hs.elim
      | record hdata => exact .record hdata
    · exact yields_of_plain? h fun name fields hr => hv ⟨name, fields, hr⟩

/-- The parts of plain data are the plain data of parts, or they are dumped. -/
theorem exists_of_mem_parts_of_yields (h : Yields l inside v p) {u : Value τ φ} (hu : u ∈ p.parts) :
    (∃ inside', ∃ w ∈ v.parts, plainIn l inside' w = .ok u ∧
      (inside' = true → inside = true ∨ ∃ name fields, v = record name fields)) ∨
    ∃ j, u = ofJson j := by
  cases h with
  | simple hs => cases v <;> first | exact hs.elim | cases hu
  | token | copy => cases hu
  | list hdata | tuple hdata =>
    obtain ⟨w, hw, hwu⟩ := exists_of_mem_right hdata hu
    exact .inl ⟨inside, w, hw, hwu, .inl⟩
  | map hdata | view _ hdata =>
    obtain ⟨f, hf, rfl⟩ := exists_of_mem_parts_ofFields hu
    obtain ⟨e, he, -, hef⟩ := exists_of_mem_right hdata hf
    exact .inl ⟨inside, e.2, List.mem_map_of_mem he, hef, .inl⟩
  | record hdata =>
    obtain ⟨f, hf, rfl⟩ := exists_of_mem_parts_ofFields hu
    obtain ⟨e, he, -, hef⟩ := exists_of_mem_right hdata hf
    exact .inl ⟨true, e.2, List.mem_map_of_mem he, hef, fun _ => .inr ⟨_, _, rfl⟩⟩
  | model => exact .inr (exists_of_mem_parts_ofJson hu)

/-! ## Normal forms -/

/-- The plain data of a value are plain data. -/
theorem isPlain_of_plainIn (h : plainIn l inside v = .ok p) : p.IsPlain := by
  induction v using parts_induction generalizing inside p with
  | step v ih =>
    have hy := yields_of_plainIn h
    cases hy with
    | simple hs => cases v <;> first | exact hs.elim | constructor
    | token | copy => exact .token _
    | list hdata | tuple hdata =>
      refine .list fun q hq => ?_
      obtain ⟨u, hu, huq⟩ := exists_of_mem_right hdata hq
      exact ih u hu huq
    | map hdata | view _ hdata | record hdata =>
      refine isPlain_ofFields fun f hf => ?_
      obtain ⟨e, he, -, hef⟩ := exists_of_mem_right hdata hf
      exact ih e.2 (List.mem_map_of_mem he) hef
    | model => exact isPlain_ofJson _

theorem isPlain_of_plain? (h : v.plain? l = .ok p) : p.IsPlain :=
  isPlain_of_plainIn (show plainIn l false v = .ok p from h)

/-- Plain data stay as they are. -/
theorem IsPlain.plain?_eq (l : Library τ φ) (h : p.IsPlain) : p.plain? l = .ok p := by
  induction h with
  | null | bool | int | float | str | bytes | token => rfl
  | @list items _ ih =>
    have hitems : items.mapM (plain? l) = .ok items := mapM_eq_ok_iff.2 (List.forall₂_same.2 ih)
    rw [plain?, plainWith, plainItems_eq_mapM]
    exact congrArg (Except.map Value.list) hitems
  | @object fields hn _ ih =>
    have hfields : fields.mapM (fun e => (e.2.plain? l).map fun v => (e.1, v)) = .ok fields := by
      refine mapM_eq_ok_iff.2 (List.forall₂_same.2 fun e he => ?_)
      rw [ih e he]
      rfl
    have hself : Value.object fields = ofFields fields := by rw [ofFields, Table.entries_ofList hn]
    rw [plain?, Value.object, plainWith, plainEntries_eq_mapM, List.mapM_map]
    exact (congrArg (Except.map ofFields) hfields).trans (congrArg Except.ok hself.symm)

/-! ## Texts -/

/-- Values that hold others. -/
def IsContainer : Value τ φ → Prop
  | list _ | tuple _ | map _ | view _ _ | record _ _ | model _ _ => True
  | _ => False

section
variable [LE τ] [DecidableLE τ]

/-- The text of a value is that of its plain data. -/
theorem stringify?_eq (l : Library τ φ) (v : Value τ φ) :
    v.stringify? l = (v.plain? l).map plainText := by
  cases v <;> rfl

/-- The text of the plain data of a container is their document. -/
theorem plainText_of_yields (h : Yields l inside v p) (hv : v.IsContainer) :
    plainText p = Texts.ofString (p.json.sortKeys.write .compact) := by
  cases h with
  | simple hs => cases v <;> first | exact hv.elim | exact hs.elim
  | token | copy => exact hv.elim
  | _ => rfl

/-- The text of a container is the sorted document of its plain data. -/
theorem stringify?_of_plain? (hv : v.IsContainer) (hp : v.plain? l = .ok p) :
    v.stringify? l = .ok (Texts.ofString (p.json.sortKeys.write .compact)) := by
  have hyields : Yields l false v p := yields_of_plainIn hp
  rw [stringify?_eq, hp]
  exact congrArg Except.ok (plainText_of_yields hyields hv)

end

/-! ## One plain form -/

omit [DecidableEq τ] in
theorem keyTextIn_eq (hl : l.KeepsTexts) {k : Key τ} {text : τ}
    (h : keyTextIn l inside k = .ok text) : text = k.text := by
  cases inside with
  | false => exact (Except.ok.inj h).symm
  | true =>
    obtain ⟨k', hk, rfl⟩ := map_eq_ok h
    rw [copied_key_eq hl hk]

omit [DecidableEq τ] [Texts τ] in
theorem fieldsIn_eq (hl : l.KeepsTexts) {fields fields' : List (τ × Value τ φ)}
    (h : fieldsIn l inside fields = .ok fields') : fields' = fields := by
  cases inside with
  | false => exact (Except.ok.inj h).symm
  | true =>
    have hmodel : (model "" fields).copied l false = .ok (model "" fields') := by
      rw [copied, show copiedFields l false fields = .ok fields' from h]
      rfl
    exact (model.inj (copied_eq hl hmodel)).2

/-- **Where copies keep their texts, a value has one plain form**, in records and outside. -/
theorem plainIn_agree {l' : Library τ φ} (hl : l.KeepsTexts) (hl' : l'.KeepsTexts)
    (hdump : l.dump = l'.dump) {inside' : Bool} {v p p' : Value τ φ}
    (h : plainIn l inside v = .ok p) (h' : plainIn l' inside' v = .ok p') : p = p' := by
  induction v using parts_induction generalizing inside inside' p p' with
  | step v ih =>
    have hy := yields_of_plainIn h
    have hy' := yields_of_plainIn h'
    have hitems {items data data' : List (Value τ φ)} (hv : v.parts = items)
        (hd : List.Forall₂ (fun u q => plainIn l inside u = .ok q) items data)
        (hd' : List.Forall₂ (fun u q => plainIn l' inside' u = .ok q) items data') :
        data = data' :=
      forall₂_unique hd hd' fun u hu q q' hq hq' => ih u (hv ▸ hu) hq hq'
    have hentries {entries : List (Key τ × Value τ φ)} {data data' : List (τ × Value τ φ)}
        (hv : v.parts = entries.map Prod.snd)
        (hd : List.Forall₂ (fun e f => keyTextIn l inside e.1 = .ok f.1 ∧
          plainIn l inside e.2 = .ok f.2) entries data)
        (hd' : List.Forall₂ (fun e f => keyTextIn l' inside' e.1 = .ok f.1 ∧
          plainIn l' inside' e.2 = .ok f.2) entries data') : data = data' :=
      forall₂_unique hd hd' fun e he f f' hf hf' => Prod.ext
        ((keyTextIn_eq hl hf.1).trans (keyTextIn_eq hl' hf'.1).symm)
        (ih e.2 (hv ▸ List.mem_map_of_mem he) hf.2 hf'.2)
    cases hy with
    | simple hs => cases hy' <;> first | rfl | exact hs.elim
    | token => cases hy' with
      | simple | token => rfl
      | copy _ ht => rw [hl' _ _ ht]
    | copy _ ht => cases hy' with
      | simple | token => rw [hl _ _ ht]
      | copy _ ht' => rw [hl _ _ ht, hl' _ _ ht']
    | list hdata => cases hy' with
      | simple hs => exact hs.elim
      | list hdata' => rw [hitems rfl hdata hdata']
    | tuple hdata => cases hy' with
      | simple hs => exact hs.elim
      | tuple hdata' => rw [hitems rfl hdata hdata']
    | map hdata => cases hy' with
      | simple hs => exact hs.elim
      | map hdata' => rw [hentries rfl hdata hdata']
    | view _ hdata => cases hy' with
      | simple hs => exact hs.elim
      | view _ hdata' => rw [hentries rfl hdata hdata']
    | record hdata => cases hy' with
      | simple hs => exact hs.elim
      | record hdata' =>
        rw [forall₂_unique hdata hdata' fun e he f f' hf hf' => Prod.ext
          (hf.1.symm.trans hf'.1) (ih e.2 (List.mem_map_of_mem he) hf.2 hf'.2)]
    | model hfields hdata => cases hy' with
      | simple hs => exact hs.elim
      | model hfields' hdata' =>
        rw [fieldsIn_eq hl hfields, hdump] at hdata
        rw [fieldsIn_eq hl' hfields', hdata] at hdata'
        rw [Except.ok.inj hdata']

/-- A value has one plain form, where copies keep their texts. -/
theorem plain?_agree {l' : Library τ φ} (hl : l.KeepsTexts) (hl' : l'.KeepsTexts)
    (hdump : l.dump = l'.dump) {p' : Value τ φ} (h : v.plain? l = .ok p) (h' : v.plain? l' = .ok p') :
    p = p' :=
  plainIn_agree hl hl' hdump (show plainIn l false v = .ok p from h)
    (show plainIn l' false v = .ok p' from h')

/-! ## Refusals -/

/-- A model in a value cannot be dumped. -/
def Undumped (l : Library τ φ) (e : φ) (v : Value τ φ) : Prop :=
  ∃ name fields fields', (model name fields).Within v ∧ l.dump name fields' = .error e

/-- Why a value has no plain data: a record in it cannot be copied, or a model in it cannot be
dumped. -/
def Refused (l : Library τ φ) (e : φ) (v : Value τ φ) : Prop :=
  (∃ name fields, (record name fields).Within v ∧ Uncopied l e (record name fields)) ∨
    Undumped l e v

section
variable {e : φ} {u : Value τ φ}

omit [DecidableEq τ] [Texts τ] in
theorem Undumped.of_part (h : Undumped l e u) (hu : u ∈ v.parts) : Undumped l e v :=
  let ⟨name, fields, fields', hm, hdump⟩ := h
  ⟨name, fields, fields', .part hu hm, hdump⟩

omit [DecidableEq τ] [Texts τ] in
theorem Refused.of_part (h : Refused l e u) (hu : u ∈ v.parts) : Refused l e v := by
  rcases h with ⟨name, fields, hr, h⟩ | h
  · exact .inl ⟨name, fields, .part hu hr, h⟩
  · exact .inr (h.of_part hu)

theorem uncopied_of_plainIn {v : Value τ φ} (h : plainIn l true v = .error e) :
    Uncopied l e v ∨ Undumped l e v := by
  induction v using parts_induction with
  | step v ih =>
    rcases bind_eq_error h with hcopy | ⟨w, hw, hplain⟩
    · exact .inl (uncopied_of_copied hcopy)
    have hpart {u : Value τ φ} (hu : u ∈ v.parts) (h : plainIn l true u = .error e) :
        Uncopied l e v ∨ Undumped l e v :=
      (ih u hu h).imp (·.of_part hu) (·.of_part hu)
    have hcopied {u c : Value τ φ} (hu : u.copied l true = .ok c) (hc : plainSpread l c = .error e) :
        plainIn l true u = .error e := by
      rw [plainIn, hu]
      exact hc
    have hitems {items copies : List (Value τ φ)} (hv : v.parts = items)
        (hc : copiedItems l true items = .ok copies)
        (hp : plainItems l (fun name fields => .ok (record name fields)) copies = .error e) :
        Uncopied l e v ∨ Undumped l e v := by
      rw [copiedItems_eq_mapM, mapM_eq_ok_iff] at hc
      rw [plainItems_eq_mapM] at hp
      obtain ⟨c, hmem, hce⟩ := exists_of_mapM_eq_error hp
      obtain ⟨u, hu, huc⟩ := exists_of_mem_right hc hmem
      exact hpart (hv ▸ hu) (hcopied huc hce)
    rw [plainSpread] at hplain
    cases v with
    | null | bool | int | float | str | bytes =>
      cases hw
      cases hplain
    | token text =>
      obtain ⟨text', -, rfl⟩ := map_eq_ok hw
      cases hplain
    | list items | tuple items =>
      obtain ⟨copies, hc, rfl⟩ := map_eq_ok hw
      exact hitems rfl hc (map_eq_error hplain)
    | map entries =>
      obtain ⟨copies, hc, rfl⟩ := map_eq_ok hw
      have hp := map_eq_error hplain
      rw [copiedEntries_eq_mapM, mapM_eq_ok_iff] at hc
      rw [plainEntries_eq_mapM] at hp
      obtain ⟨c, hmem, hce⟩ := exists_of_mapM_eq_error hp
      obtain ⟨f, hf, hfc⟩ := exists_of_mem_right hc hmem
      obtain ⟨_, -, hfc⟩ := bind_eq_ok hfc
      obtain ⟨_, hu, hfc⟩ := bind_eq_ok hfc
      cases hfc
      exact hpart (List.mem_map_of_mem hf) (hcopied hu (map_eq_error hce))
    | view refusal entries => cases hw
    | record name fields =>
      obtain ⟨copies, hc, rfl⟩ := map_eq_ok hw
      have hp := map_eq_error hplain
      rw [copiedFields_eq_mapM, mapM_eq_ok_iff] at hc
      rw [plainEntries_eq_mapM, List.mapM_map] at hp
      obtain ⟨c, hmem, hce⟩ := exists_of_mapM_eq_error hp
      obtain ⟨f, hf, hfc⟩ := exists_of_mem_right hc hmem
      obtain ⟨_, hu, rfl⟩ := map_eq_ok hfc
      exact hpart (List.mem_map_of_mem hf) (hcopied hu (map_eq_error hce))
    | model name fields =>
      obtain ⟨fields', -, rfl⟩ := map_eq_ok hw
      exact .inr ⟨name, fields, fields', .self, map_eq_error hplain⟩

/-- **What a value without plain data holds.** -/
theorem refused_of_plain? {v : Value τ φ} (h : v.plain? l = .error e) : Refused l e v := by
  induction v using parts_induction with
  | step v ih =>
    rw [plain?] at h
    cases v with
    | null | bool | int | float | str | bytes | token => cases h
    | list items | tuple items =>
      have h := map_eq_error h
      rw [plainItems_eq_mapM] at h
      obtain ⟨u, hu, h⟩ := exists_of_mapM_eq_error h
      exact (ih u hu h).of_part hu
    | map entries | view refusal entries =>
      have h := map_eq_error h
      rw [plainEntries_eq_mapM] at h
      obtain ⟨f, hf, h⟩ := exists_of_mapM_eq_error h
      exact (ih f.2 (List.mem_map_of_mem hf) (map_eq_error h)).of_part (List.mem_map_of_mem hf)
    | record name fields =>
      exact (uncopied_of_plainIn h).imp (fun h => ⟨name, fields, .self, h⟩) id
    | model name fields => exact .inr ⟨name, fields, fields, .self, map_eq_error h⟩

end

end Value

end Runbook
