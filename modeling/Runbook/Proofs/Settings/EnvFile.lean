/-
  Files of plain assignments, in the library that is there.

  An assignment is plain if it refers to no variable, can be set, neither forbids files
  nor spells the variable of a field in another case than its own.  Of files of plain
  assignments the library does what is assumed of one: it sets what they assign, and
  prefers the process variables to what they say.

  * `interpolate_eq_self`: a text without references stays as it is;
  * `resolve_eq_ofList`: the values of plain assignments are those that they write;
  * `load_eq`: what loading a file of plain assignments sets;
  * `stock_overrides` and `stock_prefersEnvironment`: **the assumptions hold.**
-/
import Mathlib.Data.List.Infix
import Runbook.Proofs.Settings.Variables
import Runbook.Settings.Stock

namespace Runbook.Settings

namespace EnvFile

/-- What a reference to a variable begins with. -/
def referenceStart : List Char := ['$', '\x7b']

/-- An assignment that is set as it is written, and that names no field's variable in another case
than the variable's own. -/
structure Plain (a : String × Option String) : Prop where
  spelled : ∀ f : Field, f.IsSpelled a.1 → a.1 = f.variable
  permitted : a.1 ≠ Stock.forbiddingVariable
  verbatim : ∀ v ∈ a.2, ¬ referenceStart <:+: v.toList
  settable : ∀ v ∈ a.2, Environment.faultOf? a.1 v = none

instance : DecidablePred Plain := fun a =>
  decidable_of_iff
    ((∀ f ∈ Field.all, f.IsSpelled a.1 → a.1 = f.variable) ∧ a.1 ≠ Stock.forbiddingVariable ∧
      (∀ v ∈ a.2, ¬ referenceStart <:+: v.toList) ∧
      ∀ v ∈ a.2, Environment.faultOf? a.1 v = none)
    ⟨fun ⟨h₁, h₂, h₃, h₄⟩ => ⟨fun f => h₁ f f.mem_all, h₂, h₃, h₄⟩,
      fun h => ⟨fun f _ => h.spelled f, h.permitted, h.verbatim, h.settable⟩⟩

/-- A text of plain assignments. -/
def PlainText (text : List Char) : Prop := ∀ a ∈ assignments text, Plain a

instance : DecidablePred PlainText := fun text =>
  inferInstanceAs (Decidable (∀ a ∈ assignments text, Plain a))

/-! ## Values without references -/

theorem interpolate_eq_self (lookup : String → Option String) : ∀ cs : List Char,
    ¬ referenceStart <:+: cs → interpolate lookup cs = cs := by
  intro cs
  induction cs with
  | nil => intro _; rw [interpolate]
  | cons c cs ih =>
    intro h
    have hrest : interpolate lookup cs = cs :=
      ih fun hcs => h (hcs.trans (List.suffix_cons c cs).isInfix)
    have hnone : ∀ rest, ¬ (c = '$' ∧ cs = '\x7b' :: rest) := by
      rintro rest ⟨rfl, rfl⟩
      exact h ⟨[], rest, rfl⟩
    rw [interpolate, hrest]
    intro rest hc hcs
    exact hnone rest ⟨hc, hcs⟩

/-- The values of plain assignments are those that they write. -/
theorem resolve_eq_ofList (e : Environment) {as : List (String × Option String)}
    (has : ∀ a ∈ as, Plain a) : resolve e as = Table.ofList as := by
  refine List.foldl_ext _ _ _ fun values a ha => ?_
  obtain ⟨name, value⟩ := a
  cases value with
  | none => rfl
  | some v =>
    simp only [Option.map_some, interpolate_eq_self _ v.toList ((has _ ha).verbatim v rfl),
      String.ofList_toList]

/-! ## Loading -/

theorem assign_eq {l : List (String × String)}
    (hl : ∀ a ∈ l, Environment.faultOf? a.1 a.2 = none) (e : Environment) :
    e.assign l = (l.foldl (fun e a => e.insert a.1 a.2) e, .ok ()) := by
  induction l generalizing e with
  | nil => rfl
  | cons a l ih =>
    have hset : Environment.set e a.1 a.2 = .ok (e.insert a.1 a.2) := by
      rw [Environment.set, hl a List.mem_cons_self]
    rw [Environment.assign, hset]
    exact ih (fun b hb => hl b (.tail _ hb)) _

/-- Loading a file of plain assignments sets their names, one after another. -/
theorem load_eq (e : Environment) {text : List Char} (htext : PlainText text) :
    load e text =
      ((pairs (assignments text)).foldl (fun e a => e.insert a.1 a.2) e, .ok ()) := by
  rw [load, resolve_eq_ofList e htext]
  refine assign_eq (fun a ha => ?_) e
  exact (htext _ (exists_of_mem_pairs ha)).settable a.2 rfl

theorem capitalized_of_plain {text : List Char} (h : PlainText text) :
    Library.stock.Capitalized text :=
  fun a ha => (h a ha).spelled

/-- **Files of plain assignments set what they assign**, unless the process variables forbid it. -/
theorem stock_overrides {e : Environment} {texts : List (List Char)}
    (htexts : ∀ text ∈ texts, PlainText text) (he : Stock.forbidsFiles e = false) :
    Library.stock.Overrides e texts := by
  intro e' hdiffer text htext bytes hbytes
  have hpermitted : Stock.forbiddingVariable ∉
      (chainPairs (Library.stock.files texts)).map Prod.fst := by
    intro hm
    obtain ⟨a, ha, heq⟩ := List.mem_map.1 hm
    obtain ⟨file, hfile, ha⟩ := exists_of_mem_chainPairs ha
    obtain ⟨text, htext, rfl⟩ := List.mem_map.1 hfile
    exact (htexts text htext _ ha).permitted heq
  have he' : Stock.forbidsFiles e' = false := by
    rw [← he, Stock.forbidsFiles, Stock.forbidsFiles, hdiffer _ hpermitted]
  show Stock.load e' bytes = _
  rw [Stock.load, he', hbytes]
  simp only [load_eq e' (htexts text htext)]
  rfl

/-- **A text of plain assignments comes after the process variables.** -/
theorem stock_prefersEnvironment {text : List Char} (htext : PlainText text) :
    Library.stock.PrefersEnvironment text := by
  intro e f
  have hspelled : ∀ a ∈ assignments text, f.IsSpelled a.1 → a.1 = f.variable :=
    fun a ha => (htext a ha).spelled f
  have hfile : (lastNamed? (resolve e (assignments text)).entries f.word).bind id =
      lastValue? (assignments text) f.variable := by
    rw [resolve_eq_ofList e htext, ← find?_ofList, Table.ofList, lastNamed?_foldl_insert hspelled,
      Table.find?_foldl_insert_last]
    rfl
  have hnone : firstNamed? ([] : List (String × Value)) f.key = none := rfl
  show Stock.given [] e (resolve e (assignments text)) f =
    ((lastNamed? e.entries f.word).or (lastValue? (assignments text) f.variable)).map .str
  simp only [Stock.given, hnone, ← hfile]
  cases lastNamed? e.entries f.word <;> rfl

end EnvFile

end Runbook.Settings
