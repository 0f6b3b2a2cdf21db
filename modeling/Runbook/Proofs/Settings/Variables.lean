/-
  The variables of the fields, and what assignments set.

  A field looks for the name of its variable in any case, and takes the last that it
  finds.  Setting variables keeps those that are there in their places, so one that comes
  after the field's own, with its name in another case, goes on counting.

  A file is a list of assignments here, and a chain a list of files.  A file sets a name
  to its last value in the file, if that is one.

  * `lastNamed?_insertEntry`: which variable of a field is the last when one is set;
  * `lastNamed?_foldl_insert`: **which one is the last when several are set**, one after
    another;
  * `findEntry_pairs`: what a file sets;
  * `findEntry_chain`: **the last file of a chain that assigns a name gives its value**;
  * `Library.Overrides` and `Library.PrefersEnvironment`: what is assumed of a library.
-/
import Runbook.Proofs.Table
import Runbook.Settings.Sources

namespace Runbook.Settings

/-! ## Names -/

/-- The name of the variable of a field. -/
def Field.variable : Field → String
  | name => "YESOD_NAME"
  | app => "YESOD_APP"
  | logLevel => "YESOD_LOG_LEVEL"
  | logFormat => "YESOD_LOG_FORMAT"
  | workingDir => "YESOD_WORKING_DIR"
  | showTimings => "YESOD_SHOW_TIMINGS"

/-- Whether a name is that of a field's variable, in any case. -/
def Field.IsSpelled (f : Field) (name : String) : Prop := Text.lowerWord name = f.word

instance (f : Field) (name : String) : Decidable (f.IsSpelled name) :=
  inferInstanceAs (Decidable (_ = _))

theorem Field.isSpelled_variable (f : Field) : f.IsSpelled f.variable := by
  cases f <;> decide +kernel

theorem Field.mem_all (f : Field) : f ∈ Field.all := by
  cases f <;> decide

/-- Whether, among some names, that of a field's variable is followed by the same name in another
case. -/
def Field.overruledAmong (f : Field) : List String → Bool
  | [] => false
  | x :: xs => if x = f.variable then xs.any (f.IsSpelled ·) else f.overruledAmong xs

/-! ## The last of the names -/

section Names

variable {α : Type}

theorem lastNamed?_cons (a : String × α) (l : List (String × α)) (word : String) :
    lastNamed? (a :: l) word =
      (lastNamed? l word).or (if Text.lowerWord a.1 = word then some a.2 else none) := by
  simp only [lastNamed?, firstNamed?, List.reverse_cons, List.find?_append]
  cases l.reverse.find? (fun e => Text.lowerWord e.1 = word) with
  | some e => rfl
  | none => by_cases ha : Text.lowerWord a.1 = word <;> simp [ha]

theorem isSome_lastNamed? (f : Field) (l : List (String × α)) :
    (lastNamed? l f.word).isSome = (l.map Prod.fst).any (f.IsSpelled ·) := by
  induction l with
  | nil => rfl
  | cons a l ih =>
    rw [lastNamed?_cons, Option.isSome_or, ih, List.map_cons, List.any_cons, Bool.or_comm]
    by_cases ha : Text.lowerWord a.1 = f.word <;> simp [Field.IsSpelled, ha]

variable {f : Field} {name : String}

theorem overruledAmong_concat (h : f.IsSpelled name → name = f.variable) :
    ∀ {xs : List String}, name ∉ xs → f.overruledAmong (xs ++ [name]) = f.overruledAmong xs
  | [], _ => by simp [Field.overruledAmong]
  | x :: xs, hn => by
    obtain ⟨hx, hxs⟩ := not_or.1 fun hm => hn (List.mem_cons.2 hm)
    by_cases hv : x = f.variable
    · -- the new name is no name of the variable, which is there already
      have hname : ¬ f.IsSpelled name := fun hs => hx ((h hs).trans hv.symm)
      simp only [List.cons_append, Field.overruledAmong, hv, if_true, List.any_append,
        List.any_cons, List.any_nil, hname, decide_false, Bool.or_false]
    · simp only [List.cons_append, Field.overruledAmong, hv, if_false,
        overruledAmong_concat h hxs]

/-- Setting a variable does not change whether the field's variable is overruled. -/
theorem overruledAmong_insert (h : f.IsSpelled name → name = f.variable) (t : Table String α)
    (v : α) : f.overruledAmong (t.insert name v).keys = f.overruledAmong t.keys := by
  rw [Table.keys_insert]
  split
  · rfl
  · next hn => exact overruledAmong_concat h hn

theorem lastNamed?_insertEntry (h : f.IsSpelled name → name = f.variable) (v : α)
    (l : List (String × α)) :
    lastNamed? (Table.insertEntry name v l) f.word =
      if name = f.variable ∧ f.overruledAmong (l.map Prod.fst) = false then some v
      else lastNamed? l f.word := by
  have hspelled : Text.lowerWord name = f.word ↔ name = f.variable :=
    ⟨h, fun hn => hn ▸ f.isSpelled_variable⟩
  induction l with
  | nil =>
    rw [Table.insertEntry, lastNamed?_cons]
    simp only [hspelled]
    by_cases hn : name = f.variable <;> simp [hn, Field.overruledAmong, lastNamed?, firstNamed?]
  | cons a l ih =>
    obtain ⟨x, u⟩ := a
    by_cases hx : x = name
    · subst hx
      simp only [Table.insertEntry, if_true, lastNamed?_cons, hspelled, List.map_cons,
        Field.overruledAmong]
      by_cases hn : x = f.variable
      · -- the value that is set counts unless a later name is found
        rw [← isSome_lastNamed?]
        cases lastNamed? l f.word <;> simp [hn]
      · simp [hn]
    · simp only [Table.insertEntry, hx, if_false, lastNamed?_cons, ih, List.map_cons,
        Field.overruledAmong]
      by_cases hv : x = f.variable
      · have hname : ¬ name = f.variable := fun hn => hx (hv.trans hn.symm)
        simp [hname]
      · simp only [hv, if_false]
        split <;> simp

/-- **The variable of a field that counts after some are set**: the last of those, unless the
field's variable is overruled, else the one that counted before. -/
theorem lastNamed?_foldl_insert {l : List (String × α)}
    (h : ∀ a ∈ l, f.IsSpelled a.1 → a.1 = f.variable) (t : Table String α) :
    lastNamed? (l.foldl (fun t a => t.insert a.1 a.2) t).entries f.word =
      if f.overruledAmong t.keys then lastNamed? t.entries f.word
      else (Table.findEntry f.variable l.reverse).or (lastNamed? t.entries f.word) := by
  induction l generalizing t with
  | nil => simp [Table.findEntry]
  | cons a l ih =>
    have ha : f.IsSpelled a.1 → a.1 = f.variable := h a List.mem_cons_self
    have hkeys : f.overruledAmong (t.insert a.1 a.2).keys = f.overruledAmong t.keys :=
      overruledAmong_insert ha t a.2
    have hlast : lastNamed? (t.insert a.1 a.2).entries f.word =
        if a.1 = f.variable ∧ f.overruledAmong t.keys = false then some a.2
        else lastNamed? t.entries f.word := lastNamed?_insertEntry ha a.2 t.entries
    rw [List.foldl_cons, ih (fun b hb => h b (.tail _ hb)), hkeys, hlast, List.reverse_cons,
      Table.findEntry_append, Option.or_assoc]
    cases f.overruledAmong t.keys with
    | true => simp
    | false => by_cases hv : a.1 = f.variable <;> simp [hv, Table.findEntry]

end Names

/-! ## What a file sets -/

/-- The value of the last assignment of a name, if it has one. -/
def lastValue? (assignments : List (String × Option String)) (name : String) : Option String :=
  (assignments.reverse.find? (·.1 = name)).bind Prod.snd

/-- The names and values that a file sets. -/
def pairs (assignments : List (String × Option String)) : List (String × String) :=
  (Table.ofList assignments).entries.filterMap fun (name, value) => value.map (name, ·)

theorem find?_ofList (as : List (String × Option String)) (name : String) :
    ((Table.ofList as).find? name).bind id = lastValue? as name := by
  rw [Table.ofList, Table.find?_foldl_insert_last, Table.findEntry_eq_find?, lastValue?]
  cases as.reverse.find? (·.1 = name) <;> rfl

theorem exists_of_mem_pairs {as : List (String × Option String)} {a : String × String}
    (ha : a ∈ pairs as) : (a.1, some a.2) ∈ as := by
  obtain ⟨⟨name, value⟩, hmem, heq⟩ := List.mem_filterMap.1 ha
  obtain ⟨v, rfl, rfl⟩ := Option.map_eq_some_iff.1 heq
  exact Table.mem_of_mem_ofList hmem

theorem map_fst_pairs_sublist (as : List (String × Option String)) :
    ((pairs as).map Prod.fst).Sublist (Table.ofList as).keys := by
  rw [pairs, Table.keys]
  induction (Table.ofList as).entries with
  | nil => exact .slnil
  | cons a l ih =>
    obtain ⟨name, value⟩ := a
    cases value with
    | none => exact ih.cons name
    | some v => exact ih.cons_cons name

theorem nodup_pairs (as : List (String × Option String)) :
    ((pairs as).map Prod.fst).Nodup :=
  (Table.ofList as).nodup.sublist (map_fst_pairs_sublist as)

/-- A loaded file sets a name to its last value in the file. -/
theorem findEntry_pairs (as : List (String × Option String)) (name : String) :
    Table.findEntry name (pairs as) = lastValue? as name := by
  rw [← find?_ofList]
  ext v
  rw [Table.findEntry_eq_some_iff (nodup_pairs as), pairs, Option.bind_eq_some_iff]
  simp only [List.mem_filterMap, Option.map_eq_some_iff, Prod.mk.injEq, id]
  constructor
  · rintro ⟨⟨_, _⟩, hmem, _, rfl, rfl, rfl⟩
    exact ⟨_, Table.find?_eq_some_iff.2 hmem, rfl⟩
  · rintro ⟨_, hfind, rfl⟩
    exact ⟨_, Table.find?_eq_some_iff.1 hfind, v, rfl, rfl, rfl⟩

/-! ## Chains -/

/-- The value that the last of some files gives a name that has one for it. -/
def chainValue? (files : List (List (String × Option String))) (name : String) : Option String :=
  files.reverse.findSome? fun file => lastValue? file name

/-- What the files of a chain set, one after another. -/
def chainPairs (files : List (List (String × Option String))) : List (String × String) :=
  files.flatMap pairs

/-- **The last file of a chain that assigns a name gives its value.** -/
theorem findEntry_chain (files : List (List (String × Option String))) (name : String) :
    Table.findEntry name (chainPairs files).reverse = chainValue? files name := by
  induction files with
  | nil => rfl
  | cons file files ih =>
    have hfile : Table.findEntry name (pairs file).reverse = lastValue? file name := by
      rw [Table.findEntry_reverse (nodup_pairs _), findEntry_pairs]
    rw [chainPairs] at ih ⊢
    rw [List.flatMap_cons, List.reverse_append, Table.findEntry_append, ih, hfile, chainValue?,
      chainValue?, List.reverse_cons, List.findSome?_append, List.findSome?_singleton]

theorem exists_of_mem_chainPairs {files : List (List (String × Option String))}
    {a : String × String} (ha : a ∈ chainPairs files) : ∃ file ∈ files, (a.1, some a.2) ∈ file := by
  obtain ⟨file, hfile, ha⟩ := List.mem_flatMap.1 ha
  exact ⟨file, hfile, exists_of_mem_pairs ha⟩

/-! ## What is assumed of a library -/

namespace Library

/-- The files of a chain, each as the assignments that its text makes. -/
def files (l : Library) (texts : List (List Char)) : List (List (String × Option String)) :=
  texts.map l.assignments

/-- Process variables that differ from others only in what the files of a chain set. -/
def Differ (l : Library) (texts : List (List Char)) (e e' : Environment) : Prop :=
  ∀ name, name ∉ (chainPairs (l.files texts)).map Prod.fst → e'.find? name = e.find? name

/-- The library sets every variable that the files of a chain assign, over the process variables and
over what the files of the chain set before. -/
def Overrides (l : Library) (e : Environment) (texts : List (List Char)) : Prop :=
  ∀ e', l.Differ texts e e' → ∀ text ∈ texts, ∀ bytes, decodeText bytes = .ok text →
    l.load e' bytes = ((pairs (l.assignments text)).foldl (fun e a => e.insert a.1 a.2) e', .ok ())

/-- The library prefers the process variables to what a text assigns: a field has the value of the
last process variable of its name in any case, else that which the text assigns. -/
def PrefersEnvironment (l : Library) (text : List Char) : Prop :=
  ∀ e f, l.given [] e text f =
    ((lastNamed? e.entries f.word).or (lastValue? (l.assignments text) f.variable)).map .str

/-- The text names the variables of fields in capitals only. -/
def Capitalized (l : Library) (text : List Char) : Prop :=
  ∀ a ∈ l.assignments text, ∀ f : Field, f.IsSpelled a.1 → a.1 = f.variable

end Library

end Runbook.Settings
