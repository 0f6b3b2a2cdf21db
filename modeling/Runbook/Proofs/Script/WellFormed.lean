/-
  Well-formed statements: those that can be written.

  Names are runs of characters of their class; literals are arbitrary, and a key
  has one value because named arguments form a table.

  * `wellFormed_of_parse`: **statements that are parsed are well-formed.**
-/
import Runbook.Proofs.Source.Standing
import Runbook.Proofs.Table
import Runbook.Script.Parse

namespace Runbook.Script

open Source (Run isNameChar isCommandChar ArgumentsStand StatementsStand)

/-- A literal is any text, and a reference has a name. -/
def Argument.WellFormed : Argument → Prop
  | literal _ => True
  | reference name => Run isNameChar name.toList

/-- A command has a name, and every key is a name. -/
structure Command.WellFormed (c : Command) : Prop where
  name : Run isCommandChar c.name.toList
  positional : ∀ a ∈ c.positional, a.WellFormed
  named : ∀ e ∈ c.named.entries, Run isNameChar e.1.toList ∧ e.2.WellFormed

/-- The variable of a statement has a name. -/
structure Statement.WellFormed (s : Statement) : Prop where
  target : ∀ name ∈ s.target, Run isNameChar name.toList
  command : s.command.WellFormed

/-! ## What is parsed -/

theorem Argument.wellFormed_ofWord {w : Source.Word} {rest : List Char} (h : w.Stands rest) :
    (Argument.ofWord w).WellFormed := by
  cases w with
  | reference name => simpa [Argument.ofWord, Argument.WellFormed] using h.1
  | quoted body => trivial
  | bare text => trivial

/-- Every argument among those that stand does so before some text. -/
theorem stands_of_mem {rest : List Char} : ∀ {arguments : List (List Char × Source.Argument)},
    ArgumentsStand rest arguments → ∀ p ∈ arguments, ∃ r, p.2.Stands r
  | (_, a) :: arguments, ⟨_, ha, hs⟩, p, hp => by
    rcases List.mem_cons.1 hp with rfl | hp
    · exact ⟨_, ha⟩
    · exact stands_of_mem hs p hp

theorem wellFormed_positionalOf {arguments : List Source.Argument}
    (h : ∀ a ∈ arguments, ∃ r, a.Stands r) : ∀ a ∈ positionalOf arguments, a.WellFormed := by
  intro a ha
  obtain ⟨b, hb, hba⟩ := List.mem_filterMap.1 ha
  obtain ⟨r, hw, -⟩ := h b hb
  split at hba
  · cases hba; exact Argument.wellFormed_ofWord hw
  · cases hba

theorem wellFormed_namedOf {arguments : List Source.Argument}
    (h : ∀ a ∈ arguments, ∃ r, a.Stands r) :
    ∀ e ∈ (namedOf arguments).entries, Run isNameChar e.1.toList ∧ e.2.WellFormed := by
  unfold namedOf
  refine List.foldlRecOn
    (motive := fun t : Table String Argument =>
      ∀ e ∈ t.entries, Run isNameChar e.1.toList ∧ e.2.WellFormed) _ _ ?_ ?_
  · simp [Table.empty]
  · intro t ht a ha e he
    obtain ⟨r, hw, hk⟩ := h a ha
    unfold addNamed at he
    split at he
    · exact ht e he
    · next key hkey =>
      rw [hkey] at hk
      rw [Table.entries_push] at he
      rcases List.mem_append.1 he with he | he
      · exact ht e (List.mem_filter.1 he).1
      · cases List.mem_singleton.1 he
        exact ⟨by simpa using hk, Argument.wellFormed_ofWord hw⟩

theorem Command.wellFormed_ofForm {c : Source.Call} {rest : List Char} (h : c.Stands rest) :
    (Command.ofForm c).WellFormed := by
  have ha : ∀ a ∈ c.arguments.map Prod.snd, ∃ r, a.Stands r := by
    intro a ha
    obtain ⟨p, hp, rfl⟩ := List.mem_map.1 ha
    exact stands_of_mem h.arguments p hp
  exact ⟨by simpa [Command.ofForm] using h.name.1, wellFormed_positionalOf ha,
    wellFormed_namedOf ha⟩

theorem Statement.wellFormed_ofForm {s : Source.Statement} {rest : List Char} (h : s.Stands rest) :
    (Statement.ofForm s).WellFormed := by
  obtain ⟨target, call⟩ := s
  refine ⟨?_, Command.wellFormed_ofForm h.1⟩
  cases target with
  | none => exact fun name hn => nomatch hn
  | some p =>
    rintro name ⟨⟩
    simpa using h.2.1

theorem wellFormed_of_statementsStand : ∀ {statements : List (Source.Statement × List Char)},
    StatementsStand statements → ∀ p ∈ statements, (Statement.ofForm p.1).WellFormed
  | (_, _) :: statements, ⟨hs, _, h⟩, p, hp => by
    rcases List.mem_cons.1 hp with rfl | hp
    · exact Statement.wellFormed_ofForm hs
    · exact wellFormed_of_statementsStand h p hp

/-- **Statements that are parsed are well-formed.** -/
theorem wellFormed_of_parse {source : String} {ss : List Statement} (h : parse source = .ok ss) :
    ∀ s ∈ ss, s.WellFormed := by
  unfold parse at h
  cases hp : Source.Program.ofSource source with
  | error e => rw [hp] at h; cases h
  | ok p =>
    rw [hp] at h
    cases h
    intro s hs
    obtain ⟨q, hq, rfl⟩ := List.mem_map.1 hs
    exact wellFormed_of_statementsStand (Source.Program.ofSource_eq_ok_iff.1 hp).2.2 q hq

end Runbook.Script
