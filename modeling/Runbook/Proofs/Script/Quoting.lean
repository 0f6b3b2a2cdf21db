/-
  Which texts are put between quotes.

  A text is left bare if it can stand so.  That this is just where a command takes it
  as it stands is shown by counting: a command whose one argument is a literal leaves
  no room in its text for anything but the command, one space and the literal, and a
  quoted literal is shorter than the text that it is read from.

  * `quote_eq_self_iff_bare`: a text is its own written form if it can stand bare;
  * `canStandBare_of_parse`: a text that a command takes as it stands can stand bare;
  * `quote_eq_self_iff`: **quotes are added exactly where they are needed.**
-/
import Runbook.Proofs.Script.Collection
import Runbook.Proofs.Script.Concatenation
import Runbook.Proofs.Script.RoundTrip

namespace Runbook.Script

open Source (Layout Longest Run isCommandChar argumentsText argumentsText_cons statementsText_cons
  longest_nil_name longest_nil_of_ne)

/-! ## The written form of a text -/

/-- Reading escapes makes no text longer. -/
theorem length_unescape_le (cs : List Char) : (unescape cs).length ≤ cs.length := by
  fun_induction unescape cs with
  | case1 c cs ih => simp only [List.length_cons]; omega
  | case2 c cs _ ih => simp only [List.length_cons]; omega
  | case3 => exact Nat.le_refl _

/-- A text is its own written form exactly if it can stand bare. -/
theorem quote_eq_self_iff_bare {s : String} : quote s = s ↔ canStandBare s.toList = true := by
  have hquote : quote s = s ↔ (wordFor s.toList).text = s.toList := by
    rw [quote, ← String.toList_inj, String.toList_ofList]
  rw [hquote, wordFor]
  by_cases h : canStandBare s.toList = true
  · simp [h, Source.Word.text]
  · rw [if_neg h]
    refine iff_of_false (fun htext => ?_) h
    -- the quotes alone make the written form longer than the text
    have hlong := congrArg List.length htext
    have hshort := length_unescape_le (escape s.toList)
    rw [unescape_escape] at hshort
    simp only [Source.Word.text, List.length_cons, List.length_append, List.length_nil] at hlong
    omega

/-! ## Commands with one literal -/

/-- The call of a command with one literal. -/
def passing (name value : String) : Statement := ⟨none, name, [.literal value], .empty⟩

theorem wellFormed_passing {name : String} (hn : Run isCommandChar name.toList) (value : String) :
    (passing name value).WellFormed := by
  refine ⟨fun _ h => (nomatch h), hn, fun a ha => ?_, fun e he => (nomatch he)⟩
  rw [List.mem_singleton.1 ha]
  trivial

theorem text_passing (name value : String) :
    (passing name value).text = "(" ++ name ++ " " ++ quote value ++ ")" := by
  rw [← String.toList_inj]
  simp [passing, Statement.text, Statement.form, Source.Statement.text, Source.Call.text,
    Command.form, Command.arguments, Source.argumentsText, Source.Argument.text, Argument.word,
    quote, Table.empty]

/-- A text in its written form is taken as the one argument of a command. -/
theorem parse_passing {name : String} (hn : Run isCommandChar name.toList) (value : String) :
    parse ("(" ++ name ++ " " ++ quote value ++ ")") = .ok [passing name value] := by
  have h := @parse_intercalate_text [passing name value] (by simpa using wellFormed_passing hn value)
  rwa [List.map_singleton, String.intercalate_singleton, text_passing] at h

/-- Written arguments of which none is kept under a key have no keys. -/
theorem key_eq_none_of_namedOf {arguments : List Source.Argument} (h : namedOf arguments = .empty) :
    ∀ a ∈ arguments, a.key = none := by
  have hkeys : (keysOf arguments).dedup = [] := by
    have hk := keys_namedOf arguments
    rw [h] at hk
    exact List.map_eq_nil_iff.1 hk.symm
  have hnone : keysOf arguments = [] := (List.dedup_eq_nil _).1 hkeys
  exact List.filterMap_eq_nil_iff.1 hnone

/-- A written command that passes one literal has its word as the only argument. -/
theorem form_passing {call : Source.Call} {name value : String}
    (h : Command.ofForm call = ⟨name, [.literal value], .empty⟩) :
    call.name = name.toList ∧
      ∃ layout w, call.arguments = [(layout, ⟨none, w⟩)] ∧ Argument.ofWord w = .literal value := by
  obtain ⟨hname, hpositional, hnamed⟩ := Command.mk.inj h
  have hkeys := key_eq_none_of_namedOf hnamed
  have hall : (call.arguments.map Prod.snd).filter (·.key = none) = call.arguments.map Prod.snd :=
    List.filter_eq_self.2 fun a ha => by simpa using hkeys a ha
  rw [positionalOf_eq, hall, List.map_map] at hpositional
  obtain ⟨⟨layout, key, w⟩, hw, hvalue⟩ := List.map_eq_singleton_iff.1 hpositional
  have hkey : key = none := hkeys ⟨key, w⟩ (by simp [hw])
  refine ⟨by rw [← hname, String.toList_ofList], layout, w, ?_, hvalue⟩
  rw [hw, hkey]

/-- A layout that is taken off before a space has that space. -/
theorem exists_cons_of_longest {layout rest cs : List Char} (h : Longest Layout layout rest)
    (htext : layout ++ rest = ' ' :: cs) : ∃ more, layout = ' ' :: more := by
  cases layout with
  | nil =>
    have hspace := h.2 [' '] (by simp [htext]) (.blank rfl .nil)
    simp at hspace
  | cons c more =>
    obtain ⟨rfl, -⟩ := List.cons.inj htext
    exact ⟨more, rfl⟩

/-- No word with the value of a text is longer than the text but a quoted one. -/
theorem eq_bare_of_ofWord {w : Source.Word} {value : String} (h : Argument.ofWord w = .literal value)
    (hlength : w.text.length ≤ value.toList.length) : w = .bare value.toList := by
  cases w with
  | reference name => cases h
  | quoted body =>
    obtain rfl := Argument.literal.inj h
    -- the body is not shorter than what is read from it
    have hshort := length_unescape_le body
    simp only [Source.Word.text, String.toList_ofList, List.length_cons, List.length_append,
      List.length_nil] at hlength
    omega
  | bare text =>
    obtain rfl := Argument.literal.inj h
    rw [String.toList_ofList]

/-- A command that takes a text as it stands has a word for it, behind a layout that begins with the
space before the text. -/
theorem exists_word_of_parse {name s : String}
    (h : parse ("(" ++ name ++ " " ++ s ++ ")") = .ok [passing name s]) :
    ∃ more w rest, Argument.ofWord w = .literal s ∧ w.Stands rest ∧
      Longest Layout (' ' :: more) (w.text ++ rest) ∧ rest ≠ [] ∧
      more ++ (w.text ++ rest) = s.toList ++ [')'] := by
  have hname : Run isCommandChar name.toList :=
    (wellFormed_of_parse h (passing name s) (by simp)).command.name
  obtain ⟨⟨leading, statements⟩, htext, ⟨hleading, hstatements⟩, hp⟩ := parse_eq_ok_iff.1 h
  obtain ⟨⟨⟨target, call⟩, trailing⟩, rfl, hs⟩ := List.map_eq_singleton_iff.1 hp
  obtain ⟨htarget, hcommand⟩ := Statement.mk.inj hs
  obtain rfl : target = none := Option.map_eq_none_iff.1 htarget
  obtain ⟨hcall, layout, w, harguments, hw⟩ := form_passing hcommand
  obtain ⟨opening, callName, arguments, closing⟩ := call
  obtain rfl : callName = name.toList := hcall
  obtain rfl : arguments = [(layout, ⟨none, w⟩)] := harguments
  obtain ⟨⟨hstands, -⟩, -, -⟩ := hstatements
  obtain ⟨hlayout, ⟨hword, -⟩, -⟩ := hstands.arguments
  have hopening := hstands.opening
  have hsource : ("(" ++ name ++ " " ++ s ++ ")").toList =
      '(' :: (name.toList ++ ' ' :: (s.toList ++ [')'])) := by simp
  simp only [Source.Program.text, statementsText_cons, Source.Statement.text, Source.Call.text_append,
    argumentsText_cons, hsource] at htext hleading hopening
  -- no layout stands before the parenthesis, and none before the name
  obtain ⟨rfl, hparen⟩ := hleading.unique (longest_nil_of_ne rfl (by decide) (by decide) _) htext
  obtain ⟨rfl, -⟩ := hopening.unique (longest_nil_name hname _) (List.cons.inj hparen).2
  have hafter : name.toList ++ (layout ++ _) = name.toList ++ ' ' :: (s.toList ++ [')']) :=
    (List.cons.inj hparen).2
  have hspace := List.append_cancel_left hafter
  obtain ⟨more, rfl⟩ := exists_cons_of_longest hlayout hspace
  exact ⟨more, w, _, hw, hword, hlayout, by simp [argumentsText], (List.cons.inj hspace).2⟩

/-- **A text that a command takes as it stands can stand bare.** -/
theorem canStandBare_of_parse {name s : String}
    (h : parse ("(" ++ name ++ " " ++ s ++ ")") = .ok [passing name s]) :
    canStandBare s.toList = true := by
  obtain ⟨more, w, rest, hw, hword, hlayout, hrest, htext⟩ := exists_word_of_parse h
  -- the word is no longer than the text, and so it is the text
  have hpos : 0 < rest.length := List.length_pos_iff.2 hrest
  have hlength := congrArg List.length htext
  simp only [List.length_append, List.length_singleton] at hlength
  obtain rfl := eq_bare_of_ofWord hw (by omega)
  obtain rfl : more = [] := by
    simp only [Source.Word.text] at hlength
    exact List.eq_nil_of_length_eq_zero (by omega)
  obtain ⟨hrun, hquote⟩ := hword
  refine canStandBare_iff.2 ⟨hrun.1, hquote, fun cs hcs => ?_⟩
  -- a comment would belong to the layout
  have hcomment := hlayout.2 [' ', '/', '/'] (by simp [Source.Word.text, hcs])
    (.blank rfl (.comment List.not_mem_nil .nil))
  simp at hcomment

/-- **Quotes are added exactly where they are needed.**  A text is its own written form if and only
if a command takes it, as it stands, as its one argument; and every command takes it so in its
written form. -/
theorem quote_eq_self_iff (s : String) :
    (quote s = s ↔ parse ("(c " ++ s ++ ")") = .ok [⟨none, "c", [.literal s], .empty⟩]) ∧
      parse ("(c " ++ quote s ++ ")") = .ok [⟨none, "c", [.literal s], .empty⟩] := by
  have hname : Run isCommandChar "c".toList :=
    ⟨by decide, List.forall_mem_singleton.2 (by decide)⟩
  have hopening : "(" ++ "c" ++ " " = "(c " := by decide
  have hwritten : parse ("(c " ++ quote s ++ ")") = .ok [passing "c" s] := by
    rw [← hopening]
    exact parse_passing hname s
  refine ⟨⟨fun hs => ?_, fun h => ?_⟩, hwritten⟩
  · rwa [hs] at hwritten
  · have hs : parse ("(c " ++ s ++ ")") = .ok [passing "c" s] := h
    rw [← hopening] at hs
    exact quote_eq_self_iff_bare.2 (canStandBare_of_parse hs)

end Runbook.Script
