/-
  The lines of a log.

  An `Entry` is a record that is written, with the label of the program and the time.
  Which entries a history has does not depend on the format in which it configures
  logging: both formats write the same entries in the same order.  In JSON, line ends
  are escaped in strings and stand nowhere else, so each entry has one line, and the
  line is read back as one object.

  * `newline_not_mem_writeAt`: a document on one line has no line end in it;
  * `descendant_eq`: an adapter speaks for the last of its children;
  * `text_inFormat`: a step writes its entry, if it has one, in either format;
  * `entries_told`: **the lines of a log in JSON tell its entries, one line for each, and
    the text shows the same entries.**
-/
import Mathlib.Data.List.Forall2
import Runbook.Proofs.Json.Reading
import Runbook.Proofs.Log.History

namespace Runbook

/-! ## Documents on one line -/

namespace Json

theorem newline_not_mem_hexDigits : ∀ k n : Nat, '\n' ∉ Text.hexDigits k n
  | 0, _ => List.not_mem_nil
  | k + 1, n => by
    have hdigit : ∀ d < 16, '\n' ∉ [Text.hexDigit d] := by decide
    intro h
    rcases List.mem_append.1 h with h | h
    · exact newline_not_mem_hexDigits k _ h
    · exact hdigit _ (Nat.mod_lt _ (by decide)) h

theorem newline_not_mem_escapeUnit (n : Nat) : '\n' ∉ escapeUnit n := by
  simp [escapeUnit, newline_not_mem_hexDigits]

/-- What a character is written as in a string has no line end in it. -/
theorem newline_not_mem_escapeChar (ascii : Bool) (c : Char) : '\n' ∉ escapeChar ascii c := by
  unfold escapeChar
  split
  · next h => rcases h with rfl | rfl <;> decide
  split
  · decide
  next hc =>
  iterate 4
    split
    · decide
  split
  · simp [escapeUnits, newline_not_mem_escapeUnit]
  · simpa using Ne.symm hc

theorem newline_not_mem_escapeString (ascii : Bool) (s : String) :
    '\n' ∉ escapeString ascii s := by
  simp [escapeString, newline_not_mem_escapeChar]

/-- A style that puts everything on one line. -/
structure Style.OneLine (style : Style) : Prop where
  strings : ∀ s, '\n' ∉ style.spell s
  indent : style.indent = none
  betweenItems : '\n' ∉ style.betweenItems.toList
  afterKey : '\n' ∉ style.afterKey.toList

section
variable {style : Style} (hs : style.OneLine)
include hs

theorem newline_not_mem_writeText (s : String) : '\n' ∉ writeText style s := by
  simp [writeText, hs.strings]

theorem newline_not_mem_bracket (depth : Nat) {left right : Char} (hl : left ≠ '\n')
    (hr : right ≠ '\n') : ∀ {items : List (List Char)}, (∀ t ∈ items, '\n' ∉ t) →
    '\n' ∉ bracket style depth left right items := by
  have hnewline (depth : Nat) : newline style depth = [] := by rw [newline, hs.indent]
  have hclosing : ∀ {ts : List (List Char)}, (∀ t ∈ ts, '\n' ∉ t) →
      '\n' ∉ closing style depth right ts := by
    intro ts
    induction ts with
    | nil => simp [closing, hnewline, hr.symm]
    | cons t ts ih =>
      intro h
      obtain ⟨ht, hts⟩ := List.forall_mem_cons.1 h
      simp [closing, hnewline, hs.betweenItems, ht, ih hts]
  intro items h
  cases items with
  | nil => simp [bracket, hl.symm, hr.symm]
  | cons t ts =>
    obtain ⟨ht, hts⟩ := List.forall_mem_cons.1 h
    rw [bracket_cons, hnewline]
    simp [hl.symm, ht, hclosing hts]

/-- **A document on one line has no line end in it.** -/
theorem newline_not_mem_writeAt (j : Json) : ∀ depth, '\n' ∉ writeAt style depth j := by
  induction j using induction_on with
  | token j cs hcs =>
    intro depth h
    rw [writeAt_of_token hcs] at h
    exact absurd (isTokenChar_of_token hcs _ h) (by decide)
  | str s => exact fun _ => newline_not_mem_writeText hs s
  | arr items ih =>
    intro depth
    rw [writeAt, writeItems_eq_map]
    exact newline_not_mem_bracket hs depth (by decide) (by decide)
      (List.forall_mem_map.2 fun j hj => ih j hj _)
  | obj fields ih =>
    intro depth
    rw [writeAt, writeFields_eq_map]
    refine newline_not_mem_bracket hs depth (by decide) (by decide)
      (List.forall_mem_map.2 fun e he => ?_)
    simp [writeField, newline_not_mem_writeText hs, hs.afterKey, ih e he]

end

theorem oneLine_line : Style.line.OneLine :=
  ⟨newline_not_mem_escapeString false, rfl, by decide, by decide⟩

theorem readable_line : Style.line.Readable :=
  ⟨⟨false, rfl⟩, ⟨[' '], rfl, rfl⟩, ⟨[' '], rfl, rfl⟩⟩

end Json

namespace Log

/-! ## Entries -/

/-- A record that is written: the label of the program, the time, who speaks, and what is said. -/
structure Entry where
  label : String
  timestamp : String
  component : String
  logger : String
  level : Level
  message : String
  exception : Option Exception

/-- The component of a record: the one that its call gives, else that of the last child, else that of
the adapter, if it has a name, else the default. -/
def componentOf (extra : List (String × String)) (own : Option String) (children : List String) :
    String :=
  (fieldOf? extra "component").getD
    ((children.getLast?.or (own.filter (· ≠ ""))).getD defaultComponent)

/-- The entry that a call of a logger makes under a label.  There is none if a field of the call would
overwrite one that every record has, or if the message does not take its values. -/
def Call.entry? (c : Call) (label timestamp logger component : String) : Option Entry :=
  if ∃ e ∈ c.extra, e.1 ∈ reservedFields then none
  else
    (fill? c.template c.values).map fun message =>
      ⟨label, timestamp, component, logger, c.level, message, c.exception⟩

/-- The entry that a step makes under a label. -/
def Step.entry? (label : String) : Step → Option Entry
  | adapter host own children timestamp call =>
    call.entry? label timestamp (loggerOf host) (componentOf call.extra own children)
  | plain logger timestamp call =>
    call.entry? label timestamp logger (componentOf call.extra none [])
  | _ => none

/-- Whether an entry is one of the program's that reaches the limit of a history. -/
def admits (history : List Step) (e : Entry) : Bool :=
  isBelowRoot e.logger && (limit history).number ≤ e.level.number

/-- The entry that a step after a history adds to the log. -/
def entryAfter? (history : List Step) (x : Step) : Option Entry :=
  (lastConfigured? history).bind fun c => (x.entry? c.1).filter (admits history)

/-- The entries that steps after a history add to the log. -/
def entriesAfter (history : List Step) : List Step → List Entry
  | [] => []
  | x :: steps => (entryAfter? history x).toList ++ entriesAfter (history ++ [x]) steps

/-- The line of an entry. -/
def Entry.line (e : Entry) : Line := ⟨⟨e.logger, e.level, e.message⟩, e.component, e.exception⟩

/-- An entry in writing. -/
def Entry.written (format : Format) (e : Entry) : String := e.line.written format e.label e.timestamp

/-- An adapter speaks with the logger of its host for the last of its children. -/
theorem descendant_eq (host : String) (own : Option String) (children : List String) :
    Adapter.descendant host own children =
      ⟨loggerOf host, (children.getLast?.or (own.filter (· ≠ ""))).getD defaultComponent⟩ := by
  have hfold : ∀ (children : List String) (a : Adapter), children.foldl Adapter.child a =
      ⟨a.logger, children.getLast?.getD a.component⟩ := by
    intro children
    induction children with
    | nil => exact fun a => rfl
    | cons c children ih =>
      intro a
      rw [List.foldl_cons, ih, List.getLast?_cons]
      rfl
  rw [Adapter.descendant, hfold, Adapter.ofHost]
  cases children.getLast? <;> rfl

theorem Call.line?_eq (c : Call) (label timestamp logger component : String) :
    (c.line? logger (some component)).map (timestamp, ·) =
      (c.entry? label timestamp logger ((fieldOf? c.extra "component").getD component)).map
        fun e => (e.timestamp, e.line) := by
  unfold Call.line? Call.entry?
  split
  · rfl
  · cases fill? c.template c.values <;> rfl

/-- The line of a step is that of its entry, whatever its label. -/
theorem Step.line?_eq (label : String) (x : Step) :
    x.line? = (x.entry? label).map fun e => (e.timestamp, e.line) := by
  cases x with
  | configure | addForeign => rfl
  | adapter host own children timestamp call =>
    simp only [Step.line?, descendant_eq]
    exact call.line?_eq label timestamp _ _
  | plain logger timestamp call => exact call.line?_eq label timestamp logger defaultComponent

theorem Step.label_of_entry? {label : String} {x : Step} {e : Entry} (h : x.entry? label = some e) :
    e.label = label := by
  have hcall {c : Call} {timestamp logger component : String}
      (h : c.entry? label timestamp logger component = some e) : e.label = label := by
    unfold Call.entry? at h
    split at h
    · cases h
    · obtain ⟨message, -, rfl⟩ := Option.map_eq_some_iff.1 h
      rfl
  cases x with
  | configure | addForeign => cases h
  | adapter | plain => exact hcall h

/-! ## Formats -/

/-- The step, with another format if it configures logging. -/
def Step.inFormat (format : String) : Step → Step
  | configure label level _ => configure label level format
  | x => x

section
variable (format : String) (history : List Step)

theorem lastConfigured?_inFormat : lastConfigured? (history.map (Step.inFormat format)) =
    (lastConfigured? history).map fun c => (c.1, .ofName format) := by
  unfold lastConfigured?
  rw [← List.map_reverse]
  induction history.reverse with
  | nil => rfl
  | cons x steps ih =>
    rw [List.map_cons, List.findSome?_cons, List.findSome?_cons, ih]
    cases x <;> rfl

theorem limit_inFormat : limit (history.map (Step.inFormat format)) = limit history := by
  have hlevel (x : Step) : (x.inFormat format).level? = x.level? := by cases x <;> rfl
  have hlast : lastLevel? (history.map (Step.inFormat format)) = lastLevel? history := by
    simp only [lastLevel?, ← List.map_reverse, List.findSome?_map, Function.comp_def, hlevel]
  rw [limit, limit, hlast]

/-- **A step writes its entry**, if it has one, in the format of the history. -/
theorem text_inFormat (x : Step) :
    admitted (history.map (Step.inFormat format)) (x.inFormat format) =
      ((entryAfter? history x).map (Entry.written (.ofName format))).getD "" := by
  have hline : (x.inFormat format).line? = x.line? := by cases x <;> rfl
  unfold admitted admittedLine entryAfter?
  rw [hline, lastConfigured?_inFormat, limit_inFormat]
  cases lastConfigured? history with
  | none => cases x.line? <;> rfl
  | some c =>
    rw [Step.line?_eq c.1, Option.bind_some]
    cases he : x.entry? c.1 with
    | none => rfl
    | some e =>
      have hlabel := Step.label_of_entry? he
      have hadmits : admits history e = true ↔ isBelowRoot e.line.record.logger = true ∧
          (limit history).number ≤ e.line.record.level.number := by
        simp [admits, Entry.line]
      by_cases ha : admits history e = true
      · simp only [Option.map_some, Option.getD_some, if_pos (hadmits.1 ha), Option.filter_some_pos ha,
          Entry.written, hlabel]
      · have hfilter : Option.filter (admits history) (some e) = none :=
          Option.filter_some_neg (Bool.eq_false_of_not_eq_true ha)
        simp only [Option.map_some, Option.getD_some, if_neg (mt hadmits.2 ha), hfilter,
          Option.map_none, Option.getD_none]

/-- What a run writes is its entries, one after another. -/
theorem texts_inFormat (steps : List Step) : ∀ {history : List Step} {s : State},
    Reflects (history.map (Step.inFormat format)) s →
    String.join (s.run (steps.map (Step.inFormat format))).2 =
      String.join ((entriesAfter history steps).map (Entry.written (.ofName format))) := by
  induction steps with
  | nil => exact fun _ => rfl
  | cons x steps ih =>
    intro history s h
    have hnext := h.apply (x.inFormat format)
    have hmap : history.map (Step.inFormat format) ++ [x.inFormat format] =
        (history ++ [x]).map (Step.inFormat format) := by simp
    rw [hmap] at hnext
    have hrest := ih hnext
    have htext := (h.text (x.inFormat format)).trans (text_inFormat format history x)
    simp only [List.map_cons, State.run, entriesAfter]
    rw [String.join_cons, hrest, htext]
    cases entryAfter? history x <;> simp

end

/-! ## What lines tell -/

/-- A line tells an entry: it has no line end in it, and is one object with the fields of the entry. -/
structure Entry.ToldBy (e : Entry) (line : String) : Prop where
  oneLine : '\n' ∉ line.toList
  object : ∃ fields, Json.read? line = some (.obj fields) ∧ (fields.map Prod.fst).Nodup ∧
    [("prefix", Json.str e.label), ("component", .str e.component),
      ("logger", .str e.logger), ("level", .str e.level.label), ("message", .str e.message)] ⊆ fields

/-- A line shows an entry as text.  An exception stands after its message. -/
def Entry.ShownBy (e : Entry) (line : String) : Prop :=
  ∃ exception, line = s!"[{e.label}:{e.component}] {e.timestamp} {e.level.label}: {e.message}" ++
    exception ∧ (e.exception = none → exception = "")

theorem Entry.toldBy (e : Entry) : e.ToldBy ((e.line.json e.label e.timestamp).write .line) where
  oneLine := by
    rw [Json.write, String.toList_ofList]
    exact Json.newline_not_mem_writeAt Json.oneLine_line _ 0
  object := by
    rw [Json.read?_write Json.readable_line, Line.json, Json.readBack, Json.readBackFields_eq_map]
    refine ⟨_, rfl, ?_, ?_⟩
    · cases h : e.line.exception <;> simp
    · simp [Json.readBack, Entry.line]

theorem Entry.shownBy (e : Entry) : e.ShownBy (e.line.text e.label e.timestamp) := by
  unfold Entry.ShownBy Line.text
  refine ⟨_, rfl, fun h => ?_⟩
  simp [Entry.line, h]

/-- **One line for each record.** -/
theorem entries_told (history : List Step) :
    (∃ lines, List.Forall₂ Entry.ToldBy (entriesAfter [] history) lines ∧
      String.join (State.initial.run (history.map (Step.inFormat "json"))).2 =
        String.join (lines.map (· ++ "\n"))) ∧
    ∃ lines, List.Forall₂ Entry.ShownBy (entriesAfter [] history) lines ∧
      String.join (State.initial.run (history.map (Step.inFormat "text"))).2 =
        String.join (lines.map (· ++ "\n")) := by
  have hinitial (format : String) : Reflects (([] : List Step).map (Step.inFormat format)) .initial :=
    reflects_initial
  have htext (format : String) := texts_inFormat format history (hinitial format)
  have hall {P : Entry → String → Prop} {f : Entry → String} (h : ∀ e, P e (f e)) :
      List.Forall₂ P (entriesAfter [] history) ((entriesAfter [] history).map f) :=
    List.forall₂_map_right_iff.2 (List.forall₂_same.2 fun e _ => h e)
  refine ⟨⟨_, hall Entry.toldBy, ?_⟩, ⟨_, hall Entry.shownBy, ?_⟩⟩
  · rw [htext "json", List.map_map]
    rfl
  · rw [htext "text", List.map_map]
    rfl

end Log

end Runbook
