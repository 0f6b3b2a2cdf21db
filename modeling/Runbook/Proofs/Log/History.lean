/-
  Logging after any history.

  A `Step` of a history configures logging, adds a handler of the host, or calls a
  logger, directly or through an adapter.  What is in force then can be told from the
  history alone: the label and the format of the last configuration, and the level of
  the last one that named a level.

  * `Reflects.apply`: a step keeps the state a reflection of the history;
  * `Reflects.text`: so what the step writes is told by the history before it;
  * `logging_history`: **after every history there is one handler of the program, if
    it ever configured logging, beside all of the host's; and each record that reaches
    the limit is written once, as the last configuration says, and no other is.**
-/
import Mathlib.Tactic.Common
import Runbook.Log.Handler

namespace Runbook.Log

/-! ## Histories -/

/-- Something that happens to logging.  A logger is called at a time. -/
inductive Step where
  | configure (label level format : String)
  | addForeign
  | adapter (host : String) (component : Option String) (children : List String)
      (timestamp : String) (call : Call)
  | plain (logger timestamp : String) (call : Call)

/-- What a call of a logger wrote; nothing if it was refused. -/
def textOf : Except String String → String
  | .ok text => text
  | .error _ => ""

/-- The adapter of a host that children were made of, one after another. -/
def Adapter.descendant (host : String) (component : Option String) (children : List String) :
    Adapter :=
  children.foldl child (ofHost host component)

/-- The state after a step, and what the step wrote. -/
def Step.apply (s : State) : Step → State × String
  | configure label level format => ((s.configure label level (.ofName format)).1, "")
  | addForeign => (s.addForeign, "")
  | adapter host component children timestamp call =>
    let a := Adapter.descendant host component children
    (s, textOf (s.log timestamp a.logger (some a.component) call))
  | plain logger timestamp call => (s, textOf (s.log timestamp logger none call))

/-- The state after steps, and what each of them wrote. -/
def State.run (s : State) : List Step → State × List String
  | [] => (s, [])
  | x :: steps =>
    let (s, text) := x.apply s
    let (s, texts) := s.run steps
    (s, text :: texts)

/-! ## What a history says -/

/-- The label and the format that a step configures. -/
def Step.configured? : Step → Option (String × Format)
  | configure label _ format => some (label, .ofName format)
  | _ => none

/-- The level that a step sets; none if it names no level. -/
def Step.level? : Step → Option Level
  | configure _ level _ => Level.ofName? (Text.upper level)
  | _ => none

/-- Whether a step adds a handler of the host. -/
def Step.isForeign : Step → Bool
  | addForeign => true
  | _ => false

@[simp] theorem Step.isForeign_configure (label level format : String) :
    (configure label level format).isForeign = false := rfl

@[simp] theorem Step.isForeign_addForeign : addForeign.isForeign = true := rfl

/-- The label and the format of the last configuration, whether or not it named a level. -/
def lastConfigured? (history : List Step) : Option (String × Format) :=
  history.reverse.findSome? Step.configured?

/-- The level of the last configuration that named one. -/
def lastLevel? (history : List Step) : Option Level := history.reverse.findSome? Step.level?

/-- The level that a record must reach: a warning, where no level was set or `notSet` was. -/
def limit (history : List Step) : Level := ((lastLevel? history).filter (· ≠ .notSet)).getD .warning

/-- The line of a call's record.  There is no record if it would overwrite a field that every record
has, and no line if the message does not take its values. -/
def Call.line? (logger : String) (component : Option String) (c : Call) : Option Line :=
  if ∃ e ∈ c.extra, e.1 ∈ reservedFields then none
  else
    (fill? c.template c.values).map fun message =>
      ⟨⟨logger, c.level, message⟩,
        (fieldOf? c.extra "component").getD (component.getD defaultComponent), c.exception⟩

/-- The time and the line of a step that calls a logger. -/
def Step.line? : Step → Option (String × Line)
  | adapter host component children timestamp call =>
    let a := Adapter.descendant host component children
    (call.line? a.logger (some a.component)).map (timestamp, ·)
  | plain logger timestamp call => (call.line? logger none).map (timestamp, ·)
  | _ => none

/-- What becomes of a line after a history: it is written, once, if there was a configuration, the
logger is the program's and the level reaches the limit. -/
def admittedLine (history : List Step) (timestamp : String) (l : Line) : String :=
  match lastConfigured? history with
  | none => ""
  | some (label, format) =>
    if isBelowRoot l.record.logger ∧ (limit history).number ≤ l.record.level.number then
      l.written format label timestamp
    else ""

/-- What a step after a history is to write. -/
def admitted (history : List Step) (x : Step) : String :=
  (x.line?.map fun (timestamp, l) => admittedLine history timestamp l).getD ""

theorem lastConfigured?_concat (history : List Step) (x : Step) :
    lastConfigured? (history ++ [x]) = x.configured?.or (lastConfigured? history) := by
  simp only [lastConfigured?, List.reverse_append, List.reverse_singleton, List.singleton_append,
    List.findSome?_cons]
  cases x.configured? <;> rfl

theorem lastLevel?_concat (history : List Step) (x : Step) :
    lastLevel? (history ++ [x]) = x.level?.or (lastLevel? history) := by
  simp only [lastLevel?, List.reverse_append, List.reverse_singleton, List.singleton_append,
    List.findSome?_cons]
  cases x.level? <;> rfl

/-! ## Reflection -/

/-- The program's handler of a configuration. -/
def ownOf (c : String × Format) : Handler := .own c.1 c.2

/-- A state is what a history says. -/
structure Reflects (history : List Step) (s : State) : Prop where
  own : s.handlers.filter (·.isOwn) = ((lastConfigured? history).map ownOf).toList
  foreign : s.handlers.filter (!·.isOwn) = List.replicate (history.countP (·.isForeign)) .foreign
  threshold : s.threshold = (lastLevel? history).getD .notSet

theorem reflects_initial : Reflects [] .initial := ⟨rfl, rfl, rfl⟩

section
variable {history : List Step} {s : State}

/-- A configuration replaces the program's handlers by one and leaves the host's. -/
theorem Reflects.replace (h : Reflects history s) (label level format : String) (threshold : Level)
    (ht : threshold = ((Level.ofName? (Text.upper level)).or (lastLevel? history)).getD .notSet) :
    Reflects (history ++ [.configure label level format])
      { s.withoutOwn.addHandler (.own label (.ofName format)) with threshold := threshold } := by
  refine ⟨?_, ?_, ?_⟩
  · rw [lastConfigured?_concat]
    simp [State.addHandler, State.withoutOwn, Step.configured?, ownOf, List.filter_cons]
  · simpa [State.addHandler, State.withoutOwn] using h.foreign
  · rw [lastLevel?_concat]
    exact ht

theorem Reflects.configure (h : Reflects history s) (label level format : String) :
    Reflects (history ++ [.configure label level format])
      (s.configure label level (.ofName format)).1 := by
  have hreplace := h.replace label level format
  unfold State.configure
  dsimp only
  cases hl : Level.ofName? (Text.upper level) with
  | none =>
    refine hreplace s.threshold ?_
    rw [hl, Option.none_or, h.threshold]
  | some l =>
    refine hreplace l ?_
    rw [hl]
    rfl

theorem Reflects.addForeign (h : Reflects history s) :
    Reflects (history ++ [.addForeign]) s.addForeign := by
  have hc : lastConfigured? (history ++ [.addForeign]) = lastConfigured? history :=
    lastConfigured?_concat history .addForeign
  have hl : lastLevel? (history ++ [.addForeign]) = lastLevel? history :=
    lastLevel?_concat history .addForeign
  refine ⟨?_, ?_, ?_⟩
  · rw [hc, ← h.own]
    simp [State.addForeign, State.addHandler]
  · simp [State.addForeign, State.addHandler, h.foreign, List.replicate_succ']
  · rw [hl]
    exact h.threshold

/-- A call of a logger changes nothing that a history says. -/
theorem Reflects.concat (h : Reflects history s) {x : Step} (hc : x.configured? = none)
    (hl : x.level? = none) (hf : x.isForeign = false) : Reflects (history ++ [x]) s := by
  refine ⟨?_, ?_, ?_⟩
  · rw [lastConfigured?_concat, hc]; exact h.own
  · simpa [hf] using h.foreign
  · rw [lastLevel?_concat, hl]; exact h.threshold

/-- **A step keeps the reflection.** -/
theorem Reflects.apply (h : Reflects history s) (x : Step) :
    Reflects (history ++ [x]) (x.apply s).1 := by
  cases x with
  | configure label level format => exact h.configure label level format
  | addForeign => exact h.addForeign
  | adapter host component children timestamp call => exact h.concat rfl rfl rfl
  | plain logger timestamp call => exact h.concat rfl rfl rfl

/-! ## What is written -/

/-- Handlers of the host write nothing. -/
theorem join_written (timestamp : String) (l : Line) : ∀ handlers : List Handler,
    String.join (handlers.map (·.written timestamp l)) =
      String.join ((handlers.filter (·.isOwn)).map (·.written timestamp l))
  | [] => rfl
  | .own label format :: handlers => by
    simp [List.filter_cons, join_written timestamp l handlers]
  | .foreign :: handlers => by simp [join_written timestamp l handlers]

theorem Reflects.effective (h : Reflects history s) : s.effective = limit history := by
  rw [State.effective, limit, h.threshold]
  cases lastLevel? history with
  | none => rfl
  | some l => cases l <;> rfl

/-- A line is written by the handler of the last configuration, once. -/
theorem Reflects.written (h : Reflects history s) (timestamp : String) (l : Line) :
    s.written timestamp l = admittedLine history timestamp l := by
  unfold State.written admittedLine
  rw [join_written, h.own]
  by_cases hroot : isBelowRoot l.record.logger = true
  · have henabled : s.isEnabled l.record.logger l.record.level =
        decide ((limit history).number ≤ l.record.level.number) := by
      simp only [State.isEnabled, hroot, if_true, h.effective]
    rw [henabled]
    cases lastConfigured? history with
    | none => simp
    | some c => simp [hroot, ownOf]
  · cases lastConfigured? history <;> simp [hroot]

/-- The line of a call is one of its logger and its level. -/
theorem Call.of_line? {logger : String} {component : Option String} {c : Call} {l : Line}
    (h : c.line? logger component = some l) :
    l.record.logger = logger ∧ l.record.level = c.level := by
  unfold Call.line? at h
  split at h
  · cases h
  · obtain ⟨message, -, rfl⟩ := Option.map_eq_some_iff.1 h
    exact ⟨rfl, rfl⟩

/-- A call of a logger writes its line, if it has one. -/
theorem textOf_log (s : State) (timestamp logger : String) (component : Option String) (c : Call) :
    textOf (s.log timestamp logger component c) =
      ((c.line? logger component).map (s.written timestamp)).getD "" := by
  unfold State.log
  cases he : s.isEnabled logger c.level with
  | false =>
    -- the call makes no record, and a line of it would not be written
    cases hl : c.line? logger component with
    | none => rfl
    | some l =>
      obtain ⟨hlogger, hlevel⟩ := Call.of_line? hl
      simp [State.written, hlogger, hlevel, he, textOf]
  | true =>
    simp only [Bool.not_true, Bool.false_eq_true, if_false]
    unfold Call.line?
    split
    · next name value hf =>
      have hmem : ∃ e ∈ c.extra, e.1 ∈ reservedFields :=
        ⟨(name, value), List.mem_of_find?_eq_some hf, by simpa using List.find?_some hf⟩
      rw [if_pos hmem]
      rfl
    · next hf =>
      have hnone : ¬ ∃ e ∈ c.extra, e.1 ∈ reservedFields := by
        simpa using List.find?_eq_none.1 hf
      rw [if_neg hnone]
      cases fill? c.template c.values <;> rfl

theorem Reflects.text_log (h : Reflects history s) (timestamp logger : String)
    (component : Option String) (c : Call) : textOf (s.log timestamp logger component c) =
      ((c.line? logger component).map (admittedLine history timestamp)).getD "" := by
  rw [textOf_log, funext (h.written timestamp)]

/-- **What a step writes** is told by the history before it. -/
theorem Reflects.text (h : Reflects history s) (x : Step) :
    (x.apply s).2 = admitted history x := by
  cases x with
  | configure label level format => rfl
  | addForeign => rfl
  | adapter host component children timestamp call =>
    rw [admitted, Step.line?, Option.map_map]
    exact h.text_log ..
  | plain logger timestamp call =>
    rw [admitted, Step.line?, Option.map_map]
    exact h.text_log ..

end

/-! ## Runs -/

/-- A run keeps the reflection, and each of its steps writes what the history before it tells. -/
theorem Reflects.run {history : List Step} {s : State} (h : Reflects history s) :
    ∀ steps : List Step, Reflects (history ++ steps) (s.run steps).1 ∧
      (s.run steps).2 = steps.mapIdx fun i x => admitted (history ++ steps.take i) x
  | [] => ⟨by rwa [List.append_nil], rfl⟩
  | x :: steps => by
    obtain ⟨hstate, htexts⟩ := (h.apply x).run steps
    refine ⟨by simpa [State.run] using hstate, ?_⟩
    simp [State.run, List.mapIdx_cons, htexts, h.text x]

/-- **Logging is what its history makes it.**  After any sequence of configurations, of handlers of
the host, and of calls of loggers, there is one handler of the program, with the label and the
format of the last configuration, or none if there was no configuration; and all handlers of the
host are there.  Each step writes the line of its record if there was a configuration before it, the
logger is the program's and the level reaches the limit, and nothing otherwise; the line is written
once, with the label and the format of the last configuration. -/
theorem logging_history (history : List Step) :
    let (s, texts) := State.initial.run history
    s.handlers.filter (·.isOwn) = ((lastConfigured? history).map ownOf).toList ∧
      s.handlers.filter (!·.isOwn) = List.replicate (history.countP (·.isForeign)) .foreign ∧
      texts = history.mapIdx fun i x => admitted (history.take i) x := by
  obtain ⟨h, htexts⟩ := reflects_initial.run history
  exact ⟨h.own, h.foreign, htexts⟩

/-- A configuration that names no level still changes the label, and leaves the old threshold. -/
example :
    let greeting : Call := ⟨.info, "hi", [], [], none⟩
    (State.initial.run [.configure "a" "info" "text", .addForeign, .configure "b" "loud" "text",
      .adapter "h" none ["c", "d"] "now" greeting, .plain "other" "now" greeting]).2 =
      ["", "", "", "[b:d] now info: hi\n", ""] := by
  decide +kernel

end Runbook.Log
