/-
  The ways to give a source text.

  A text is the value of an option, the content of a file or the standard input.  The
  last two are read alike, with unified line ends; the value of an option is taken as it
  is, unless it is empty.

  * `source_of_contextOf`: the source is read as if no settings were loaded before;
  * `answer_given`: an answer depends on what is given in which way only through the
    source;
  * `sources_agree`: **the ways to give a text agree, but for its line ends**;
  * `sources_agree_return`: a carriage return is kept by an option alone, and an empty
    option is none.
-/
import Runbook.Proofs.Cli.Phases
import Runbook.Proofs.Text.Utf8

namespace Runbook.Cli

/-! ## What is given -/

/-- The same surroundings with another standard input. -/
def Surroundings.withInput (s : Surroundings) (input : List UInt8) : Surroundings :=
  { s with input }

/-- The same request with other options for the source. -/
def Request.given (r : Request) (file command : Option String) : Request :=
  { r with file, command }

/-- The same context with the source elsewhere. -/
def Context.given (c : Context) (input : List UInt8) (file command : Option String) : Context :=
  { c with
    surroundings := c.surroundings.withInput input
    request := c.request.given file command }

section
variable {s : Surroundings} {r : Request} {input input' : List UInt8}
  {file file' command command' : Option String}

/-- No settings depend on the source. -/
theorem contextOf_given : contextOf (s.withInput input) (r.given file command) =
    (contextOf s r).map (·.given input file command) := by
  unfold contextOf
  have hstore : (s.withInput input).store = s.store := rfl
  rw [hstore]
  obtain ⟨l, store, e | settings⟩ := (Settings.Loader.ofFiles s.store []).load s.store <;> rfl

/-- No source depends on the settings. -/
theorem source_of_contextOf {c : Context} (h : contextOf s r = .ok c) :
    c.source = readSource s r := by
  have hload := (Settings.Loader.ofFiles s.store []).disk_load s.store
  unfold contextOf at h
  split at h
  · cases h
  · next l store settings heq =>
    cases h
    have hdisk : store.disk = s.store.disk := by rwa [heq] at hload
    simp only [Context.source, readSource, hdisk]

/-- The subcommands see the source and nothing of where it is from. -/
theorem perform_given {c : Context}
    (h : (c.given input file command).source = (c.given input' file' command').source)
    (o : Output) :
    (c.given input file command).perform o = (c.given input' file' command').perform o := by
  have hparsing (o : Output) (next : Output → List Script.Statement → Result) :
      (c.given input file command).parsing o next =
        (c.given input' file' command').parsing o next := by
    rw [Context.parsing_eq, Context.parsing_eq, h]
    rfl
  have hsub : (c.given input file command).request.subcommand = c.request.subcommand := rfl
  have hsub' : (c.given input' file' command').request.subcommand = c.request.subcommand := rfl
  simp only [Context.perform, hsub, hsub']
  cases c.request.subcommand with
  | parse => exact hparsing o _
  | check =>
    simp only [Context.check, hparsing]
    rfl
  | run =>
    unfold Context.source at h
    simp only [Context.run, h]
    rfl
  | commands => rfl

/-- Equal sources make equal answers. -/
theorem answer_given (h : readSource (s.withInput input) (r.given file command) =
      readSource (s.withInput input') (r.given file' command')) :
    answer (s.withInput input) (r.given file command) =
      answer (s.withInput input') (r.given file' command') := by
  rw [answer_eq, answer_eq, contextOf_given, contextOf_given]
  cases hc : contextOf s r with
  | error e => rfl
  | ok c =>
    refine perform_given ?_ _
    rw [source_of_contextOf (contextOf_given.trans (congrArg _ hc)), h,
      source_of_contextOf (contextOf_given.trans (congrArg _ hc))]

end

/-! ## Texts -/

/-- A text with unified line ends. -/
def unified (text : String) : String := String.ofList (Text.unifyLineEnds text.toList)

theorem unified_eq_self {text : String} (h : '\r' ∉ text.toList) : unified text = text := by
  rw [unified, Text.unifyLineEnds_eq_self h, String.ofList_toList]

theorem decodeText_encode (text : String) :
    Settings.decodeText (Text.Utf8.encode text) = .ok (Text.unifyLineEnds text.toList) := by
  rw [Settings.decodeText, Text.Utf8.decode_encode]
  rfl

section
variable {s : Surroundings} {r : Request} {path text : String}

/-- There is no file with an empty path. -/
theorem ne_empty_of_read {bytes : List UInt8} (h : s.store.disk.read path = .ok bytes) :
    path ≠ "" := by
  rintro rfl
  cases h

/-- An option that is not empty counts. -/
theorem filter_ne_empty (h : text ≠ "") : (some text).filter (· ≠ "") = some text := by
  simp [h]

theorem readSource_command (h : text ≠ "") :
    readSource s (r.given none (some text)) = .ok text := by
  simp only [readSource, Request.given, filter_ne_empty h, Option.filter_none]

theorem readSource_input : readSource (s.withInput (Text.Utf8.encode text)) (r.given none none) =
    .ok (unified text) := by
  simp only [readSource, Request.given, Surroundings.withInput, Option.filter_none,
    decodeText_encode]
  rfl

theorem readSource_file (h : s.store.disk.read path = .ok (Text.Utf8.encode text)) :
    readSource s (r.given (some path) none) = .ok (unified text) := by
  simp only [readSource, Request.given, filter_ne_empty (ne_empty_of_read h), h,
    decodeText_encode]
  rfl

end

theorem program_given {s : Surroundings} {r : Request} {input : List UInt8}
    {file command : Option String} {arguments : List String}
    (h : readRequest arguments = .ok (r.given file command)) :
    program (s.withInput input) arguments =
      .ok (answer (s.withInput input) (r.given file command)) := by
  rw [program, h]
  rfl

/-- **The ways to give a text agree.**  The bytes of a text make the same result as a file and on the
standard input, and so does the option with the text if it has no carriage returns, or else with its
line ends unified.  A text that is given with the option is itself the source, whatever the standard
input holds.  An empty option is none, so nothing is said of it here. -/
theorem sources_agree {s : Surroundings} {sub : Subcommand} {app : Option String}
    {path text : String} {viaFile viaInput : List String}
    (hread : s.store.disk.read path = .ok (Text.Utf8.encode text))
    (hfile : readRequest viaFile = .ok ⟨sub, some path, none, app⟩)
    (hinput : readRequest viaInput = .ok ⟨sub, none, none, app⟩) :
    ∃ result, program (s.withInput (Text.Utf8.encode text)) viaInput = .ok result ∧
      (∀ input, program (s.withInput input) viaFile = .ok result) ∧
      ∀ viaCommand given, readRequest viaCommand = .ok ⟨sub, none, some given, app⟩ → given ≠ "" →
        ∀ input,
          (given = text → '\r' ∉ text.toList →
            program (s.withInput input) viaCommand = .ok result) ∧
          (given = unified text → program (s.withInput input) viaCommand = .ok result) ∧
          (∀ input', program (s.withInput input') viaCommand =
            program (s.withInput input) viaCommand) ∧
          ∀ c, contextOf (s.withInput input) ⟨sub, none, some given, app⟩ = .ok c →
            c.source = .ok given := by
  let r : Request := ⟨sub, none, none, app⟩
  have hinput' : readSource (s.withInput (Text.Utf8.encode text)) (r.given none none) =
      .ok (unified text) := readSource_input
  have hfile' (input : List UInt8) :
      readSource (s.withInput input) (r.given (some path) none) = .ok (unified text) :=
    readSource_file hread
  refine ⟨_, program_given (r := r) hinput, fun input => ?_,
    fun viaCommand given hcommand hne input => ?_⟩
  · rw [program_given (r := r) hfile, answer_given ((hfile' input).trans hinput'.symm)]
  · have hcommand' (input : List UInt8) :
        readSource (s.withInput input) (r.given none (some given)) = .ok given :=
      readSource_command hne
    have hunified (hgiven : given = unified text) : program (s.withInput input) viaCommand =
        .ok (answer (s.withInput (Text.Utf8.encode text)) (r.given none none)) := by
      rw [program_given (r := r) hcommand,
        answer_given ((hcommand' input).trans (hgiven ▸ hinput'.symm))]
    refine ⟨fun hgiven hr => hunified (hgiven.trans (unified_eq_self hr).symm), hunified,
      fun input' => ?_, fun c hc => ?_⟩
    · rw [program_given (r := r) hcommand, program_given (r := r) hcommand,
        answer_given ((hcommand' input').trans (hcommand' input).symm)]
    · rw [source_of_contextOf hc]
      exact hcommand' input

/-- The desk with a file `p`. -/
def deskWithFile (bytes : List UInt8) : Surroundings :=
  { desk with store := { desk.store with disk := Disk.empty.addFile (Place.root.child "p") bytes } }

theorem read_deskWithFile (bytes : List UInt8) :
    (deskWithFile bytes).store.disk.read "p" = .ok bytes := by
  have hends : ("p".endsWith "/" || "p".endsWith "/.") = false := by decide +kernel
  have hfind : (deskWithFile bytes).store.disk.find .root "p" = .ok (.file bytes) := rfl
  rw [Disk.read, hfind, hends]
  rfl

theorem sources_agree_ping :
    let bytes := Text.Utf8.encode "(ping)"
    let s := deskWithFile bytes
    ∃ result, program (s.withInput bytes) ["parse"] = .ok result ∧
      program (s.withInput []) ["parse", "-f", "p"] = .ok result ∧
      program (s.withInput []) ["parse", "-c", "(ping)"] = .ok result := by
  intro bytes s
  have hinput : readRequest ["parse"] = .ok ⟨.parse, none, none, none⟩ := by decide +kernel
  have hfile : readRequest ["parse", "-f", "p"] = .ok ⟨.parse, some "p", none, none⟩ := by
    decide +kernel
  have hcommand : readRequest ["parse", "-c", "(ping)"] =
      .ok ⟨.parse, none, some "(ping)", none⟩ := by decide +kernel
  obtain ⟨result, hresult, hsame, hagree⟩ :=
    sources_agree (read_deskWithFile bytes) hfile hinput
  have hne : "(ping)" ≠ "" := by decide
  exact ⟨result, hresult, hsame [], (hagree _ _ hcommand hne []).1 rfl (by decide)⟩

/-- A source that is a program is printed as the document of its statements, with a line end. -/
theorem printed_of_accepts {c : Context} {ss : List Script.Statement} (h : c.Accepts ss) :
    (c.parse .initial).output.world.host.printed = (programJson ss).write .document ++ "\n" := by
  obtain ⟨source, hs, hp⟩ := h
  rw [Context.parse, Context.parsing_eq, hs]
  simp only [hp]
  exact congrArg (· ++ "\n") (String.empty_append (s := (programJson ss).write .document))

/-- What parsing a source prints. -/
theorem printed_parse {input : List UInt8} {r : Request} {file command : Option String}
    {source : String} {ss : List Script.Statement} (hsub : r.subcommand = .parse)
    (hs : readSource (desk.withInput input) (r.given file command) = .ok source)
    (hp : Script.parse source = .ok ss) :
    (answer (desk.withInput input) (r.given file command)).output.world.host.printed =
      (programJson ss).write .document ++ "\n" := by
  obtain ⟨c, hdesk, -⟩ := contextOf_desk r
  have hc : contextOf (desk.withInput input) (r.given file command) =
      .ok (c.given input file command) := contextOf_given.trans (congrArg _ hdesk)
  have hparse : (c.given input file command).request.subcommand = .parse :=
    (congrArg Request.subcommand (request_of_contextOf hdesk)).trans hsub
  have hsource : (c.given input file command).source = .ok source :=
    (source_of_contextOf hc).trans hs
  have hanswer : answer (desk.withInput input) (r.given file command) =
      (c.given input file command).parse .initial := by
    simp only [answer_eq, hc, Context.perform, hparse]
  rw [hanswer]
  exact printed_of_accepts ⟨source, hsource, hp⟩

/-- Two texts that are not read from the standard input as the option gives them: one with a carriage
return in a literal, and the empty text, in whose place the option runs what the input holds. -/
theorem sources_agree_return :
    (∃ byInput byCommand,
      program (desk.withInput (Text.Utf8.encode "(c \"\r\")")) ["parse"] = .ok byInput ∧
      program (desk.withInput []) ["parse", "-c", "(c \"\r\")"] = .ok byCommand ∧
      byInput.output.world.host.printed ≠ byCommand.output.world.host.printed) ∧
    ∃ byInput byCommand,
      program (desk.withInput (Text.Utf8.encode "")) ["parse"] = .ok byInput ∧
      program (desk.withInput (Text.Utf8.encode "(ping)")) ["parse", "-c", ""] = .ok byCommand ∧
      byInput.output.world.host.printed ≠ byCommand.output.world.host.printed := by
  let r : Request := ⟨.parse, none, none, none⟩
  have hsub : r.subcommand = .parse := rfl
  have hinput : readRequest ["parse"] = .ok (r.given none none) := by decide +kernel
  constructor
  · have hcommand : readRequest ["parse", "-c", "(c \"\r\")"] =
        .ok (r.given none (some "(c \"\r\")")) := by decide +kernel
    refine ⟨_, _, program_given hinput, program_given hcommand, ?_⟩
    have hp : Script.parse (unified "(c \"\r\")") = .ok [⟨none, "c", [.literal "\n"], .empty⟩] := by
      decide +kernel
    have hp' : Script.parse "(c \"\r\")" = .ok [⟨none, "c", [.literal "\r"], .empty⟩] := by
      decide +kernel
    rw [printed_parse hsub readSource_input hp,
      printed_parse hsub (readSource_command (by decide)) hp']
    decide +kernel
  · have hcommand : readRequest ["parse", "-c", ""] = .ok (r.given none (some "")) := by
      decide +kernel
    refine ⟨_, _, program_given hinput, program_given hcommand, ?_⟩
    have hs' : readSource (desk.withInput (Text.Utf8.encode "(ping)")) (r.given none (some "")) =
        .ok (unified "(ping)") := readSource_input (r := r)
    have hp : Script.parse (unified "") = .ok [] := by decide +kernel
    have hp' : Script.parse (unified "(ping)") = .ok [⟨none, "ping", [], .empty⟩] := by
      decide +kernel
    rw [printed_parse hsub readSource_input hp, printed_parse hsub hs' hp']
    decide +kernel

end Runbook.Cli
