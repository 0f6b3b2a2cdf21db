/-
  Which of its sources a field takes its value from.

  Of the library it is assumed that loading the files of a chain sets the variables that
  they assign, and that it prefers the process variables to the file `.env`.  Each
  variable is then set to its value in the last file that has one, and keeps its place.
  A field looks for its variable in any case and takes the last that it finds: what the
  chain assigns, unless the variable comes before its name in another case, else what was
  there, else what the file `.env` assigns.

  * `filesAmong_eq`, `applyFiles_eq`: the files of a chain that are found, and what they set;
  * `given_applied`: **where the value of a field comes from after a chain**;
  * `reread_reread`: reading the settings anew a second time changes nothing;
  * `load_of_long`: a file with too long a name ends a load;
  * `load_precedence`: **loading a chain gives the fields these values, and loading it again
    changes nothing.**
-/
import Runbook.Proofs.Settings.EnvFile

namespace Runbook.Settings

/-! ## Chains of files -/

namespace Store

/-- Whether a path leads to a file of a text, or to no file.  A file that is found only when the slash
at the end of its path is dropped is read as empty. -/
def Leads (p : Store) : String × Option (List Char) → Prop
  | (path, none) => p.isFile path = .ok false
  | (path, some text) => p.isFile path = .ok true ∧ decodeText (p.envFile path) = .ok text

theorem envFileText_eq {p : Store} {path : String} {bytes : List UInt8} {text : List Char}
    (hread : p.disk.read path = .ok bytes) (htext : decodeText bytes = .ok text) :
    p.envFileText path = .ok text := by
  simp only [envFileText, hread, htext]
  rfl

/-- The store with the variables that the files of a chain set. -/
def applied (p : Store) (texts : List (List Char)) : Store :=
  { p with
    environment := (chainPairs (p.library.files texts)).foldl (fun e a => e.insert a.1 a.2)
      p.environment }

/-- The same store, with no settings that were read last. -/
def renewed (p : Store) : Store := { p with current := none }

/-- Where a path leads is a matter of the disk. -/
theorem Leads.of_disk {p q : Store} (hdisk : q.disk = p.disk) {c : String × Option (List Char)}
    (h : p.Leads c) : q.Leads c := by
  obtain ⟨path, text⟩ := c
  have hfile : q.isFile path = p.isFile path := by
    unfold isFile
    rw [hdisk]
  have hread : q.envFile path = p.envFile path := by
    unfold envFile
    rw [hdisk]
  cases text with
  | none => exact hfile.trans h
  | some text => exact ⟨hfile.trans h.1, hread ▸ h.2⟩

variable {p : Store} {chain : List (String × Option (List Char))}

/-- The files of a chain that are found, in its order. -/
theorem filesAmong_eq (hchain : ∀ c ∈ chain, p.Leads c) :
    p.filesAmong (chain.map Prod.fst) = .ok ((chain.filter (·.2.isSome)).map Prod.fst) := by
  induction chain with
  | nil => rfl
  | cons c chain ih =>
    have ih := ih fun d hd => hchain d (.tail _ hd)
    have hc := hchain c List.mem_cons_self
    obtain ⟨path, _ | text⟩ := c
    · have hfile : p.isFile path = .ok false := hc
      simp only [List.map_cons, filesAmong, hfile, ih]
      rfl
    · have hfile : p.isFile path = .ok true := hc.1
      simp only [List.map_cons, filesAmong, hfile, ih]
      rfl

/-- What files of a chain set is among what the chain sets. -/
theorem differ_applied {e : Environment} {texts all : List (List Char)} (hall : texts ⊆ all)
    (he : p.library.Differ all e p.environment) :
    p.library.Differ all e (p.applied texts).environment := by
  intro name hname
  have hnot : name ∉ (chainPairs (p.library.files texts)).map Prod.fst := by
    intro hm
    obtain ⟨a, ha, rfl⟩ := List.mem_map.1 hm
    obtain ⟨file, hfile, ha⟩ := List.mem_flatMap.1 ha
    obtain ⟨text, htext, rfl⟩ := List.mem_map.1 hfile
    exact hname (List.mem_map_of_mem
      (List.mem_flatMap.2 ⟨_, List.mem_map_of_mem (hall htext), ha⟩))
  rw [applied, Table.find?_foldl_insert_of_not_mem hnot]
  exact he name hname

theorem applied_cons (p : Store) (text : List Char) (texts : List (List Char)) :
    p.applied (text :: texts) = (p.applied [text]).applied texts := by
  simp only [applied, Library.files, chainPairs, List.map_cons, List.map_nil, List.flatMap_cons,
    List.flatMap_nil, List.foldl_append, List.append_nil]

/-- The files of a chain set their variables, one file after another. -/
theorem applyFiles_eq {e : Environment} {all : List (List Char)}
    (hloads : p.library.Overrides e all) (he : p.library.Differ all e p.environment)
    (hchain : ∀ c ∈ chain, p.Leads c) (hall : chain.filterMap Prod.snd ⊆ all) :
    p.applyFiles ((chain.filter (·.2.isSome)).map Prod.fst) =
      (p.applied (chain.filterMap Prod.snd), .ok ()) := by
  induction chain generalizing p with
  | nil => rfl
  | cons c chain ih =>
    have hrest : ∀ d ∈ chain, p.Leads d := fun d hd => hchain d (.tail _ hd)
    have hc := hchain c List.mem_cons_self
    obtain ⟨path, _ | text⟩ := c
    · exact ih hloads he hrest hall
    · have htext : text ∈ all := hall List.mem_cons_self
      have hfile : p.applyFile path = (p.applied [text], .ok ()) := by
        have hpairs : chainPairs (p.library.files [text]) = pairs (p.library.assignments text) :=
          List.flatMap_singleton ..
        simp only [applyFile, hloads _ he text htext _ hc.2, applied, hpairs]
      have hdiffer : p.library.Differ all e (p.applied [text]).environment :=
        differ_applied (List.cons_subset.2 ⟨htext, List.nil_subset _⟩) he
      have hdisk : (p.applied [text]).disk = p.disk := rfl
      have hleads : ∀ d ∈ chain, (p.applied [text]).Leads d :=
        fun d hd => (hrest d hd).of_disk hdisk
      show p.applyFiles (path :: (chain.filter (·.2.isSome)).map Prod.fst) =
        (p.applied (text :: chain.filterMap Prod.snd), .ok ())
      rw [applied_cons p text]
      simp only [applyFiles, hfile]
      exact ih (p := p.applied [text]) hloads hdiffer hleads
        (List.Subset.trans (List.subset_cons_self ..) hall)

end Store

/-! ## The values of fields -/

/-- The value of a field after a chain of files: what the last file that assigns the field's variable
gives it, unless that variable comes before its name in another case in the process variables, else
that of the last process variable of the name in any case, else that of the file `.env`. -/
def Field.valueAfter (f : Field) (e : Environment) (files : List (List (String × Option String)))
    (dotenv : List (String × Option String)) : Option String :=
  let present := lastNamed? e.entries f.word
  (if f.overruledAmong e.keys then present
    else (chainValue? files f.variable).or present).or (lastValue? dotenv f.variable)

/-- Whether a field accepts a value. -/
def Library.accepts (l : Library) : Field → Value → Bool
  | .name, v => (l.readText v).isOk
  | .app, v => (l.readOptionalText v).isOk
  | .logLevel, v => (readLevel v).isOk
  | .logFormat, v => (readFormat v).isOk
  | .workingDir, v => (l.readPath v).isOk
  | .showTimings, v => (l.readBoolean v).isOk

theorem exists_fieldValue {α : Type} {given : Field → Option Value} {f : Field} (default : α)
    {read : Value → Except Mismatch α} (h : ∀ v, given f = some v → (read v).isOk = true) :
    ∃ x, fieldValue given f default read = .ok x := by
  unfold fieldValue
  split
  · exact ⟨default, rfl⟩
  · next v hv =>
    cases hr : read v with
    | ok x => exact ⟨x, rfl⟩
    | error m => simpa [hr, Except.isOk, Except.toBool] using h v hv

/-- Values that the fields accept make settings. -/
theorem exists_ofValues (l : Library) (given : Field → Option Value)
    (h : ∀ f v, given f = some v → l.accepts f v = true) : ∃ s, ofValues l given = .ok s := by
  obtain ⟨name, hname⟩ := exists_fieldValue defaults.name (h .name)
  obtain ⟨app, happ⟩ := exists_fieldValue defaults.app (h .app)
  obtain ⟨level, hlevel⟩ := exists_fieldValue defaults.logLevel (h .logLevel)
  obtain ⟨format, hformat⟩ := exists_fieldValue defaults.logFormat (h .logFormat)
  obtain ⟨dir, hdir⟩ := exists_fieldValue defaults.workingDir (h .workingDir)
  obtain ⟨timings, htimings⟩ := exists_fieldValue defaults.showTimings (h .showTimings)
  exact ⟨⟨name, app, level, format, dir, timings⟩, by
    simp only [ofValues, hname, happ, hlevel, hformat, hdir, htimings]⟩

namespace Store

/-- **Where the value of a field comes from after a chain of files.** -/
theorem given_applied {p : Store} {texts : List (List Char)} {dotenv : List Char}
    (htexts : ∀ text ∈ texts, p.library.Capitalized text)
    (hgiven : p.library.PrefersEnvironment dotenv) (f : Field) :
    p.library.given [] (p.applied texts).environment dotenv f =
      (f.valueAfter p.environment (p.library.files texts) (p.library.assignments dotenv)).map
        .str := by
  have hspelled : ∀ a ∈ chainPairs (p.library.files texts), f.IsSpelled a.1 → a.1 = f.variable := by
    intro a ha
    obtain ⟨file, hfile, ha⟩ := exists_of_mem_chainPairs ha
    obtain ⟨text, htext, rfl⟩ := List.mem_map.1 hfile
    exact htexts text htext _ ha f
  have hlast : lastNamed? (p.applied texts).environment.entries f.word =
      if f.overruledAmong p.environment.keys then lastNamed? p.environment.entries f.word
      else (chainValue? (p.library.files texts) f.variable).or
        (lastNamed? p.environment.entries f.word) := by
    rw [applied, lastNamed?_foldl_insert hspelled, findEntry_chain]
  rw [hgiven, hlast]
  rfl

theorem readSettings_applied {p : Store} {texts : List (List Char)} {dotenv : List Char}
    (htexts : ∀ text ∈ texts, p.library.Capitalized text)
    (hdotenv : p.envFileText settingsFile = .ok dotenv)
    (hgiven : p.library.PrefersEnvironment dotenv) :
    (p.applied texts).readSettings [] =
      (ofValues p.library fun f => (f.valueAfter p.environment (p.library.files texts)
        (p.library.assignments dotenv)).map .str).mapError .invalid := by
  have htext : (p.applied texts).envFileText settingsFile = .ok dotenv := hdotenv
  have hvalues : p.library.given [] (p.applied texts).environment dotenv = _ :=
    funext fun f => given_applied htexts hgiven f
  rw [readSettings, htext, ← hvalues]
  rfl

/-- Setting the variables of a chain a second time changes nothing. -/
theorem applied_applied (p : Store) (texts : List (List Char)) :
    (p.applied texts).applied texts = p.applied texts := by
  simp only [applied, Table.foldl_insert_idem]

/-- Settings that are read are given again. -/
theorem settings_settings (p : Store) : p.settings.1.settings = p.settings := by
  unfold settings
  cases hp : p.current with
  | some s => simp only [hp]
  | none => cases hr : p.readSettings [] <;> simp only [hp, hr]

theorem settings_renewed (p : Store) : p.renewed.settings.2 = p.readSettings [] := by
  have hread : p.renewed.readSettings [] = p.readSettings [] := rfl
  have hnone : p.renewed.current = none := rfl
  simp only [settings, hnone, hread]
  cases p.readSettings [] <;> rfl

/-- Reading the settings changes nothing but the settings that were read last. -/
theorem renewed_settings (p : Store) : p.settings.1.renewed = p.renewed := by
  unfold settings
  cases p.current with
  | some s => rfl
  | none => cases p.readSettings [] <;> rfl

/-- The settings that are read anew when the files of a chain have set their variables. -/
def reread (p : Store) (texts : List (List Char)) : Store × Except LoadError Settings :=
  (p.applied texts).renewed.settings

theorem renewed_reread (p : Store) (texts : List (List Char)) :
    (p.reread texts).1.renewed = (p.applied texts).renewed := by
  rw [reread, renewed_settings]
  rfl

theorem environment_reread (p : Store) (texts : List (List Char)) :
    (p.reread texts).1.environment = (p.applied texts).environment := by
  have hrenewed (q : Store) : q.renewed.environment = q.environment := rfl
  rw [← hrenewed, renewed_reread, hrenewed]

theorem disk_reread (p : Store) (texts : List (List Char)) : (p.reread texts).1.disk = p.disk :=
  (p.applied texts).renewed.disk_settings

theorem library_reread (p : Store) (texts : List (List Char)) :
    (p.reread texts).1.library = p.library := by
  have hrenewed (q : Store) : q.renewed.library = q.library := rfl
  rw [← hrenewed, renewed_reread, hrenewed]
  rfl

/-- What is read anew is made of the values of the fields. -/
theorem result_reread {p : Store} {texts : List (List Char)} {dotenv : List Char}
    (htexts : ∀ text ∈ texts, p.library.Capitalized text)
    (hdotenv : p.envFileText settingsFile = .ok dotenv)
    (hgiven : p.library.PrefersEnvironment dotenv) :
    (p.reread texts).2 =
      (ofValues p.library fun f => (f.valueAfter p.environment (p.library.files texts)
        (p.library.assignments dotenv)).map .str).mapError .invalid := by
  rw [reread, settings_renewed, readSettings_applied htexts hdotenv hgiven]

/-- **Reading anew a second time changes nothing.** -/
theorem reread_reread (p : Store) (texts : List (List Char)) :
    (p.reread texts).1.reread texts = p.reread texts := by
  have hagain : ((p.reread texts).1.applied texts).renewed = (p.applied texts).renewed := by
    calc ((p.reread texts).1.applied texts).renewed
        = ((p.reread texts).1.renewed).applied texts := rfl
      _ = ((p.applied texts).renewed).applied texts := by rw [renewed_reread]
      _ = ((p.applied texts).applied texts).renewed := rfl
      _ = (p.applied texts).renewed := by rw [applied_applied]
  rw [reread, hagain, ← reread]

end Store

/-! ## Names that are too long -/

theorem parts_of_name {name : String} (hslash : '/' ∉ name.toList) (hne : name ≠ "")
    (hdot : name ≠ ".") : Path.parts name = [name] := by
  have hsplit : name.toList.splitOn '/' = [name.toList] := by
    have hone : ∀ l ∈ [name.toList], '/' ∉ l := by simpa using hslash
    simpa [List.intercalate] using List.splitOn_intercalate '/' hone (by simp)
  rw [Path.parts, hsplit]
  simp [hne, hdot]

theorem normalizePath_of_name {name : String} (hslash : '/' ∉ name.toList) (hne : name ≠ "")
    (hdot : name ≠ ".") : normalizePath name = name := by
  have hroot : name.toList.takeWhile (· = '/') = [] := by
    cases h : name.toList with
    | nil => rfl
    | cons c cs =>
      have hc : c ≠ '/' := fun hc => hslash (by simp [h, hc])
      simp [hc]
  simp [normalizePath, hroot, parts_of_name hslash hne hdot]

namespace Store

theorem isFile_of_long {p : Store} {name : String} (hslash : '/' ∉ name.toList)
    (hnull : '\x00' ∉ name.toList) (hlong : Disk.maxNameLength < name.utf8ByteSize) :
    p.isFile name = .error (.tooLong name) := by
  have hshort : ∀ short : String, short.utf8ByteSize ≤ Disk.maxNameLength → name ≠ short := by
    rintro short hs rfl
    omega
  have hread : p.disk.read name = .error (.tooLong name) := by
    have hfind : p.disk.find .root name = .error (.tooLong name) := by
      have hname : name ≠ "" := hshort _ (by decide)
      have hparts := parts_of_name hslash hname (hshort _ (by decide))
      have hcontains : name.toList.contains '\x00' = false := by simpa using hnull
      simp only [Disk.find, hcontains, hname, hparts, List.foldlM_cons, Disk.findPart,
        hshort ".." (by decide), hlong, if_true, if_false, Bool.false_eq_true]
      split <;> rfl
    rw [Disk.read, hfind]
  unfold isFile
  rw [normalizePath_of_name hslash (hshort _ (by decide)) (hshort _ (by decide)), hread]

/-- A loader whose file has too long a name fails and changes nothing. -/
theorem load_of_long {p : Store} {name : String} (hslash : '/' ∉ name.toList)
    (hnull : '\x00' ∉ name.toList) (hlong : Disk.maxNameLength < name.utf8ByteSize) :
    (Loader.ofFiles p [name]).load p =
      (Loader.ofFiles p [name], p, .error (.unreachable (.tooLong name))) := by
  have hfiles : p.filesAmong [name] = .error (.tooLong name) := by
    rw [filesAmong, isFile_of_long hslash hnull hlong]
    rfl
  have hchain : (Loader.ofFiles p [name]).files = [name] := rfl
  rw [Loader.load, hchain, hfiles]

end Store

/-! ## Loading -/

namespace Loader

variable {l : Loader} {p : Store} {chain : List (String × Option (List Char))}

/-- Loading a chain sets the variables of the files that are found and reads the settings anew. -/
theorem load_eq {e : Environment} (hl : l.files = chain.map Prod.fst)
    (hchain : ∀ c ∈ chain, p.Leads c)
    (hloads : p.library.Overrides e (chain.filterMap Prod.snd))
    (he : p.library.Differ (chain.filterMap Prod.snd) e p.environment) :
    l.load p = ({ l with loaded := (chain.filter (·.2.isSome)).map Prod.fst },
      p.reread (chain.filterMap Prod.snd)) := by
  rw [load, hl, Store.filesAmong_eq hchain]
  simp only [Store.applyFiles_eq hloads he hchain (List.Subset.refl _), Store.reread, Store.renewed]

/-- **The values of the fields after a chain of files.**  The loader lists the files that are found,
in order.  Each field takes its value from the last file that assigns its variable, else from the
process variables, else from the file `.env`, else it has its default; only a process variable that
comes after the field's own and has its name in another case counts before the files.  The settings
of these values are given again until the next load, and loading a second time changes nothing. -/
theorem load_precedence {dotenv : List Char} (hl : l.files = chain.map Prod.fst)
    (hchain : ∀ c ∈ chain, p.Leads c)
    (hnames : ∀ text ∈ chain.filterMap Prod.snd, p.library.Capitalized text)
    (hloads : p.library.Overrides p.environment (chain.filterMap Prod.snd))
    (hdotenv : p.envFileText settingsFile = .ok dotenv)
    (hgiven : p.library.PrefersEnvironment dotenv) :
    ∃ q result,
      let loaded : Loader := { l with loaded := (chain.filter (·.2.isSome)).map Prod.fst }
      let value (f : Field) := f.valueAfter p.environment
        (p.library.files (chain.filterMap Prod.snd)) (p.library.assignments dotenv)
      l.load p = (loaded, q, result) ∧
        result = (ofValues p.library fun f => (value f).map .str).mapError .invalid ∧
        ((∀ f v, value f = some v → p.library.accepts f (.str v) = true) →
          ∃ s, result = .ok s) ∧
        q.settings = (q, result) ∧ loaded.load q = (loaded, q, result) := by
  let texts := chain.filterMap Prod.snd
  have hresult := Store.result_reread hnames hdotenv hgiven
  have hsame : p.library.Differ texts p.environment p.environment := fun _ _ => rfl
  have hfirst := load_eq (e := p.environment) hl hchain hloads hsame
  have hsettled : (p.reread texts).1.settings = p.reread texts := Store.settings_settings _
  -- the second load starts from what the first one leaves, and reads the same again
  have hleads : ∀ c ∈ chain, (p.reread texts).1.Leads c :=
    fun c hc => (hchain c hc).of_disk (p.disk_reread texts)
  have hloads' : (p.reread texts).1.library.Overrides p.environment texts := by
    rwa [Store.library_reread]
  have hdiffer : (p.reread texts).1.library.Differ texts p.environment
      (p.reread texts).1.environment := by
    rw [Store.library_reread, Store.environment_reread]
    exact Store.differ_applied (List.Subset.refl _) hsame
  have hsecond := load_eq (l := { l with loaded := (chain.filter (·.2.isSome)).map Prod.fst }) hl
    hleads hloads' hdiffer
  rw [Store.reread_reread] at hsecond
  generalize p.reread texts = reread at hresult hfirst hsettled hsecond
  obtain ⟨q, result⟩ := reread
  refine ⟨q, result, hfirst, hresult, fun hvalid => ?_, hsettled, hsecond⟩
  obtain ⟨s, hs⟩ := exists_ofValues p.library _ fun f v hv => by
    obtain ⟨w, hw, rfl⟩ := Option.map_eq_some_iff.1 hv
    exact hvalid f w hw
  exact ⟨s, hresult.trans (congrArg (Except.mapError LoadError.invalid) hs)⟩

/-- A process with some variables, in a directory with files of some texts. -/
def processIn (environment files : List (String × String)) : Store :=
  ⟨.ofList environment, Disk.ofPaths [] (files.map fun (path, text) => (path, Text.Utf8.encode text)),
    none, .stock⟩

/-- Two files and none between them, over the process variables and the file `.env`. -/
theorem load_precedence_layers :
    let p := processIn [("YESOD_NAME", "here"), ("YESOD_LOG_FORMAT", "json")]
      [(".env", "YESOD_NAME=default\nYESOD_APP=shop:host\nYESOD_LOG_FORMAT=text\n"),
        ("a.env", "YESOD_NAME=a\nYESOD_LOG_LEVEL=debug\n"), ("b.env", "YESOD_NAME=b\n")]
    ∃ q, (ofFiles p ["a.env", "none.env", "b.env"]).load p =
      (⟨["a.env", "none.env", "b.env"], ["a.env", "b.env"]⟩, q,
        .ok ⟨"b", some "shop:host", .debug, .json, none, true⟩) := by
  intro p
  let first := "YESOD_NAME=a\nYESOD_LOG_LEVEL=debug\n".toList
  let last := "YESOD_NAME=b\n".toList
  let dotenv := "YESOD_NAME=default\nYESOD_APP=shop:host\nYESOD_LOG_FORMAT=text\n".toList
  have hleads : ∀ c ∈ [("a.env", some first), ("none.env", none), ("b.env", some last)],
      p.Leads c := by
    intro c hc
    rcases List.mem_cons.1 hc with rfl | hc
    · exact ⟨by decide +kernel, by decide +kernel⟩
    rcases List.mem_cons.1 hc with rfl | hc
    · exact (by decide +kernel : p.isFile "none.env" = .ok false)
    · cases List.mem_singleton.1 hc
      exact ⟨by decide +kernel, by decide +kernel⟩
  have hplain : ∀ text ∈ [first, last], EnvFile.PlainText text := by decide +kernel
  have hdotenv : EnvFile.PlainText dotenv := by decide +kernel
  have hread : p.envFileText settingsFile = .ok dotenv :=
    Store.envFileText_eq (by decide +kernel : p.disk.read ".env" =
      .ok (Text.Utf8.encode (String.ofList dotenv))) (by decide +kernel)
  obtain ⟨q, result, hload, hresult, -⟩ :=
    load_precedence (l := ofFiles p ["a.env", "none.env", "b.env"]) rfl hleads
      (fun text htext => EnvFile.capitalized_of_plain (hplain text htext))
      (EnvFile.stock_overrides hplain (by decide +kernel)) hread
      (EnvFile.stock_prefersEnvironment hdotenv)
  have hsettings : (ofValues .stock fun f => (f.valueAfter p.environment
      (Library.stock.files [first, last]) (EnvFile.assignments dotenv)).map .str) =
      .ok ⟨"b", some "shop:host", .debug, .json, none, true⟩ := by
    decide +kernel
  have hresult : result = .ok ⟨"b", some "shop:host", .debug, .json, none, true⟩ :=
    hresult.trans (congrArg (Except.mapError LoadError.invalid) hsettings)
  exact ⟨q, hresult ▸ hload⟩

/-- Where a chain does not have its way: a variable that comes after a field's own, with its name in
another case, counts before what the last file assigns; a file whose path has a slash at its end is
found and assigns nothing; a path that is too long ends the load; and no chain is the default one.
-/
theorem load_overruled :
    let mixed := processIn [("YESOD_NAME", "a"), ("yesod_name", "b")] [("x.env", "YESOD_NAME=c\n")]
    let bare := processIn [] [(".env", "")]
    let long := String.ofList (List.replicate 256 'x')
    (chainValue? [EnvFile.assignments "YESOD_NAME=c\n".toList] Field.name.variable = some "c" ∧
      ((ofFiles mixed ["x.env"]).load mixed).2.2.toOption.map Settings.name = some "b") ∧
    (((ofFiles mixed ["x.env/"]).load mixed).1.loaded = ["x.env/"] ∧
      ((ofFiles mixed ["x.env/"]).load mixed).2.1.environment = mixed.environment) ∧
    (∃ fault, ((ofFiles bare [long]).load bare).2.2 = .error fault) ∧
    ((ofFiles bare []).load bare).1.loaded = [".env"] := by
  intro mixed bare long
  have hchar : ∀ c ∈ long.toList, c = 'x' := by
    intro c hc
    rw [String.toList_ofList] at hc
    exact List.eq_of_mem_replicate hc
  have hslash : '/' ∉ long.toList := fun h => absurd (hchar _ h) (by decide)
  have hnull : '\x00' ∉ long.toList := fun h => absurd (hchar _ h) (by decide)
  have hmixed : chainValue? [EnvFile.assignments "YESOD_NAME=c\n".toList] Field.name.variable =
      some "c" ∧ ((ofFiles mixed ["x.env"]).load mixed).2.2.toOption.map Settings.name = some "b" := by
    decide +kernel
  have hnothing : ((ofFiles mixed ["x.env/"]).load mixed).1.loaded = ["x.env/"] ∧
      ((ofFiles mixed ["x.env/"]).load mixed).2.1.environment = mixed.environment := by
    decide +kernel
  have hdefault : ((ofFiles bare []).load bare).1.loaded = [".env"] := by decide +kernel
  have hlong : ((ofFiles bare [long]).load bare).2.2 = .error (.unreachable (.tooLong long)) := by
    rw [Store.load_of_long hslash hnull (by decide +kernel)]
  exact ⟨hmixed, hnothing, ⟨_, hlong⟩, hdefault⟩

end Loader

end Runbook.Settings
