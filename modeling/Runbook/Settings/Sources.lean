/-
  Where settings come from.

  A library finds the value of a field in what a caller gives, in the process
  variables or in the file `.env`; else the field has its default.  Variables are
  looked for by their names in any case.
  `Store` is what settings are read from, with the settings that were read
  last; `Loader` puts the assignments of a chain of files into the process
  variables, by the library, and reads the settings anew.
-/
import Runbook.Settings.Fields
import Runbook.Text.Basic
import Runbook.Text.Utf8

namespace Runbook.Settings

/-! ## Names in any case -/

/-- What the names of the variables of settings begin with. -/
def variableStart : String := "yesod_"

/-- The name of the variable of a field, in small letters. -/
def Field.word (f : Field) : String := variableStart ++ f.key

/-- The value of the first entry whose name is a word, in any case. -/
def firstNamed? {α : Type} (entries : List (String × α)) (word : String) : Option α :=
  (entries.find? fun e => Text.lowerWord e.1 = word).map Prod.snd

/-- The value of the last entry whose name is a word, in any case. -/
def lastNamed? {α : Type} (entries : List (String × α)) (word : String) : Option α :=
  firstNamed? entries.reverse word

/-! ## Stores -/

/-- What a process reads its settings from and by which library, and the settings that it read
last. -/
structure Store where
  environment : Environment
  disk : Disk
  current : Option Settings
  library : Library

/-- The text of bytes, with unified line ends. -/
def decodeText (bytes : List UInt8) : Except Text.Utf8.DecodeError (List Char) :=
  (Text.Utf8.decode bytes).map Text.unifyLineEnds

/-- The file that settings are read from. -/
def settingsFile : String := ".env"

namespace Store

/-- The bytes of an environment file; a missing one is empty. -/
def envFile (p : Store) (path : String) : List UInt8 :=
  match p.disk.read path with
  | .error _ => []
  | .ok bytes => bytes

/-- The text of an environment file; a missing one is empty. -/
def envFileText (p : Store) (path : String) : Except LoadError (List Char) :=
  match p.disk.read path with
  | .error _ => .ok []
  | .ok bytes => (decodeText bytes).mapError .undecodable

/-- Reads the settings from their sources. -/
def readSettings (p : Store) (arguments : List (String × Value)) : Except LoadError Settings := do
  let text ← p.envFileText settingsFile
  (ofValues p.library (p.library.given arguments p.environment text)).mapError .invalid

/-- The settings: those that were read last, or freshly read ones. -/
def settings (p : Store) : Store × Except LoadError Settings :=
  match p.current with
  | some s => (p, .ok s)
  | none =>
    match p.readSettings [] with
    | .ok s => ({ p with current := some s }, .ok s)
    | .error e => (p, .error e)

/-- The variable that names the kind of surroundings. -/
def surroundingsVariable : String := "YESOD_ENV"

/-- The chain of environment files, of which the last depends on the surroundings. -/
def defaultFiles (p : Store) : List String :=
  let surroundings := (p.environment.find? surroundingsVariable).getD "development"
  [".env", ".env.local", ".env." ++ surroundings]

/-- Whether a path leads to a file.  One that is too long to be followed is an error; one that leads
nowhere for another reason leads to no file. -/
def isFile (p : Store) (path : String) : Except PathFault Bool :=
  match p.disk.read (normalizePath path) with
  | .ok _ => .ok true
  | .error (.tooLong path) => .error (.tooLong path)
  | .error _ => .ok false

/-- Those of some paths that lead to files. -/
def filesAmong (p : Store) : List String → Except PathFault (List String)
  | [] => .ok []
  | path :: paths => do
    let isFile ← p.isFile path
    let files ← p.filesAmong paths
    return if isFile then path :: files else files

/-- Puts the assignments of a file into the process variables. -/
def applyFile (p : Store) (path : String) : Store × Except LoadError Unit :=
  let (environment, result) := p.library.load p.environment (p.envFile path)
  ({ p with environment }, result)

/-- Puts the assignments of files into the process variables, up to the first file where that
fails. -/
def applyFiles (p : Store) : List String → Store × Except LoadError Unit
  | [] => (p, .ok ())
  | path :: paths =>
    match p.applyFile path with
    | (p, .error e) => (p, .error e)
    | (p, .ok ()) => applyFiles p paths

theorem disk_settings (p : Store) : p.settings.1.disk = p.disk := by
  unfold settings
  split
  · rfl
  · split <;> rfl

theorem disk_applyFile (p : Store) (path : String) : (p.applyFile path).1.disk = p.disk := rfl

theorem disk_applyFiles (p : Store) (paths : List String) :
    (p.applyFiles paths).1.disk = p.disk := by
  induction paths generalizing p with
  | nil => rfl
  | cons path paths ih =>
    have hdisk := p.disk_applyFile path
    rw [applyFiles]
    split
    · next h => rwa [h] at hdisk
    · next h => rw [ih, ← hdisk, h]

end Store

/-! ## Chains of files -/

/-- A chain of environment files, and those of them that were loaded last. -/
structure Loader where
  files : List String
  loaded : List String
  deriving DecidableEq

namespace Loader

/-- The loader of a chain; without one, of the default chain. -/
def ofFiles (p : Store) (files : List String) : Loader :=
  ⟨if files.isEmpty then p.defaultFiles else files, []⟩

/-- Loads the files of the chain that are there, and reads the settings anew. -/
def load (l : Loader) (p : Store) : Loader × Store × Except LoadError Settings :=
  match p.filesAmong l.files with
  | .error fault => (l, p, .error (.unreachable fault))
  | .ok files =>
    let l := { l with loaded := files }
    match p.applyFiles files with
    | (p, .error e) => (l, p, .error e)
    | (p, .ok ()) =>
      let (p, result) := ({ p with current := none } : Store).settings
      (l, p, result)

/-- Loading changes no file. -/
theorem disk_load (l : Loader) (p : Store) : (l.load p).2.1.disk = p.disk := by
  unfold load
  split
  · rfl
  · next files _ =>
    have hdisk := p.disk_applyFiles files
    dsimp only
    split
    · next h => rwa [h] at hdisk
    · next q h =>
      rw [h] at hdisk
      exact (Store.disk_settings { q with current := none }).trans hdisk

end Loader

end Runbook.Settings
