import ModelLint.Configuration
import ModelLint.Workspace.Basic
import ModelLint.Yaml.Reader

/-!
# Configuration files

A configuration is read from a file that is named, which must be there, or from the file
`.warden.yml` of a directory, which need not be. A file without a value, or with one that counts as
false, configures nothing.
-/

namespace ModelLint

/-- Why there is no configuration. -/
inductive SettingsFailure where
  /-- The file cannot be read. -/
  | unreadable (path : Path)
  /-- The bytes of the file are no text. -/
  | notText (path : Path)
  /-- The text is not YAML, for a reason that the reader tells. -/
  | notYaml (path : Path) (reason : String)
  /-- The value is no configuration. -/
  | invalid (failure : ConfigError)

/-- What is wrong; bytes that are no text have no message of their own, and a reader may not tell why a
text has no value. -/
def SettingsFailure.message : SettingsFailure → String
  | .unreadable path => "Cannot read config " ++ path.toString
  | .notText _ => ""
  | .notYaml path reason =>
    "Invalid YAML in " ++ path.toString ++ reasonText reason
  | .invalid failure => failure.message

/-- Whether the failure is an answer to the user, and not an accident that ends the run. -/
def SettingsFailure.isReported : SettingsFailure → Bool
  | .notText _ => false
  | .invalid failure => failure.isReported
  | _ => true

namespace Configuration

/-- The name of the configuration file of a directory. -/
def fileName : String := ".warden.yml"

/-- The configuration of what a reader makes of the text of a file at a path. -/
def ofReading (p : Path) : Except String Value → Except SettingsFailure Configuration
  | .error reason => .error (.notYaml p reason)
  | .ok v => (ofValue (if v.isTruthy then v else .map [])).mapError .invalid

section Reading

variable (read : String → Except String Value)

/-- The configuration of the bytes of a file at a path, where `read` gives the value of a YAML text or
the reason why there is none. -/
def ofBytes (p : Path) (bytes : ByteArray) : Except SettingsFailure Configuration :=
  match Text.ofBytes? bytes with
  | none => .error (.notText p)
  | some text => ofReading p (read text)

/-- The configuration of the file at a path. -/
def ofFile (w : Workspace) (p : Path) : Except SettingsFailure Configuration :=
  match w.bytes? p with
  | none => .error (.unreadable p)
  | some bytes => ofBytes read p bytes

/-- The configuration of a named file; without one, that of a directory, if it has one. -/
def loadWith (w : Workspace) (file directory : Option Path) : Except SettingsFailure Configuration :=
  match file, directory with
  | some p, _ => ofFile read w p
  | none, some d =>
    if w.isFile (d.child fileName) then ofFile read w (d.child fileName) else .ok standard
  | none, none => .ok standard

end Reading

/-- The value of a YAML text; why a text has none is not told. -/
def readYaml (text : String) : Except String Value :=
  match Yaml.read? text with
  | none => .error ""
  | some v => .ok v

/-- The configuration of a named file or of a directory. -/
def load : Workspace → Option Path → Option Path → Except SettingsFailure Configuration :=
  loadWith readYaml

end Configuration

end ModelLint
