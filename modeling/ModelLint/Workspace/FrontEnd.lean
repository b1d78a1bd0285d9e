import ModelLint.Document.Load
import ModelLint.Json.Reader
import ModelLint.Source.Unit
import ModelLint.Workspace.Basic

/-!
# Front ends

A front end turns a file into a linked unit. Which one is responsible follows from the name of the
file alone: one reads sources, the other documents in JSON or YAML. What is read by no definition
of the library is a parameter, `Readers`. A file that cannot be turned into a unit gives a
`FileFailure`; those that tell a fault of the file itself are reported, and the rest end the whole
run.
-/

namespace ModelLint

/-- Why a file has no unit. -/
inductive FileFailure where
  /-- The file cannot be read as a text. -/
  | unreadable (path : Path)
  /-- The text is no document, for a reason that the reader tells. -/
  | notDocument (path : Path) (reason : String)
  /-- A number of the text has too many digits to be read. -/
  | numberTooLong (path : Path)
  /-- The document describes no unit. -/
  | document (failure : Document.LoadError)
  /-- The source has no unit. -/
  | source (failure : Source.LoadFailure)

namespace FileFailure

/-- What is wrong; a number that is too long has no message of its own. -/
def message : FileFailure → String
  | unreadable path => "Cannot read " ++ path.toString
  | notDocument path reason => "Invalid model document " ++ path.toString ++ reasonText reason
  | numberTooLong _ => ""
  | document failure => failure.message
  | source failure => failure.message

/-- Whether the failure tells a fault of the file, so that a run reports it and goes on. -/
def isReported : FileFailure → Bool
  | numberTooLong _ | source .nullCharacter | source (.build _) => false
  | _ => true

end FileFailure

/-- What a run reads with. -/
structure Readers where
  /-- The value of a YAML text, or the reason why it has none. -/
  yaml : String → Except String Value
  /-- The characters of names. -/
  named : Text.CharacterNames

/-- A way to turn a file into a unit. -/
inductive FrontEnd where
  /-- Sources. -/
  | source
  /-- Documents. -/
  | document
deriving DecidableEq, Inhabited

namespace FrontEnd

/-- The ends of the names of documents. -/
def documentEndings : List String := [".model.json", ".model.yaml", ".model.yml"]

/-- Whether the front end is responsible for a path. -/
def supports (f : FrontEnd) (p : Path) : Bool :=
  match f with
  | source => p.suffix == ".py"
  | document => documentEndings.any fun ending => ending.toList.isSuffixOf p.name.toList

/-- The front end that is responsible for a path. -/
def ofPath? (p : Path) : Option FrontEnd := [source, document].find? fun f => f.supports p

/-- The value of a JSON text. -/
def jsonValue (p : Path) (text : String) : Except FileFailure Value :=
  match Json.read? text with
  | none => .error (.notDocument p "")
  | some v => if v.isWritable then .ok v else .error (.numberTooLong p)

section Reading

variable (read : Readers)

/-- The value of the text of a document; the name of its file tells the form. -/
def documentValue (p : Path) (text : String) : Except FileFailure Value :=
  if ".json".toList.isSuffixOf p.name.toList then jsonValue p text
  else (read.yaml text).mapError (.notDocument p)

/-- The unit of the text of a file; names that fit a lock pattern are locks. -/
def load (f : FrontEnd) (locks : List String) (p : Path) (text : String) :
    Except FileFailure Model :=
  match f with
  | source => (Source.load read.named locks text p).mapError .source
  | document =>
    match documentValue read p text with
    | .error e => .error e
    | .ok v => (Document.load v (some p)).mapError .document

end Reading

end FrontEnd

/-- The unit of the file at a path. -/
def Workspace.unit (w : Workspace) (read : Readers) (f : FrontEnd) (locks : List String) (p : Path) :
    Except FileFailure Model :=
  match (w.bytes? p).bind Text.ofBytes? with
  | none => .error (.unreadable p)
  | some text => f.load read locks p text

end ModelLint
