import RecordFilter.Command.Arguments
import RecordFilter.Query.Execute
import RecordFilter.Schema.Data

/-!
# Running commands

`Command.run` answers a command from a registry and the documents it can read.  A command first asks
whether the type has a schema, then reads its documents, and then filters; the first step to fail
gives the error.  `Command.respond` writes the one response, a line of data text.
-/

namespace RecordFilter

/-- Why a command fails. -/
inductive CommandError where
  /-- A document cannot be read. -/
  | unreadable (reason : String)
  /-- A text is no document of the kind that is asked for. -/
  | malformedDocument (reason : String)
  | emptyDocument
  | settings (error : SettingsError)
  | filter (error : FilterError)
  | noSchema (typeName : String)

namespace CommandError

/-- The code of an error; a coercion that failed keeps its own. -/
def code : CommandError → String
  | unreadable _ => "CLI_IO_ERROR"
  | malformedDocument _ => "CLI_JSON_ERROR"
  | emptyDocument => "CLI_EMPTY_INPUT"
  | settings _ => "CLI_CONFIG_ERROR"
  | filter e =>
    match e.coercion? with
    | some c => c.code
    | none => e.code
  | noSchema _ => "CLI_SCHEMA_UNAVAILABLE"

/-- The text of an error. -/
def message : CommandError → String
  | unreadable reason => "I/O error: " ++ reason
  | malformedDocument reason => "JSON error: " ++ reason
  | emptyDocument => "Empty input"
  | settings e => e.message
  | filter e => e.code ++ ": " ++ e.message
  | noSchema typeName => "Type '" ++ typeName ++ "' has no filterable schema"

end CommandError

/-- What a document is read as. -/
inductive DocumentKind where
  | settings
  /-- A list of items of a sample type. -/
  | items (s : Sample)
  | request

/-- What a command can read: files by their paths, and the standard input. -/
structure Documents where
  /-- The text of a file, if it has one that can be read. -/
  file? : String → Option String
  /-- The text of the standard input. -/
  input : String
  /-- Why a file cannot be read. -/
  fileFault : String → String := fun _ => "No such file or directory (os error 2)"
  /-- Why the standard input cannot be read, if it cannot. -/
  inputFault : Option String := none
  /-- What is wrong with a text that is no document of a kind. -/
  refusal : DocumentKind → String → String := fun _ _ => "malformed document"

namespace Documents

/-- The text of a file, or the reason why it cannot be read. -/
def fileText (docs : Documents) (path : String) : Except String String :=
  match docs.file? path with
  | some text => .ok text
  | none => .error (docs.fileFault path)

/-- The text of a file, or of the standard input where no file is named. -/
def text (docs : Documents) (path : Option String) : Except CommandError String :=
  match path with
  | none =>
    match docs.inputFault with
    | none => .ok docs.input
    | some reason => .error (.unreadable reason)
  | some path => (docs.fileText path).mapError .unreadable

/-- Reads a document of a kind, which must not be blank. -/
def read {α : Type} (docs : Documents) (path : Option String) (kind : DocumentKind)
    (decode : Json.Document → Option α) : Except CommandError α := do
  let text ← docs.text path
  if Text.trim text = "" then throw .emptyDocument
  match (Json.Document.ofText? text).bind decode with
  | some v => return v
  | none => throw (.malformedDocument (docs.refusal kind text))

/-- Reads items of a sample type. -/
def items (docs : Documents) (s : Sample) (path : String) : Except CommandError (List Value) :=
  docs.read (some path) (.items s) (Json.Document.list? s.ofDocument?)

/-- Reads a request. -/
def request (docs : Documents) (path : Option String) : Except CommandError Request :=
  docs.read path .request Request.ofDocument?

end Documents

namespace Registry

/-- The schema of a sample type. -/
def sampleSchema (r : Registry) (s : Sample) (depth : Nat) (overrideIgnores : Bool) :
    Except CommandError Schema :=
  match (r.compile Sample.family s.type depth overrideIgnores).1 with
  | some stored => .ok stored.schema
  | none => .error (.noSchema s.typeName)

/-- Fails if a sample type has no schema under the settings. -/
def ensureFilterable (r : Registry) (s : Sample) : Except CommandError Unit :=
  (r.sampleSchema s r.settings.defaultDepth.toNat r.settings.overrideIgnores).map fun _ => ()

/-- The engine for items of a sample type. -/
def engine (r : Registry) (s : Sample) : Engine := ⟨Sample.family, s.type, r.settings⟩

/-- A marked type, as it is listed. -/
def listed (F : TypeFamily) (t : TypeExpr) : Json :=
  let d := F.describe t
  .ofFields [("name", .string d.name), ("shape", .string d.shape.tag.name),
    ("ignored", .bool d.ignored)]

end Registry

namespace Command

/-- The page that a request asks for, as data. -/
def queryData (r : Registry) (docs : Documents) (s : Sample) (data : String)
    (request : Option String) : Except CommandError Json := do
  r.ensureFilterable s
  let items ← docs.items s data
  let request ← docs.request request
  match (r.engine s).execute Value.asRecord items request with
  | .ok page => return page.toJson s.toJson
  | .error e => throw (.filter e)

/-- The predicate of a request, as text. -/
def explainData (r : Registry) (docs : Documents) (s : Sample) (request : Option String) :
    Except CommandError Json := do
  r.ensureFilterable s
  let request ← docs.request request
  match (r.engine s).predicate request.filter with
  | .ok predicate =>
    return .ofFields [("type", .string s.typeName),
      ("predicate", (predicate.map fun p => Json.string p.text).getD .null)]
  | .error e => throw (.filter e)

/-- The data that a command answers with. -/
def run (r : Registry) (docs : Documents) : Command → Except CommandError Json
  | schema s depth overrideIgnores =>
    (r.sampleSchema s (depth.getD r.settings.defaultDepth).toNat
      (overrideIgnores || r.settings.overrideIgnores)).map Schema.toJson
  | types => .ok (.array (r.marked.map (Registry.listed Sample.family)))
  | query s data request => queryData r docs s data request
  | explain s request => explainData r docs s request

/-- The response to a command. -/
def response : Except CommandError Json → Json
  | .ok data => .ofFields [("status", .string "ok"), ("data", data)]
  | .error e =>
    .ofFields [("status", .string "error"), ("code", .string e.code),
      ("message", .string e.message)]

/-- What a command writes, and the error that it ends with. -/
structure Outcome where
  output : String
  error : Option CommandError

/-- Runs a command and writes its response as one line. -/
def respond (r : Registry) (docs : Documents) (c : Command) : Outcome :=
  let result := c.run r docs
  { output := (response result).text ++ "\n"
    error := match result with
      | .ok _ => none
      | .error e => some e }

end Command

namespace Invocation

/-- The settings of an invocation: those of its file, or the default. -/
def loadSettings (i : Invocation) (docs : Documents) : Except SettingsError Settings :=
  match i.settings with
  | none => .ok .default
  | some path => Settings.load (docs.fileText path) (docs.refusal .settings)

/-- Runs an invocation: the settings are loaded, the sample types marked, and the command run. -/
def run (i : Invocation) (docs : Documents) : Except CommandError Command.Outcome :=
  match i.loadSettings docs with
  | .error e => .error (.settings e)
  | .ok settings => .ok (i.command.respond (Sample.markedIn (.withSettings settings)) docs)

end Invocation

end RecordFilter
