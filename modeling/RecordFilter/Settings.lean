import RecordFilter.Json.Decode

/-!
# Settings

The limits and defaults that requests are answered under.  A text of settings may leave any of
them out; what it says is then checked (`Settings.check`), the first fault counting.
-/

namespace RecordFilter

/-- Limits and defaults. -/
structure Settings where
  /-- The depth of schemas when a caller names none. -/
  defaultDepth : UInt64
  /-- Whether schemas show what is marked as ignored. -/
  overrideIgnores : Bool
  /-- What separates the elements of a sequence when a filter names nothing. -/
  separator : String
  /-- The greatest page size. -/
  mostPerPage : UInt64
  /-- The page size when a request names none. -/
  defaultPerPage : UInt64
deriving Repr, DecidableEq

/-- Why settings cannot be taken. -/
inductive SettingsError where
  /-- Their text cannot be read. -/
  | unreadable (reason : String)
  /-- Their text is no document of settings. -/
  | malformed (reason : String)
  | noDepth
  | noSeparator
  | noPageSize
  | defaultPageSize (most : UInt64)
  | alreadyInstalled
deriving Repr, DecidableEq

/-- The text of an error. -/
def SettingsError.message : SettingsError → String
  | unreadable reason => "Failed to read config: " ++ reason
  | malformed reason => "Invalid config JSON: " ++ reason
  | noDepth => "Invalid config: default_max_depth must be > 0"
  | noSeparator => "Invalid config: sequence_separator must not be empty"
  | noPageSize => "Invalid config: max_page_size must be > 0"
  | defaultPageSize most =>
    "Invalid config: default_page_size must be between 1 and " ++ toString most.toNat
  | alreadyInstalled => "Schema registry already initialized"

/-- A number of 64 bits. -/
def Json.Document.word? (d : Json.Document) : Option UInt64 := d.nat?.map UInt64.ofNat

/-- A number of 64 bits as a data value. -/
def Json.ofWord (n : UInt64) : Json := .ofNat n.toNat

namespace Settings

/-- The settings that hold when nothing else is said. -/
def default : Settings := ⟨3, false, ",", 1000, 50⟩

/-- The names of the settings, in order. -/
def fieldNames : List String :=
  ["default_max_depth", "override_ignores", "sequence_separator", "max_page_size",
    "default_page_size"]

open Json.Document in
/-- Reads settings. -/
def ofDocument? (d : Json.Document) : Option Settings := do
  match ← d.slots? fieldNames with
  | [depth, ignores, separator, most, perPage] =>
    return ⟨← depth.withDefault word? default.defaultDepth,
      ← ignores.withDefault bool? default.overrideIgnores,
      ← separator.withDefault string? default.separator,
      ← most.withDefault word? default.mostPerPage,
      ← perPage.withDefault word? default.defaultPerPage⟩
  | _ => none

/-- Settings as a data value. -/
def toJson (s : Settings) : Json :=
  .ofFields [("default_max_depth", .ofWord s.defaultDepth),
    ("override_ignores", .bool s.overrideIgnores), ("sequence_separator", .string s.separator),
    ("max_page_size", .ofWord s.mostPerPage), ("default_page_size", .ofWord s.defaultPerPage)]

/-- Checks that no default makes a request fail. -/
def check (s : Settings) : Except SettingsError Unit :=
  if s.defaultDepth = 0 then .error .noDepth
  else if s.separator = "" then .error .noSeparator
  else if s.mostPerPage = 0 then .error .noPageSize
  else if s.defaultPerPage = 0 ∨ s.mostPerPage < s.defaultPerPage then
    .error (.defaultPageSize s.mostPerPage)
  else .ok ()

/-- Takes settings from the content of a file, or fails with the reason why there is none.  What is
wrong with a text that is no document of settings, `refusal` tells. -/
def load (content : Except String String) (refusal : String → String) :
    Except SettingsError Settings :=
  match content with
  | .error reason => .error (.unreadable reason)
  | .ok text =>
    match (Json.Document.ofText? text).bind ofDocument? with
    | none => .error (.malformed (refusal text))
    | some s =>
      match s.check with
      | .error e => .error e
      | .ok () => .ok s

end Settings

/-- Installs settings where none are installed yet. -/
def Settings.install (installed : Option Settings) (s : Settings) :
    Except SettingsError Settings :=
  match s.check with
  | .error e => .error e
  | .ok () => if installed.isSome then .error .alreadyInstalled else .ok s

end RecordFilter
