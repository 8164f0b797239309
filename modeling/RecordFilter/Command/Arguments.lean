import RecordFilter.Samples

/-!
# Arguments of the command line

The words before a subcommand belong to the program, those after it to the subcommand; the options
for settings and logging may stand at either place, and the later place counts.  An option
takes its value from behind an equals sign or from the next word.  After `--` no word is an option.

A word is checked when the next option or argument comes, so a malformed value is reported before
what follows it; an unknown option is reported at once.  `Invocation.ofWords` reads all words.
-/

namespace RecordFilter

/-- What the program is asked to do. -/
inductive Command where
  /-- Show the schema of a sample type. -/
  | schema (type : Sample) (depth : Option UInt64) (overrideIgnores : Bool)
  /-- Show the marked types. -/
  | types
  /-- Answer a request over the items of a file. -/
  | query (type : Sample) (data : String) (request : Option String)
  /-- Show the predicate of a request. -/
  | explain (type : Sample) (request : Option String)
deriving Repr, DecidableEq

/-- A command, and the options that belong to all of them. -/
structure Invocation where
  settings : Option String
  logAsJson : Bool
  command : Command
deriving Repr, DecidableEq

/-- Why words are no invocation. -/
inductive ArgumentError where
  /-- Help was asked for. -/
  | help
  /-- The version was asked for. -/
  | version
  /-- No words at all: help is given unasked. -/
  | helpForNothing
  | missingSubcommand
  | unknownSubcommand
  | unknownArgument
  | missingArgument
  /-- A value is missing, or not one of the possible ones. -/
  | invalidValue
  /-- A value does not have the form asked for. -/
  | malformedValue
  /-- A flag has a value. -/
  | unneededValue
  /-- An option stands twice. -/
  | repeated
deriving Repr, DecidableEq

/-- The subcommands. -/
inductive Subcommand where
  | schema | types | query | explain
deriving Repr, DecidableEq

/-- The subcommand with a name. -/
def Subcommand.ofWord? : String → Option Subcommand
  | "schema" => some schema
  | "types" => some types
  | "query" => some query
  | "explain" => some explain
  | _ => none

namespace Arguments

/-- What a word can give: an option, or the type that is an argument of its own. -/
inductive Target where
  | type | settings | logAsJson | depth | overrideIgnores | data | request | help | version
deriving Repr, DecidableEq

/-- Whether a target takes a value. -/
def Target.takesValue : Target → Bool
  | type | settings | depth | data | request => true
  | logAsJson | overrideIgnores | help | version => false

/-- The options that a subcommand has of its own. -/
def ownOption? : Subcommand → String → Option Target
  | .schema, "depth" => some .depth
  | .schema, "override-ignores" => some .overrideIgnores
  | .query, "data" => some .data
  | .query, "request" | .explain, "request" => some .request
  | _, _ => none

/-- The option with a long name, of the program or of a subcommand. -/
def option? (sub : Option Subcommand) : String → Option Target
  | "config" => some .settings
  | "log-json" => some .logAsJson
  | "help" => some .help
  | name =>
    match sub with
    | none => if name = "version" then some .version else none
    | some s => ownOption? s name

/-- The option with a short name. -/
def shortOption? (sub : Option Subcommand) (c : Char) : Option Target :=
  if c = 'h' then some .help
  else if c = 'V' ∧ sub = none then some .version
  else none

/-- The values found so far. -/
structure Found where
  type : Option Sample
  settings : Option String
  logAsJson : Bool
  depth : Option UInt64
  overrideIgnores : Bool
  data : Option String
  request : Option String
deriving DecidableEq

/-- Nothing found. -/
def Found.nothing : Found := ⟨none, none, false, none, false, none, none⟩

/-- Whether there is a value for a target. -/
def Found.has (f : Found) : Target → Bool
  | .type => f.type.isSome
  | .settings => f.settings.isSome
  | .logAsJson => f.logAsJson
  | .depth => f.depth.isSome
  | .overrideIgnores => f.overrideIgnores
  | .data => f.data.isSome
  | .request => f.request.isSome
  | .help | .version => false

/-- A path; the empty text is none. -/
def path (s : String) : Except ArgumentError String :=
  if s = "" then .error .invalidValue else .ok s

/-- Takes a text for a target that has no value yet. -/
def Found.put (f : Found) (text : String) : Target → Except ArgumentError Found
  | .type =>
    match Sample.ofWord? text with
    | some s => .ok { f with type := some s }
    | none => .error .invalidValue
  | .settings => (path text).map fun p => { f with settings := some p }
  | .data => (path text).map fun p => { f with data := some p }
  | .request => (path text).map fun p => { f with request := some p }
  | .depth =>
    match IntKind.uint64.read text.toList with
    | .ok n => .ok { f with depth := some (UInt64.ofNat n.1.toNat) }
    | .error _ => .error .malformedValue
  | .logAsJson => .ok { f with logAsJson := true }
  | .overrideIgnores => .ok { f with overrideIgnores := true }
  | .help => .error .help
  | .version => .error .version

/-- Takes what stands for a target: its value must be there, and the target must be new. -/
def Found.take (f : Found) (t : Target) (text : Option String) : Except ArgumentError Found :=
  if t.takesValue ∧ text.isNone then .error .invalidValue
  else if f.has t then .error .repeated
  else f.put (text.getD "") t

/-- How far the words are read. -/
structure Progress where
  found : Found
  /-- The option or argument that was read last and not checked yet, with its text. -/
  pending : Option (Target × Option String)
  /-- Whether no word is an option any more. -/
  literal : Bool
  /-- Whether the argument that is no option was read. -/
  typeRead : Bool

/-- Before the first word. -/
def Progress.start : Progress := ⟨.nothing, none, false, false⟩

/-- Checks what was read last. -/
def Progress.settle (p : Progress) : Except ArgumentError Progress :=
  match p.pending with
  | none => .ok p
  | some (t, text) => (p.found.take t text).map fun f => { p with found := f, pending := none }

/-- A word, by its form. -/
inductive WordForm where
  /-- The word `--`. -/
  | escape
  /-- A long option, perhaps with a value behind an equals sign. -/
  | long (name : String) (value : Option String)
  /-- A group of short options. -/
  | short (names : List Char)
  | plain

/-- The form of a word. -/
def wordForm (word : String) : WordForm :=
  match word.toList with
  | ['-', '-'] => .escape
  | '-' :: '-' :: cs =>
    let name := String.ofList (cs.takeWhile (· != '='))
    match cs.dropWhile (· != '=') with
    | [] => .long name none
    | _ :: value => .long name (some (String.ofList value))
  | '-' :: c :: cs => .short (c :: cs)
  | _ => .plain

/-- An option that was read: one that waits for the next word stays pending. -/
def Progress.option (p : Progress) (t : Target) (value : Option String) :
    Except ArgumentError Progress :=
  match value with
  | some v =>
    if t.takesValue then
      p.settle.bind fun p => (p.found.take t (some v)).map fun f => { p with found := f }
    else .error .unneededValue
  | none =>
    p.settle.bind fun p =>
      if t.takesValue then .ok { p with pending := some (t, none) }
      else (p.found.take t none).map fun f => { p with found := f }

/-- A group of short options. -/
def Progress.shorts (sub : Option Subcommand) : Progress → List Char → Except ArgumentError Progress
  | p, [] => .ok p
  | p, c :: cs =>
    match shortOption? sub c with
    | none => .error .unknownArgument
    | some t => (p.option t none).bind fun p => shorts sub p cs

/-- A word that is no option: the value of the option before it, or an argument. -/
def Progress.plain (sub : Option Subcommand) (p : Progress) (word : String) :
    Except ArgumentError Progress :=
  match p.pending, p.literal with
  | some (t, none), false => .ok { p with pending := some (t, some word) }
  | _, _ =>
    match sub with
    | none =>
      if p.literal ∧ ((Subcommand.ofWord? word).isSome ∨ word = "help") then .error .unknownArgument
      else .error .unknownSubcommand
    | some s =>
      if s = .types ∨ p.typeRead then .error .unknownArgument
      else p.settle.map fun p => { p with pending := some (.type, some word), typeRead := true }

/-- One word more. -/
def Progress.word (sub : Option Subcommand) (p : Progress) (word : String) :
    Except ArgumentError Progress :=
  if p.literal then p.plain sub word
  else match wordForm word with
    | .escape => .ok { p with literal := true }
    | .long name value =>
      match option? sub name with
      | some t => p.option t value
      | none => .error .unknownArgument
    | .short names => p.shorts sub names
    | .plain => p.plain sub word

/-- Whether the next word can name a subcommand: no option waits for it as a value. -/
def Progress.atSubcommand (p : Progress) : Bool :=
  !p.literal && match p.pending with
    | some (_, none) => false
    | _ => true

/-- Reads the words of the program up to a subcommand; the subcommand is given by its name, with
the words after it. -/
def readProgram : Progress → List String →
    Except ArgumentError (Progress × Option (String × List String))
  | p, [] => .ok (p, none)
  | p, word :: words =>
    if p.atSubcommand ∧ ((Subcommand.ofWord? word).isSome ∨ word = "help") then
      .ok (p, some (word, words))
    else (p.word none word).bind fun p => readProgram p words

/-- Reads the words of a subcommand. -/
def readSubcommand (s : Subcommand) (words : List String) : Except ArgumentError Found := do
  let p ← words.foldlM (Progress.word (some s)) .start
  return (← p.settle).found

/-- The words after `help`: at most the name of one subcommand. -/
def helpFor : List String → ArgumentError
  | [] => .help
  | [word] => if (Subcommand.ofWord? word).isSome ∨ word = "help" then .help else .unknownSubcommand
  | _ => .unknownSubcommand

/-- The command of a subcommand, all arguments that it needs being there. -/
def command? (s : Subcommand) (f : Found) : Option Command :=
  match s with
  | .schema => f.type.map fun t => .schema t f.depth f.overrideIgnores
  | .types => some .types
  | .query => do return .query (← f.type) (← f.data) f.request
  | .explain => f.type.map fun t => .explain t f.request

end Arguments

open Arguments in
/-- Reads the words of a command line. -/
def Invocation.ofWords (words : List String) : Except ArgumentError Invocation := do
  let (p, rest) ← readProgram .start words
  match rest with
  | none =>
    let p ← p.settle
    if p.found = .nothing then throw .helpForNothing else throw .missingSubcommand
  | some (name, words) =>
    match Subcommand.ofWord? name with
    | none => throw (helpFor words)
    | some s =>
      let f ← readSubcommand s words
      match command? s f with
      | none => throw .missingArgument
      | some command =>
        let p ← p.settle
        return ⟨f.settings <|> p.found.settings, f.logAsJson || p.found.logAsJson, command⟩

end RecordFilter
