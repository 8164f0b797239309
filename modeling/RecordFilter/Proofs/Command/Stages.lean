import RecordFilter.Proofs.Command.Agreement
import RecordFilter.Proofs.Filter.Active
import RecordFilter.Proofs.Json.Text

/-!
# The outcome of a command

Much can be wrong with a command at once: the type may have no schema, documents may not be there,
the filter may be refused, and so may the size of the page and the paths to sort by.
`Command.faults` lists all of it, each fault judged for itself and in the order in which they
count.  Running the command goes through the stages and stops at the first fault.

* `Documents.faults`, `Engine.faults`, `Command.faults`: what is wrong, stage by stage.
* `Documents.failsFor_read`, `Engine.failsFor_execute`, `Command.failsFor_run`: each step fails for
  the first of its faults.
* `respond_firstFault`: one line is written, and it reports the first fault.
-/

namespace RecordFilter

open Outcome

/-! ### Documents -/

namespace Documents

variable {α : Type} (docs : Documents) (path : Option String) (kind : DocumentKind)
  (decode : Json.Document → Option α)

/-- What a document holds, if it can be read and decoded. -/
def content? : Option α :=
  (docs.text path).toOption.bind fun text => (Json.Document.ofText? text).bind decode

/-- What is wrong with a document: that it cannot be read, or that it is blank and that it cannot be
decoded. -/
def faults : List CommandError :=
  (fault? (docs.text path)).toList ++
    (docs.text path).toOption.toList.flatMap fun text =>
      unlessMet (text.toList.all Text.isBlank = false) .emptyDocument ++
        unlessMet ((Json.Document.ofText? text).bind decode).isSome
          (.malformedDocument (docs.refusal kind text))

variable {docs path kind decode}

/-- A document is refused for the first of its faults. -/
theorem failsFor_read :
    FailsFor Eq (docs.read path kind decode) (docs.faults path kind decode) := by
  cases htext : docs.text path with
  | error e =>
      rw [read, faults, htext]
      exact .error [] rfl
  | ok text =>
      have hblank : text.toList.all Text.isBlank = false ↔ ¬ Text.trim text = "" := by
        rw [Text.trim_eq_empty_iff, ← List.all_eq_true, Bool.not_eq_true]
      rw [read_of_text htext, faults, htext]
      simp only [Except.toOption, Option.toList_some, List.flatMap_singleton]
      refine .guard hblank rfl fun _ => ?_
      cases (Json.Document.ofText? text).bind decode with
      | none => exact .error [] rfl
      | some v => exact .ok v

/-- A document that is read is there and has the form asked for. -/
theorem content?_of_read {v : α} (h : docs.read path kind decode = .ok v) :
    docs.content? path decode = some v := by
  obtain ⟨text, htext, -⟩ := bind_eq_ok.mp h
  rw [read_of_text htext] at h
  rw [content?, htext]
  split at h
  · cases h
  · cases hv : (Json.Document.ofText? text).bind decode with
    | none => rw [hv] at h; cases h
    | some w => rw [hv] at h; cases h; exact hv

end Documents

/-! ### Requests -/

namespace Engine

variable {α : Type} (e : Engine)

/-- What is wrong with a filter: the faults of the filters of its active nodes, in order. -/
def filterFaults (filter : Option FilterTree) : List FilterError :=
  filter.toList.flatMap fun tree =>
    tree.activeNodes.filterMap fun u => fault? (e.context.predicate u.first)

/-- What is wrong with the size of a page. -/
def pageFaults (p : PageRequest) : List FilterError :=
  let size := p.pageSize.getD e.settings.defaultPerPage
  unlessMet (1 ≤ size ∧ size ≤ e.settings.mostPerPage)
    ⟨"pageSize", .pageSize size e.settings.mostPerPage⟩

/-- What is wrong with the paths to sort by, in order. -/
def sortFaults (specs : List SortSpec) : List FilterError :=
  specs.filterMap fun s =>
    (fault? (FieldPath.resolve e.family e.element s.path)).map fun fault => ⟨s.path, .path fault⟩

/-- What is wrong with a request: with its filter, its page size and its sort paths. -/
def faults (r : Request) : List FilterError :=
  e.filterFaults r.filter ++ e.pageFaults r.page ++ e.sortFaults r.page.orderBy

variable {e}

/-- A filter fails for the first of its active nodes that does. -/
theorem failsFor_predicate (filter : Option FilterTree) :
    FailsFor Eq (e.predicate filter) (e.filterFaults filter) := by
  cases filter with
  | none => exact .ok none
  | some tree =>
      rw [filterFaults, Option.toList_some, List.flatMap_singleton]
      refine (failsFor_eq_iff.mpr ?_).map some
      rw [FilterContext.fault?_compile, List.head?_filterMap]

/-- A page size fails for the one limit that it breaks. -/
theorem failsFor_pageSize (p : PageRequest) : FailsFor Eq (e.pageSize p) (e.pageFaults p) := by
  simp only [pageSize_eq, pageFaults]
  split
  · rw [unlessMet_pos ‹_›]
    exact .ok _
  · rw [unlessMet_neg ‹_›]
    exact .error [] rfl

/-- Sort keys fail for the first path that leads nowhere. -/
theorem failsFor_sortKeys (specs : List SortSpec) :
    FailsFor Eq (SortKey.resolve e.family e.element specs) (e.sortFaults specs) := by
  rw [sortFaults, List.filterMap_eq_flatMap_toList]
  refine FailsFor.mapM (fun s => ?_) specs
  cases FieldPath.resolve e.family e.element s.path with
  | ok r => exact .ok _
  | error fault => exact .error [] rfl

/-- A request fails for the first of its faults. -/
theorem failsFor_execute (view : α → Record) (items : List α) (r : Request) :
    FailsFor Eq (e.execute view items r) (e.faults r) := by
  rw [faults, List.append_assoc]
  refine (failsFor_predicate r.filter).bind fun predicate _ => ?_
  refine (failsFor_pageSize r.page).bind fun size _ => ?_
  rw [← List.append_nil (e.sortFaults _)]
  exact (failsFor_sortKeys r.page.orderBy).bind fun keys _ => .ok _

end Engine

/-! ### Commands -/

namespace Registry

variable (r : Registry) (s : Sample)

/-- What is wrong with a sample type: that it has no schema. -/
def schemaFaults (depth : Nat) (overrideIgnores : Bool) : List CommandError :=
  unlessMet (r.compile Sample.family s.type depth overrideIgnores).1.isSome (.noSchema s.typeName)

/-- What is wrong with a sample type under the settings. -/
def typeFaults : List CommandError :=
  r.schemaFaults s r.settings.defaultDepth.toNat r.settings.overrideIgnores

variable {r s}

theorem failsFor_sampleSchema (depth : Nat) (o : Bool) :
    FailsFor Eq (r.sampleSchema s depth o) (r.schemaFaults s depth o) := by
  unfold sampleSchema schemaFaults
  cases (r.compile Sample.family s.type depth o).1 with
  | none => exact .error [] rfl
  | some stored => exact .ok _

/-- A command with a filter fails for a type without a schema. -/
theorem failsFor_ensureFilterable : FailsFor Eq (r.ensureFilterable s) (r.typeFaults s) :=
  (failsFor_sampleSchema _ _).map _

end Registry

namespace Command

variable (r : Registry) (docs : Documents)

/-- What is wrong with a command, in the order in which it counts: a type without a schema, then the
documents that it reads, then what they ask for.  Nothing can be said of a request that is not
there. -/
def faults : Command → List CommandError
  | schema s depth o =>
    r.schemaFaults s (depth.getD r.settings.defaultDepth).toNat (o || r.settings.overrideIgnores)
  | types => []
  | query s data request =>
    r.typeFaults s ++ docs.faults (some data) (.items s) (Json.Document.list? s.ofDocument?) ++
      docs.faults request .request Request.ofDocument? ++
      (docs.content? request Request.ofDocument?).toList.flatMap fun req =>
        ((r.engine s).faults req).map .filter
  | explain s request =>
    r.typeFaults s ++ docs.faults request .request Request.ofDocument? ++
      (docs.content? request Request.ofDocument?).toList.flatMap fun req =>
        ((r.engine s).filterFaults req.filter).map .filter

variable {r docs} {s : Sample} {data : String} {request : Option String}

/-- What follows the reading of a request fails for what the request asks for. -/
theorem failsFor_content {α : Type} {f : Request → Except CommandError α}
    {g : Request → List CommandError} (h : ∀ req, FailsFor Eq (f req) (g req)) :
    FailsFor Eq (docs.request request >>= f)
      (docs.faults request .request Request.ofDocument? ++
        (docs.content? request Request.ofDocument?).toList.flatMap g) := by
  refine Documents.failsFor_read.bind fun req hreq => ?_
  rw [Documents.content?_of_read hreq, Option.toList_some, List.flatMap_singleton]
  exact h req

/-- A query fails for the first of its faults. -/
theorem failsFor_queryData :
    FailsFor Eq (queryData r docs s data request) (faults r docs (.query s data request)) := by
  unfold queryData faults
  simp only [List.append_assoc]
  refine Registry.failsFor_ensureFilterable.bind fun _ _ => ?_
  refine Documents.failsFor_read.bind fun items _ => failsFor_content fun req => ?_
  have h := (((r.engine s).failsFor_execute Value.asRecord items req).mapError
    CommandError.filter).map fun page => page.toJson s.toJson
  generalize (r.engine s).execute Value.asRecord items req = x at h ⊢
  cases x with
  | ok page => exact h
  | error e => exact h

theorem failsFor_explainData :
    FailsFor Eq (explainData r docs s request) (faults r docs (.explain s request)) := by
  unfold explainData faults
  simp only [List.append_assoc]
  refine Registry.failsFor_ensureFilterable.bind fun _ _ => failsFor_content fun req => ?_
  have h := (((r.engine s).failsFor_predicate req.filter).mapError CommandError.filter).map
    fun predicate => Json.ofFields [("type", .string s.typeName),
      ("predicate", (predicate.map fun p => Json.string p.text).getD .null)]
  generalize (r.engine s).predicate req.filter = x at h ⊢
  cases x with
  | ok predicate => exact h
  | error e => exact h

/-- A command fails for the first of its faults, and is answered if there is none. -/
theorem failsFor_run (c : Command) : FailsFor Eq (c.run r docs) (c.faults r docs) := by
  cases c with
  | schema s depth o => exact (Registry.failsFor_sampleSchema _ _).map _
  | types => exact .ok _
  | query s data request => exact failsFor_queryData
  | explain s request => exact failsFor_explainData

/-- A type without a schema is refused whatever the documents are. -/
theorem run_of_unavailable (h : (r.compileDefault Sample.family s.type).1 = none)
    (docs : Documents) (data : String) (request : Option String) :
    run r docs (.query s data request) = .error (.noSchema s.typeName) ∧
      run r docs (.explain s request) = .error (.noSchema s.typeName) := by
  have hschema : r.ensureFilterable s = .error (.noSchema s.typeName) := by
    unfold Registry.compileDefault at h
    rw [Registry.ensureFilterable, Registry.sampleSchema, h]
    rfl
  exact ⟨by rw [run, queryData, hschema]; rfl, by rw [run, explainData, hschema]; rfl⟩

/-- A filter error is reported under the code of the coercion that failed, if one did. -/
theorem code_filter {e : FilterError} (h : ∀ error, e.fault ≠ .coercion error) :
    (CommandError.filter e).code = e.code := by
  obtain ⟨path, fault⟩ := e
  cases fault with
  | coercion error => exact (h error rfl).elim
  | _ => rfl

/-- **The first fault is reported, once.**  A command writes one line.  If nothing is wrong, the
line has the data and no error is returned; otherwise the error is the first of all that is wrong,
and the line has its code and message.  A filter is reported under the code of the coercion that
failed, if one did, and under its own otherwise.  A type without a schema is refused before any
document counts. -/
theorem respond_firstFault (r : Registry) (docs : Documents) (c : Command) :
    (∃ response : Json, (c.respond r docs).output = response.text ++ "\n" ∧
      '\n' ∉ response.text.toList ∧
      ((∃ data, c.faults r docs = [] ∧ c.run r docs = .ok data ∧ (c.respond r docs).error = none ∧
          response = .ofFields [("status", .string "ok"), ("data", data)]) ∨
        ∃ e rest, c.faults r docs = e :: rest ∧ c.run r docs = .error e ∧
          (c.respond r docs).error = some e ∧
          response = .ofFields [("status", .string "error"), ("code", .string e.code),
            ("message", .string e.message)])) ∧
    (∀ path error, (CommandError.filter ⟨path, .coercion error⟩).code = error.code) ∧
    (∀ e : FilterError, (∀ error, e.fault ≠ .coercion error) →
      (CommandError.filter e).code = e.code) ∧
    ∀ s : Sample, (r.compileDefault Sample.family s.type).1 = none →
      ∀ (docs' : Documents) (data : String) (request : Option String),
        run r docs' (.query s data request) = .error (.noSchema s.typeName) ∧
          run r docs' (.explain s request) = .error (.noSchema s.typeName) := by
  refine ⟨⟨response (c.run r docs), rfl, Json.newline_notMem_text _, ?_⟩, fun _ _ => rfl,
    fun e h => code_filter h, fun s h => run_of_unavailable h⟩
  have hrun : FailsFor Eq (c.run r docs) (c.faults r docs) := failsFor_run c
  unfold respond
  generalize c.run r docs = result at hrun ⊢
  generalize c.faults r docs = faults at hrun ⊢
  cases hrun with
  | ok data => exact .inl ⟨data, rfl, rfl, rfl, rfl⟩
  | error rest he =>
      subst he
      exact .inr ⟨_, rest, rfl, rfl, rfl, rfl⟩

/-- No files, and a blank input. -/
def blankInput : Documents where
  file? _ := none
  input := " "

/-- Three things are wrong with a query for categories, and the missing file is reported; audit
entries are refused before that. -/
theorem blankInput_firstFault :
    ((query .category "list" none).faults (.withSettings .default) blankInput).map
      CommandError.code = ["CLI_IO_ERROR", "CLI_EMPTY_INPUT", "CLI_JSON_ERROR"] ∧
    ((query .category "list" none).respond (.withSettings .default) blankInput).error.map
      CommandError.code = some "CLI_IO_ERROR" ∧
    run (.withSettings .default) blankInput (.query .audit "list" none) =
      .error (.noSchema "AuditEntry") := by
  have hfaults : ((query .category "list" none).faults (.withSettings .default) blankInput).map
      CommandError.code = ["CLI_IO_ERROR", "CLI_EMPTY_INPUT", "CLI_JSON_ERROR"] := by
    decide +kernel
  obtain ⟨⟨response, -, -, hresponse⟩, -, -, hschema⟩ :=
    respond_firstFault (.withSettings .default) blankInput (.query .category "list" none)
  refine ⟨hfaults, ?_, (hschema .audit rfl blankInput "list" none).1⟩
  obtain ⟨data, hnone, -⟩ | ⟨e, rest, hfirst, -, herror, -⟩ := hresponse
  · rw [hnone] at hfaults
    cases hfaults
  · rw [hfirst] at hfaults
    rw [herror]
    exact congrArg some (List.cons.inj hfaults).1

end Command

end RecordFilter
