import RecordFilter.Command.Run
import RecordFilter.Proofs.Query.Pages
import RecordFilter.Proofs.Schema.History

/-!
# Commands about one request

A request can be explained and it can be answered.  Both commands first ask for the schema that the
schema command shows when it is told nothing more, whatever has been compiled before; then both
compile the filter of the request.

* `unavailable_schema`, `unavailable_explain`, `unavailable_query`: each command refuses the types
  that have no schema under the settings, and for want of a schema it refuses nothing else.
* `explainData_of_ok`, `queryData_of_ok`: what two commands do with what they have read.
* `explainData_refused_iff`, `queryData_of_explainData`: what an explanation says about the answer.
* `commands_agree`: all of it, for whatever settings and histories.
-/

namespace RecordFilter

open Outcome SchemaCache

/-- No refused filter has the code of a missing schema. -/
theorem CommandError.code_filter_ne (e : FilterError) :
    (filter e).code ≠ "CLI_SCHEMA_UNAVAILABLE" := by
  obtain ⟨path, fault⟩ := e
  cases fault with
  | coercion error => cases error <;> simp [code, FilterError.coercion?, CoercionError.code]
  | path fault => cases fault <;> simp [code, FilterError.coercion?, FilterError.code]
  | _ => simp [code, FilterError.coercion?, FilterError.code]

/-- Only what is said of a missing schema has its code. -/
theorem CommandError.code_eq_unavailable {e : CommandError} :
    e.code = "CLI_SCHEMA_UNAVAILABLE" ↔ ∃ name, e = .noSchema name := by
  constructor
  · intro h
    cases e with
    | noSchema name => exact ⟨name, rfl⟩
    | filter e => exact absurd h (code_filter_ne e)
    | _ => simp [code] at h
  · rintro ⟨name, rfl⟩
    rfl

variable {r r' r'' : Registry} {docs : Documents} {s : Sample} {data : String}
  {request : Option String} {items : List Value} {req : Request}

/-! ### The schema of a command -/

namespace Command

/-- What is asked for is refused, as the type has no schema. -/
def Unavailable {α : Type} (answer : Except CommandError α) : Prop :=
  ∃ e, answer = .error e ∧ e.code = "CLI_SCHEMA_UNAVAILABLE"

theorem unavailable_iff {α : Type} {answer : Except CommandError α} :
    Unavailable answer ↔ ∃ name, answer = .error (.noSchema name) := by
  constructor
  · rintro ⟨e, he, hcode⟩
    obtain ⟨name, rfl⟩ := CommandError.code_eq_unavailable.mp hcode
    exact ⟨name, he⟩
  · rintro ⟨name, h⟩
    exact ⟨_, h, rfl⟩

theorem unavailable_map {α β : Type} {answer : Except CommandError α} {f : α → β} :
    Unavailable (answer.map f) ↔ Unavailable answer :=
  exists_congr fun _ => and_congr_left fun _ => map_eq_error

/-- Of two steps in a row one is refused for its type if one of the two is. -/
theorem unavailable_bind {α β : Type} {x : Except CommandError α} {f : α → Except CommandError β} :
    Unavailable (x >>= f) ↔ Unavailable x ∨ ∃ a, x = .ok a ∧ Unavailable (f a) := by
  constructor
  · rintro ⟨e, he, hcode⟩
    rcases bind_eq_error.mp he with hx | ⟨a, ha, hf⟩
    · exact .inl ⟨e, hx, hcode⟩
    · exact .inr ⟨a, ha, e, hf, hcode⟩
  · rintro (⟨e, hx, hcode⟩ | ⟨a, ha, e, hf, hcode⟩)
    · exact ⟨e, bind_eq_error.mpr (.inl hx), hcode⟩
    · exact ⟨e, bind_eq_error.mpr (.inr ⟨a, ha, hf⟩), hcode⟩

end Command

open Command

namespace Documents

variable {α : Type} {path : Option String} {kind : DocumentKind}
  {decode : Json.Document → Option α}

/-- A document that is there is decoded, unless it is blank. -/
theorem read_of_text {text : String} (h : docs.text path = .ok text) :
    docs.read path kind decode =
      if Text.trim text = "" then .error .emptyDocument
      else ((Json.Document.ofText? text).bind decode).elim
        (.error (.malformedDocument (docs.refusal kind text))) .ok := by
  rw [read, h, ok_bind]
  by_cases hblank : Text.trim text = ""
  · rw [if_pos hblank, if_pos hblank]
    rfl
  · rw [if_neg hblank, if_neg hblank]
    cases (Json.Document.ofText? text).bind decode <;> rfl

/-- What cannot be read is not refused for its type. -/
theorem not_unavailable_read : ¬ Unavailable (docs.read path kind decode) := by
  rw [unavailable_iff]
  rintro ⟨name, h⟩
  rcases bind_eq_error.mp h with htext | ⟨text, htext, -⟩
  · unfold Documents.text Documents.fileText at htext
    split at htext
    · split at htext <;> cases htext
    · split at htext <;> cases htext
  · rw [read_of_text htext] at h
    split at h
    · cases h
    · cases hv : (Json.Document.ofText? text).bind decode <;> rw [hv] at h <;> cases h

end Documents

/-- The schema of a sample type under settings. -/
def Settings.schema? (settings : Settings) (s : Sample) : Option Schema :=
  Sample.family.schema? s.type settings.defaultDepth.toNat settings.overrideIgnores

namespace Registry

/-- Whatever has been compiled before, a registry has the schemas of the sample types. -/
theorem sampleSchema_eq (hr : Sound Sample.family r.cache) (depth : Nat) (o : Bool) :
    r.sampleSchema s depth o =
      match Sample.family.schema? s.type depth o with
      | some shown => .ok shown
      | none => .error (.noSchema s.typeName) := by
  have hcompile : (r.compile Sample.family s.type depth o).1 =
      (r.cache.compile Sample.family s.type depth o).1 := rfl
  rw [sampleSchema, hcompile, ← hr.compile_schema s.type depth o]
  cases (r.cache.compile Sample.family s.type depth o).1 <;> rfl

/-- The schema command finds no schema where the settings give none. -/
theorem unavailable_sampleSchema (hr : Sound Sample.family r.cache) :
    Unavailable (r.sampleSchema s r.settings.defaultDepth.toNat r.settings.overrideIgnores) ↔
      r.settings.schema? s = none := by
  rw [unavailable_iff, sampleSchema_eq hr]
  unfold Settings.schema?
  cases Sample.family.schema? s.type r.settings.defaultDepth.toNat r.settings.overrideIgnores with
  | none => exact ⟨fun _ => rfl, fun _ => ⟨_, rfl⟩⟩
  | some shown => exact ⟨fun ⟨_, h⟩ => (nomatch h), nofun⟩

/-- Neither do the commands with a filter, whatever was compiled before. -/
theorem unavailable_ensureFilterable (hr : Sound Sample.family r.cache) :
    Unavailable (r.ensureFilterable s) ↔ r.settings.schema? s = none :=
  unavailable_map.trans (unavailable_sampleSchema hr)

/-- A registry with settings, after a history. -/
def ofHistory (settings : Settings) (past : List Operation) : Registry :=
  after Sample.family (.withSettings settings) past

theorem recorded_ofHistory (settings : Settings) (past : List Operation) :
    Recorded Sample.family settings past (ofHistory settings past) :=
  (Recorded.withSettings settings).run past

/-- A registry in which the sample types are marked has their marks as its history. -/
theorem markedIn_withSettings (settings : Settings) :
    Sample.markedIn (.withSettings settings) =
      ofHistory settings (Sample.all.map fun s => .mark s.type) := rfl

/-- The engine of a command does not depend on the past. -/
theorem engine_ofHistory (settings : Settings) (past : List Operation) :
    (ofHistory settings past).engine s = ⟨Sample.family, s.type, settings⟩ := by
  rw [engine, (recorded_ofHistory settings past).settings_eq]

theorem ensureFilterable_of_schema (hr : Sound Sample.family r.cache)
    (h : r.settings.schema? s ≠ none) : r.ensureFilterable s = .ok () := by
  obtain ⟨shown, hshown⟩ := Option.ne_none_iff_exists'.mp h
  rw [Settings.schema?] at hshown
  rw [ensureFilterable, sampleSchema_eq hr, hshown]
  rfl

end Registry

namespace Command

open Registry

/-- Without depth and override of its own, the schema command refuses the types that have no schema
under the settings. -/
theorem unavailable_schema (hr : Sound Sample.family r.cache) :
    Unavailable (run r docs (.schema s none false)) ↔ r.settings.schema? s = none :=
  unavailable_map.trans (unavailable_sampleSchema hr)

/-- So does an explanation: nothing that it does later is refused for the type. -/
theorem unavailable_explain (hr : Sound Sample.family r.cache) :
    Unavailable (run r docs (.explain s request)) ↔ r.settings.schema? s = none := by
  rw [run, explainData, unavailable_bind, or_iff_left, unavailable_ensureFilterable hr]
  rintro ⟨-, -, h⟩
  rcases unavailable_bind.mp h with h | ⟨req, -, h⟩
  · exact Documents.not_unavailable_read h
  · obtain ⟨name, h⟩ := unavailable_iff.mp h
    split at h <;> cases h

/-- So does a query. -/
theorem unavailable_query (hr : Sound Sample.family r.cache) :
    Unavailable (run r docs (.query s data request)) ↔ r.settings.schema? s = none := by
  rw [run, queryData, unavailable_bind, or_iff_left, unavailable_ensureFilterable hr]
  rintro ⟨-, -, h⟩
  rcases unavailable_bind.mp h with h | ⟨items, -, h⟩
  · exact Documents.not_unavailable_read h
  · rcases unavailable_bind.mp h with h | ⟨req, -, h⟩
    · exact Documents.not_unavailable_read h
    · obtain ⟨name, h⟩ := unavailable_iff.mp h
      split at h <;> cases h

/-! ### The filter of a request -/

variable {e : Engine} {error : FilterError} {j : Json}

/-- What an explanation does with what it has read. -/
theorem explainData_of_ok (hschema : r.ensureFilterable s = .ok ()) (he : r.engine s = e)
    (hreq : docs.request request = .ok req) :
    explainData r docs s request =
      match e.predicate req.filter with
      | .ok predicate => .ok (.ofFields [("type", .string s.typeName),
          ("predicate", (predicate.map fun p => Json.string p.text).getD .null)])
      | .error error => .error (.filter error) := by
  rw [explainData, hschema, hreq, ← he]
  rfl

/-- What a query does with what it has read. -/
theorem queryData_of_ok (hschema : r.ensureFilterable s = .ok ()) (he : r.engine s = e)
    (hitems : docs.items s data = .ok items)
    (hreq : docs.request request = .ok req) :
    queryData r docs s data request =
      match e.execute Value.asRecord items req with
      | .ok page => .ok (page.toJson s.toJson)
      | .error error => .error (.filter error) := by
  rw [queryData, hschema, hitems, hreq, ← he]
  rfl

/-- A filter is refused in an explanation when it is refused in a query, with the same error. -/
theorem explainData_refused_iff (hschema : r.ensureFilterable s = .ok ())
    (hschema' : r'.ensureFilterable s = .ok ()) (he : r.engine s = e) (he' : r'.engine s = e)
    (hitems : docs.items s data = .ok items)
    (hreq : docs.request request = .ok req) :
    explainData r docs s request = .error (.filter error) ↔
      e.predicate req.filter = .error error ∧
        queryData r' docs s data request = .error (.filter error) := by
  rw [explainData_of_ok hschema he hreq, queryData_of_ok hschema' he' hitems hreq]
  cases hp : e.predicate req.filter with
  | ok predicate => exact ⟨nofun, fun h => (nomatch h.1)⟩
  | error error' =>
      rw [Engine.execute_eq_error.mpr (.inl hp)]
      constructor
      · rintro ⟨⟩
        exact ⟨rfl, rfl⟩
      · rintro ⟨⟨⟩, -⟩
        rfl

/-- A query whose predicate is explained fails for the page size or a sort path only, or counts the
items that satisfy the predicate. -/
theorem queryData_of_explainData (hschema : r.ensureFilterable s = .ok ())
    (hschema' : r'.ensureFilterable s = .ok ()) (he : r.engine s = e) (he' : r'.engine s = e)
    (hitems : docs.items s data = .ok items)
    (hreq : docs.request request = .ok req) (hlen : items.length < UInt64.size)
    (h : explainData r docs s request = .ok j) :
    ∃ predicate, e.predicate req.filter = .ok predicate ∧
      j = .ofFields [("type", .string s.typeName),
        ("predicate", (predicate.map fun p => Json.string p.text).getD .null)] ∧
      ((∃ error, queryData r' docs s data request = .error (.filter error) ∧
          (e.pageSize req.page = .error error ∨
            SortKey.resolve e.family e.element req.page.orderBy = .error error)) ∨
        ∃ page : Page Value, queryData r' docs s data request = .ok (page.toJson s.toJson) ∧
          page.totalCount.toNat =
            predicate.elim items.length fun p => Engine.count Value.asRecord p items) := by
  rw [explainData_of_ok hschema he hreq] at h
  rw [queryData_of_ok hschema' he' hitems hreq]
  cases hp : e.predicate req.filter with
  | error error => rw [hp] at h; cases h
  | ok predicate =>
      rw [hp] at h
      cases h
      refine ⟨predicate, rfl, rfl, ?_⟩
      cases hx : e.execute Value.asRecord items req with
      | ok page => exact .inr ⟨page, rfl, Engine.totalCount_of_execute hlen hp hx⟩
      | error error =>
          refine .inl ⟨error, rfl, ?_⟩
          rcases Engine.execute_eq_error.mp hx with hp' | ⟨-, hlater⟩
          · rw [hp] at hp'
            cases hp'
          · exact hlater.imp id And.right

/-- What is answered about one request, by the schema command without depth and override of its own,
by an explanation and by a query. -/
structure Agreement (settings : Settings) (docs : Documents) (s : Sample) (data : String)
    (request : Option String) (schema explain query : Except CommandError Json) : Prop where
  /-- The type is refused by all three or by none. -/
  explain_unavailable : Unavailable schema ↔ Unavailable explain
  query_unavailable : Unavailable schema ↔ Unavailable query
  /-- If it is not, the filter is refused in the explanation when it is refused in the query, and
  with the same error. -/
  refused : ∀ items req,
    docs.items s data = .ok items →
    docs.request request = .ok req → ¬ Unavailable schema →
    ∀ e, explain = .error (.filter e) ↔
      (Engine.mk Sample.family s.type settings).predicate req.filter = .error e ∧
        query = .error (.filter e)
  /-- If a predicate is explained, the query fails for the page size or a sort path only, or counts
  the items that satisfy the predicate, all of them if there is none. -/
  explained : ∀ items req,
    docs.items s data = .ok items →
    docs.request request = .ok req → items.length < UInt64.size →
    ∀ j, explain = .ok j → ∃ predicate,
      (Engine.mk Sample.family s.type settings).predicate req.filter = .ok predicate ∧
      j = .ofFields [("type", .string s.typeName),
        ("predicate", (predicate.map fun p => Json.string p.text).getD .null)] ∧
      ((∃ e, query = .error (.filter e) ∧
          ((Engine.mk Sample.family s.type settings).pageSize req.page = .error e ∨
            SortKey.resolve Sample.family s.type req.page.orderBy = .error e)) ∨
        ∃ page : Page Value, query = .ok (page.toJson s.toJson) ∧
          page.totalCount.toNat =
            predicate.elim items.length fun p => Engine.count Value.asRecord p items)

/-- **Commands about one request agree.**  Under whatever settings and whatever has happened to the
registry before each of them, the schema command, an explanation and a query refuse a type together;
an explanation and a query refuse a filter with the same error; and what is explained is what the
query counts. -/
theorem commands_agree (settings : Settings) (past past' past'' : List Registry.Operation)
    (docs : Documents) (s : Sample) (data : String) (request : Option String) :
    Agreement settings docs s data request
      (run (.ofHistory settings past) docs (.schema s none false))
      (run (.ofHistory settings past') docs (.explain s request))
      (run (.ofHistory settings past'') docs (.query s data request)) := by
  have hr := recorded_ofHistory settings
  have hfilterable (h : List Registry.Operation) (hschema : settings.schema? s ≠ none) :
      (ofHistory settings h).ensureFilterable s = .ok () :=
    ensureFilterable_of_schema (hr h).sound (by rwa [(hr h).settings_eq])
  constructor
  case explain_unavailable =>
    rw [unavailable_schema (hr past).sound, unavailable_explain (hr past').sound,
      (hr past).settings_eq, (hr past').settings_eq]
  case query_unavailable =>
    rw [unavailable_schema (hr past).sound, unavailable_query (hr past'').sound,
      (hr past).settings_eq, (hr past'').settings_eq]
  case refused =>
    intro items req hitems hreq havailable e
    rw [unavailable_schema (hr past).sound, (hr past).settings_eq] at havailable
    exact explainData_refused_iff (hfilterable past' havailable) (hfilterable past'' havailable)
      (engine_ofHistory settings past') (engine_ofHistory settings past'') hitems hreq
  case explained =>
    intro items req hitems hreq hlen j hj
    have havailable : settings.schema? s ≠ none := by
      rw [← (hr past').settings_eq, ne_eq, ← unavailable_explain (hr past').sound, hj]
      exact fun ⟨_, h, _⟩ => (nomatch h)
    exact queryData_of_explainData (hfilterable past' havailable) (hfilterable past'' havailable)
      (engine_ofHistory settings past') (engine_ofHistory settings past'') hitems hreq hlen hj

/-- Two categories in a file, and a request for the second as the input. -/
def catalogue : Documents where
  file? path := if path = "list" then
      some "[\x7b\"id\":1,\"name\":\"a\"\x7d,\x7b\"id\":2,\"name\":\"b\"\x7d]" else none
  input := "\x7b\"filter\":\x7b\"first\":\x7b\"path\":\"id\",\"operator\":\"equalTo\"," ++
    "\"arguments\":[2]\x7d\x7d\x7d"

/-- Of two categories one is found, after it has been explained how; what is asked about audit
entries is refused whatever it is. -/
theorem catalogue_agrees :
    (∃ items req j, ∃ predicate : Option Predicate, ∃ page : Page Value,
      catalogue.items .category "list" = .ok items ∧ catalogue.request none = .ok req ∧
      items.length = 2 ∧
      run (ofHistory .default []) catalogue (.explain .category none) = .ok j ∧
      j.text = "\x7b\"predicate\":\"id = 2\",\"type\":\"Category\"\x7d" ∧
      run (ofHistory .default []) catalogue (.query .category "list" none) =
        .ok (page.toJson Sample.category.toJson) ∧
      ((page.toJson Sample.category.toJson).get? "totalCount").map Json.text = some "1" ∧
      page.totalCount.toNat =
        predicate.elim items.length fun p => Engine.count Value.asRecord p items) ∧
    Unavailable (run (ofHistory .default []) catalogue (.schema .audit none false)) ∧
    Unavailable
      (run (Sample.markedIn (.withSettings .default)) catalogue (.explain .audit none)) := by
  have hagrees (s : Sample) (past : List Registry.Operation) :=
    commands_agree .default [] past [] catalogue s "list" none
  have haudit : Unavailable
      (run (ofHistory .default []) catalogue (.schema .audit none false)) := ⟨_, rfl, rfl⟩
  rw [markedIn_withSettings]
  refine ⟨?_, haudit, (hagrees .audit _).explain_unavailable.mp haudit⟩
  obtain ⟨items, hitems, hlen⟩ : ∃ items, catalogue.items .category "list" = .ok items ∧
      items.length = 2 :=
    map_eq_ok.mp (eq_ok_of_toOption (by decide +kernel))
  obtain ⟨j, hj, htext⟩ : ∃ j, run (ofHistory .default []) catalogue (.explain .category none) =
      .ok j ∧ j.text = "\x7b\"predicate\":\"id = 2\",\"type\":\"Category\"\x7d" :=
    map_eq_ok.mp (eq_ok_of_toOption (by decide +kernel))
  -- what has been explained has been read
  obtain ⟨-, -, hread⟩ := bind_eq_ok.mp (show explainData .. = .ok j from hj)
  obtain ⟨req, hreq, -⟩ := bind_eq_ok.mp hread
  obtain ⟨j', hj', htotal⟩ : ∃ j', run (ofHistory .default []) catalogue
      (.query .category "list" none) = .ok j' ∧
        (j'.get? "totalCount").map Json.text = some "1" :=
    map_eq_ok.mp (eq_ok_of_toOption (by decide +kernel))
  obtain ⟨predicate, -, -, ⟨error, herror, -⟩ | ⟨page, hpage, hcount⟩⟩ :=
    (hagrees .category []).explained items req hitems hreq (by rw [hlen]; decide) j hj
  · rw [hj'] at herror
    cases herror
  · cases hj'.symm.trans hpage
    exact ⟨items, req, j, predicate, page, hitems, hreq, hlen, hj, htext, hpage, htotal, hcount⟩

end Command

end RecordFilter
