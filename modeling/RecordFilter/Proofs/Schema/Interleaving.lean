import RecordFilter.Proofs.Schema.Growth
import RecordFilter.Samples

/-!
# Compilations that share a cache

A compilation takes two atomic steps.  It looks its key up, and where there is no entry it builds
the schema, if the type has one; then it keeps what it has built, unless there is an entry by now.
Between the two steps others may have kept theirs.  A `Race` is a cache with the calls that share
it, each at a stage of its own, and a schedule names the call that takes the next step.

* `advance_cases`: a step leaves the cache as it is, or keeps the schema of its call.
* `Consistent.step`, `Consistent.run`: the invariant of every race.
* `remaining_run`: how many steps a call has left.
* `run_agrees`: what calls are answered, and what is kept, under every schedule.
-/

namespace RecordFilter

open SchemaCache

/-! ### Calls and their stages -/

/-- A compilation that is asked for. -/
structure Call where
  type : TypeExpr
  depth : Nat
  overrideIgnores : Bool

namespace Call

/-- The key that a call looks up. -/
def key (F : TypeFamily) (call : Call) : SchemaKey :=
  keyOf F call.type call.depth call.overrideIgnores

/-- The schema that a call builds, if its type has one. -/
def schema? (F : TypeFamily) (call : Call) : Option Schema :=
  F.schema? call.type call.depth call.overrideIgnores

end Call

/-- The stage that a call has come to. -/
inductive Stage where
  /-- It has not taken a step. -/
  | waiting
  /-- It has found no entry, and has built the schema. -/
  | built (s : Schema)
  | answered (answer : Option StoredSchema)

namespace Stage

/-- Whether a call has its answer. -/
def isAnswered : Stage → Bool
  | answered _ => true
  | _ => false

/-- The number of steps that a call takes at most before it has its answer. -/
def remaining : Stage → Nat
  | waiting => 2
  | built _ => 1
  | answered _ => 0

end Stage

/-- A step of a call: to look its key up, or to keep the schema that it has built. -/
def SchemaCache.advance (c : SchemaCache) (F : TypeFamily) (call : Call) :
    Stage → Stage × SchemaCache
  | .waiting =>
    match c.get? (call.key F) with
    | some stored => (.answered (some stored), c)
    | none =>
      match call.schema? F with
      | none => (.answered none, c)
      | some s => (.built s, c)
  | .built s =>
    let (stored, c) := c.insertIfAbsent (call.key F) s
    (.answered (some stored), c)
  | .answered answer => (.answered answer, c)

/-- A cache, and the calls that share it. -/
structure Race where
  cache : SchemaCache
  calls : List (Call × Stage)

namespace Race

/-- A race in which no call has taken a step. -/
def start (c : SchemaCache) (calls : List Call) : Race :=
  ⟨c, calls.map fun call => (call, .waiting)⟩

/-- The race after a step of the call at a position. -/
def step (F : TypeFamily) (r : Race) (i : Nat) : Race :=
  match r.calls[i]? with
  | none => r
  | some (call, stage) =>
    let (stage, cache) := r.cache.advance F call stage
    ⟨cache, r.calls.set i (call, stage)⟩

/-- The race after the steps of a schedule. -/
def run (F : TypeFamily) (r : Race) (schedule : List Nat) : Race := schedule.foldl (step F) r

end Race

variable {F : TypeFamily} {c c₀ : SchemaCache} {call : Call} {stage : Stage} {calls : List Call}
  {r : Race}

theorem Call.schema?_key : (call.key F).schema? F = call.schema? F := schema?_keyOf call.type

/-! ### One step -/

/-- What a call has is in order: a schema that it has built is that of its type, and its answer is
what is kept under its key, which is nothing only if the type has no schema. -/
def Stage.Settled (F : TypeFamily) (c : SchemaCache) (call : Call) : Stage → Prop
  | .waiting => True
  | .built s => call.schema? F = some s
  | .answered answer =>
    answer = c.get? (call.key F) ∧ answer.map StoredSchema.schema = call.schema? F

/-- A step leaves the cache as it is, or keeps the schema of its call; what the call has then is in
order if it was before. -/
theorem SchemaCache.advance_cases (hsound : Sound F c) (h : stage.Settled F c call) :
    ((c.advance F call stage).1.Settled F c call ∧ (c.advance F call stage).2 = c) ∨
    ∃ s, call.schema? F = some s ∧ c.advance F call stage =
      (.answered (some (c.insertIfAbsent (call.key F) s).1),
        (c.insertIfAbsent (call.key F) s).2) := by
  cases stage with
  | waiting =>
      unfold advance
      cases hk : c.get? (call.key F) with
      | some stored =>
          have hschema : call.schema? F = some stored.schema :=
            Call.schema?_key.symm.trans (hsound _ _ hk)
          exact .inl ⟨⟨hk.symm, hschema.symm⟩, rfl⟩
      | none =>
          cases hs : call.schema? F with
          | none => exact .inl ⟨⟨hk.symm, hs.symm⟩, rfl⟩
          | some s => exact .inl ⟨hs, rfl⟩
  | built s => exact .inr ⟨s, h, rfl⟩
  | answered answer => exact .inl ⟨h, rfl⟩

/-- What a call has stays in order when the cache grows. -/
theorem Stage.Settled.mono {c' : SchemaCache} (h : stage.Settled F c call) (hgrown : Grown c c')
    (hsound : Sound F c') : stage.Settled F c' call := by
  cases stage with
  | waiting => trivial
  | built s => exact h
  | answered answer =>
      obtain ⟨hanswer, hschema⟩ := h
      refine ⟨?_, hschema⟩
      cases answer with
      | some stored => exact (hgrown.kept hanswer.symm).symm
      | none =>
          -- a type without a schema has no entry in any sound cache
          cases hk : c'.get? (call.key F) with
          | none => rfl
          | some stored =>
              have hsome : call.schema? F = some stored.schema :=
                Call.schema?_key.symm.trans (hsound _ _ hk)
              exact absurd (hschema.trans hsome) nofun

/-- Two steps in a row are a compilation. -/
theorem SchemaCache.advance_advance :
    (c.advance F call .waiting).2.advance F call (c.advance F call .waiting).1 =
      (.answered (c.compile F call.type call.depth call.overrideIgnores).1,
        (c.compile F call.type call.depth call.overrideIgnores).2) := by
  obtain ⟨stored, hk, heq⟩ | ⟨hk, hs, heq⟩ | ⟨s, hk, hs, heq⟩ :=
    compile_cases c F call.type call.depth call.overrideIgnores
  · rw [heq]
    simp only [advance, Call.key, hk]
  · rw [heq]
    simp only [advance, Call.key, Call.schema?, hk, hs]
  · rw [heq]
    simp only [advance, Call.key, Call.schema?, hk, hs]

/-- Every step of a call that is not finished brings it nearer to its end. -/
theorem Stage.remaining_advance :
    (c.advance F call stage).1.remaining ≤ stage.remaining - 1 := by
  cases stage with
  | waiting =>
      unfold advance
      cases c.get? (call.key F) with
      | some stored => exact Nat.zero_le _
      | none =>
          cases call.schema? F with
          | none => exact Nat.zero_le _
          | some s => exact Nat.le_refl 1
  | built s => exact Nat.le_refl 0
  | answered answer => exact Nat.le_refl 0

namespace Race

theorem step_of_none {i : Nat} (h : r.calls[i]? = none) : r.step F i = r := by
  rw [step, h]

theorem step_of_some {i : Nat} (h : r.calls[i]? = some (call, stage)) :
    r.step F i = ⟨(r.cache.advance F call stage).2,
      r.calls.set i (call, (r.cache.advance F call stage).1)⟩ := by
  rw [step, h]

theorem getElem?_step_self {i : Nat} (h : r.calls[i]? = some (call, stage)) :
    (r.step F i).calls[i]? = some (call, (r.cache.advance F call stage).1) := by
  rw [step_of_some h]
  exact List.getElem?_set_self (List.getElem?_eq_some_iff.mp h).1

theorem getElem?_step_of_ne {i j : Nat} (h : i ≠ j) : (r.step F i).calls[j]? = r.calls[j]? := by
  cases hi : r.calls[i]? with
  | none => rw [step_of_none hi]
  | some entry => rw [step_of_some hi, List.getElem?_set_ne h]

/-- No step changes what is called. -/
theorem map_fst_step (i : Nat) : (r.step F i).calls.map Prod.fst = r.calls.map Prod.fst := by
  refine List.ext_getElem? fun j => ?_
  rw [List.getElem?_map, List.getElem?_map]
  by_cases hij : i = j
  · subst hij
    cases hi : r.calls[i]? with
    | none => rw [step_of_none hi, hi]
    | some entry => rw [getElem?_step_self hi]; rfl
  · rw [getElem?_step_of_ne hij]

/-! ### Whole races -/

/-- A race as it has come from a cache and the calls that share it. -/
structure Consistent (F : TypeFamily) (c₀ : SchemaCache) (calls : List Call) (r : Race) : Prop where
  calls_eq : r.calls.map Prod.fst = calls
  sound : Sound F r.cache
  numbered : Numbered r.cache
  grown : Grown c₀ r.cache
  asked : ∀ key, (r.cache.get? key).isSome → (c₀.get? key).isSome ∨ ∃ call ∈ calls, call.key F = key
  settled : ∀ entry ∈ r.calls, entry.2.Settled F r.cache entry.1

/-- A sound cache with numbered entries is consistent with calls that have not begun. -/
theorem Consistent.start (hsound : Sound F c₀) (hnumbered : Numbered c₀) (calls : List Call) :
    Consistent F c₀ calls (.start c₀ calls) where
  calls_eq := List.map_map.trans (List.map_id calls)
  sound := hsound
  numbered := hnumbered
  grown := .refl c₀
  asked _ h := .inl h
  settled := by
    intro entry hentry
    obtain ⟨call, -, rfl⟩ := List.mem_map.mp hentry
    trivial

/-- A race in which one call has taken a step to a new stage, and the cache has grown. -/
theorem Consistent.set (h : Consistent F c₀ calls r) {i : Nat} {cache : SchemaCache}
    {stage' : Stage} (hi : r.calls[i]? = some (call, stage))
    (hstep : r.step F i = ⟨cache, r.calls.set i (call, stage')⟩) (hsound : Sound F cache)
    (hnumbered : Numbered cache) (hgrown : Grown r.cache cache)
    (hasked : ∀ key, (cache.get? key).isSome → (r.cache.get? key).isSome ∨ call.key F = key)
    (hsettled : stage'.Settled F cache call) : Consistent F c₀ calls (r.step F i) where
  calls_eq := (map_fst_step i).trans h.calls_eq
  sound := by rw [hstep]; exact hsound
  numbered := by rw [hstep]; exact hnumbered
  grown := by rw [hstep]; exact h.grown.trans hgrown
  asked key hkey := by
    rw [hstep] at hkey
    rcases hasked key hkey with hold | heq
    · exact h.asked key hold
    · have hmem : call ∈ calls := by
        rw [← h.calls_eq]
        exact List.mem_map_of_mem (List.mem_of_getElem? hi)
      exact .inr ⟨call, hmem, heq⟩
  settled entry hentry := by
    rw [hstep] at hentry ⊢
    rcases List.mem_or_eq_of_mem_set hentry with hold | rfl
    · exact (h.settled entry hold).mono hgrown hsound
    · exact hsettled

/-- Each step leaves a race consistent. -/
theorem Consistent.step (h : Consistent F c₀ calls r) (i : Nat) :
    Consistent F c₀ calls (r.step F i) := by
  cases hi : r.calls[i]? with
  | none => rwa [step_of_none hi]
  | some entry =>
      obtain ⟨call, stage⟩ := entry
      have hstep := step_of_some (F := F) hi
      have hsettled := h.settled _ (List.mem_of_getElem? hi)
      obtain ⟨hnext, hcache⟩ | ⟨s, hs, hadvance⟩ := advance_cases h.sound hsettled
      · rw [hcache] at hstep
        exact h.set hi hstep h.sound h.numbered (.refl _) (fun key hkey => .inl hkey) hnext
      · rw [hadvance] at hstep
        have hkey := fun key => get?_insertIfAbsent (c := r.cache) (call.key F) key s
        have hsound : Sound F (r.cache.insertIfAbsent (call.key F) s).2 :=
          h.sound.insertIfAbsent (Call.schema?_key.trans hs)
        refine h.set hi hstep hsound (h.numbered.insertIfAbsent _ s) (grown_insertIfAbsent _ s)
          (fun key hsome => ?_) ?_
        · rw [hkey] at hsome
          split at hsome
          · rename_i heq
            exact .inr heq.symm
          · exact .inl hsome
        · have hkept := (hkey (call.key F)).trans (if_pos rfl)
          refine ⟨hkept.symm, ?_⟩
          rw [hs]
          exact (hsound _ _ hkept).symm.trans (Call.schema?_key.trans hs)

/-- The steps of a schedule leave a race consistent. -/
theorem Consistent.run (h : Consistent F c₀ calls r) (schedule : List Nat) :
    Consistent F c₀ calls (r.run F schedule) := by
  induction schedule generalizing r with
  | nil => exact h
  | cons i schedule ih => exact ih (h.step i)

/-- A step changes nothing under a key that its call does not ask for. -/
theorem get?_step {i : Nat} {key : SchemaKey}
    (hkey : ∀ entry, r.calls[i]? = some entry → entry.1.key F ≠ key) :
    (r.step F i).cache.get? key = r.cache.get? key := by
  cases hi : r.calls[i]? with
  | none => rw [step_of_none hi]
  | some entry =>
      obtain ⟨call, stage⟩ := entry
      have hne : key ≠ call.key F := (hkey _ hi).symm
      rw [step_of_some hi]
      cases stage with
      | waiting =>
          unfold advance
          cases r.cache.get? (call.key F) with
          | some stored => rfl
          | none => cases call.schema? F <;> rfl
      | built s => exact (get?_insertIfAbsent _ _ s).trans (if_neg hne)
      | answered answer => rfl

/-- Each step of a call takes one from the steps that it has left. -/
theorem remaining_run {i : Nat} (hi : r.calls[i]? = some (call, stage)) (schedule : List Nat) :
    ∃ stage', (r.run F schedule).calls[i]? = some (call, stage') ∧
      stage'.remaining ≤ stage.remaining - schedule.count i := by
  induction schedule generalizing r stage with
  | nil => exact ⟨stage, hi, Nat.le_refl _⟩
  | cons j schedule ih =>
      by_cases hji : j = i
      · subst hji
        obtain ⟨stage', hrun, hle⟩ := ih (getElem?_step_self (F := F) hi)
        have hstep : (r.cache.advance F call stage).1.remaining ≤ stage.remaining - 1 :=
          Stage.remaining_advance
        refine ⟨stage', hrun, ?_⟩
        rw [List.count_cons_self]
        omega
      · obtain ⟨stage', hrun, hle⟩ := ih ((getElem?_step_of_ne hji).trans hi)
        exact ⟨stage', hrun, by rwa [List.count_cons_of_ne hji]⟩

/-- A call that takes its two steps in a row compiles. -/
theorem step_step {i : Nat} (hi : r.calls[i]? = some (call, .waiting)) :
    (r.step F i).step F i =
      ⟨(r.cache.compile F call.type call.depth call.overrideIgnores).2, r.calls.set i
        (call, .answered (r.cache.compile F call.type call.depth call.overrideIgnores).1)⟩ := by
  rw [step_of_some (getElem?_step_self hi), step_of_some hi, advance_advance, List.set_set]

/-- What comes of calls that share a cache. -/
structure Agrees (F : TypeFamily) (c₀ : SchemaCache) (calls : List Call) (schedule : List Nat)
    (r : Race) : Prop where
  calls_eq : r.calls.map Prod.fst = calls
  /-- A call that takes its two steps in a row compiles. -/
  alone : ∀ (i : Nat) call, r.calls[i]? = some (call, .waiting) →
    (r.step F i).step F i =
      ⟨(r.cache.compile F call.type call.depth call.overrideIgnores).2, r.calls.set i
        (call, .answered (r.cache.compile F call.type call.depth call.overrideIgnores).1)⟩
  /-- Two steps of a call are enough for its answer. -/
  answered : ∀ (i : Nat) call, calls[i]? = some call → 2 ≤ schedule.count i →
    ∃ answer, r.calls[i]? = some (call, .answered answer)
  /-- The answer is what is kept under the key of the call: the schema of its type, or nothing if
  there is none. -/
  stored : ∀ call answer, (call, .answered answer) ∈ r.calls →
    answer = r.cache.get? (call.key F) ∧ answer.map StoredSchema.schema = call.schema? F
  /-- All calls for one key have the same answer. -/
  same : ∀ call call' answer answer', (call, .answered answer) ∈ r.calls →
    (call', .answered answer') ∈ r.calls → call.key F = call'.key F → answer = answer'
  /-- Entries stay as they are under all further steps. -/
  kept : ∀ key stored, r.cache.get? key = some stored →
    ∀ more, (r.run F more).cache.get? key = some stored
  /-- A step changes nothing under a key that its call does not ask for. -/
  apart : ∀ (i : Nat) key, (∀ entry, r.calls[i]? = some entry → entry.1.key F ≠ key) →
    (r.step F i).cache.get? key = r.cache.get? key
  /-- When all calls have their answers, one entry has been added for each key that has been asked
  for, had none, and has a schema. -/
  finished : (∀ entry ∈ r.calls, entry.2.isAnswered) →
    (r.cache.entries.map Prod.fst).Nodup ∧ ∀ key, key ∈ r.cache.entries.map Prod.fst ↔
      (c₀.get? key).isSome ∨ (key.schema? F).isSome ∧ ∃ call ∈ calls, call.key F = key

/-- A consistent race is consistent from where it stands. -/
theorem Consistent.restart (h : Consistent F c₀ calls r) : Consistent F r.cache calls r where
  calls_eq := h.calls_eq
  sound := h.sound
  numbered := h.numbered
  grown := .refl _
  asked _ hkey := .inl hkey
  settled := h.settled

/-- When all calls have their answers, there are entries for the keys that had one before, and for
those asked for that have a schema. -/
theorem Consistent.isSome_get? (h : Consistent F c₀ calls r)
    (hall : ∀ entry ∈ r.calls, entry.2.isAnswered) (key : SchemaKey) :
    (r.cache.get? key).isSome ↔
      (c₀.get? key).isSome ∨ (key.schema? F).isSome ∧ ∃ call ∈ calls, call.key F = key := by
  constructor
  · intro hkey
    rcases h.asked key hkey with hold | hcall
    · exact .inl hold
    · obtain ⟨stored, hstored⟩ := Option.isSome_iff_exists.mp hkey
      have hschema : key.schema? F = some stored.schema := h.sound key stored hstored
      exact .inr ⟨Option.isSome_iff_exists.mpr ⟨_, hschema⟩, hcall⟩
  · rintro (hold | ⟨hschema, call, hcall, rfl⟩)
    · obtain ⟨stored, hstored⟩ := Option.isSome_iff_exists.mp hold
      exact Option.isSome_iff_exists.mpr ⟨stored, h.grown.kept hstored⟩
    · rw [← h.calls_eq] at hcall
      obtain ⟨⟨call, stage⟩, hentry, rfl⟩ := List.mem_map.mp hcall
      have hsettled := h.settled _ hentry
      cases stage with
      | answered answer =>
          obtain ⟨hanswer, hmap⟩ := hsettled
          rw [Call.schema?_key, ← hmap, Option.isSome_map] at hschema
          rw [← hanswer]
          exact hschema
      | waiting => exact absurd (hall _ hentry) nofun
      | built s => exact absurd (hall _ hentry) nofun

/-- **Interleaved compilations.**  Let any number of calls share a cache, and let their steps be
taken under any schedule.  All answers for one key are the one entry that is kept under it; entries
are neither replaced nor removed, and a call touches no key but its own; and when all calls have
their answers, one entry has been added for each key asked for that had none and has a schema. -/
theorem run_agrees (hc : c.Reached F) (calls : List Call) (schedule : List Nat) :
    Agrees F c calls schedule ((start c calls).run F schedule) := by
  have h : Consistent F c calls ((start c calls).run F schedule) :=
    (Consistent.start (.of_reached hc) (.of_reached hc) calls).run schedule
  constructor
  case calls_eq => exact h.calls_eq
  case alone => exact fun i call hi => step_step hi
  case answered =>
    intro i call hcall hcount
    have hstart : (start c calls).calls[i]? = some (call, .waiting) := by
      rw [start, List.getElem?_map, hcall]
      rfl
    obtain ⟨stage, hstage, hle⟩ := remaining_run hstart schedule
    have hzero : stage.remaining = 0 := by
      rw [Stage.remaining] at hle
      omega
    cases stage with
    | answered answer => exact ⟨answer, hstage⟩
    | waiting => cases hzero
    | built s => cases hzero
  case stored => exact fun call answer hentry => h.settled _ hentry
  case same =>
    intro call call' answer answer' hentry hentry' hkey
    rw [(h.settled _ hentry).1, (h.settled _ hentry').1, hkey]
  case kept => exact fun key stored hkey more => (h.restart.run more).grown.kept hkey
  case apart => exact fun i key hkey => get?_step hkey
  case finished =>
    intro hall
    refine ⟨h.numbered.distinct, fun key => ?_⟩
    rw [mem_keys]
    exact h.isSome_get? hall key

/-- Two calls for people, one of them boxed, and one for audit entries, which have no schema. -/
def peopleCalls : List Call := [⟨Sample.person.type, 2, false⟩,
  ⟨.boxed Sample.person.type, 2, false⟩, ⟨Sample.audit.type, 2, false⟩]

/-- The calls for people both find no entry before either keeps its schema; the second to build is
the first to keep, both get what it keeps, and nothing else is kept. -/
theorem people_race :
    SchemaCache.Reached Sample.family .empty ∧
      ((start .empty peopleCalls).run Sample.family [0, 1]).cache.entries = [] ∧
      ∃ first second, ((start .empty peopleCalls).run Sample.family [0, 1, 1, 0, 2]).calls =
          peopleCalls.zip [.answered (some first), .answered (some second), .answered none] ∧
        first = second ∧
        ((start .empty peopleCalls).run Sample.family [0, 1, 1, 0, 2]).cache.entries =
          [(⟨Sample.person.type, 2, false⟩, first)] := by
  have hagrees := run_agrees (F := Sample.family) .empty peopleCalls [0, 1, 1, 0, 2]
  refine ⟨.empty, rfl, _, _, rfl, ?_, rfl⟩
  exact Option.some.inj (hagrees.same _ _ _ _ (.head _) (.tail _ (.head _)) rfl)

end Race

end RecordFilter
