import RecordFilter.Calendar.Reading

/-!
# Leap seconds

Any second of a minute can be a leap second, but texts have it only as the second 60, at the end of
a minute (`TimeOfDay.IsRegular`).  The text of any other leap second is that of the second after,
which is another time (`TimeOfDay.named`).  No such leap second is ever read.

* `TimeOfDay.of?_parts`: the parts that are written name a time.
* `TimeOfDay.compare_named_eq_iff`: it is the time that they were written for unless that has a leap
  second within a minute.
* `OffsetDateTime.isRegular_of_read`: what is read has none, and so have times and dates with times.
-/

namespace RecordFilter

/-! ### Times of day -/

namespace TimeOfDay

variable {t : TimeOfDay}

/-- There is no leap second, or it stands at the end of a minute. -/
def IsRegular (t : TimeOfDay) : Prop := t.nano < 1000000000 ∨ t.second = 59

instance : DecidablePred IsRegular := fun _ => inferInstanceAs (Decidable (_ ∨ _))

/-- The second after a leap second within a minute belongs to the same minute. -/
theorem isValid_after (h : ¬ t.IsRegular) :
    IsValid t.hour t.minute (t.second + 1) (t.nano - 1000000000) := by
  have hvalid := t.valid
  simp only [IsRegular, IsValid] at *
  omega

/-- The time that the text of a time names: the second after, where a leap second stands within a
minute. -/
def named (t : TimeOfDay) : TimeOfDay :=
  if h : t.IsRegular then t
  else ⟨t.hour, t.minute, t.second + 1, t.nano - 1000000000, isValid_after h⟩

theorem named_of_isRegular (h : t.IsRegular) : t.named = t := dif_pos h

/-- A leap second within a minute is named as a time in the second after it. -/
theorem seconds_named (h : ¬ t.IsRegular) : t.named.seconds = t.seconds + 1 := by
  rw [named, dif_neg h]
  rfl

/-- The time that is named is the same only if there is no leap second within a minute. -/
theorem compare_named_eq_iff : t.named.compare t = .eq ↔ t.IsRegular := by
  constructor
  · intro h
    refine Decidable.not_not.mp fun hleap => ?_
    have hlater : Ord.compare t.named.seconds t.seconds = .gt := by
      rw [seconds_named hleap]
      exact Nat.compare_eq_gt.mpr (Nat.lt_succ_self _)
    rw [compare, hlater] at h
    cases h
  · intro h
    rw [named_of_isRegular h, compare, Std.compare_self, Std.compare_self]
    rfl

/-- The second 60 stands for a leap second, any other for itself. -/
theorem of?_eq_some {hour minute second nano : Nat} :
    of? hour minute second nano = some t ↔
      nano < 1000000000 ∧ t.hour = hour ∧ t.minute = minute ∧
        if second = 60 then t.second = 59 ∧ t.nano = 1000000000 + nano
        else t.second = second ∧ t.nano = nano := by
  obtain ⟨h, m, s, n, hvalid⟩ := t
  simp only [of?, Option.dite_none_right_eq_some, Option.some.injEq, mk.injEq]
  by_cases hleap : second = 60
  · simp only [if_pos hleap]
    constructor
    · rintro ⟨⟨hnano, -⟩, rfl, rfl, rfl, rfl⟩
      exact ⟨hnano, rfl, rfl, rfl, rfl⟩
    · rintro ⟨hnano, rfl, rfl, rfl, rfl⟩
      exact ⟨⟨hnano, hvalid⟩, rfl, rfl, rfl, rfl⟩
  · simp only [if_neg hleap]
    constructor
    · rintro ⟨⟨hnano, -⟩, rfl, rfl, rfl, rfl⟩
      exact ⟨hnano, rfl, rfl, rfl, rfl⟩
    · rintro ⟨hnano, rfl, rfl, rfl, rfl⟩
      exact ⟨⟨hnano, hvalid⟩, rfl, rfl, rfl, rfl⟩

/-- The parts that are written are those of the time named. -/
theorem of?_parts (t : TimeOfDay) :
    of? t.hour t.minute (t.second + t.nano / 1000000000) (t.nano % 1000000000) = some t.named := by
  have hvalid := t.valid
  refine of?_eq_some.mpr ⟨Nat.mod_lt _ (by decide), ?_⟩
  by_cases h : t.IsRegular
  · rw [named_of_isRegular h]
    refine ⟨rfl, rfl, ?_⟩
    simp only [IsRegular, IsValid] at h hvalid
    split <;> omega
  · rw [named, dif_neg h]
    refine ⟨rfl, rfl, ?_⟩
    simp only [IsRegular, IsValid] at h hvalid
    rw [if_neg (by omega)]
    exact ⟨by dsimp only; omega, by dsimp only; omega⟩

/-- Parts that are read make a leap second on second 59 only. -/
theorem isRegular_of_of? {hour minute second nano : Nat}
    (h : of? hour minute second nano = some t) : t.IsRegular := by
  obtain ⟨hnano, -, -, hparts⟩ := of?_eq_some.mp h
  split at hparts
  · exact .inr hparts.1
  · exact .inl (hparts.2 ▸ hnano)

end TimeOfDay

/-! ### Dates with times -/

namespace DateTime

/-- The time has no leap second within a minute. -/
def IsRegular (t : DateTime) : Prop := t.time.IsRegular

instance : DecidablePred IsRegular := fun t => inferInstanceAs (Decidable t.time.IsRegular)

/-- The date and time that the text of one names. -/
def named (t : DateTime) : DateTime := { t with time := t.time.named }

theorem named_of_isRegular {t : DateTime} (h : t.IsRegular) : t.named = t := by
  rw [named, TimeOfDay.named_of_isRegular h]

/-- The date and time that is named is the same only if there is no leap second within a minute. -/
theorem compare_named_eq_iff {t : DateTime} : t.named.compare t = .eq ↔ t.IsRegular := by
  constructor
  · intro h
    refine Decidable.not_not.mp fun hleap => ?_
    have hlater : Ord.compare t.named.seconds t.seconds = .gt := by
      have hseconds : t.named.seconds = t.seconds + 1 := by
        simp only [seconds, named, TimeOfDay.seconds_named hleap]
        omega
      rw [hseconds]
      exact Std.compare_eq_gt.mpr (Int.lt_succ _)
    rw [compare, hlater] at h
    cases h
  · intro h
    rw [named_of_isRegular h, compare, Std.compare_self, Std.compare_self]
    rfl

end DateTime

namespace OffsetDateTime

/-- The local time has no leap second within a minute. -/
def IsRegular (v : OffsetDateTime) : Prop := v.clock.IsRegular

instance : DecidablePred IsRegular := fun v => inferInstanceAs (Decidable v.clock.IsRegular)

/-- Offsets are whole minutes, so universal time has the second after as well. -/
theorem isValid_named (v : OffsetDateTime) : IsValid v.clock.named v.offset := by
  by_cases h : v.IsRegular
  · rw [DateTime.named_of_isRegular h]
    exact v.valid
  · have hvalid := v.valid
    have hclock := v.clock.time.valid
    have hseconds : v.clock.named.seconds = v.clock.seconds + 1 := by
      simp only [DateTime.seconds, DateTime.named, TimeOfDay.seconds_named h]
      omega
    rw [IsValid, hseconds]
    simp only [IsRegular, DateTime.IsRegular, TimeOfDay.IsRegular] at h
    simp only [IsValid, TimeOfDay.IsValid, DateTime.seconds, TimeOfDay.seconds] at hvalid hclock ⊢
    omega

/-- The moment that the text of one names. -/
def named (v : OffsetDateTime) : OffsetDateTime := ⟨v.clock.named, v.offset, v.isValid_named⟩

theorem named_of_isRegular {v : OffsetDateTime} (h : v.IsRegular) : v.named = v := by
  obtain ⟨clock, offset, hvalid⟩ := v
  simp only [named, mk.injEq, and_true]
  exact DateTime.named_of_isRegular h

end OffsetDateTime

/-! ### Readers -/

namespace Reader

variable {α β : Type} {P : α → Prop} {Q : β → Prop}

/-- Whatever a reader takes has a property. -/
def Gives (r : Reader α) (P : α → Prop) : Prop := ∀ cs a rest, r.run cs = some (a, rest) → P a

/-- What one reader gives may be used by the reader after it. -/
theorem Gives.bind {r : Reader α} {f : α → Reader β} (h : Gives r P)
    (h' : ∀ a, P a → Gives (f a) Q) : Gives (r >>= f) Q := by
  intro cs b rest hrun
  rw [StateT.run_bind, Option.bind_eq_bind, Option.bind_eq_some_iff] at hrun
  obtain ⟨⟨a, cs'⟩, ha, hb⟩ := hrun
  exact h' a (h cs a cs' ha) cs' b rest hb

/-- What is taken last counts, whatever was taken before it. -/
theorem Gives.last {r : Reader α} {f : α → Reader β} (h : ∀ a, Gives (f a) Q) :
    Gives (r >>= f) Q :=
  Gives.bind (P := fun _ => True) (fun _ _ _ _ => trivial) fun a _ => h a

theorem Gives.lift {o : Option α} (h : ∀ a, o = some a → P a) : Gives (liftM o) P := by
  intro cs a rest hrun
  cases o with
  | none => cases hrun
  | some b =>
      obtain ⟨rfl, -⟩ := Prod.mk.inj (Option.some.inj hrun)
      exact h _ rfl

theorem Gives.pure {a : α} (h : P a) : Gives (Pure.pure a) P := by
  rintro cs b rest ⟨⟩
  exact h

theorem Gives.whole {r : Reader α} {cs : List Char} {a : α} (h : Gives r P)
    (hwhole : r.whole cs = some a) : P a := by
  unfold Reader.whole at hwhole
  split at hwhole
  · rename_i hrun
    cases hwhole
    exact h cs _ _ hrun
  · cases hwhole

/-- Times that are taken have no leap second within a minute. -/
theorem secondTime_gives (s : Spacing) : Gives (secondTime s) TimeOfDay.IsRegular := by
  refine .last fun ⟨hour, minute⟩ => ?_
  refine .last fun _ => .last fun second => .last fun nano => ?_
  exact .lift fun _ => TimeOfDay.isRegular_of_of?

theorem minuteTime_gives (s : Spacing) : Gives (minuteTime s) TimeOfDay.IsRegular :=
  .last fun _ => .lift fun _ => TimeOfDay.isRegular_of_of?

theorem form_gives (between : Reader Unit) {time : Reader TimeOfDay}
    (h : Gives time TimeOfDay.IsRegular) : Gives (DateTime.form between time) DateTime.IsRegular :=
  .last fun _ => .last fun _ => h.bind fun _ ht => .pure ht

end Reader

/-! ### What is read -/

open Reader

/-- What one of two readings finds has been found by the first or by the second. -/
theorem orElse_eq_some {α : Type} {x y : Option α} {a : α} (h : (x <|> y) = some a) :
    x = some a ∨ y = some a := by
  cases x with
  | none => exact .inr h
  | some _ => exact .inl h

/-- No time that is read has a leap second within a minute. -/
theorem TimeOfDay.isRegular_of_read {t : TimeOfDay} {cs : List Char} (h : read cs = some t) :
    t.IsRegular := by
  rcases orElse_eq_some h with h | h
  · exact (secondTime_gives .before).whole h
  · exact (minuteTime_gives .before).whole h

/-- Neither has a date with a time. -/
theorem DateTime.isRegular_of_read {t : DateTime} {cs : List Char} (h : read cs = some t) :
    t.IsRegular := by
  have hsecond (between : Reader Unit) := form_gives between (secondTime_gives .before)
  have hminute (between : Reader Unit) := form_gives between (minuteTime_gives .before)
  rcases orElse_eq_some h with h | h
  · exact (hsecond _).whole h
  rcases orElse_eq_some h with h | h
  · exact (hsecond _).whole h
  rcases orElse_eq_some h with h | h
  · exact (hminute _).whole h
  rcases orElse_eq_some h with h | h
  · exact (hminute _).whole h
  · obtain ⟨d, -, rfl⟩ := Option.map_eq_some_iff.mp h
    exact .inl (show 0 < 1000000000 by decide)

namespace OffsetDateTime

theorem of?_gives {clock : DateTime} (h : clock.IsRegular) (offset : Int) :
    Gives (liftM (of? clock offset)) IsRegular := by
  refine .lift fun v hv => ?_
  unfold of? at hv
  split at hv
  · cases hv
    exact h
  · cases hv

/-- A moment in the standard form has no leap second within a minute. -/
theorem strict_gives : Gives strict IsRegular := by
  -- the fields that are taken one after the other, then the date, the time and the moment
  refine .last fun year => .last fun _ => .last fun month => .last fun _ => .last fun day => ?_
  refine .last fun _ => .last fun hour => .last fun _ => .last fun minute => .last fun _ => ?_
  refine .last fun second => .last fun nano => .last fun offset => .last fun date => ?_
  refine Gives.bind (.lift fun _ => TimeOfDay.isRegular_of_of?) fun time ht => ?_
  exact of?_gives (show DateTime.IsRegular ⟨date, time⟩ from ht) offset

/-- Neither has one in the looser form. -/
theorem spaced_gives : Gives spaced IsRegular :=
  (form_gives _ (secondTime_gives .before)).bind fun _ ht => .last fun _ => .last fun offset =>
    of?_gives ht offset

/-- No moment that is read has a leap second within a minute. -/
theorem isRegular_of_read {v : OffsetDateTime} {cs : List Char} (h : read cs = some v) :
    v.IsRegular := by
  rcases orElse_eq_some h with h | h
  · exact strict_gives.whole h
  · exact spaced_gives.whole h

end OffsetDateTime

end RecordFilter
