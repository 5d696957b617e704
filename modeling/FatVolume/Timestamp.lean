import FatVolume.Text.Numeral

/-!
# Dates and times of day

An entry records when it was created in two 16-bit words: seven bits of years since
`Date.minYear`, four of the month and five of the day, and five bits of the hour, six of
the minute and five of the seconds, counted by twos.  `Date` and `Time` range over all
that the words can hold; `Date.new` and `Time.new` admit calendar values only.
-/

namespace FatVolume

/-- Why a date or a time of day does not exist. -/
inductive CalendarError where
  | month
  | day
  | time
  deriving DecidableEq, Repr

def CalendarError.message : CalendarError → String
  | month => "month out of range"
  | day => "day out of range"
  | time => "time out of range"

/-- The least year of a date. -/
abbrev Date.minYear : Nat := 1980

/-- The greatest year of a date. -/
abbrev Date.maxYear : Nat := Date.minYear + 127

/-- A date as the word of an entry can hold it. -/
structure Date where
  year : Nat
  month : Nat
  day : Nat
  minYear_le : Date.minYear ≤ year := by decide
  le_maxYear : year ≤ Date.maxYear := by decide
  month_lt : month < 16 := by decide
  day_lt : day < 32 := by decide
  deriving DecidableEq, Repr

namespace Date

/-- The date of the given month and day; a year outside the range is moved to its nearer
end. -/
def new (year month day : Nat) : Except CalendarError Date :=
  if hm : 1 ≤ month ∧ month ≤ 12 then
    if hd : 1 ≤ day ∧ day ≤ 31 then
      .ok ⟨max minYear (min year maxYear), month, day, by omega, by unfold maxYear; omega,
        by omega, by omega⟩
    else .error .day
  else .error .month

/-- The word of a date. -/
def pack (d : Date) : UInt16 :=
  UInt16.ofNat ((d.year - minYear) * 512 + d.month * 32 + d.day)

/-- The date of a word. -/
def unpack (word : UInt16) : Date :=
  have small : word.toNat < 65536 := word.toNat_lt
  ⟨minYear + word.toNat / 512, word.toNat / 32 % 16, word.toNat % 32,
    by omega, by unfold maxYear; omega, by omega, by omega⟩

/-- The date in the form `2018-12-19`. -/
def render (d : Date) : String :=
  s!"{Text.zeroPadded 4 d.year}-{Text.zeroPadded 2 d.month}-{Text.zeroPadded 2 d.day}"

instance : Inhabited Date := ⟨{ year := minYear, month := 1, day := 1 }⟩

theorem unpack_pack (d : Date) :
  unpack d.pack = d
  := by
  obtain ⟨year, month, day, h₁, h₂, h₃, h₄⟩ := d
  have word : (pack ⟨year, month, day, h₁, h₂, h₃, h₄⟩).toNat
      = (year - minYear) * 512 + month * 32 + day := by
    simp only [pack, UInt16.toNat_ofNat']
    exact Nat.mod_eq_of_lt (by unfold maxYear at h₂; omega)
  simp only [unpack, word, mk.injEq]
  omega

theorem pack_unpack (word : UInt16) :
  (unpack word).pack = word
  := by
  apply UInt16.toNat_inj.mp
  have small : word.toNat < 65536 := word.toNat_lt
  simp only [pack, unpack, UInt16.toNat_ofNat']
  omega

end Date

/-- A time of day as the word of an entry can hold it. -/
structure Time where
  hour : Nat
  minute : Nat
  second : Nat
  hour_lt : hour < 32 := by decide
  minute_lt : minute < 64 := by decide
  second_lt : second < 64 := by decide
  deriving DecidableEq, Repr

namespace Time

/-- The time of the given hour, minute and second. -/
def new (hour minute second : Nat) : Except CalendarError Time :=
  if h : hour ≤ 23 ∧ minute ≤ 59 ∧ second ≤ 59 then
    .ok ⟨hour, minute, second, by omega, by omega, by omega⟩
  else .error .time

/-- The word of a time; an odd second is lost. -/
def pack (t : Time) : UInt16 :=
  UInt16.ofNat (t.hour * 2048 + t.minute * 32 + t.second / 2)

/-- The time of a word. -/
def unpack (word : UInt16) : Time :=
  have small : word.toNat < 65536 := word.toNat_lt
  ⟨word.toNat / 2048, word.toNat / 32 % 64, word.toNat % 32 * 2,
    by omega, by omega, by omega⟩

/-- The time in the form `10:30:00`. -/
def render (t : Time) : String :=
  s!"{Text.zeroPadded 2 t.hour}:{Text.zeroPadded 2 t.minute}:{Text.zeroPadded 2 t.second}"

instance : Inhabited Time := ⟨{ hour := 0, minute := 0, second := 0 }⟩

/-- What is read back is the time with its second rounded down to an even one. -/
theorem unpack_pack (t : Time) :
  (unpack t.pack).hour = t.hour ∧ (unpack t.pack).minute = t.minute
    ∧ (unpack t.pack).second = t.second / 2 * 2
  := by
  obtain ⟨hour, minute, second, h₁, h₂, h₃⟩ := t
  have word : (pack ⟨hour, minute, second, h₁, h₂, h₃⟩).toNat
      = hour * 2048 + minute * 32 + second / 2 := by
    simp only [pack, UInt16.toNat_ofNat']
    exact Nat.mod_eq_of_lt (by omega)
  simp only [unpack, word]
  omega

theorem pack_unpack (word : UInt16) :
  (unpack word).pack = word
  := by
  apply UInt16.toNat_inj.mp
  have small : word.toNat < 65536 := word.toNat_lt
  simp only [pack, unpack, UInt16.toNat_ofNat']
  omega

end Time

/-- An instant: what a clock shows. -/
structure Timestamp where
  date : Date := default
  time : Time := default
  deriving DecidableEq, Repr, Inhabited

end FatVolume
