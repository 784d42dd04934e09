import AiOrchestrator.Lib.Text
import Mathlib.Algebra.Order.Floor.Ring
import Mathlib.Data.Rat.Floor

/-!
# Times and their texts

Parsing the text of a time gives the time back (`dateParse_toIsoString`). The digits of a number are
read back from its padded text, the fields of a date-time from theirs, and a number of days is that
of its date in the calendar (`civilFromDays_spec`).
-/

namespace Text

/-! ### Digits -/

theorem digit?_of_isDigit {c : Char} (h : c.isDigit = true) : digit? c = some (c.toNat - '0'.toNat) := by
  refine if_pos ?_
  simp only [Char.isDigit, Bool.and_eq_true, decide_eq_true_eq] at h
  exact h

/-- Reading as many digits as there are gives their value. -/
theorem takeDigits_append {digits : List Char} (h : ∀ c ∈ digits, c.isDigit = true)
    (cs : List Char) :
    takeDigits digits.length (digits ++ cs) = some (Nat.ofDigitChars 10 digits 0, cs) := by
  induction digits with
  | nil => rfl
  | cons c digits ih =>
    obtain ⟨hc, hdigits⟩ := List.forall_mem_cons.mp h
    rw [List.length_cons, List.cons_append, takeDigits, digit?_of_isDigit hc, ih hdigits,
      Nat.ofDigitChars_cons]
    simp only [Option.bind_eq_bind, Option.bind_some, Option.pure_def, Nat.mul_zero, Nat.zero_add,
      Option.some.injEq, Prod.mk.injEq, and_true]
    rw [Nat.mul_comm]
    exact Nat.ofDigitChars_eq_ofDigitChars_zero.symm

theorem toList_padded (width n : Nat) :
    (padded width n).toList =
      List.replicate (width - (Nat.toDigits 10 n).length) '0' ++ Nat.toDigits 10 n := by
  simp only [padded, String.toList_append, String.toList_ofList, toString, Nat.toList_repr,
    ← String.length_toList]

section Padded

variable {width n : Nat}

theorem length_padded (hwidth : 0 < width) (h : n < 10 ^ width) :
    (padded width n).toList.length = width := by
  have hlength := (Nat.length_toDigits_le_iff (by decide : 1 < 10) hwidth).mpr h
  rw [toList_padded, List.length_append, List.length_replicate]
  omega

theorem isDigit_padded : ∀ c ∈ (padded width n).toList, c.isDigit = true := by
  intro c hc
  rw [toList_padded] at hc
  rcases List.mem_append.mp hc with hc | hc
  · rw [List.eq_of_mem_replicate hc]
    rfl
  · exact Nat.isDigit_of_mem_toDigits (by decide) (by decide) hc

theorem ofDigitChars_padded : Nat.ofDigitChars 10 (padded width n).toList 0 = n := by
  rw [toList_padded, Nat.ofDigitChars_append, Nat.ofDigitChars_replicate_zero, Nat.mul_zero]
  exact Nat.ofDigitChars_toDigits (by decide) (by decide)

/-- Reading a number that is padded to the digits that are read. -/
theorem takeDigits_padded (hwidth : 0 < width) (h : n < 10 ^ width) (cs : List Char) :
    takeDigits width ((padded width n).toList ++ cs) = some (n, cs) := by
  have hdigits := takeDigits_append (@isDigit_padded width n) cs
  rw [length_padded hwidth h, ofDigitChars_padded] at hdigits
  exact hdigits

/-- Reading milliseconds. -/
theorem takeFraction_padded (h : n < 1000) :
    ∃ c cs, (padded 3 n).toList ++ ['Z'] = c :: cs ∧ (digit? c).isSome = true ∧
      takeFraction 100 (c :: cs) = (n, ['Z']) := by
  have hread := takeDigits_padded (by decide : 0 < 3) h ['Z']
  have hlength := length_padded (by decide : 0 < 3) h
  have hdigits := @isDigit_padded 3 n
  match hchars : (padded 3 n).toList, hlength with
  | [a, b, c], _ =>
    rw [hchars] at hread hdigits
    have ha := digit?_of_isDigit (hdigits a (by simp))
    have hb := digit?_of_isDigit (hdigits b (by simp))
    have hc := digit?_of_isDigit (hdigits c (by simp))
    have hz : digit? 'Z' = none := by decide
    refine ⟨a, [b, c, 'Z'], rfl, by rw [ha]; rfl, ?_⟩
    simp only [List.cons_append, List.nil_append, takeDigits, ha, hb, hc, Option.bind_eq_bind,
      Option.bind_some, Option.pure_def, Option.some.injEq, Prod.mk.injEq, and_true] at hread
    simp only [takeFraction, ha, hb, hc, hz, Prod.mk.injEq, and_true]
    omega

end Padded

theorem takeYear_minus {n : Nat} (h : n < 1000000) (hpos : 0 < n) (cs : List Char) :
    takeYear ('-' :: ((padded 6 n).toList ++ cs)) = some (-(n : Int), cs) := by
  have hne : n ≠ 0 := Nat.ne_of_gt hpos
  rw [takeYear, takeDigits_padded (by decide) h]
  simp only [Option.bind_eq_bind, Option.bind_some, guard, hne, ne_eq, not_false_eq_true, if_true,
    Option.pure_def]

theorem takeYear_plus {n : Nat} (h : n < 1000000) (cs : List Char) :
    takeYear ('+' :: ((padded 6 n).toList ++ cs)) = some ((n : Int), cs) := by
  rw [takeYear, takeDigits_padded (by decide) h]
  rfl

theorem takeYear_four {n : Nat} (h : n < 10000) (cs : List Char) :
    takeYear ((padded 4 n).toList ++ cs) = some ((n : Int), cs) := by
  have hread := takeDigits_padded (by decide : 0 < 4) h cs
  have hdigits := @isDigit_padded 4 n
  have hlength := length_padded (by decide : 0 < 4) h
  generalize (padded 4 n).toList = chars at hread hdigits hlength
  cases chars with
  | nil => cases hlength
  | cons c digits =>
    have hc := hdigits c List.mem_cons_self
    rw [List.cons_append] at hread ⊢
    unfold takeYear
    split
    · next heq =>
      rw [(List.cons.inj heq).1] at hc
      exact absurd hc (by decide)
    · next heq =>
      rw [(List.cons.inj heq).1] at hc
      exact absurd hc (by decide)
    · rw [hread]
      rfl

theorem takeYear_yearText {year : Int} (h : year.natAbs < 1000000) (cs : List Char) :
    takeYear ((yearText year).toList ++ cs) = some (year, cs) := by
  unfold yearText
  split_ifs with hfour hnegative
  · rw [takeYear_four (by omega), Int.toNat_of_nonneg hfour.1]
  · rw [String.toList_append, List.append_assoc, show "-".toList = ['-'] by decide,
      List.singleton_append, takeYear_minus h (by omega) cs]
    rw [Int.ofNat_natAbs_of_nonpos (by omega), Int.neg_neg]
  · rw [String.toList_append, List.append_assoc, show "+".toList = ['+'] by decide,
      List.singleton_append, takeYear_plus h cs]
    rw [Int.natAbs_of_nonneg (by omega)]

/-! ### Reading a date-time back -/

theorem takeChar_cons (c : Char) (cs : List Char) : takeChar c (c :: cs) = some cs := if_pos rfl

/-- **A date-time is read back** from its text. -/
theorem parseDateTime_text {year : Int} {month day hour minute second millis : Nat}
    (hyear : year.natAbs < 1000000) (hmonth : 1 ≤ month ∧ month ≤ 12)
    (hday : 1 ≤ day ∧ day ≤ daysInMonth year month) (hhour : hour < 24) (hminute : minute < 60)
    (hsecond : second < 60) (hmillis : millis < 1000) :
    parseDateTime (yearText year ++ "-" ++ padded 2 month ++ "-" ++ padded 2 day ++ "T" ++
      padded 2 hour ++ ":" ++ padded 2 minute ++ ":" ++ padded 2 second ++ "." ++
      padded 3 millis ++ "Z") =
      some { year, month, day, hour, minute, second, millis, offset := 0 } := by
  have hdays : daysInMonth year month ≤ 31 := by
    unfold daysInMonth
    split_ifs <;> decide
  obtain ⟨c, cs, hfraction, hdigit, hread⟩ := takeFraction_padded hmillis
  obtain ⟨d, hd⟩ := Option.isSome_iff_exists.mp hdigit
  have hseconds : takeSeconds (':' :: ((padded 2 second).toList ++ '.' :: c :: cs)) =
      some ((second, millis), ['Z']) := by
    rw [takeSeconds, takeDigits_padded (by decide) (by omega)]
    simp only [Option.bind_eq_bind, Option.bind_some, guard, hsecond, if_true, hd, hread,
      Option.pure_def]
  have hzone : takeZone ['Z'] = some 0 := rfl
  unfold parseDateTime
  simp only [String.toList_append, List.append_assoc, show "-".toList = ['-'] by decide,
    show "T".toList = ['T'] by decide, show ":".toList = [':'] by decide,
    show ".".toList = ['.'] by decide, show "Z".toList = ['Z'] by decide, List.cons_append,
    List.nil_append]
  rw [takeYear_yearText hyear]
  simp only [Option.bind_eq_bind, Option.bind_some, takeChar_cons]
  rw [takeDigits_padded (by decide) (by omega)]
  simp only [Option.bind_some, takeChar_cons]
  rw [takeDigits_padded (by decide) (by omega)]
  simp only [Option.bind_some, takeChar_cons]
  rw [takeDigits_padded (by decide) (by omega)]
  simp only [Option.bind_some, takeChar_cons]
  rw [takeDigits_padded (by decide) (by omega)]
  simp only [Option.bind_some, hfraction, hseconds, hzone, guard, hmonth, hday, hhour, hminute,
    and_self, if_true, Option.pure_def]

/-! ### The calendar -/

/-- What the computation of the year says about a day of the era. -/
structure YearDay (dayOfEra yearOfEra dayOfYear : Int) : Prop where
  year_nonneg : 0 ≤ yearOfEra
  year_le : yearOfEra ≤ 399
  day_nonneg : 0 ≤ dayOfYear
  day_le : dayOfYear ≤ 365
  /-- The last day of a year that ends with February has number 365 in leap years only. -/
  leap : dayOfYear = 365 →
    (yearOfEra + 1) % 4 = 0 ∧ ((yearOfEra + 1) % 100 ≠ 0 ∨ (yearOfEra + 1) % 400 = 0)

/-- A day of the era lies in the computed year: `c`, `k` and `j` are the century, the cycle of four
years in it and the year in the cycle. -/
theorem yearDay {doe yoe doy : Int} (h0 : 0 ≤ doe) (h1 : doe ≤ 146096)
    (hy : yoe = (doe - doe / 1460 + doe / 36524 - doe / 146096) / 365)
    (hd : doy = doe - (365 * yoe + yoe / 4 - yoe / 100)) : YearDay doe yoe doy := by
  by_cases hlast : doe = 146096
  · subst hlast
    obtain rfl : yoe = 399 := by omega
    obtain rfl : doy = 365 := by omega
    exact ⟨by decide, by decide, by decide, by decide, fun _ => by decide⟩
  obtain ⟨c, k, s, hc0, hc, hk0, hk, hs0, hs, hlt, rfl⟩ :
      ∃ c k s : Int, 0 ≤ c ∧ c ≤ 3 ∧ 0 ≤ k ∧ k ≤ 24 ∧ 0 ≤ s ∧ s ≤ 1460 ∧
        1461 * k + s ≤ 36523 ∧ 36524 * c + 1461 * k + s = doe :=
    ⟨doe / 36524, doe % 36524 / 1461, doe % 36524 % 1461, by omega, by omega, by omega, by omega,
      by omega, by omega, by omega, by omega⟩
  obtain ⟨e, he, hdiv⟩ :
      ∃ e : Int, (e = 0 ∧ 24 * c + k + s < 1460 ∨ e = 1 ∧ 1460 ≤ 24 * c + k + s) ∧
        (36524 * c + 1461 * k + s) / 1460 = 25 * c + k + e := by
    by_cases h : 24 * c + k + s < 1460
    · exact ⟨0, .inl ⟨rfl, h⟩, by omega⟩
    · exact ⟨1, .inr ⟨rfl, by omega⟩, by omega⟩
  have hcentury : (36524 * c + 1461 * k + s) / 36524 = c := by omega
  have hera : (36524 * c + 1461 * k + s) / 146096 = 0 := by omega
  rw [hdiv, hcentury, hera] at hy
  clear hdiv hcentury hera h0 h1 hlast
  obtain ⟨j, hj0, hj, hjs, hjs'⟩ : ∃ j, 0 ≤ j ∧ j ≤ 3 ∧ 365 * j ≤ s - e ∧ s - e < 365 * (j + 1) :=
    ⟨(s - e) / 365, by omega, by omega, by omega, by omega⟩
  obtain rfl : yoe = 100 * c + 4 * k + j := by omega
  have hquarter : (100 * c + 4 * k + j) / 4 = 25 * c + k := by omega
  have hhundred : (100 * c + 4 * k + j) / 100 = c := by omega
  rw [hquarter, hhundred] at hd
  obtain rfl : doy = s - 365 * j := by omega
  clear hquarter hhundred hd hy
  refine ⟨by omega, by omega, by omega, by omega, fun h => ?_⟩
  obtain rfl : j = 3 := by omega
  omega

/-- **The calendar is read back**: a number of days is that of its date, which exists. -/
theorem civilFromDays_spec (days : Int) :
    let (year, month, day) := civilFromDays days
    daysFromCivil year month day = days ∧ (1 ≤ month ∧ month ≤ 12) ∧
      (1 ≤ day ∧ day ≤ daysInMonth year month) ∧
      (days + 719468) / 146097 * 400 ≤ year ∧ year ≤ (days + 719468) / 146097 * 400 + 400 := by
  obtain ⟨era, hera⟩ : ∃ era, era = (days + 719468) / 146097 := ⟨_, rfl⟩
  obtain ⟨doe, hdoe⟩ : ∃ doe, doe = (days + 719468) % 146097 := ⟨_, rfl⟩
  obtain ⟨yoe, hyoe⟩ :
      ∃ yoe, yoe = (doe - doe / 1460 + doe / 36524 - doe / 146096) / 365 := ⟨_, rfl⟩
  obtain ⟨doy, hdoy⟩ : ∃ doy, doy = doe - (365 * yoe + yoe / 4 - yoe / 100) := ⟨_, rfl⟩
  have hyear := yearDay (by omega) (by omega) hyoe hdoy
  have hdays : days = era * 146097 + doe - 719468 := by omega
  obtain ⟨index, hindex⟩ : ∃ index, index = (5 * doy + 2) / 153 := ⟨_, rfl⟩
  have hindex0 : 0 ≤ index := by have := hyear.day_nonneg; omega
  have hindex11 : index ≤ 11 := by have := hyear.day_le; omega
  obtain ⟨month, hmonth⟩ : ∃ month : Nat,
      month = (if index < 10 then index + 3 else index - 9).toNat := ⟨_, rfl⟩
  obtain ⟨day, hday⟩ : ∃ day : Nat, day = (doy - (153 * index + 2) / 5 + 1).toNat := ⟨_, rfl⟩
  simp only [civilFromDays, ← hera, ← hdoe, ← hyoe, ← hdoy, ← hindex, ← hmonth, ← hday]
  have hdayNat : (day : Int) = doy - (153 * index + 2) / 5 + 1 := by
    have := hyear.day_nonneg
    omega
  have hmonths : index < 10 ∧ (month : Int) = index + 3 ∨ 10 ≤ index ∧ (month : Int) = index - 9 := by
    split_ifs at hmonth <;> omega
  refine ⟨?_, by omega, ⟨by omega, ?_⟩, ?_, ?_⟩
  · -- the year of the era and the number of the month are computed back
    have hy : (if month ≤ 2 then yoe + era * 400 + (if month ≤ 2 then 1 else 0) - 1
        else yoe + era * 400 + (if month ≤ 2 then 1 else 0)) = yoe + era * 400 := by
      split_ifs <;> omega
    have hm : (if month > 2 then (month : Int) - 3 else (month : Int) + 9) = index := by
      split_ifs <;> omega
    have hyear0 := hyear.year_nonneg
    have hyear399 := hyear.year_le
    have hquotient : (yoe + era * 400) / 400 = era := by omega
    have hrest : yoe + era * 400 - era * 400 = yoe := by omega
    simp only [daysFromCivil, hy, hm, hquotient, hrest, hdayNat]
    omega
  · -- the twelve months, of which the last one ends the year with February
    have hleap : doy = 365 → isLeapYear (yoe + era * 400 + 1) = true := by
      intro h
      obtain ⟨hfour, hcentury⟩ := hyear.leap h
      simp only [isLeapYear, Bool.and_eq_true, Bool.or_eq_true, decide_eq_true_eq, bne_iff_ne]
      omega
    have hle := hyear.day_le
    have hge := hyear.day_nonneg
    clear hyear hyoe hdoy
    by_cases hfebruary : month = 2
    · subst hfebruary
      have hlast : isLeapYear (yoe + era * 400 + 1) = false → doy ≠ 365 := fun h hdoy => by
        rw [hleap hdoy] at h
        cases h
      simp only [daysInMonth, Nat.le_refl, if_true]
      by_cases hyear : isLeapYear (yoe + era * 400 + 1) = true
      · rw [if_pos hyear]
        omega
      · have hlast := hlast (eq_false_of_ne_true hyear)
        rw [if_neg hyear]
        omega
    · rw [daysInMonth, if_neg hfebruary]
      split_ifs <;> omega
  · have := hyear.year_nonneg
    split_ifs <;> omega
  · have := hyear.year_le
    split_ifs <;> omega

/-- **Times are read back**: parsing the text of a time gives the time. -/
theorem dateParse_toIsoString {ms : Int} (h : isTime ms = true) :
    dateParse (toIsoString ms) = some ms := by
  have hspec := civilFromDays_spec (ms / 86400000)
  simp only [isTime, Bool.and_eq_true, decide_eq_true_eq] at h
  obtain ⟨year, month, day, hcivil⟩ :
      ∃ year month day, civilFromDays (ms / 86400000) = (year, month, day) := ⟨_, _, _, rfl⟩
  rw [hcivil] at hspec
  obtain ⟨hdays, hmonth, hday, hlow, hhigh⟩ := hspec
  obtain ⟨inDay, hinDay⟩ : ∃ inDay : Nat, inDay = (ms % 86400000).toNat := ⟨_, rfl⟩
  have hparse := @parseDateTime_text year month day (inDay / 3600000) (inDay / 60000 % 60)
    (inDay / 1000 % 60) (inDay % 1000) (by omega) hmonth hday (by omega) (by omega) (by omega)
    (by omega)
  have htext : toIsoString ms = yearText year ++ "-" ++ padded 2 month ++ "-" ++ padded 2 day ++
      "T" ++ padded 2 (inDay / 3600000) ++ ":" ++ padded 2 (inDay / 60000 % 60) ++ ":" ++
      padded 2 (inDay / 1000 % 60) ++ "." ++ padded 3 (inDay % 1000) ++ "Z" := by
    simp only [toIsoString, hcivil, ← hinDay]
  have htime : ({ year, month, day, hour := inDay / 3600000, minute := inDay / 60000 % 60
                  second := inDay / 1000 % 60, millis := inDay % 1000, offset := 0 } :
      DateTime).time = ms := by
    simp only [DateTime.time, hdays]
    omega
  have hguard : isTime ms = true := by
    simp only [isTime, Bool.and_eq_true, decide_eq_true_eq]
    exact h
  rw [dateParse, htext, hparse]
  simp only [Option.bind_eq_bind, Option.bind_some, htime, hguard, guard, if_true, Option.pure_def]

/-! ### Fractions of a millisecond -/

/-- The time of `new Date(ms)`: fractions are cut off. -/
def clipTime (ms : ℚ) : ℤ := if 0 ≤ ms then ⌊ms⌋ else ⌈ms⌉

@[simp] theorem clipTime_intCast (ms : ℤ) : clipTime (ms : ℚ) = ms := by
  unfold clipTime
  split_ifs
  · exact Int.floor_intCast ms
  · exact Int.ceil_intCast ms

/-- Less than a millisecond is cut off. -/
theorem lt_clipTime_add_one (ms : ℚ) : ms < clipTime ms + 1 := by
  unfold clipTime
  split_ifs
  · exact Int.lt_floor_add_one ms
  · exact (Int.le_ceil ms).trans_lt (lt_add_one _)

/-- Cutting off moves a time towards zero. -/
theorem abs_clipTime_le (ms : ℚ) : |(clipTime ms : ℚ)| ≤ |ms| := by
  unfold clipTime
  split_ifs with h
  · have hfloor : (0 : ℚ) ≤ (⌊ms⌋ : ℚ) := by exact_mod_cast Int.floor_nonneg.mpr h
    rw [abs_of_nonneg hfloor, abs_of_nonneg h]
    exact Int.floor_le ms
  · have hceil : ((⌈ms⌉ : ℤ) : ℚ) ≤ 0 := by exact_mod_cast Int.ceil_le.mpr (by simpa using le_of_not_ge h)
    rw [abs_of_nonpos hceil, abs_of_nonpos (le_of_not_ge h)]
    exact neg_le_neg (Int.le_ceil ms)

/-- `new Date(ms).toISOString()`, which throws where `ms` is no time of a date. -/
def isoString? (ms : ℚ) : Option String :=
  if |ms| ≤ 8640000000000000 then some (toIsoString (clipTime ms)) else none

/-- What is written is the text of a time. -/
theorem isoString_eq_some {ms : ℚ} {s : String} (h : isoString? ms = some s) :
    isTime (clipTime ms) = true ∧ s = toIsoString (clipTime ms) := by
  unfold isoString? at h
  split_ifs at h with htime
  obtain ⟨hlow, hhigh⟩ := abs_le.mp ((abs_clipTime_le ms).trans htime)
  refine ⟨?_, (Option.some.inj h).symm⟩
  rw [isTime, Bool.and_eq_true, decide_eq_true_eq, decide_eq_true_eq]
  exact ⟨by exact_mod_cast hlow, by exact_mod_cast hhigh⟩

/-- **What a platform's `Date.parse` promises**: it reads the texts that `toISOString` writes. -/
def ReadsIsoStrings (parse : String → Option ℤ) : Prop :=
  ∀ ms, isTime ms = true → parse (toIsoString ms) = some ms

theorem readsIsoStrings_dateParse : ReadsIsoStrings dateParse := fun _ => dateParse_toIsoString

theorem ReadsIsoStrings.isoString {parse : String → Option ℤ} (h : ReadsIsoStrings parse) {ms : ℚ}
    {s : String} (hs : isoString? ms = some s) : parse s = some (clipTime ms) := by
  obtain ⟨htime, rfl⟩ := isoString_eq_some hs
  exact h _ htime

end Text
