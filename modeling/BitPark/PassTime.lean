import BitPark.Calendar
import BitPark.DeviceMessage
import BitPark.FloatText
import BitPark.FuzzyMatch

namespace BitPark.PassTime

open BitPark.Calendar BitPark.Decimal BitPark.Members BitPark.PictureFiles BitPark.DeviceMessage BitPark.FuzzyMatch

/-! The time of a passage, between the text of a device and the seconds that
are stored. Local times are those of a zone at a fixed distance from UTC. -/

def epoch : ℤ := dayNumber 1970 1 1

/-- `mktime`: a number out of its range counts into the larger ones. It is taken
to ignore `tm_isdst`, which its callers leave unset. -/
def mktime (offset : ℤ) (t : LocalTime) : ℤ :=
  let year := t.year + ((t.month : ℤ) - 1) / 12
  let month := (((t.month : ℤ) - 1) % 12 + 1).toNat
  (dayNumber year month t.day - epoch) * 86400 + t.hour * 3600 + t.minute * 60 + t.second - offset

def localDate (offset time : ℤ) : Date := Date.ofNumber ((time + offset) / 86400 + epoch)

/-- `localtime`, from the year 0 on. -/
def localtime (offset time : ℤ) : LocalTime :=
  let date := localDate offset time
  let second := ((time + offset) % 86400).toNat
  { year := date.year.toNat
    month := date.month
    day := date.day
    hour := second / 3600
    minute := second % 3600 / 60
    second := second % 60 }

/-- `%04d-%02d-%02d %02d:%02d:%02d` -/
def timeText (t : LocalTime) : Bytes := t.date ++ 32 :: pad 2 t.hour ++ 58 :: pad 2 t.minute ++ 58 :: pad 2 t.second

def asciiText (text : Bytes) : String := String.ofList (text.map fun b => Char.ofNat b.toNat)

def encodeTime (offset time : ℤ) : String := asciiText (timeText (localtime offset time))

/-- A time of the calendar and the clock. -/
structure OnCalendar (t : LocalTime) : Prop where
  month : 1 ≤ t.month
  day : 1 ≤ t.day ∧ t.day ≤ monthDays t.year t.month
  hour : t.hour ≤ 23
  minute : t.minute ≤ 59
  second : t.second ≤ 59

/-! `mktime` and `localtime` undo each other. -/

theorem mktime_eq (offset : ℤ) (t : LocalTime) (hl : 1 ≤ t.month) (hu : t.month ≤ 12) :
    mktime offset t =
      (dayNumber t.year t.month t.day - epoch) * 86400 + t.hour * 3600 + t.minute * 60 + t.second - offset := by
  have hyear : ((t.month : ℤ) - 1) / 12 = 0 := by omega
  have hmonth : (((t.month : ℤ) - 1) % 12 + 1).toNat = t.month := by omega
  rw [mktime]
  simp only [hyear, hmonth, add_zero]

theorem localtime_mktime (offset : ℤ) (t : LocalTime) (h : OnCalendar t) : localtime offset (mktime offset t) = t := by
  obtain ⟨hmonth, hday, hhour, hminute, hsecond⟩ := h
  have hm := mktime_eq offset t hmonth (month_le t.year t.month (lt_of_lt_of_le hday.1 hday.2))
  have hdate : localDate offset (mktime offset t) = ⟨t.year, t.month, t.day, hmonth, hday.1, hday.2⟩ := by
    have hn : (mktime offset t + offset) / 86400 + epoch = dayNumber t.year t.month t.day := by
      rw [hm]
      omega
    rw [localDate, hn]
    exact ofNumber_number ⟨t.year, t.month, t.day, hmonth, hday.1, hday.2⟩
  have hclock : (mktime offset t + offset) % 86400 = t.hour * 3600 + t.minute * 60 + t.second := by
    rw [hm]
    omega
  obtain ⟨year, month, day, hour, minute, second⟩ := t
  dsimp only at *
  simp only [localtime, hdate, hclock, Int.toNat_natCast, LocalTime.mk.injEq, true_and]
  omega

theorem localtime_onCalendar (offset time : ℤ) (h : 0 ≤ (localDate offset time).year) :
    OnCalendar (localtime offset time) where
  month := (localDate offset time).month_pos
  day := by
    refine ⟨(localDate offset time).day_pos, ?_⟩
    have hday := (localDate offset time).day_le
    simp only [localtime, Int.toNat_of_nonneg h]
    exact hday
  hour := by
    simp only [localtime]
    omega
  minute := by
    simp only [localtime]
    omega
  second := by
    simp only [localtime]
    omega

theorem mktime_localtime (offset time : ℤ) (h : 0 ≤ (localDate offset time).year) :
    mktime offset (localtime offset time) = time := by
  have hcal := localtime_onCalendar offset time h
  have hle := month_le _ _ (lt_of_lt_of_le hcal.day.1 hcal.day.2)
  have hdate : dayNumber (localtime offset time).year (localtime offset time).month (localtime offset time).day =
      (time + offset) / 86400 + epoch := by
    have hnumber := number_ofNumber ((time + offset) / 86400 + epoch)
    simp only [localtime, Int.toNat_of_nonneg h]
    exact hnumber
  rw [mktime_eq offset _ hcal.month hle, hdate]
  simp only [localtime]
  omega

/-! The text of a time is read as that time. -/

theorem length_pad (width n : ℕ) (hw : 0 < width) (hn : n < 10 ^ width) : (pad width n).length = width := by
  have hdigits : (decimalNat n).length ≤ width := by
    rw [decimalNat]
    split_ifs with h0
    · exact hw
    · rw [List.length_map, List.length_reverse]
      exact (Nat.digits_length_le_iff (by decide) n).mpr hn
  rw [pad, List.length_append, List.length_replicate]
  omega

theorem digitsValue_pad (width n : ℕ) : digitsValue (pad width n) = n :=
  (FloatText.digitsValue_pad width (decimalNat n)).trans (digitsValue_decimalNat n)

theorem takeDigits_pad (low width n : ℕ) (rest : Bytes) (hw : 0 < width) (hl : low ≤ width) (hn : n < 10 ^ width) :
    takeDigits low width (pad width n ++ rest) = some (n, rest) := by
  have hlen := length_pad width n hw hn
  have htake : ((pad width n ++ rest).takeWhile isDigit).take width = pad width n := by
    rw [List.takeWhile_append_of_pos (pad_digits width n)]
    exact List.take_left' hlen
  have hdrop : (pad width n ++ rest).drop width = rest := List.drop_left' hlen
  simp only [takeDigits, htake, hlen, digitsValue_pad, hdrop, if_neg (not_lt.mpr hl)]

/-- The numbers of a text: four digits for the year, at most two for the others. -/
structure Short (t : LocalTime) : Prop where
  year : t.year < 10000
  month : t.month < 100
  day : t.day < 100
  hour : t.hour < 100
  minute : t.minute < 100
  second : t.second < 100

theorem matchTime_timeText (t : LocalTime) (h : Short t) : matchTime (timeText t) = some t := by
  obtain ⟨hyear, hmonth, hday, hhour, hminute, hsecond⟩ := h
  have h1 := fun n rest hn => takeDigits_pad 1 2 n rest (by decide) (by decide) hn
  have hend := h1 t.second [] hsecond
  rw [List.append_nil] at hend
  simp only [matchTime, timeText, LocalTime.date, List.append_assoc, List.cons_append, literal,
    takeDigits_pad 4 4 t.year _ (by decide) le_rfl hyear, h1 t.month _ hmonth, h1 t.day _ hday, h1 t.hour _ hhour,
    h1 t.minute _ hminute, hend, Option.bind_eq_bind, Option.bind_some, if_true]
  rfl

theorem isDigit_ascii (b : UInt8) (h : isDigit b = true) : b < 128 := by
  rw [isDigit, Bool.and_eq_true, decide_eq_true_eq, decide_eq_true_eq] at h
  exact UInt8.lt_of_le_of_lt h.2 (by decide)

theorem timeText_ascii (t : LocalTime) (b : UInt8) (h : b ∈ timeText t) : b < 128 := by
  have hpad : ∀ width n, b ∈ pad width n → b < 128 := fun width n hb => isDigit_ascii b (pad_digits width n b hb)
  simp only [timeText, LocalTime.date, List.mem_append, List.mem_cons] at h
  obtain ((((h | rfl | h) | rfl | h) | rfl | h) | rfl | h) | rfl | h := h
  · exact hpad _ _ h
  · decide
  · exact hpad _ _ h
  · decide
  · exact hpad _ _ h
  · decide
  · exact hpad _ _ h
  · decide
  · exact hpad _ _ h
  · decide
  · exact hpad _ _ h

theorem encode_ascii : ∀ n < 128, String.utf8EncodeChar (Char.ofNat n) = [UInt8.ofNat n] := by decide

theorem bytes_asciiText (text : Bytes) (h : ∀ b ∈ text, b < 128) : bytes (asciiText text) = text := by
  rw [asciiText, bytes_ofList, utf8, List.flatMap_map]
  induction text with
  | nil => rfl
  | cons b text ih =>
    obtain ⟨hb, htext⟩ := List.forall_mem_cons.mp h
    have hchar : String.utf8EncodeChar (Char.ofNat b.toNat) = [b] := by
      rw [encode_ascii b.toNat (UInt8.lt_iff_toNat_lt.mp hb), UInt8.ofNat_toNat]
    rw [List.flatMap_cons, hchar, ih htext]
    rfl

theorem bytes_encodeTime (offset time : ℤ) : bytes (encodeTime offset time) = timeText (localtime offset time) :=
  bytes_asciiText _ (timeText_ascii _)

/-! What `parse_time` accepts. -/

theorem digitsValue_lt (ds : Bytes) (h : ∀ b ∈ ds, isDigit b = true) : digitsValue ds < 10 ^ ds.length := by
  induction ds using List.reverseRecOn with
  | nil => exact Nat.one_pos
  | append_singleton ds b ih =>
    have hds := ih fun c hc => h c (List.mem_append_left _ hc)
    have hb := h b (List.mem_append_right _ List.mem_cons_self)
    rw [isDigit, Bool.and_eq_true, decide_eq_true_eq, decide_eq_true_eq] at hb
    have hb' : b.toNat ≤ 57 := hb.2
    rw [FloatText.digitsValue_append, List.length_append, List.length_singleton, pow_succ]
    simp only [List.foldl_cons, List.foldl_nil]
    omega

theorem takeDigits_lt (low high : ℕ) (s rest : Bytes) (n : ℕ) (h : takeDigits low high s = some (n, rest)) :
    n < 10 ^ high := by
  rw [takeDigits] at h
  split_ifs at h with hlow
  obtain ⟨rfl, -⟩ := Prod.mk.inj (Option.some.inj h)
  have hlt := digitsValue_lt ((s.takeWhile isDigit).take high) fun b hb =>
    List.mem_takeWhile_imp (List.mem_of_mem_take hb)
  exact hlt.trans_le (Nat.pow_le_pow_right (by decide) (List.length_take_le high _))

theorem matchTime_short (s : Bytes) (t : LocalTime) (h : matchTime s = some t) : Short t := by
  simp only [matchTime, Option.bind_eq_bind, Option.bind_eq_some_iff, Prod.exists, Option.pure_def,
    Option.some.injEq] at h
  obtain ⟨year, s1, hyear, s2, -, month, s3, hmonth, s4, -, day, s5, hday, s6, -, hour, s7, hhour, s8, -, minute, s9,
    hminute, s10, -, second, s11, hsecond, rfl⟩ := h
  exact {
    year := takeDigits_lt _ _ _ _ _ hyear
    month := takeDigits_lt _ _ _ _ _ hmonth
    day := takeDigits_lt _ _ _ _ _ hday
    hour := takeDigits_lt _ _ _ _ _ hhour
    minute := takeDigits_lt _ _ _ _ _ hminute
    second := takeDigits_lt _ _ _ _ _ hsecond }

/-- The checks of `parse_time`, each on one number. -/
structure InRange (t : LocalTime) : Prop where
  month : 1 ≤ t.month ∧ t.month ≤ 12
  day : 1 ≤ t.day ∧ t.day ≤ 31
  hour : t.hour ≤ 23
  minute : t.minute ≤ 59
  second : t.second ≤ 61

theorem parseTime_eq_ok (mktime : LocalTime → ℤ) (text : String) (time : ℤ) :
    parseTime mktime text = .ok time ↔ ∃ t, matchTime (bytes text) = some t ∧ InRange t ∧ mktime t = time := by
  by_cases hempty : text = ""
  · have hnone : matchTime (bytes "") = none := by decide
    rw [parseTime, if_pos hempty, hempty, hnone]
    simp
  · rw [parseTime, if_neg hempty]
    cases hm : matchTime (bytes text) with
    | none => simp
    | some t =>
      simp only [Option.some.injEq, exists_eq_left']
      split_ifs with hmonth hday hhour hminute hsecond
      · exact (false_iff _).mpr fun h => absurd h.1.month (by omega)
      · exact (false_iff _).mpr fun h => absurd h.1.day (by omega)
      · exact (false_iff _).mpr fun h => absurd h.1.hour (by omega)
      · exact (false_iff _).mpr fun h => absurd h.1.minute (by omega)
      · exact (false_iff _).mpr fun h => absurd h.1.second (by omega)
      · have hin : InRange t := ⟨by omega, by omega, by omega, by omega, by omega⟩
        simp only [hin, true_and, Except.ok.injEq]

theorem onCalendar_inRange (t : LocalTime) (h : OnCalendar t) : InRange t where
  month := ⟨h.month, month_le t.year t.month (lt_of_lt_of_le h.day.1 h.day.2)⟩
  day := ⟨h.day.1, h.day.2.trans (monthDays_le _ _)⟩
  hour := h.hour
  minute := h.minute
  second := h.second.trans (by decide)

theorem inRange_onCalendar_iff (t : LocalTime) (h : InRange t) :
    OnCalendar t ↔ t.day ≤ monthDays t.year t.month ∧ t.second ≤ 59 := by
  constructor
  · exact fun hc => ⟨hc.day.2, hc.second⟩
  · rintro ⟨hday, hsecond⟩
    exact ⟨h.month.1, ⟨h.day.1, hday⟩, h.hour, h.minute, hsecond⟩

theorem inRange_short (t : LocalTime) (h : InRange t) (hy : t.year < 10000) : Short t := by
  obtain ⟨hmonth, hday, hhour, hminute, hsecond⟩ := h
  exact ⟨hy, by omega, by omega, by omega, by omega, by omega⟩

/-- What `encode_time` writes is accepted, and read as the same time. -/
theorem parseTime_encodeTime (offset time : ℤ) (hl : 0 ≤ (localDate offset time).year)
    (hu : (localtime offset time).year < 10000) :
    parseTime (mktime offset) (encodeTime offset time) = .ok time := by
  have hin := onCalendar_inRange _ (localtime_onCalendar offset time hl)
  rw [parseTime_eq_ok, bytes_encodeTime]
  exact ⟨_, matchTime_timeText _ (inRange_short _ hin hu), hin, mktime_localtime offset time hl⟩

/-! Which of the accepted times are shown as they were given. -/

theorem pad_inj (width m n : ℕ) (h : pad width m = pad width n) : m = n := by
  rw [← digitsValue_pad width m, h, digitsValue_pad]

/-- The last number of a text can be cut off. -/
theorem cut_pad (xs ys : Bytes) (b : UInt8) (m n : ℕ) (hm : m < 100) (hn : n < 100)
    (h : xs ++ b :: pad 2 m = ys ++ b :: pad 2 n) : xs = ys ∧ m = n := by
  have hlen : (b :: pad 2 m).length = (b :: pad 2 n).length := by
    rw [List.length_cons, List.length_cons, length_pad 2 m (by decide) hm, length_pad 2 n (by decide) hn]
  obtain ⟨hfront, hback⟩ := List.append_inj' h hlen
  exact ⟨hfront, pad_inj 2 m n (List.cons.inj hback).2⟩

theorem timeText_inj (t u : LocalTime) (ht : InRange t) (hu : InRange u) (h : timeText t = timeText u) : t = u := by
  obtain ⟨tmonth, tday, thour, tminute, tsecond⟩ := ht
  obtain ⟨umonth, uday, uhour, uminute, usecond⟩ := hu
  obtain ⟨h1, hsecond⟩ := cut_pad _ _ _ _ _ (by omega) (by omega) h
  obtain ⟨h2, hminute⟩ := cut_pad _ _ _ _ _ (by omega) (by omega) h1
  obtain ⟨h3, hhour⟩ := cut_pad _ _ _ _ _ (by omega) (by omega) h2
  rw [LocalTime.date, LocalTime.date] at h3
  obtain ⟨h4, hday⟩ := cut_pad _ _ _ _ _ (by omega) (by omega) h3
  obtain ⟨h5, hmonth⟩ := cut_pad _ _ _ _ _ (by omega) (by omega) h4
  have hyear := pad_inj 4 _ _ h5
  cases t
  cases u
  dsimp only at hyear hmonth hday hhour hminute hsecond
  rw [hyear, hmonth, hday, hhour, hminute, hsecond]

/-- No time that is read lies before the year 0. -/
theorem localDate_mktime (offset : ℤ) (t : LocalTime) (h : InRange t) : 0 ≤ (localDate offset (mktime offset t)).year := by
  apply yearOf_nonneg
  have hday := h.day.1
  have hyear := yearStart_mono 0 t.year (Int.natCast_nonneg _)
  rw [mktime_eq offset t h.month.1 h.month.2, dayNumber]
  omega

theorem encodeTime_mktime_iff (offset : ℤ) (t : LocalTime) (h : InRange t) :
    encodeTime offset (mktime offset t) = asciiText (timeText t) ↔ OnCalendar t := by
  constructor
  · intro heq
    have hcal := localtime_onCalendar offset _ (localDate_mktime offset t h)
    have htext : timeText (localtime offset (mktime offset t)) = timeText t := by
      rw [← bytes_encodeTime, heq, bytes_asciiText _ (timeText_ascii t)]
    rwa [timeText_inj _ t (onCalendar_inRange _ hcal) h htext] at hcal
  · intro hcal
    rw [encodeTime, localtime_mktime offset t hcal]

/-- A time on a day that exists is shown as it was given, up to the two seconds
past the minute that are let in. These stand for the seconds after the 59th. -/
theorem parseTime_shown (offset : ℤ) (text : String) (time : ℤ) (t : LocalTime)
    (h : parseTime (mktime offset) text = .ok time) (ht : matchTime (bytes text) = some t)
    (hday : t.day ≤ monthDays t.year t.month) :
    (encodeTime offset time = asciiText (timeText t) ↔ t.second ≤ 59) ∧
      (t.second ≤ 59 → matchTime (bytes (encodeTime offset time)) = matchTime (bytes text)) ∧
      (59 < t.second →
        encodeTime offset (time - (t.second - 59)) = asciiText (timeText { t with second := 59 })) := by
  obtain ⟨u, hu, hin, rfl⟩ := (parseTime_eq_ok _ _ _).mp h
  obtain rfl : u = t := Option.some.inj (hu.symm.trans ht)
  have hcal := inRange_onCalendar_iff u hin
  refine ⟨?_, ?_, ?_⟩
  · rw [encodeTime_mktime_iff offset u hin, hcal]
    exact and_iff_right hday
  · intro hsecond
    rw [bytes_encodeTime, localtime_mktime offset u (hcal.mpr ⟨hday, hsecond⟩), hu]
    exact matchTime_timeText u (matchTime_short _ u hu)
  · intro hsecond
    have hcal : OnCalendar { u with second := 59 } := ⟨hin.month.1, ⟨hin.day.1, hday⟩, hin.hour, hin.minute, le_rfl⟩
    have hback : mktime offset u - (u.second - 59) = mktime offset { u with second := 59 } := by
      rw [mktime_eq offset u hin.month.1 hin.month.2,
        mktime_eq offset { u with second := 59 } hin.month.1 hin.month.2]
      push_cast
      ring
    rw [hback]
    exact (encodeTime_mktime_iff offset _ (onCalendar_inRange _ hcal)).mpr hcal

theorem second_sixty_shown :
    parseTime (mktime 28800) "2016-12-31 23:59:60" = .ok 1483200000 ∧
      encodeTime 28800 1483199999 = asciiText (timeText ⟨2016, 12, 31, 23, 59, 59⟩) := by
  have h : parseTime (mktime 28800) "2016-12-31 23:59:60" = .ok 1483200000 := by decide
  have ht : matchTime (bytes "2016-12-31 23:59:60") = some ⟨2016, 12, 31, 23, 59, 60⟩ := by decide
  exact ⟨h, (parseTime_shown 28800 _ _ _ h ht (by decide)).2.2 (by decide)⟩

theorem shifted_times :
    (parseTime (mktime 28800) "2016-12-31 23:59:60" = .ok 1483200000 ∧
      encodeTime 28800 1483200000 = "2017-01-01 00:00:00") ∧
    parseTime (mktime 28800) "2016-02-30 08:00:00" = .ok 1456790400 ∧
      encodeTime 28800 1456790400 = "2016-03-01 08:00:00" := by
  decide

end BitPark.PassTime
