import Onebox.Python.Digits

/-!
# Dates and times with an offset

`datetime` as its fields, `datetime.isoformat` and `datetime.fromisoformat`. An aware `datetime` is
what its clock shows together with its offset from UTC, in microseconds; the moment it stands for is
what two of them are compared by.

Reading follows the library's own text, with the digits of ASCII alone. What has been written is
read back.
-/

namespace Python

/-! ## The calendar -/

/-- `_is_leap`. -/
def isLeap (year : ℕ) : Bool := year % 4 = 0 && (year % 100 ≠ 0 || year % 400 = 0)

/-- `_days_before_year`. -/
def daysBeforeYear (year : ℕ) : ℕ :=
  (year - 1) * 365 + (year - 1) / 4 - (year - 1) / 100 + (year - 1) / 400

/-- `_DAYS_IN_MONTH`, from January on. -/
def monthDays : List ℕ := [31, 28, 31, 30, 31, 30, 31, 31, 30, 31, 30, 31]

/-- `_days_in_month`. -/
def daysInMonth (year month : ℕ) : ℕ :=
  if month = 2 ∧ isLeap year then 29 else monthDays.getD (month - 1) 0

/-- `_days_before_month`. -/
def daysBeforeMonth (year month : ℕ) : ℕ :=
  (monthDays.take (month - 1)).sum + if 2 < month ∧ isLeap year then 1 else 0

/-- `_ymd2ord`. -/
def ymd2ord (year month day : ℕ) : ℕ := daysBeforeYear year + daysBeforeMonth year month + day

/-- `_ord2ymd`. -/
def ord2ymd (ordinal : ℕ) : ℕ × ℕ × ℕ :=
  let n := ordinal - 1
  let n400 := n / 146097
  let n := n % 146097
  let n100 := n / 36524
  let n := n % 36524
  let n4 := n / 1461
  let n := n % 1461
  let n1 := n / 365
  let n := n % 365
  let year := n400 * 400 + 1 + n100 * 100 + n4 * 4 + n1
  if n1 = 4 ∨ n100 = 4 then (year - 1, 12, 31)
  else
    -- The estimate of the month is right or one too large.
    let month := (n + 50) / 32
    let month := if n < daysBeforeMonth year month then month - 1 else month
    (year, month, n - daysBeforeMonth year month + 1)

/-- `_isoweek1monday`. -/
def isoweek1monday (year : ℕ) : ℕ :=
  let firstday := ymd2ord year 1 1
  let firstweekday := (firstday + 6) % 7
  if 3 < firstweekday then firstday - firstweekday + 7 else firstday - firstweekday

/-- `_isoweek_to_gregorian`; `none` is the `ValueError`. -/
def isoweekToGregorian (year week day : ℕ) : Option (ℕ × ℕ × ℕ) :=
  let firstWeekday := ymd2ord year 1 1 % 7
  let long := firstWeekday = 4 ∨ (firstWeekday = 3 ∧ isLeap year)
  if ¬(1 ≤ year ∧ year ≤ 9999) then none
  else if ¬(0 < week ∧ (week < 53 ∨ (week = 53 ∧ long))) then none
  else if ¬(0 < day ∧ day < 8) then none
  else some (ord2ymd (isoweek1monday year + ((week - 1) * 7 + (day - 1))))

/-! ## Dates and times -/

/-- What a clock shows: a `datetime` without its timezone. -/
structure DateTime where
  year : ℕ
  month : ℕ
  day : ℕ
  hour : ℕ
  minute : ℕ
  second : ℕ
  microsecond : ℕ
  date_valid : (1 ≤ year ∧ year ≤ 9999) ∧ (1 ≤ month ∧ month ≤ 12) ∧
    1 ≤ day ∧ day ≤ daysInMonth year month
  time_valid : hour < 24 ∧ minute < 60 ∧ second < 60 ∧ microsecond < 1000000
  deriving DecidableEq

/-- The microseconds of a day. -/
def dayMicroseconds : ℤ := 86400000000

/-- What a `timezone` adds to UTC, in microseconds: less than a day. -/
abbrev Offset := {offset : ℤ // -dayMicroseconds < offset ∧ offset < dayMicroseconds}

/-- `timezone.utc`. -/
def Offset.utc : Offset := ⟨0, by decide⟩

/-- An aware `datetime`. -/
structure AwareDateTime where
  shown : DateTime
  offset : Offset
  deriving DecidableEq

/-- The microseconds from the beginning of the calendar on. -/
def DateTime.microseconds (t : DateTime) : ℤ :=
  (((ymd2ord t.year t.month t.day * 24 + t.hour) * 60 + t.minute) * 60 + t.second) * 1000000 +
    t.microsecond

/-- The moment that an aware `datetime` stands for. -/
def AwareDateTime.moment (t : AwareDateTime) : ℤ := t.shown.microseconds - t.offset.1

/-! ## Writing -/

/-- `.%06d`, where there is something to show. -/
def formatFraction (microsecond : ℕ) : List Char :=
  if microsecond = 0 then [] else '.' :: padDigits 10 6 microsecond

/-- `_format_offset`. -/
def formatOffset (offset : ℤ) : List Char :=
  let n := offset.natAbs
  (if offset < 0 then '-' else '+') :: (padDigits 10 2 (n / 3600000000) ++
    ':' :: (padDigits 10 2 (n / 60000000 % 60) ++
      if n % 60000000 = 0 then []
      else ':' :: (padDigits 10 2 (n / 1000000 % 60) ++ formatFraction (n % 1000000))))

/-- `datetime.isoformat()` before the offset. -/
def DateTime.isoformat (t : DateTime) : List Char :=
  padDigits 10 4 t.year ++ '-' :: (padDigits 10 2 t.month ++ '-' :: (padDigits 10 2 t.day ++
    'T' :: (padDigits 10 2 t.hour ++ ':' :: (padDigits 10 2 t.minute ++
      ':' :: (padDigits 10 2 t.second ++ formatFraction t.microsecond)))))

/-- `datetime.isoformat()`. -/
def AwareDateTime.isoformat (t : AwareDateTime) : List Char :=
  t.shown.isoformat ++ formatOffset t.offset.1

/-! ## Reading -/

/-- `int(text[pos:pos + n])`, and what follows. -/
def takeNumber (n : ℕ) (cs : List Char) : Option (ℕ × List Char) :=
  if cs.length < n then none
  else (readDigits 10 (cs.take n)).map fun number ↦ (number, cs.drop n)

/-- `_find_isoformat_datetime_separator`; `none` is the `ValueError`. -/
def findSeparator (cs : List Char) : Option ℕ :=
  if cs.length = 7 then some 7
  else if cs[4]? = some '-' then
    if cs[5]? = some 'W' then
      if 8 < cs.length ∧ cs[8]? = some '-' then
        if cs.length = 9 then none
        else if 10 < cs.length ∧ cs[10]?.any Char.isDigit then some 8
        else some 10
      else some 8
    else some 10
  else if cs[4]? = some 'W' then
    let idx := 7 + ((cs.drop 7).takeWhile Char.isDigit).length
    if idx < 9 then some idx else if idx % 2 = 0 then some 7 else some 8
  else some 8

/-- The day in a week, which may be left out. -/
def parseWeekday (hasSep : Bool) (cs : List Char) : Option ℕ :=
  match cs with
  | [] => some 1
  | c :: rest =>
    if (c = '-') ≠ hasSep then none
    else (takeNumber 1 (if hasSep then rest else cs)).map Prod.fst

/-- `_parse_isoformat_date`; `none` is the `ValueError`. -/
def parseIsoformatDate (cs : List Char) : Option (ℕ × ℕ × ℕ) :=
  match takeNumber 4 cs with
  | none => none
  | some (year, rest) =>
    let hasSep : Bool := rest.head? = some '-'
    let rest := if hasSep then rest.tail else rest
    if rest.head? = some 'W' then
      match takeNumber 2 rest.tail with
      | none => none
      | some (week, rest) => (parseWeekday hasSep rest).bind (isoweekToGregorian year week)
    else
      match takeNumber 2 rest with
      | none => none
      | some (month, rest) =>
        if (rest.head? = some '-') ≠ hasSep then none
        else
          (takeNumber 2 (if hasSep then rest.tail else rest)).map fun found ↦ (year, month, found.1)

/-- The microseconds after the last component. -/
def parseFraction (cs : List Char) : Option ℕ :=
  match cs with
  | [] => some 0
  | c :: rest =>
    if c ≠ '.' ∧ c ≠ ',' then none
    else if (rest.drop 6).all Char.isDigit then
      (readDigits 10 (rest.take 6)).map fun n ↦ n * 10 ^ (6 - (rest.take 6).length)
    else none

/-- `_parse_hh_mm_ss_ff`; `none` is the `ValueError`. -/
def parseHhMmSsFf (cs : List Char) : Option (ℕ × ℕ × ℕ × ℕ) :=
  match takeNumber 2 cs with
  | none => none
  | some (hour, []) => some (hour, 0, 0, 0)
  | some (hour, c :: rest) =>
    match takeNumber 2 (if c = ':' then rest else c :: rest) with
    | none => none
    | some (minute, []) => some (hour, minute, 0, 0)
    | some (minute, d :: rest) =>
      if c = ':' ∧ d ≠ ':' then none
      else
        match takeNumber 2 (if c = ':' then rest else d :: rest) with
        | none => none
        | some (second, rest) =>
          (parseFraction rest).map fun microsecond ↦ (hour, minute, second, microsecond)

/-- The time and, from its mark on, the offset. -/
def splitOffset (cs : List Char) : List Char × List Char :=
  let mark := if '-' ∈ cs then '-' else if '+' ∈ cs then '+' else 'Z'
  (cs.takeWhile (· ≠ mark), cs.dropWhile (· ≠ mark))

/-- The offset, from its mark on; the outer `none` is the `ValueError`. -/
def parseOffset (cs : List Char) : Option (Option Offset) :=
  match cs with
  | [] => some none
  | ['Z'] => some (some Offset.utc)
  | mark :: rest =>
    if rest.length = 0 ∨ rest.length = 1 ∨ rest.length = 3 then none
    else
      match parseHhMmSsFf rest with
      | none => none
      | some (hours, minutes, seconds, microseconds) =>
        let delta : ℤ := ((hours * 60 + minutes) * 60 + seconds) * 1000000 + microseconds
        let offset := if mark = '-' then -delta else delta
        if h : -dayMicroseconds < offset ∧ offset < dayMicroseconds then some (some ⟨offset, h⟩)
        else none

/-- `datetime(*components)`; `none` is the `ValueError`. -/
def DateTime.ofComponents (date : ℕ × ℕ × ℕ) (time : ℕ × ℕ × ℕ × ℕ) : Option DateTime :=
  if h : ((1 ≤ date.1 ∧ date.1 ≤ 9999) ∧ (1 ≤ date.2.1 ∧ date.2.1 ≤ 12) ∧
      1 ≤ date.2.2 ∧ date.2.2 ≤ daysInMonth date.1 date.2.1) ∧
      time.1 < 24 ∧ time.2.1 < 60 ∧ time.2.2.1 < 60 ∧ time.2.2.2 < 1000000 then
    some ⟨date.1, date.2.1, date.2.2, time.1, time.2.1, time.2.2.1, time.2.2.2, h.1, h.2⟩
  else none

/-- `datetime.fromisoformat`, with the offset of an aware `datetime`; `none` is the `ValueError`. -/
def fromisoformat (cs : List Char) : Option (DateTime × Option Offset) :=
  if cs.length < 7 then none
  else
    match findSeparator cs with
    | none => none
    | some separator =>
      match parseIsoformatDate (cs.take separator) with
      | none => none
      | some date =>
        if (cs.drop (separator + 1)).isEmpty then
          (DateTime.ofComponents date (0, 0, 0, 0)).map fun shown ↦ (shown, none)
        else
          match parseHhMmSsFf (splitOffset (cs.drop (separator + 1))).1 with
          | none => none
          | some time =>
            match parseOffset (splitOffset (cs.drop (separator + 1))).2 with
            | none => none
            | some offset => (DateTime.ofComponents date time).map fun shown ↦ (shown, offset)

/-! ## Reading what was written -/

section

variable {n width : ℕ} {cs rest : List Char}

theorem takeNumber_padDigits (hwidth : 0 < width) (hn : n < 10 ^ width) (rest : List Char) :
    takeNumber width (padDigits 10 width n ++ rest) = some (n, rest) := by
  have hlength : (padDigits 10 width n).length = width := length_padDigits
  have htake : (padDigits 10 width n ++ rest).take width = padDigits 10 width n :=
    List.take_left' hlength
  have hdrop : (padDigits 10 width n ++ rest).drop width = rest := List.drop_left' hlength
  rw [takeNumber, if_neg (by simp), htake, hdrop, readDigits_padDigits (by decide) hwidth hn]
  rfl

theorem parseFraction_formatFraction (hn : n < 1000000) :
    parseFraction (formatFraction n) = some n := by
  rw [formatFraction]
  by_cases hzero : n = 0
  · rw [if_pos hzero, hzero]
    rfl
  · have hlength : (padDigits 10 6 n).length = 6 := length_padDigits
    have hread : readDigits 10 (padDigits 10 6 n) = some n :=
      readDigits_padDigits (by decide) (by decide) hn
    rw [if_neg hzero]
    change (if '.' ≠ '.' ∧ '.' ≠ ',' then none else _) = _
    rw [if_neg (by decide), List.drop_of_length_le hlength.le, List.take_of_length_le hlength.le,
      hread, hlength]
    simp

theorem parseHhMmSsFf_format {hour minute second microsecond : ℕ} (hhour : hour < 10 ^ 2)
    (hminute : minute < 10 ^ 2) (hsecond : second < 10 ^ 2) (hmicrosecond : microsecond < 1000000) :
    parseHhMmSsFf (padDigits 10 2 hour ++ ':' :: (padDigits 10 2 minute ++
      ':' :: (padDigits 10 2 second ++ formatFraction microsecond))) =
        some (hour, minute, second, microsecond) := by
  rw [parseHhMmSsFf, takeNumber_padDigits (by decide) hhour]
  dsimp only
  rw [if_pos rfl, takeNumber_padDigits (by decide) hminute]
  dsimp only
  rw [if_neg (by decide), if_pos rfl, takeNumber_padDigits (by decide) hsecond]
  dsimp only
  rw [parseFraction_formatFraction hmicrosecond]
  rfl

theorem parseHhMmSsFf_format_minutes {hour minute : ℕ} (hhour : hour < 10 ^ 2)
    (hminute : minute < 10 ^ 2) :
    parseHhMmSsFf (padDigits 10 2 hour ++ ':' :: padDigits 10 2 minute) =
      some (hour, minute, 0, 0) := by
  have hread := takeNumber_padDigits (by decide) hminute []
  rw [List.append_nil] at hread
  rw [parseHhMmSsFf, takeNumber_padDigits (by decide) hhour]
  dsimp only
  rw [if_pos rfl, hread]

/-- The characters of a time: digits and two marks. -/
def isTimeChar (c : Char) : Bool := c.isDigit || c = ':' || c = '.'

theorem isTimeChar_of_mem_padDigits {c : Char} (h : c ∈ padDigits 10 width n) :
    isTimeChar c = true := by
  have hall : ∀ d < 10, isTimeChar (Nat.digitChar d) = true := by decide
  obtain ⟨d, hd, rfl⟩ := exists_of_mem_padDigits (by decide) h
  exact hall d hd

theorem isTimeChar_of_mem_formatFraction {c : Char} (h : c ∈ formatFraction n) :
    isTimeChar c = true := by
  rw [formatFraction] at h
  split at h
  · exact absurd h List.not_mem_nil
  · rcases List.mem_cons.mp h with rfl | h
    · rfl
    · exact isTimeChar_of_mem_padDigits h

theorem ne_of_isTimeChar {c d : Char} (hc : isTimeChar c = true) (hd : isTimeChar d = false) :
    c ≠ d := by
  rintro rfl
  rw [hc] at hd
  cases hd

theorem splitOffset_append {time : List Char} {sign : Char}
    (htime : ∀ c ∈ time, isTimeChar c = true) (hrest : ∀ c ∈ rest, isTimeChar c = true)
    (hsign : sign = '-' ∨ sign = '+') :
    splitOffset (time ++ sign :: rest) = (time, sign :: rest) := by
  have hsignChar : isTimeChar sign = false := by
    rcases hsign with rfl | rfl <;> rfl
  have hmark : (if '-' ∈ time ++ sign :: rest then '-'
      else if '+' ∈ time ++ sign :: rest then '+' else 'Z') = sign := by
    rcases hsign with rfl | rfl
    · exact if_pos (List.mem_append_right _ List.mem_cons_self)
    · rw [if_neg, if_pos (List.mem_append_right _ List.mem_cons_self)]
      intro hmem
      rcases List.mem_append.mp hmem with hmem | hmem
      · exact ne_of_isTimeChar (htime _ hmem) rfl rfl
      · rcases List.mem_cons.mp hmem with heq | hmem
        · exact absurd heq (by decide)
        · exact ne_of_isTimeChar (hrest _ hmem) rfl rfl
  have hbefore : ∀ c ∈ time, decide (c ≠ sign) = true := fun c hc ↦
    decide_eq_true (ne_of_isTimeChar (htime c hc) hsignChar)
  rw [splitOffset, hmark, List.takeWhile_append_of_pos hbefore,
    List.dropWhile_append_of_pos hbefore, List.takeWhile_cons_of_neg (by simp),
    List.dropWhile_cons_of_neg (by simp), List.append_nil]

/-- What follows the sign of an offset. -/
def formatOffsetAbs (n : ℕ) : List Char :=
  padDigits 10 2 (n / 3600000000) ++ ':' :: (padDigits 10 2 (n / 60000000 % 60) ++
    if n % 60000000 = 0 then []
    else ':' :: (padDigits 10 2 (n / 1000000 % 60) ++ formatFraction (n % 1000000)))

theorem formatOffset_eq (offset : ℤ) :
    formatOffset offset = (if offset < 0 then '-' else '+') :: formatOffsetAbs offset.natAbs := rfl

theorem isTimeChar_of_mem_formatOffsetAbs {c : Char} (h : c ∈ formatOffsetAbs n) :
    isTimeChar c = true := by
  rw [formatOffsetAbs] at h
  rcases List.mem_append.mp h with h | h
  · exact isTimeChar_of_mem_padDigits h
  rcases List.mem_cons.mp h with rfl | h
  · rfl
  rcases List.mem_append.mp h with h | h
  · exact isTimeChar_of_mem_padDigits h
  split at h
  · exact absurd h List.not_mem_nil
  rcases List.mem_cons.mp h with rfl | h
  · rfl
  rcases List.mem_append.mp h with h | h
  · exact isTimeChar_of_mem_padDigits h
  · exact isTimeChar_of_mem_formatFraction h

/-- The length of an offset is not one that is refused. -/
theorem length_formatOffsetAbs (n : ℕ) : 5 ≤ (formatOffsetAbs n).length := by
  rw [formatOffsetAbs]
  simp only [List.length_append, List.length_cons, length_padDigits]
  omega

/-- The components of an offset add up to it. -/
theorem parseHhMmSsFf_formatOffsetAbs (hn : n < 86400000000) :
    ∃ hours minutes seconds microseconds,
      parseHhMmSsFf (formatOffsetAbs n) = some (hours, minutes, seconds, microseconds) ∧
        ((hours * 60 + minutes) * 60 + seconds) * 1000000 + microseconds = n := by
  rw [formatOffsetAbs]
  by_cases hminutes : n % 60000000 = 0
  · refine ⟨n / 3600000000, n / 60000000 % 60, 0, 0, ?_, by omega⟩
    rw [if_pos hminutes, List.append_nil]
    exact parseHhMmSsFf_format_minutes (by omega) (by omega)
  · refine ⟨n / 3600000000, n / 60000000 % 60, n / 1000000 % 60, n % 1000000, ?_, by omega⟩
    rw [if_neg hminutes]
    exact parseHhMmSsFf_format (by omega) (by omega) (by omega) (by omega)

theorem parseOffset_formatOffset (offset : Offset) :
    parseOffset (formatOffset offset.1) = some (some offset) := by
  obtain ⟨value, hlow, hhigh⟩ := offset
  rw [dayMicroseconds] at hlow hhigh
  obtain ⟨hours, minutes, seconds, microseconds, hparse, hsum⟩ :=
    parseHhMmSsFf_formatOffsetAbs (n := value.natAbs) (by omega)
  have hlength := length_formatOffsetAbs value.natAbs
  have hrefused : ¬((formatOffsetAbs value.natAbs).length = 0 ∨
      (formatOffsetAbs value.natAbs).length = 1 ∨ (formatOffsetAbs value.natAbs).length = 3) := by
    omega
  have hvalue : (if (if value < 0 then '-' else '+') = '-' then
      -(((hours * 60 + minutes) * 60 + seconds) * 1000000 + microseconds : ℤ)
      else ((hours * 60 + minutes) * 60 + seconds) * 1000000 + microseconds) = value := by
    by_cases hneg : value < 0
    · rw [if_pos hneg, if_pos rfl]
      omega
    · rw [if_neg hneg, if_neg (by decide)]
      omega
  rw [formatOffset_eq, parseOffset]
  · rw [if_neg hrefused, hparse]
    dsimp only
    rw [dif_pos]
    · exact congrArg (fun o ↦ some (some o)) (Subtype.ext hvalue)
    · rw [hvalue]
      exact ⟨hlow, hhigh⟩
  · intro hZ hnil
    rw [hnil] at hlength
    cases hlength

namespace DateTime

variable (t : DateTime)

/-- What follows the date. -/
def timeText : List Char :=
  padDigits 10 2 t.hour ++ ':' :: (padDigits 10 2 t.minute ++
    ':' :: (padDigits 10 2 t.second ++ formatFraction t.microsecond))

/-- The date. -/
def dateText : List Char :=
  padDigits 10 4 t.year ++ '-' :: (padDigits 10 2 t.month ++ '-' :: padDigits 10 2 t.day)

theorem isoformat_eq : t.isoformat = t.dateText ++ 'T' :: t.timeText := by
  simp [isoformat, dateText, timeText]

theorem length_dateText : t.dateText.length = 10 := by simp [dateText]

theorem isTimeChar_of_mem_timeText : ∀ c ∈ t.timeText, isTimeChar c = true := by
  intro c h
  rw [timeText] at h
  rcases List.mem_append.mp h with h | h
  · exact isTimeChar_of_mem_padDigits h
  rcases List.mem_cons.mp h with rfl | h
  · rfl
  rcases List.mem_append.mp h with h | h
  · exact isTimeChar_of_mem_padDigits h
  rcases List.mem_cons.mp h with rfl | h
  · rfl
  rcases List.mem_append.mp h with h | h
  · exact isTimeChar_of_mem_padDigits h
  · exact isTimeChar_of_mem_formatFraction h

theorem day_le : t.day ≤ 31 := by
  have hmonths : ∀ days ∈ monthDays, days ≤ 31 := by decide
  have hmonth : daysInMonth t.year t.month ≤ 31 := by
    rw [daysInMonth]
    split
    · omega
    · rw [List.getD_eq_getElem?_getD]
      cases hget : monthDays[t.month - 1]? with
      | none => exact Nat.zero_le 31
      | some days => exact hmonths days (List.mem_of_getElem? hget)
  exact t.date_valid.2.2.2.trans hmonth

theorem parseIsoformatDate_dateText :
    parseIsoformatDate t.dateText = some (t.year, t.month, t.day) := by
  obtain ⟨⟨⟨-, hyear⟩, ⟨-, hmonth⟩, -⟩, hday⟩ := And.intro t.date_valid t.day_le
  have hW : (padDigits 10 2 t.month ++ '-' :: padDigits 10 2 t.day).head? ≠ some 'W' := by
    intro h
    have hmem : 'W' ∈ padDigits 10 2 t.month := by
      rw [List.head?_append_of_ne_nil _ (by simp [padDigits])] at h
      exact List.mem_of_mem_head? h
    exact ne_of_isTimeChar (isTimeChar_of_mem_padDigits hmem) (by decide) rfl
  have hread : takeNumber 2 (padDigits 10 2 t.day ++ []) = some (t.day, []) :=
    takeNumber_padDigits (by decide) (by omega) []
  rw [List.append_nil] at hread
  rw [parseIsoformatDate, dateText, takeNumber_padDigits (by decide) (by omega)]
  dsimp only
  rw [List.head?_cons, decide_eq_true rfl, if_pos rfl, List.tail_cons, if_neg hW,
    takeNumber_padDigits (by decide) (by omega)]
  dsimp only
  rw [List.head?_cons, if_neg (by simp), if_pos rfl, List.tail_cons, hread]
  rfl

theorem findSeparator_dateText (rest : List Char) :
    findSeparator (t.dateText ++ 'T' :: rest) = some 10 := by
  have hlength : (t.dateText ++ 'T' :: rest).length ≠ 7 := by
    rw [List.length_append, t.length_dateText]
    omega
  have hfour : (t.dateText ++ 'T' :: rest)[4]? = some '-' := rfl
  have hfive : (t.dateText ++ 'T' :: rest)[5]? ≠ some 'W' := by
    intro h
    have hmem : 'W' ∈ padDigits 10 2 t.month := List.mem_of_mem_head? h
    exact ne_of_isTimeChar (isTimeChar_of_mem_padDigits hmem) (by decide) rfl
  rw [findSeparator, if_neg hlength, if_pos hfour, if_neg hfive]

end DateTime

/-- **An aware datetime is read back from its text.** -/
theorem fromisoformat_isoformat (t : AwareDateTime) :
    fromisoformat t.isoformat = some (t.shown, some t.offset) := by
  obtain ⟨shown, offset⟩ := t
  have htext : AwareDateTime.isoformat ⟨shown, offset⟩ =
      shown.dateText ++ 'T' :: (shown.timeText ++ formatOffset offset.1) := by
    rw [AwareDateTime.isoformat, DateTime.isoformat_eq, List.append_assoc, List.cons_append]
  have hdate : (shown.dateText ++ 'T' :: (shown.timeText ++ formatOffset offset.1)).take 10 =
      shown.dateText := List.take_left' shown.length_dateText
  have hrest : (shown.dateText ++ 'T' :: (shown.timeText ++ formatOffset offset.1)).drop (10 + 1) =
      shown.timeText ++ formatOffset offset.1 := by
    rw [List.drop_append, shown.length_dateText, List.drop_of_length_le (by
      rw [shown.length_dateText]; omega)]
    rfl
  have hne : (shown.timeText ++ formatOffset offset.1).isEmpty = false := by
    rw [formatOffset_eq, List.isEmpty_eq_false_iff]
    simp
  have hsign : (if offset.1 < 0 then '-' else '+') = '-' ∨
      (if offset.1 < 0 then '-' else '+') = '+' := by
    split
    · exact Or.inl rfl
    · exact Or.inr rfl
  have hsplit : splitOffset (shown.timeText ++ formatOffset offset.1) =
      (shown.timeText, formatOffset offset.1) :=
    splitOffset_append shown.isTimeChar_of_mem_timeText
      (fun c hc ↦ isTimeChar_of_mem_formatOffsetAbs hc) hsign
  obtain ⟨hhour, hminute, hsecond, hmicrosecond⟩ := shown.time_valid
  have htime : parseHhMmSsFf shown.timeText =
      some (shown.hour, shown.minute, shown.second, shown.microsecond) :=
    parseHhMmSsFf_format (by omega) (by omega) (by omega) hmicrosecond
  have hlength :
      ¬(shown.dateText ++ 'T' :: (shown.timeText ++ formatOffset offset.1)).length < 7 := by
    rw [List.length_append, shown.length_dateText]
    omega
  -- The text falls into date, separator, time and offset; each part is read back by itself.
  rw [htext, fromisoformat, if_neg hlength, shown.findSeparator_dateText]
  dsimp only
  rw [hdate, shown.parseIsoformatDate_dateText]
  dsimp only
  rw [hrest, hne, if_neg Bool.false_ne_true, hsplit, htime]
  dsimp only
  rw [parseOffset_formatOffset]
  dsimp only
  rw [DateTime.ofComponents, dif_pos ⟨shown.date_valid, shown.time_valid⟩]
  rfl

end

end Python
