import DblService.Framework.Calendar
import DblService.HttpResponder
import DblService.Updater

/-!
# Dates

`Response::get_last_modified` reads the calendar fields of `Last-Modified` with `strptime` and
takes them for local time.
-/

namespace DblService

open Framework

/-- The fields of `struct tm` that are used: months from 0, years from 1900.  `tm_isdst` is left
out: `mktime` is taken to read the fields without daylight saving. -/
structure Tm where
  sec : Nat
  min : Nat
  hour : Nat
  mday : Nat
  mon : Nat
  year : Int
  wday : Nat
  deriving DecidableEq, Repr

namespace Tm

/-- The seconds since the epoch, when the fields are those of a clock at UTC. -/
def timegm (t : Tm) : Int :=
  let days := daysBefore (t.year + 1900) - daysBefore 1970 +
    periodStart (monthDays (t.year + 1900).toNat) t.mon + t.mday - 1
  ((days * 24 + t.hour) * 60 + t.min) * 60 + t.sec

/-- `mktime` where local time is `offset` seconds ahead of UTC, all the year round. -/
def mktime (offset : Int) (t : Tm) : Int := t.timegm - offset

def gmtime (seconds : Nat) : Tm :=
  let (year, mon, day) := civil 1970 (seconds / 86400)
  { sec := seconds % 60
    min := seconds / 60 % 60
    hour := seconds / 3600 % 24
    mday := day + 1
    mon := mon
    year := year - 1900
    wday := (seconds / 86400 + 4) % 7 }

private theorem timegm_gmtime (seconds : Nat) : (gmtime seconds).timegm = seconds := by
  have hcivil := isCivil 1970 (seconds / 86400)
  simp only [timegm, gmtime]
  revert hcivil
  generalize civil 1970 (seconds / 86400) = date
  obtain ⟨year, mon, day⟩ := date
  intro hcivil
  have hdays := hcivil.days_eq
  have hyear := periodStart_yearDays year
  have hepoch : (periodStart yearDays 1970 : Int) = daysBefore 1970 + 1 :=
    periodStart_yearDays 1970
  simp only [Int.sub_add_cancel, Int.toNat_natCast] at hdays ⊢
  omega

end Tm

/-! ## Formats -/

/-- The conversions of the formats that are used. -/
inductive Directive
  | literal (c : Char)
  | blank
  | weekday
  | day
  | month
  | year
  | hour
  | minute
  | second
  deriving DecidableEq, Repr

namespace Directive

def conversion : Char → Directive
  | 'a' => weekday
  | 'd' => day
  | 'b' => month
  | 'Y' => year
  | 'H' => hour
  | 'M' => minute
  | 'S' => second
  | c => literal c

def ofFormat : List Char → List Directive
  | '%' :: c :: rest => conversion c :: ofFormat rest
  | ' ' :: rest => blank :: ofFormat rest
  | c :: rest => literal c :: ofFormat rest
  | [] => []

def weekdays : List (List Char) :=
  ["Sunday", "Monday", "Tuesday", "Wednesday", "Thursday", "Friday", "Saturday"].map String.toList

def months : List (List Char) :=
  ["January", "February", "March", "April", "May", "June", "July", "August", "September",
    "October", "November", "December"].map String.toList

/-- The names of the C locale are abbreviated to three letters. -/
def abbreviated (names : List (List Char)) (k : Nat) : List Char := (names.getD k []).take 3

def twoDigits (n : Nat) : List Char := [Nat.digitChar (n / 10), Nat.digitChar (n % 10)]

def write (t : Tm) : Directive → List Char
  | literal c => [c]
  | blank => [' ']
  | weekday => abbreviated weekdays t.wday
  | day => twoDigits t.mday
  | month => abbreviated months t.mon
  | year => Nat.toDigits 10 (t.year + 1900).toNat
  | hour => twoDigits t.hour
  | minute => twoDigits t.min
  | second => twoDigits t.sec

/-- The name at the front of a text, whatever the case of its letters. -/
def matchString (name text : List Char) : Option (List Char) :=
  if (name.map Char.toLower).isPrefixOf (text.map Char.toLower) then some (text.drop name.length)
  else none

/-- Which of the names stands at the front, in full or abbreviated. -/
def readName (names : List (List Char)) (text : List Char) : Option (Nat × List Char) :=
  names.zipIdx.findSome? fun name =>
    ((matchString name.1 text).or (matchString (name.1.take 3) text)).map fun rest =>
      (name.2, rest)

def readDigits (hi : Nat) : Nat → Nat → List Char → Nat × List Char
  | room + 1, val, c :: rest =>
    if val * 10 ≤ hi ∧ c.isDigit = true then readDigits hi room (val * 10 + (c.toNat - 48)) rest
    else (val, c :: rest)
  | _, val, rest => (val, rest)

def getNumber (lo hi n : Nat) (text : List Char) : Option (Nat × List Char) :=
  match text.dropWhile (· = ' ') with
  | c :: rest =>
    if c.isDigit = true then
      let (val, rest) := readDigits hi (n - 1) (c.toNat - 48) rest
      if lo ≤ val ∧ val ≤ hi then some (val, rest) else none
    else none
  | [] => none

/-- The field that a conversion reads, and the text after it. -/
def read (t : Tm) (text : List Char) : Directive → Option (Tm × List Char)
  | literal c =>
    match text with
    | x :: rest => if x = c then some (t, rest) else none
    | [] => none
  | blank => some (t, text.dropWhile Http.isSpace)
  | weekday => (readName weekdays text).map fun r => ({ t with wday := r.1 }, r.2)
  | day => (getNumber 1 31 2 text).map fun r => ({ t with mday := r.1 }, r.2)
  | month => (readName months text).map fun r => ({ t with mon := r.1 }, r.2)
  | year => (getNumber 0 9999 4 text).map fun r => ({ t with year := (r.1 : Int) - 1900 }, r.2)
  | hour => (getNumber 0 23 2 text).map fun r => ({ t with hour := r.1 }, r.2)
  | minute => (getNumber 0 59 2 text).map fun r => ({ t with min := r.1 }, r.2)
  | second => (getNumber 0 61 2 text).map fun r => ({ t with sec := r.1 }, r.2)

end Directive

def strftime (format : List Directive) (t : Tm) : List Char := format.flatMap (Directive.write t)

/-- `strptime`, from the fields that are in `t` before; the text that is left over is ignored. -/
def strptime : List Directive → List Char → Tm → Option Tm
  | [], _, t => some t
  | d :: format, text, t => (d.read t text).bind fun r => strptime format r.2 r.1

def lastModifiedFormat : List Directive :=
  Directive.ofFormat "%a, %d %b %Y %H:%M:%S".toList

/-- The instant that `get_last_modified` finds in a date, in a zone `offset` seconds ahead of
UTC; `t` is what the variable holds before. -/
def parseLastModified (t : Tm) (offset : Int) (value : String) : Option Int :=
  (strptime lastModifiedFormat value.toList t).map (Tm.mktime offset)

def Env.inZone (env : Env) (t : Tm) (offset : Int) : Env :=
  { env with parseDate := parseLastModified t offset }

def httpDate (seconds : Nat) : String :=
  String.ofList
    (strftime (Directive.ofFormat "%a, %d %b %Y %H:%M:%S GMT".toList) (Tm.gmtime seconds))

/-! ## What is written is read back -/

namespace Directive

private theorem isDigit_digitChar {n : Nat} (h : n < 10) : (Nat.digitChar n).isDigit = true := by
  interval_cases n <;> rfl

private theorem isSpace_of_isDigit {c : Char} (h : c.isDigit = true) : Http.isSpace c = false := by
  rw [Char.isDigit, Bool.and_eq_true, decide_eq_true_eq, decide_eq_true_eq] at h
  have hlo : 48 ≤ c.toNat := UInt32.le_iff_toNat_le.1 h.1
  exact Http.isSpace_of_lt (by omega)

private theorem dropWhile_of_isDigit {c : Char} (h : c.isDigit = true) (rest : List Char) :
    (c :: rest).dropWhile (· = ' ') = c :: rest := by
  have hblank : ¬ decide (c = ' ') = true := by
    rw [decide_eq_true_eq]
    rintro rfl
    exact absurd h (by decide)
  exact List.dropWhile_cons_of_neg hblank

private theorem getNumber_cons {c : Char} (h : c.isDigit = true) (lo hi n : Nat)
    (rest : List Char) :
    getNumber lo hi n (c :: rest) =
      if lo ≤ (readDigits hi (n - 1) (c.toNat - 48) rest).1 ∧
          (readDigits hi (n - 1) (c.toNat - 48) rest).1 ≤ hi then
        some (readDigits hi (n - 1) (c.toNat - 48) rest) else none := by
  rw [getNumber, dropWhile_of_isDigit h]
  simp only [h, if_true]

private theorem readDigits_digitChar {hi val n : Nat} (hval : val * 10 ≤ hi) (h : n < 10)
    (room : Nat) (rest : List Char) :
    readDigits hi (room + 1) val (Nat.digitChar n :: rest) =
      readDigits hi room (val * 10 + n) rest := by
  rw [readDigits, if_pos ⟨hval, isDigit_digitChar h⟩, Nat.toNat_digitChar_sub_48_of_lt_ten h]

private theorem readDigits_zero (hi val : Nat) (rest : List Char) :
    readDigits hi 0 val rest = (val, rest) := by
  cases rest <;> rfl

private theorem getNumber_twoDigits {lo hi n : Nat} (hlo : lo ≤ n) (hhi : n ≤ hi) (h : n < 100)
    (rest : List Char) : getNumber lo hi 2 (twoDigits n ++ rest) = some (n, rest) := by
  have htens : n / 10 < 10 := by omega
  have hnumber : n / 10 * 10 + n % 10 = n := by omega
  have hread : readDigits hi 1 (n / 10) (Nat.digitChar (n % 10) :: rest) = (n, rest) := by
    rw [readDigits_digitChar (by omega) (by omega), readDigits_zero, hnumber]
  rw [twoDigits, List.cons_append, getNumber_cons (isDigit_digitChar htens),
    Nat.toNat_digitChar_sub_48_of_lt_ten htens]
  change (if lo ≤ (readDigits hi 1 (n / 10) (Nat.digitChar (n % 10) :: rest)).1 ∧
    (readDigits hi 1 (n / 10) (Nat.digitChar (n % 10) :: rest)).1 ≤ hi then _ else _) = _
  rw [hread, if_pos ⟨hlo, hhi⟩]
  exact congrArg some hread

private theorem readName_weekdays {k : Nat} (h : k < 7) (rest : List Char) :
    readName weekdays (abbreviated weekdays k ++ ',' :: rest) = some (k, ',' :: rest) := by
  interval_cases k <;> rfl

private theorem readName_months {k : Nat} (h : k < 12) (rest : List Char) :
    readName months (abbreviated months k ++ ' ' :: rest) = some (k, ' ' :: rest) := by
  interval_cases k <;> rfl

private theorem getNumber_year {n : Nat} (hlo : 1000 ≤ n) (hhi : n < 10000) (rest : List Char) :
    getNumber 0 9999 4 (Nat.toDigits 10 n ++ rest) = some (n, rest) := by
  have hdigits : Nat.toDigits 10 n = [Nat.digitChar (n / 1000), Nat.digitChar (n / 100 % 10),
      Nat.digitChar (n / 10 % 10), Nat.digitChar (n % 10)] := by
    have hten : n / 10 / 10 = n / 100 := by omega
    have hhundred : n / 100 / 10 = n / 1000 := by omega
    rw [Nat.toDigits_of_base_le (by decide) (by omega : 10 ≤ n),
      Nat.toDigits_of_base_le (by decide) (by omega : 10 ≤ n / 10), hten,
      Nat.toDigits_of_base_le (by decide) (by omega : 10 ≤ n / 100), hhundred,
      Nat.toDigits_of_lt_base (by omega : n / 1000 < 10)]
    rfl
  have hthousands : n / 1000 < 10 := by omega
  have hnumber : ((n / 1000 * 10 + n / 100 % 10) * 10 + n / 10 % 10) * 10 + n % 10 = n := by omega
  have hread : readDigits 9999 3 (n / 1000) (Nat.digitChar (n / 100 % 10) ::
      Nat.digitChar (n / 10 % 10) :: Nat.digitChar (n % 10) :: rest) = (n, rest) := by
    rw [readDigits_digitChar (by omega) (by omega), readDigits_digitChar (by omega) (by omega),
      readDigits_digitChar (by omega) (by omega), readDigits_zero, hnumber]
  rw [hdigits]
  simp only [List.cons_append, List.nil_append]
  rw [getNumber_cons (isDigit_digitChar hthousands),
    Nat.toNat_digitChar_sub_48_of_lt_ten hthousands]
  simp only [Nat.add_one_sub_one, hread]
  exact if_pos ⟨Nat.zero_le n, by omega⟩

private theorem getNumber_four {a b c d : Char} (h : ∀ x ∈ [a, b, c, d], x.isDigit = true)
    (rest : List Char) :
    ∃ n, getNumber 0 9999 4 (a :: b :: c :: d :: rest) = some (n, rest) := by
  have hdigit {x : Char} (hx : x ∈ [a, b, c, d]) : x.isDigit = true ∧ x.toNat - 48 ≤ 9 := by
    have hchar := h x hx
    refine ⟨hchar, ?_⟩
    rw [Char.isDigit, Bool.and_eq_true, decide_eq_true_eq, decide_eq_true_eq] at hchar
    have hhi : x.toNat ≤ 57 := UInt32.le_iff_toNat_le.1 hchar.2
    omega
  obtain ⟨ha, ha'⟩ := hdigit (x := a) (by simp)
  obtain ⟨hb, hb'⟩ := hdigit (x := b) (by simp)
  obtain ⟨hc, hc'⟩ := hdigit (x := c) (by simp)
  obtain ⟨hd, hd'⟩ := hdigit (x := d) (by simp)
  have hread : readDigits 9999 3 (a.toNat - 48) (b :: c :: d :: rest) =
      ((((a.toNat - 48) * 10 + (b.toNat - 48)) * 10 + (c.toNat - 48)) * 10 + (d.toNat - 48),
        rest) := by
    rw [readDigits, if_pos ⟨by omega, hb⟩, readDigits, if_pos ⟨by omega, hc⟩, readDigits,
      if_pos ⟨by omega, hd⟩, readDigits_zero]
  rw [getNumber_cons ha]
  simp only [Nat.add_one_sub_one, hread]
  exact ⟨_, if_pos ⟨Nat.zero_le _, by omega⟩⟩

private theorem getNumber_two {lo hi n : Nat} {c : Char} (hc : c.isDigit = true)
    {text rest : List Char} (h : getNumber lo hi 2 (c :: text) = some (n, rest)) :
    rest = text ∨ ∃ x, x.isDigit = true ∧ text = x :: rest := by
  have hread : (readDigits hi 1 (c.toNat - 48) text).2 = text ∨
      ∃ x, x.isDigit = true ∧ text = x :: (readDigits hi 1 (c.toNat - 48) text).2 := by
    cases text with
    | nil => exact .inl rfl
    | cons x text =>
      rw [readDigits]
      split_ifs with hx
      · rw [readDigits_zero]
        exact .inr ⟨x, hx.2, rfl⟩
      · exact .inl rfl
  rw [getNumber_cons hc] at h
  split_ifs at h with hrange
  rw [Option.some.injEq] at h
  rw [h] at hread
  exact hread

private theorem read_literal (t : Tm) (c : Char) (rest : List Char) :
    (literal c).read t (c :: rest) = some (t, rest) := if_pos rfl

private theorem read_blank (t : Tm) {text : List Char}
    (h : ∀ c ∈ text.head?, Http.isSpace c = false) :
    blank.read t (' ' :: text) = some (t, text) := by
  have hskip : (' ' :: text).dropWhile Http.isSpace = text := by
    rw [List.dropWhile_cons_of_pos (by decide), Http.dropWhile_of_head h]
  rw [read, hskip]

private theorem twoDigits_head {n : Nat} (h : n < 100) (rest : List Char) :
    ∀ c ∈ (twoDigits n ++ rest).head?, Http.isSpace c = false := by
  intro c hc
  have htens : n / 10 < 10 := by omega
  rw [twoDigits, List.cons_append, List.head?_cons, Option.mem_some_iff] at hc
  rw [← hc]
  exact isSpace_of_isDigit (isDigit_digitChar htens)

private theorem toDigits_head (n : Nat) (rest : List Char) :
    ∀ c ∈ (Nat.toDigits 10 n ++ rest).head?, Http.isSpace c = false := by
  intro c hc
  rw [List.head?_append_of_ne_nil _ Nat.toDigits_ne_nil] at hc
  exact isSpace_of_isDigit
    (Nat.isDigit_of_mem_toDigits (by decide) (by decide) (List.mem_of_mem_head? hc))

private theorem months_head {k : Nat} (h : k < 12) (rest : List Char) :
    ∀ c ∈ (abbreviated months k ++ rest).head?, Http.isSpace c = false := by
  intro c hc
  interval_cases k <;> cases hc <;> rfl

end Directive

private theorem strptime_cons {d : Directive} {t t' : Tm} {text rest : List Char}
    (h : d.read t text = some (t', rest)) (format : List Directive) :
    strptime (d :: format) text t = strptime format rest t' := by
  rw [strptime, h]
  rfl

/-- The ranges of the fields that `gmtime` fills. -/
structure Tm.InRange (t : Tm) : Prop where
  sec : t.sec < 60
  min : t.min < 60
  hour : t.hour < 24
  mday_pos : 1 ≤ t.mday
  mday_le : t.mday ≤ 31
  mon : t.mon < 12
  wday : t.wday < 7

private theorem Tm.inRange_gmtime (seconds : Nat) : (gmtime seconds).InRange := by
  have hcivil := isCivil 1970 (seconds / 86400)
  have hday := hcivil.day_lt.trans_le (monthDays_le _ _)
  constructor
  · exact Nat.mod_lt _ (by decide)
  · exact Nat.mod_lt _ (by decide)
  · exact Nat.mod_lt _ (by decide)
  · exact Nat.succ_le_succ (Nat.zero_le _)
  · exact hday
  · exact hcivil.month_lt
  · exact Nat.mod_lt _ (by decide)

open Directive

private theorem strptime_day {u : Tm} (hu : u.InRange) (t : Tm) (format : List Directive)
    {rest : List Char} (h : ∀ c ∈ rest.head?, Http.isSpace c = false) :
    strptime (weekday :: literal ',' :: blank :: day :: blank :: month :: blank :: format)
      (abbreviated weekdays u.wday ++ ',' :: ' ' :: (twoDigits u.mday ++ ' ' ::
        (abbreviated months u.mon ++ ' ' :: rest))) t =
      strptime format rest { t with wday := u.wday, mday := u.mday, mon := u.mon } := by
  have hmday : u.mday < 100 := by
    have hle := hu.mday_le
    omega
  have hweekday (text : List Char) :
      weekday.read t (abbreviated weekdays u.wday ++ ',' :: text) =
        some ({ t with wday := u.wday }, ',' :: text) := by
    rw [Directive.read, readName_weekdays hu.wday]
    rfl
  have hday (t : Tm) (text : List Char) :
      day.read t (twoDigits u.mday ++ text) = some ({ t with mday := u.mday }, text) := by
    rw [Directive.read, getNumber_twoDigits hu.mday_pos hu.mday_le hmday]
    rfl
  have hmonth (t : Tm) (text : List Char) :
      month.read t (abbreviated months u.mon ++ ' ' :: text) =
        some ({ t with mon := u.mon }, ' ' :: text) := by
    rw [Directive.read, readName_months hu.mon]
    rfl
  rw [strptime_cons (hweekday _), strptime_cons (read_literal _ _ _),
    strptime_cons (read_blank _ (twoDigits_head hmday _)), strptime_cons (hday _ _),
    strptime_cons (read_blank _ (months_head hu.mon _)), strptime_cons (hmonth _ _),
    strptime_cons (read_blank _ h)]

private theorem strptime_time {u : Tm} (hu : u.InRange) (t : Tm) (rest : List Char) :
    strptime [hour, literal ':', minute, literal ':', second]
      (twoDigits u.hour ++ ':' :: (twoDigits u.min ++ ':' :: (twoDigits u.sec ++ rest))) t =
      some { t with hour := u.hour, min := u.min, sec := u.sec } := by
  have hrange := hu.hour
  have hrange' := hu.min
  have hrange'' := hu.sec
  have hhour (t : Tm) (text : List Char) :
      hour.read t (twoDigits u.hour ++ text) = some ({ t with hour := u.hour }, text) := by
    rw [Directive.read, getNumber_twoDigits (Nat.zero_le _) (by omega) (by omega)]
    rfl
  have hminute (t : Tm) (text : List Char) :
      minute.read t (twoDigits u.min ++ text) = some ({ t with min := u.min }, text) := by
    rw [Directive.read, getNumber_twoDigits (Nat.zero_le _) (by omega) (by omega)]
    rfl
  have hsecond (t : Tm) (text : List Char) :
      second.read t (twoDigits u.sec ++ text) = some ({ t with sec := u.sec }, text) := by
    rw [Directive.read, getNumber_twoDigits (Nat.zero_le _) (by omega) (by omega)]
    rfl
  rw [strptime_cons (hhour _ _), strptime_cons (read_literal _ _ _), strptime_cons (hminute _ _),
    strptime_cons (read_literal _ _ _), strptime_cons (hsecond _ _)]
  rfl

/-! ## The date of a document -/

def civilYear (seconds : Nat) : Nat := (civil 1970 (seconds / 86400)).1

def timeText (t : Tm) : List Char :=
  ' ' :: (twoDigits t.hour ++ ':' :: (twoDigits t.min ++ ':' :: (twoDigits t.sec ++ " GMT".toList)))

private theorem toList_httpDate (seconds : Nat) :
    (httpDate seconds).toList =
      abbreviated weekdays (Tm.gmtime seconds).wday ++ ',' :: ' ' ::
        (twoDigits (Tm.gmtime seconds).mday ++ ' ' ::
          (abbreviated months (Tm.gmtime seconds).mon ++ ' ' ::
            (Nat.toDigits 10 (civilYear seconds) ++ timeText (Tm.gmtime seconds)))) := by
  have hyear : ((Tm.gmtime seconds).year + 1900).toNat = civilYear seconds := by
    change ((civilYear seconds : Int) - 1900 + 1900).toNat = civilYear seconds
    rw [Int.sub_add_cancel, Int.toNat_natCast]
  rw [httpDate, String.toList_ofList, ← hyear]
  simp [strftime, ofFormat, conversion, write, timeText]

private theorem read_literal_of_head {c : Char} {text : List Char} (h : text.head? ≠ some c)
    (t : Tm) : (literal c).read t text = none := by
  cases text with
  | nil => rfl
  | cons x text =>
    have hx : ¬ x = c := by
      rintro rfl
      exact h rfl
    exact if_neg hx

private theorem strptime_longYear {digits : List Char} (hdigits : ∀ c ∈ digits, c.isDigit = true)
    (hlength : 4 < digits.length) (t : Tm) {rest : List Char} (hrest : rest.head? = some ' ')
    (format : List Directive) :
    strptime (year :: blank :: hour :: literal ':' :: format) (digits ++ rest) t = none := by
  have hhead {more : List Char} (hmore : ∀ c ∈ more, c.isDigit = true) :
      (more ++ rest).head? ≠ some ':' := by
    cases more with
    | nil =>
      rw [List.nil_append, hrest]
      decide
    | cons c more =>
      rintro ⟨⟩
      exact absurd (hmore ':' (by simp)) (by decide)
  rcases digits with _ | ⟨a, _ | ⟨b, _ | ⟨c, _ | ⟨d, _ | ⟨e, more⟩⟩⟩⟩⟩
  iterate 5 exact absurd hlength (by simp)
  have he : e.isDigit = true := hdigits e (by simp)
  have hmore : ∀ c ∈ more, c.isDigit = true := by
    intro c hc
    exact hdigits c (by simp [hc])
  have hfour : ∀ x ∈ [a, b, c, d], x.isDigit = true := by
    intro x hx
    apply hdigits
    simp only [List.mem_cons, List.not_mem_nil, or_false] at hx ⊢
    tauto
  obtain ⟨n, hyear⟩ := getNumber_four hfour (e :: more ++ rest)
  have hread : year.read t (a :: b :: c :: d :: e :: more ++ rest) =
      some ({ t with year := (n : Int) - 1900 }, e :: more ++ rest) := by
    rw [Directive.read]
    exact congrArg (Option.map _) hyear
  have hskip (t : Tm) : blank.read t (e :: more ++ rest) = some (t, e :: more ++ rest) :=
    congrArg (fun text => some (t, text))
      (Http.dropWhile_of_head (by
        intro c hc
        cases hc
        exact isSpace_of_isDigit he))
  rw [strptime_cons hread, strptime_cons (hskip _), strptime, Directive.read, List.cons_append]
  cases hhour : getNumber 0 23 2 (e :: (more ++ rest)) with
  | none => rfl
  | some r =>
    have hcolon : r.2.head? ≠ some ':' := by
      rcases getNumber_two he hhour with htext | ⟨x, hx, htext⟩
      · rw [htext]
        exact hhead hmore
      · cases more with
        | nil =>
          rw [List.nil_append] at htext
          rw [htext, List.head?_cons, Option.some.injEq] at hrest
          rw [hrest] at hx
          exact absurd hx (by decide)
        | cons y more =>
          rw [List.cons_append, List.cons.injEq] at htext
          rw [← htext.2]
          exact hhead fun c hc => hmore c (by simp [hc])
    rw [Option.map_some, Option.bind_some, strptime, read_literal_of_head hcolon]
    rfl

private theorem strptime_httpDate {seconds : Nat} (h : civilYear seconds < 10000) (t : Tm) :
    strptime lastModifiedFormat (httpDate seconds).toList t = some (Tm.gmtime seconds) := by
  have hrange := Tm.inRange_gmtime seconds
  have hge : 1970 ≤ civilYear seconds := (isCivil 1970 (seconds / 86400)).year_ge
  have hyear (t : Tm) (text : List Char) :
      year.read t (Nat.toDigits 10 (civilYear seconds) ++ text) =
        some ({ t with year := (Tm.gmtime seconds).year }, text) := by
    rw [Directive.read, getNumber_year (by omega) h]
    rfl
  have hhour : (Tm.gmtime seconds).hour < 100 := by
    have hlt := hrange.hour
    omega
  have hformat : lastModifiedFormat = weekday :: literal ',' :: blank :: day :: blank :: month ::
      blank :: year :: blank :: [hour, literal ':', minute, literal ':', second] := rfl
  rw [hformat, toList_httpDate, strptime_day hrange t _ (toDigits_head _ _),
    strptime_cons (hyear _ _), timeText, strptime_cons (read_blank _ (twoDigits_head hhour _)),
    strptime_time hrange]

private theorem strptime_httpDate_longYear {seconds : Nat} (h : 10000 ≤ civilYear seconds)
    (t : Tm) :
    strptime lastModifiedFormat (httpDate seconds).toList t = none := by
  have hlength : ¬ (Nat.toDigits 10 (civilYear seconds)).length ≤ 4 := by
    rw [Nat.length_toDigits_le_iff (by decide) (by decide)]
    omega
  have hformat : lastModifiedFormat = weekday :: literal ',' :: blank :: day :: blank :: month ::
      blank :: year :: blank :: hour :: literal ':' :: [minute, literal ':', second] := rfl
  rw [hformat, toList_httpDate, strptime_day (Tm.inRange_gmtime seconds) t _ (toDigits_head _ _)]
  apply strptime_longYear
  · intro c hc
    exact Nat.isDigit_of_mem_toDigits (by decide) (by decide) hc
  · omega
  · rfl

private theorem civilYear_lt_iff (seconds : Nat) :
    civilYear seconds < 10000 ↔ seconds < 253402300800 := by
  have hyear : (periodStart yearDays 10000 : Int) = daysBefore 10000 + 1 :=
    periodStart_yearDays 10000
  have hepoch : (periodStart yearDays 1970 : Int) = daysBefore 1970 + 1 :=
    periodStart_yearDays 1970
  have hbefore : daysBefore 10000 - daysBefore 1970 = 2932897 := by decide
  rw [civilYear, civil_year_lt_iff]
  omega

/-- The response has the date of the instant, and the updater compares the list with it. -/
structure DatedAt (env : Env) (r : Response) (seconds : Nat) : Prop where
  modified : r.getLastModified env = seconds
  outdated : ∀ lst : DomainList, Updater.isOutdated env lst (some r) = true ↔
    seconds = 0 ∨ lst.mtime < seconds

private theorem getLastModified_of_header {r : Response} {value : String}
    (h : r.getHeader "Last-Modified" = value) (hvalue : value ≠ "") (env : Env) :
    r.getLastModified env = (env.parseDate value).getD 0 := by
  rw [Response.getLastModified, h]
  exact if_neg hvalue

private theorem getLastModified_inZone (env : Env) (t : Tm) (offset : Int) {seconds : Nat}
    {r : Response} (h : r.getHeader "Last-Modified" = httpDate seconds) :
    r.getLastModified (env.inZone t offset) =
      if seconds < 253402300800 then seconds - offset else 0 := by
  have hdate : httpDate seconds ≠ "" := by
    intro hempty
    have htext := toList_httpDate seconds
    rw [hempty] at htext
    simp at htext
  have hparse : (env.inZone t offset).parseDate = parseLastModified t offset := rfl
  rw [getLastModified_of_header h hdate, hparse, parseLastModified]
  split_ifs with hyear
  · rw [strptime_httpDate ((civilYear_lt_iff seconds).2 hyear), Option.map_some, Option.getD_some,
      Tm.mktime, Tm.timegm_gmtime]
  · have hlong : 10000 ≤ civilYear seconds := by
      rw [← Nat.not_lt, civilYear_lt_iff]
      exact hyear
    rw [strptime_httpDate_longYear hlong]
    rfl

/-- The date of a document is its instant exactly when local time is UTC and the year has four
digits. -/
theorem datedAt_iff (env : Env) (t : Tm) (offset : Int) (seconds : Nat) (r : Response)
    (h : r.getHeader "Last-Modified" = httpDate seconds) :
    DatedAt (env.inZone t offset) r seconds ↔ offset = 0 ∧ seconds < 253402300800 := by
  have hmodified := getLastModified_inZone env t offset h
  constructor
  · intro hdated
    rw [hdated.modified] at hmodified
    split_ifs at hmodified with hyear
    · exact ⟨by omega, hyear⟩
    · omega
  · intro ⟨hoffset, hyear⟩
    rw [if_pos hyear, hoffset, Int.sub_zero, ← hoffset] at hmodified
    refine ⟨hmodified, ?_⟩
    intro lst
    rw [Updater.isOutdated, Option.map_some, Option.getD_some, hmodified, Bool.or_eq_true,
      decide_eq_true_eq, decide_eq_true_eq, Nat.cast_eq_zero]

def datedResponse : Response where
  rawHeaders := "HTTP/1.1 200 OK\r\nLast-Modified: Sun, 15 Nov 2015 10:44:00 GMT\r\n\r\n"
  body := ""

private theorem getHeader_datedResponse :
    datedResponse.getHeader "Last-Modified" = httpDate 1447584240 := by
  decide +kernel

theorem datedAt_datedResponse :
    datedResponse.getHeader "Last-Modified" = httpDate 1447584240 ∧
      DatedAt ((Env.ofTexts []).inZone (Tm.gmtime 0) 0) datedResponse 1447584240 :=
  ⟨getHeader_datedResponse,
    (datedAt_iff (Env.ofTexts []) (Tm.gmtime 0) 0 1447584240 datedResponse
      getHeader_datedResponse).2 ⟨rfl, by decide⟩⟩

/-- An hour east of Greenwich the document is an hour older. -/
theorem datedResponse_east :
    datedResponse.getHeader "Last-Modified" = httpDate 1447584240 ∧
      datedResponse.getLastModified ((Env.ofTexts []).inZone (Tm.gmtime 0) 3600) = 1447580640 ∧
      ¬ ∀ (env : Env) (t : Tm) (offset : Int) (seconds : Nat) (r : Response),
        r.getHeader "Last-Modified" = httpDate seconds →
          DatedAt (env.inZone t offset) r seconds := by
  have hmodified := getLastModified_inZone (Env.ofTexts []) (Tm.gmtime 0) 3600
    getHeader_datedResponse
  refine ⟨getHeader_datedResponse, hmodified, ?_⟩
  intro h
  have hdated := (h (Env.ofTexts []) (Tm.gmtime 0) 3600 1447584240 datedResponse
    getHeader_datedResponse).modified
  rw [hmodified] at hdated
  exact absurd hdated (by decide)

end DblService
