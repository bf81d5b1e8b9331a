import Spork.Calendar
import Mathlib.Data.String.Basic
import Mathlib.Algebra.Order.Field.Rat
import Mathlib.Algebra.Order.Ring.Nat
import Mathlib.Tactic.Ring

/-!
# Timestamps as texts

The instants of ISO 8601, in every format and precision, and how their texts compare with those of
the moments that a clock writes down.

Numbers of one width compare as texts as they do as numbers (`fixed_append_le`), so an instant in
the format of a moment compares as it should up to the decimals.  In any other format the texts
part earlier: at the year, the month, the hour or the minute.  Each of these levels is one instance
of `StartsAt.field`.
-/

set_option autoImplicit false

namespace Timestamps

open Calendar

/-! ## Digits -/

/-- A digit. -/
def digit (d : Fin 10) : Char := Char.ofNat (48 + d)

theorem digit_lt_iff : ∀ {d d' : Fin 10}, digit d < digit d' ↔ d < d' := by decide

theorem digit_inj : ∀ {d d' : Fin 10}, digit d = digit d' ↔ d = d' := by decide

/-- The last digits of a number, this many of them. -/
def fixed : Nat → Nat → List Char
  | 0, _ => []
  | width + 1, n => digit (Fin.ofNat 10 (n / 10 ^ width)) :: fixed width n

theorem cons_le_cons {c c' : Char} {x y : List Char} :
    c :: x ≤ c' :: y ↔ c < c' ∨ c = c' ∧ x ≤ y := by
  rw [← not_lt, List.cons_lt_cons_iff]
  rcases lt_trichotomy c c' with h | rfl | h
  · exact iff_of_true (by rintro (h' | ⟨rfl, -⟩); exacts [lt_asymm h h', lt_irrefl _ h]) (.inl h)
  · rw [or_iff_right (lt_irrefl c), or_iff_right (lt_irrefl c), and_iff_right rfl,
      and_iff_right rfl, not_lt]
  · refine iff_of_false (fun hnot => hnot (.inl h)) ?_
    rintro (h' | ⟨rfl, -⟩)
    · exact lt_asymm h h'
    · exact lt_irrefl _ h

/-- Behind the same character. -/
theorem cons_le_cons_self {c : Char} {x y : List Char} : c :: x ≤ c :: y ↔ x ≤ y := by
  rw [cons_le_cons, or_iff_right (lt_irrefl c), and_iff_right rfl]

/-- A number is its first digit and the others. -/
theorem mod_pow_succ (n width : Nat) :
    n % 10 ^ (width + 1) = n / 10 ^ width % 10 * 10 ^ width + n % 10 ^ width := by
  rw [Nat.pow_succ, Nat.mod_mul, Nat.mul_comm, Nat.add_comm]

section Radix

variable {base a b r s : Nat} (hr : r < base) (hs : s < base)

include hr hs

theorem radix_lt_iff : a * base + r < b * base + s ↔ a < b ∨ a = b ∧ r < s := by
  rcases Nat.lt_trichotomy a b with h | rfl | h
  · have hle : (a + 1) * base ≤ b * base := Nat.mul_le_mul_right base h
    rw [Nat.add_mul] at hle
    exact iff_of_true (by omega) (.inl h)
  · omega
  · have hle : (b + 1) * base ≤ a * base := Nat.mul_le_mul_right base h
    rw [Nat.add_mul] at hle
    exact iff_of_false (by omega) (by omega)

theorem radix_eq_iff : a * base + r = b * base + s ↔ a = b ∧ r = s := by
  have hlt := radix_lt_iff hr hs (a := a) (b := b)
  have hgt := radix_lt_iff hs hr (a := b) (b := a)
  omega

end Radix

/-- Numbers of one width first, then what stands behind them. -/
theorem fixed_append_le (x y : List Char) : ∀ (width n m : Nat),
    fixed width n ++ x ≤ fixed width m ++ y ↔
      n % 10 ^ width < m % 10 ^ width ∨ n % 10 ^ width = m % 10 ^ width ∧ x ≤ y
  | 0, n, m => by
    rw [fixed, fixed, Nat.pow_zero, Nat.mod_one, Nat.mod_one, List.nil_append, List.nil_append]
    exact ⟨fun h => .inr ⟨rfl, h⟩, fun h => (h.resolve_left (Nat.lt_irrefl _)).2⟩
  | width + 1, n, m => by
    rw [fixed, fixed, List.cons_append, List.cons_append, cons_le_cons, digit_lt_iff, digit_inj,
      fixed_append_le x y width n m, mod_pow_succ, mod_pow_succ, Fin.lt_def, Fin.ext_iff]
    have hn : n % 10 ^ width < 10 ^ width := Nat.mod_lt _ (Nat.pow_pos (by decide))
    have hm : m % 10 ^ width < 10 ^ width := Nat.mod_lt _ (Nat.pow_pos (by decide))
    show n / 10 ^ width % 10 < m / 10 ^ width % 10 ∨
      n / 10 ^ width % 10 = m / 10 ^ width % 10 ∧ _ ↔ _
    rw [radix_lt_iff hn hm, radix_eq_iff hn hm]
    tauto

/-- Numbers that fit the width. -/
theorem fixed_append_le_of_lt {x y : List Char} {width n m : Nat} (hn : n < 10 ^ width)
    (hm : m < 10 ^ width) :
    fixed width n ++ x ≤ fixed width m ++ y ↔ n < m ∨ n = m ∧ x ≤ y := by
  rw [fixed_append_le, Nat.mod_eq_of_lt hn, Nat.mod_eq_of_lt hm]

/-! ## Instants -/

/-- What stands for the offset from UTC.  The basic format has no colon. -/
inductive Zone where
  | utc
  | plus (basic : Bool) (hours : Fin 24) (minutes : Fin 60)
  | minus (basic : Bool) (hours : Fin 24) (minutes : Fin 60)
  | plusHours (hours : Fin 24)
  | minusHours (hours : Fin 24)
  deriving DecidableEq

/-- What stands between two numbers. -/
def separator (basic : Bool) (c : Char) : List Char := if basic then [] else [c]

/-- `Z`, `+HH:MM`, `-HH:MM`, `+HHMM`, `-HHMM`, `+HH` or `-HH`. -/
def Zone.chars : Zone → List Char
  | .utc => ['Z']
  | .plus basic hours minutes =>
    '+' :: (fixed 2 hours ++ (separator basic ':' ++ (fixed 2 minutes ++ [])))
  | .minus basic hours minutes =>
    '-' :: (fixed 2 hours ++ (separator basic ':' ++ (fixed 2 minutes ++ [])))
  | .plusHours hours => '+' :: (fixed 2 hours ++ [])
  | .minusHours hours => '-' :: (fixed 2 hours ++ [])

/-- The offset, in seconds. -/
def Zone.seconds : Zone → Int
  | .utc => 0
  | .plus _ hours minutes => (hours * 60 + minutes : Nat) * 60
  | .minus _ hours minutes => -((hours * 60 + minutes : Nat) * 60)
  | .plusHours hours => (hours : Nat) * 3600
  | .minusHours hours => -((hours : Nat) * 3600)

/-- At or before the offset of a moment, as a text. -/
def Zone.plain : Zone → Bool
  | .plus basic hours minutes => decide (hours = 0 ∧ (basic = true ∨ minutes = 0))
  | .plusHours hours => decide (hours = 0)
  | _ => false

/-- The number that these digits write. -/
def value : List (Fin 10) → Nat
  | [] => 0
  | d :: ds => d * 10 ^ ds.length + value ds

/-- The day of an instant: a day of a month, of a week or of a year. -/
inductive Day where
  | calendar (year month day : Nat)
  | week (year number weekday : Nat)
  | ordinal (year day : Nat)

def Day.year : Day → Nat
  | .calendar year _ _ | .week year _ _ | .ordinal year _ => year

/-- There is such a day. -/
def Day.Valid : Day → Prop
  | .calendar year month day => ValidDay year month day
  | .week year number weekday =>
    1 ≤ number ∧ (number : Int) ≤ weeksInYear year ∧ 1 ≤ weekday ∧ weekday ≤ 7
  | .ordinal year day => 1 ≤ day ∧ (day : Int) ≤ daysBeforeYear (year + 1) - daysBeforeYear year

/-- The days up to there. -/
def Day.count : Day → Int
  | .calendar year month day => Calendar.ordinal year month day
  | .week year number weekday => week1Monday year + (number - 1) * 7 + (weekday - 1)
  | .ordinal year day => daysBeforeYear year + day

/-- `YYYY-MM-DD`, `YYYY-Www-D` or `YYYY-DDD`, or the same without hyphens. -/
def Day.chars (basic : Bool) : Day → List Char → List Char
  | .calendar year month day, rest => fixed 4 year ++ (separator basic '-' ++ (fixed 2 month ++
      (separator basic '-' ++ (fixed 2 day ++ rest))))
  | .week year number weekday, rest => fixed 4 year ++ (separator basic '-' ++ ('W' ::
      (fixed 2 number ++ (separator basic '-' ++ (fixed 1 weekday ++ rest)))))
  | .ordinal year day, rest => fixed 4 year ++ (separator basic '-' ++ (fixed 3 day ++ rest))

/-- The time of day of an instant, to the hour, the minute or the second.  The end of a day is the
hour 24, and a second that has been inserted is the second 60. -/
inductive Clock where
  | hours (hour : Fin 25)
  | minutes (hour : Fin 25) (minute : Fin 60)
  | seconds (hour : Fin 25) (minute : Fin 60) (second : Fin 61)

/-- `HH`, `HH:MM` or `HH:MM:SS`, or the same without colons. -/
def Clock.chars (basic : Bool) : Clock → List Char → List Char
  | .hours hour, rest => fixed 2 hour ++ rest
  | .minutes hour minute, rest => fixed 2 hour ++ (separator basic ':' ++ (fixed 2 minute ++ rest))
  | .seconds hour minute second, rest => fixed 2 hour ++ (separator basic ':' ++ (fixed 2 minute ++
      (separator basic ':' ++ (fixed 2 second ++ rest))))

/-- What the last number counts, in seconds. -/
def Clock.unit : Clock → Nat
  | .hours _ => 3600
  | .minutes _ _ => 60
  | .seconds _ _ _ => 1

/-- The seconds of the day. -/
def Clock.count : Clock → Nat
  | .hours hour => hour * 3600
  | .minutes hour minute => hour * 3600 + minute * 60
  | .seconds hour minute second => hour * 3600 + minute * 60 + second

/-- An instant: a day and a time of day somewhere, with any number of decimals of its last number,
behind a point or a comma. -/
structure Instant where
  day : Day
  basicDay : Bool
  clock : Clock
  basicClock : Bool
  comma : Bool
  decimals : List (Fin 10)
  zone : Zone
  year_lt : day.year < 10 ^ 4
  valid : day.Valid
  ends : clock.count * 10 ^ decimals.length + value decimals * clock.unit
    ≤ 86400 * 10 ^ decimals.length

/-- The decimals, if there are any. -/
def decimalChars (comma : Bool) : List (Fin 10) → List Char
  | [] => []
  | d :: ds => (if comma then ',' else '.') :: (d :: ds).map digit

/-- The decimals and the offset. -/
def Instant.tail (i : Instant) : List Char := decimalChars i.comma i.decimals ++ i.zone.chars

/-- The day, a `T`, the time of day, the decimals and the offset. -/
def Instant.text (i : Instant) : String :=
  String.ofList (i.day.chars i.basicDay ('T' :: i.clock.chars i.basicClock i.tail))

/-- The microseconds up to there. -/
def Instant.micros (i : Instant) : ℚ :=
  ((i.day.count * 86400 + i.clock.count - i.zone.seconds : Int) : ℚ) * 10 ^ 6 +
    (value i.decimals : ℚ) * (i.clock.unit * 10 ^ 6) / 10 ^ i.decimals.length

/-- `datetime.now(UTC)`. -/
structure Moment where
  civil : Civil
  microsecond : Fin (10 ^ 6)

/-- The offset of a moment. -/
def utcChars : List Char := Zone.chars (.plus false 0 0)

/-- The microseconds of a moment, if there are any, and its offset. -/
def microChars (microsecond : Nat) : List Char :=
  if microsecond = 0 then utcChars else '.' :: (fixed 6 microsecond ++ utcChars)

/-- `moment.isoformat()`. -/
def Moment.isoformat (m : Moment) : String :=
  String.ofList (fixed 4 m.civil.year ++ '-' :: (fixed 2 m.civil.month ++ '-' ::
    (fixed 2 m.civil.day ++ 'T' :: (fixed 2 m.civil.hour ++ ':' :: (fixed 2 m.civil.minute ++ ':' ::
      (fixed 2 m.civil.second ++ microChars m.microsecond))))))

/-- The microseconds up to it. -/
def Moment.micros (m : Moment) : Int := m.civil.seconds * 10 ^ 6 + m.microsecond

/-! ## From which number on -/

/-- Of the texts of the numbers below a bound, those from `start` on are at or after `x`. -/
structure StartsAt (x : List Char) (text : Nat → List Char) (bound start : Nat) : Prop where
  le : start ≤ bound
  iff : ∀ n < bound, x ≤ text n ↔ start ≤ n

section

variable {x : List Char} {text : Nat → List Char} {bound start : Nat}

/-- Texts that begin with the same character. -/
theorem StartsAt.cons (h : StartsAt x text bound start) (c : Char) :
    StartsAt (c :: x) (fun n => c :: text n) bound start :=
  ⟨h.le, fun n hn => cons_le_cons_self.trans (h.iff n hn)⟩

/-- Texts that begin with a later character. -/
theorem startsAt_of_lt {c c' : Char} (h : c < c') :
    StartsAt (c :: x) (fun n => c' :: text n) bound 0 :=
  ⟨Nat.zero_le _, fun _ _ => iff_of_true (cons_le_cons.2 (.inl h)) (Nat.zero_le _)⟩

/-- Texts that begin with an earlier character. -/
theorem startsAt_of_gt {c c' : Char} (h : c' < c) :
    StartsAt (c :: x) (fun n => c' :: text n) bound bound :=
  ⟨Nat.le_refl _, fun _ hn => iff_of_false
    (fun hle => (cons_le_cons.1 hle).elim (lt_asymm h) fun he => h.ne' he.1) (Nat.not_le.2 hn)⟩

/-- **A number of two digits, and then the texts.** -/
theorem StartsAt.field (h : StartsAt x text bound start) {a count : Nat} (ha : a < 100)
    (hcount : count ≤ 100) :
    StartsAt (fixed 2 a ++ x) (fun n => fixed 2 (n / bound) ++ text (n % bound)) (count * bound)
      (min (a * bound + start) (count * bound)) := by
  refine ⟨Nat.min_le_right _ _, fun n hn => ?_⟩
  have hpos : 0 < bound := Nat.pos_of_ne_zero fun hzero => by simp [hzero] at hn
  have hdiv : n / bound < count := Nat.div_lt_of_lt_mul (by rwa [Nat.mul_comm] at hn)
  have hmod : n % bound < bound := Nat.mod_lt n hpos
  rw [fixed_append_le_of_lt ha (Nat.lt_of_lt_of_le hdiv hcount), h.iff _ hmod]
  have hn' : n = n / bound * bound + n % bound := (Nat.div_add_mod' n bound).symm
  have hmin : min (a * bound + start) (count * bound) ≤ n ↔ a * bound + start ≤ n := by
    omega
  rw [hmin]
  rcases Nat.lt_trichotomy a (n / bound) with hlt | heq | hgt
  · have hle : (a + 1) * bound ≤ n / bound * bound := Nat.mul_le_mul_right bound hlt
    rw [Nat.add_mul, Nat.one_mul] at hle
    have := h.le
    exact iff_of_true (.inl hlt) (by omega)
  · rw [← heq] at hn'
    rw [← heq]
    omega
  · have hle : (n / bound + 1) * bound ≤ a * bound := Nat.mul_le_mul_right bound hgt
    rw [Nat.add_mul, Nat.one_mul] at hle
    exact iff_of_false (by omega) (by omega)

end

/-! ## Decimals and offsets as texts -/

/-- The first number of this width that, with the offset of a moment behind it, is at or after these
decimals and this zone: the decimals, cut to the width, and what is behind them pushes it up by one
in the last place that counts if it is later than what is behind the number. -/
def threshold (zone : Zone) : List (Fin 10) → Nat → Nat
  | [], width + 1 => if zone = .utc then 10 ^ (width + 1) else 0
  | [], 0 => if zone.plain then 0 else 1
  | _ :: _, 0 => 1
  | d :: ds, width + 1 => d * 10 ^ width + threshold zone ds width

theorem threshold_le (zone : Zone) : ∀ (ds : List (Fin 10)) (width : Nat),
    threshold zone ds width ≤ 10 ^ width
  | [], width + 1 => by
    rw [threshold]
    split
    · exact Nat.le_refl _
    · exact Nat.zero_le _
  | [], 0 => by
    rw [threshold]
    split <;> decide
  | _ :: _, 0 => by
    rw [threshold]
    decide
  | d :: ds, width + 1 => by
    have ih := threshold_le zone ds width
    have hd : (d : Nat) * 10 ^ width ≤ 9 * 10 ^ width :=
      Nat.mul_le_mul_right _ (Nat.le_of_lt_succ d.isLt)
    rw [threshold, Nat.pow_succ]
    omega

theorem minus_not_le_utc (rest : List Char) : ¬('-' :: rest ≤ utcChars) := by
  rw [utcChars, Zone.chars, cons_le_cons]
  exact not_or.2 ⟨by decide, fun h => absurd h.1 (by decide)⟩

theorem fixed_two_le_utc {k : Nat} (n : Fin k) (hk : k ≤ 100) (x : List Char) :
    '+' :: (fixed 2 n ++ x) ≤ utcChars ↔ (n : Nat) = 0 ∧ x ≤ ':' :: fixed 2 0 := by
  have hn : (n : Nat) < 10 ^ 2 := Nat.lt_of_lt_of_le n.isLt hk
  have hutc : utcChars = '+' :: (fixed 2 0 ++ ':' :: fixed 2 0) := by decide
  rw [hutc, cons_le_cons_self, fixed_append_le_of_lt hn (by decide),
    or_iff_right (Nat.not_lt_zero _)]

theorem zone_le_utc_iff (zone : Zone) : zone.chars ≤ utcChars ↔ zone.plain = true := by
  cases zone with
  | utc => exact iff_of_false (by decide) nofun
  | minus basic hours minutes => exact iff_of_false (minus_not_le_utc _) nofun
  | minusHours hours => exact iff_of_false (minus_not_le_utc _) nofun
  | plusHours hours =>
    rw [Zone.chars, fixed_two_le_utc hours (by decide), and_iff_left (by decide), Zone.plain,
      decide_eq_true_iff, Fin.val_eq_zero_iff]
  | plus basic hours minutes =>
    have hminutes : separator basic ':' ++ (fixed 2 (minutes : Nat) ++ []) ≤ ':' :: fixed 2 0 ↔
        basic = true ∨ minutes = 0 := by
      revert basic minutes
      decide
    rw [Zone.chars, fixed_two_le_utc hours (by decide), hminutes, Zone.plain, decide_eq_true_iff,
      Fin.val_eq_zero_iff]

/-- The offset of an instant is at or before a digit unless it is `Z`. -/
theorem zone_le_digit_iff (zone : Zone) (d : Fin 10) (rest : List Char) :
    zone.chars ≤ digit d :: rest ↔ zone ≠ .utc := by
  have hutc : ∀ d : Fin 10, ¬('Z' < digit d ∨ 'Z' = digit d) := by decide
  have hplus : ∀ d : Fin 10, '+' < digit d := by decide
  have hminus : ∀ d : Fin 10, '-' < digit d := by decide
  cases zone with
  | utc =>
    rw [Zone.chars, cons_le_cons]
    exact iff_of_false (fun h => hutc d (h.imp_right And.left)) fun h => h rfl
  | plus | plusHours => exact iff_of_true (cons_le_cons.2 (.inl (hplus d))) nofun
  | minus | minusHours => exact iff_of_true (cons_le_cons.2 (.inl (hminus d))) nofun

/-- **Decimals and a zone against the digits of a moment.** -/
theorem decimals_le_iff (zone : Zone) : ∀ (ds : List (Fin 10)) (width n : Nat),
    ds.map digit ++ zone.chars ≤ fixed width n ++ utcChars ↔
      threshold zone ds width ≤ n % 10 ^ width
  | [], width + 1, n => by
    have hlt : n % 10 ^ (width + 1) < 10 ^ (width + 1) := Nat.mod_lt _ (Nat.pow_pos (by decide))
    rw [fixed, threshold]
    refine (zone_le_digit_iff zone _ _).trans ?_
    split
    · next h => exact iff_of_false (fun hne => hne h) (Nat.not_le.2 hlt)
    · next h => exact iff_of_true h (Nat.zero_le _)
  | [], 0, n => by
    rw [threshold, Nat.pow_zero, Nat.mod_one]
    refine (zone_le_utc_iff zone).trans ?_
    split
    · next h => exact iff_of_true h (Nat.le_refl _)
    · next h => exact iff_of_false h (by decide)
  | d :: ds, 0, n => by
    have hdigit : ∀ d : Fin 10, ¬(digit d < '+' ∨ digit d = '+') := by decide
    rw [threshold, Nat.pow_zero, Nat.mod_one]
    refine iff_of_false (fun h => hdigit d ?_) (by decide)
    exact (cons_le_cons.1 h).imp_right And.left
  | d :: ds, width + 1, n => by
    have hle := threshold_le zone ds width
    have hlt : n % 10 ^ width < 10 ^ width := Nat.mod_lt _ (Nat.pow_pos (by decide))
    rw [List.map_cons, List.cons_append, fixed, List.cons_append, cons_le_cons, digit_lt_iff,
      digit_inj, decimals_le_iff zone ds width n, threshold, mod_pow_succ, Fin.lt_def, Fin.ext_iff]
    show (d : Nat) < n / 10 ^ width % 10 ∨ (d : Nat) = n / 10 ^ width % 10 ∧ _ ↔ _
    rcases Nat.eq_or_lt_of_le hle with heq | hlt'
    · have hpos : 0 < 10 ^ width := Nat.pow_pos (by decide)
      have hnext : (d : Nat) * 10 ^ width + 10 ^ width = (d + 1 : Nat) * 10 ^ width + 0 := by
        rw [Nat.add_mul, Nat.one_mul, Nat.add_zero]
      rw [heq, hnext, ← not_lt (a := n / 10 ^ width % 10 * 10 ^ width + n % 10 ^ width),
        radix_lt_iff hlt hpos]
      omega
    · rw [← not_lt, ← not_lt, radix_lt_iff hlt hlt']
      omega

/-- The microsecond of the second from which a moment's text is at or after these decimals and this
zone. -/
def textMicros (zone : Zone) (comma : Bool) : List (Fin 10) → Nat
  | [] => if zone = .utc then 10 ^ 6 else if zone.plain then 0 else 1
  | d :: ds => if comma then 1 else max 1 (threshold zone (d :: ds) 6)

theorem textMicros_le (zone : Zone) (comma : Bool) (ds : List (Fin 10)) :
    textMicros zone comma ds ≤ 10 ^ 6 := by
  cases ds with
  | nil =>
    rw [textMicros]
    split
    · exact Nat.le_refl _
    · split <;> decide
  | cons d ds =>
    rw [textMicros]
    split
    · decide
    · exact Nat.max_le.2 ⟨by decide, threshold_le zone (d :: ds) 6⟩

theorem one_le_textMicros (zone : Zone) (comma : Bool) (d : Fin 10) (ds : List (Fin 10)) :
    1 ≤ textMicros zone comma (d :: ds) := by
  rw [textMicros]
  split
  · exact Nat.le_refl _
  · exact Nat.le_max_left 1 _

/-- A moment without microseconds. -/
theorem suffix_le_utc_iff (zone : Zone) (comma : Bool) (ds : List (Fin 10)) :
    decimalChars comma ds ++ zone.chars ≤ utcChars ↔ textMicros zone comma ds ≤ 0 := by
  cases ds with
  | nil =>
    rw [decimalChars, List.nil_append, zone_le_utc_iff, textMicros]
    by_cases hutc : zone = .utc
    · rw [if_pos hutc, hutc]
      exact iff_of_false nofun (by decide)
    · rw [if_neg hutc]
      split
      · next h => exact iff_of_true h (Nat.le_refl _)
      · next h => exact iff_of_false h (by decide)
  | cons d ds =>
    have hpoint : ∀ comma : Bool, ¬((if comma then ',' else '.') < '+' ∨
        (if comma then ',' else '.') = '+') := by decide
    refine iff_of_false (fun h => hpoint comma ?_)
      (Nat.not_le.2 (one_le_textMicros zone comma d ds))
    exact (cons_le_cons.1 h).imp_right And.left

/-- A moment with microseconds. -/
theorem suffix_le_iff_of_pos (zone : Zone) (comma : Bool) (ds : List (Fin 10)) {n : Nat}
    (hpos : 1 ≤ n) (hlt : n < 10 ^ 6) :
    decimalChars comma ds ++ zone.chars ≤ '.' :: (fixed 6 n ++ utcChars) ↔
      textMicros zone comma ds ≤ n := by
  cases ds with
  | nil =>
    rw [textMicros]
    cases zone with
    | utc =>
      refine iff_of_false (fun h => absurd (cons_le_cons.1 h) ?_) (Nat.not_le.2 hlt)
      exact not_or.2 ⟨by decide, fun h => absurd h.1 (by decide)⟩
    | _ =>
      refine iff_of_true (cons_le_cons.2 (.inl (by decide))) ?_
      rw [if_neg nofun]
      split
      · exact Nat.zero_le n
      · exact hpos
  | cons d ds =>
    rw [decimalChars, List.cons_append, textMicros]
    cases comma with
    | true => exact iff_of_true (cons_le_cons.2 (.inl (by decide))) hpos
    | false =>
      rw [if_neg Bool.false_ne_true, if_neg Bool.false_ne_true, cons_le_cons_self,
        decimals_le_iff, Nat.mod_eq_of_lt hlt]
      exact ⟨Nat.max_le.2 ∘ And.intro hpos, fun h => (Nat.max_le.1 h).2⟩

/-- Decimals of a second and an offset against those of a moment. -/
theorem startsAt_tail (zone : Zone) (comma : Bool) (ds : List (Fin 10)) :
    StartsAt (decimalChars comma ds ++ zone.chars) microChars (10 ^ 6)
      (textMicros zone comma ds) := by
  refine ⟨textMicros_le zone comma ds, fun n hlt => ?_⟩
  rw [microChars]
  split
  · next hn =>
    rw [hn]
    exact suffix_le_utc_iff zone comma ds
  · next hn => exact suffix_le_iff_of_pos zone comma ds (Nat.pos_of_ne_zero hn) hlt

/-! ## Times of day as texts -/

/-- The microseconds of a minute. -/
def minuteMicros : Nat := 60 * 10 ^ 6

def hourMicros : Nat := 60 * minuteMicros

def dayMicros : Nat := 24 * hourMicros

/-- The second and the microseconds of a moment, at a microsecond of the minute. -/
def secondText (n : Nat) : List Char := fixed 2 (n / 10 ^ 6) ++ microChars (n % 10 ^ 6)

/-- From the minute on, at a microsecond of the hour. -/
def minuteText (n : Nat) : List Char :=
  fixed 2 (n / minuteMicros) ++ ':' :: secondText (n % minuteMicros)

/-- From the hour on, at a microsecond of the day. -/
def hourText (n : Nat) : List Char :=
  fixed 2 (n / hourMicros) ++ ':' :: minuteText (n % hourMicros)

section

variable {x : List Char} {start : Nat}

theorem StartsAt.second (h : StartsAt x microChars (10 ^ 6) start) (a : Fin 61) :
    StartsAt (fixed 2 a ++ x) secondText minuteMicros
      (min (a * 10 ^ 6 + start) minuteMicros) := by
  rw [minuteMicros]
  exact h.field (Nat.lt_of_lt_of_le a.isLt (by decide)) (by decide)

theorem StartsAt.minute (h : StartsAt x (fun n => ':' :: secondText n) minuteMicros start)
    (a : Fin 60) :
    StartsAt (fixed 2 a ++ x) minuteText hourMicros
      (min (a * minuteMicros + start) hourMicros) := by
  rw [hourMicros]
  exact h.field (Nat.lt_of_lt_of_le a.isLt (by decide)) (by decide)

theorem StartsAt.hour (h : StartsAt x (fun n => ':' :: minuteText n) hourMicros start)
    (a : Fin 25) :
    StartsAt (fixed 2 a ++ x) hourText dayMicros (min (a * hourMicros + start) dayMicros) := by
  rw [dayMicros]
  exact h.field (Nat.lt_of_lt_of_le a.isLt (by decide)) (by decide)

end

/-- Where a moment has a colon: only a `Z` comes behind that. -/
def colonStart (zone : Zone) (decimals : List (Fin 10)) (bound : Nat) : Nat :=
  if decimals = [] ∧ zone = .utc then bound else 0

theorem startsAt_colon (zone : Zone) (comma : Bool) (ds : List (Fin 10)) (text : Nat → List Char)
    (bound : Nat) : StartsAt (decimalChars comma ds ++ zone.chars) (fun n => ':' :: text n) bound
      (colonStart zone ds bound) := by
  rw [colonStart]
  cases ds with
  | nil =>
    cases zone with
    | utc =>
      rw [if_pos ⟨rfl, rfl⟩]
      exact startsAt_of_gt (by decide)
    | _ =>
      rw [if_neg fun h => nomatch h.2]
      exact startsAt_of_lt (by decide)
  | cons d ds =>
    rw [if_neg fun h => List.cons_ne_nil d ds h.1]
    cases comma <;> exact startsAt_of_lt (by decide)

/-- A digit where a moment has a colon. -/
theorem startsAt_digits (n : Nat) (x : List Char) (text : Nat → List Char) (bound : Nat) :
    StartsAt (fixed 2 n ++ x) (fun n => ':' :: text n) bound 0 := by
  have hdigit : ∀ d : Fin 10, digit d < ':' := by decide
  exact startsAt_of_lt (hdigit _)

/-- The microsecond of the day from which on a moment's text is at or after this time of day. -/
def Instant.clockStart (i : Instant) : Nat :=
  match i.clock with
  | .hours hour =>
    min (hour * hourMicros + colonStart i.zone i.decimals hourMicros) dayMicros
  | .minutes hour minute =>
    min (hour * hourMicros + if i.basicClock then 0
      else min (minute * minuteMicros + colonStart i.zone i.decimals minuteMicros) hourMicros)
      dayMicros
  | .seconds hour minute second =>
    min (hour * hourMicros + if i.basicClock then 0
      else min (minute * minuteMicros +
          min (second * 10 ^ 6 + textMicros i.zone i.comma i.decimals) minuteMicros) hourMicros)
      dayMicros

theorem Instant.startsAt_clock (i : Instant) :
    StartsAt (i.clock.chars i.basicClock i.tail) hourText dayMicros i.clockStart := by
  rw [Instant.clockStart, Instant.tail]
  cases i.clock with
  | hours hour => exact (startsAt_colon _ _ _ minuteText hourMicros).hour hour
  | minutes hour minute =>
    dsimp only
    cases i.basicClock with
    | true =>
      rw [if_pos rfl]
      exact (startsAt_digits minute _ minuteText hourMicros).hour hour
    | false =>
      rw [if_neg Bool.false_ne_true]
      exact (((startsAt_colon _ _ _ secondText minuteMicros).minute minute).cons ':').hour hour
  | seconds hour minute second =>
    dsimp only
    cases i.basicClock with
    | true =>
      rw [if_pos rfl]
      exact (startsAt_digits minute _ minuteText hourMicros).hour hour
    | false =>
      rw [if_neg Bool.false_ne_true]
      exact (((((startsAt_tail i.zone i.comma i.decimals).second second).cons ':').minute
        minute).cons ':').hour hour

/-! ## Days as texts -/

/-- What a moment writes of its day, with something behind it. -/
def dayText (year month day : Nat) (rest : List Char) : List Char :=
  fixed 4 year ++ '-' :: (fixed 2 month ++ '-' :: (fixed 2 day ++ rest))

section Days

variable {year month day : Nat} {year' month' day' : Nat} {x y : List Char}

theorem month_lt (h : ValidDay year month day) : month < 10 ^ 2 :=
  Nat.lt_of_le_of_lt h.month_le (by decide)

theorem day_lt (h : ValidDay year month day) : day < 10 ^ 2 :=
  Nat.lt_of_le_of_lt h.day_le_thirtyOne (by decide)

/-- **Days in the format of a moment compare as these do**, and then what stands behind them. -/
theorem dayText_le_iff (hyear : year < 10 ^ 4) (hyear' : year' < 10 ^ 4)
    (h : ValidDay year month day) (h' : ValidDay year' month' day') :
    dayText year month day x ≤ dayText year' month' day' y ↔
      Calendar.ordinal year month day < Calendar.ordinal year' month' day' ∨
        Calendar.ordinal year month day = Calendar.ordinal year' month' day' ∧ x ≤ y := by
  rw [dayText, dayText, fixed_append_le_of_lt hyear hyear', cons_le_cons_self,
    fixed_append_le_of_lt (month_lt h) (month_lt h'), cons_le_cons_self,
    fixed_append_le_of_lt (day_lt h) (day_lt h'), h.ordinal_lt_iff h', h.ordinal_eq_iff h']
  norm_cast
  tauto

/-- A later character behind the year. -/
theorem year_le_iff {c : Char} (hc : '-' < c) (hyear : year < 10 ^ 4) (hyear' : year' < 10 ^ 4)
    (h' : ValidDay year' month' day') :
    fixed 4 year ++ c :: x ≤ dayText year' month' day' y ↔
      Calendar.ordinal year 13 1 ≤ Calendar.ordinal year' month' day' := by
  have hnot : ¬(c :: x ≤ '-' :: (fixed 2 month' ++ '-' :: (fixed 2 day' ++ y))) := fun hle =>
    (cons_le_cons.1 hle).elim (lt_asymm hc) fun he => hc.ne' he.1
  have hmonth := h'.month_le
  rw [dayText, fixed_append_le_of_lt hyear hyear', iff_false_intro hnot,
    and_false, or_false]
  refine Iff.trans ?_ (h'.firstDay_le_iff 12).symm
  omega

/-- A later character where the month should be. -/
theorem hyphen_year_le_iff {c : Char} (hc : ∀ d : Fin 10, digit d < c) (hyear : year < 10 ^ 4)
    (hyear' : year' < 10 ^ 4) (h' : ValidDay year' month' day') :
    fixed 4 year ++ '-' :: c :: x ≤ dayText year' month' day' y ↔
      Calendar.ordinal year 13 1 ≤ Calendar.ordinal year' month' day' := by
  have hnot : ¬(c :: x ≤ fixed 2 month' ++ '-' :: (fixed 2 day' ++ y)) := fun hle =>
    (cons_le_cons.1 hle).elim (lt_asymm (hc _)) fun he => (hc _).ne' he.1
  have hmonth := h'.month_le
  rw [dayText, fixed_append_le_of_lt hyear hyear', cons_le_cons_self, iff_false_intro hnot,
    and_false, or_false]
  refine Iff.trans ?_ (h'.firstDay_le_iff 12).symm
  omega

/-- A digit more than the month has. -/
theorem ordinal_le_iff (hyear : year < 10 ^ 4) (hyear' : year' < 10 ^ 4)
    (hday : day < 1000) (h' : ValidDay year' month' day') :
    fixed 4 year ++ '-' :: (fixed 3 day ++ x) ≤ dayText year' month' day' y ↔
      Calendar.ordinal year (min (day / 10 + 1) 13) 1 ≤ Calendar.ordinal year' month' day' := by
  have hdigit : ∀ d : Fin 10, '-' < digit d := by decide
  have hsplit : fixed 3 day = fixed 2 (day / 10) ++ [digit (Fin.ofNat 10 day)] := by
    simp [fixed, Nat.div_div_eq_div_mul]
  have hnot : ¬(digit (Fin.ofNat 10 day) :: x ≤ '-' :: (fixed 2 day' ++ y)) := fun hle =>
    (cons_le_cons.1 hle).elim (lt_asymm (hdigit _)) fun he => (hdigit _).ne' he.1
  rw [dayText, hsplit, List.append_assoc, fixed_append_le_of_lt hyear hyear', cons_le_cons_self,
    List.singleton_append, fixed_append_le_of_lt (by omega) (month_lt h'), iff_false_intro hnot,
    h'.firstDay_le_iff, and_false, or_false]
  omega

end Days

/-! ## Instants and moments as texts -/

/-- The microsecond from which on a moment's text is at or after the text of an instant: of the day,
if it is written as a moment writes it; else of the month behind the first two digits of the day, if
there is a hyphen and no week; else of the next year. -/
def Instant.textMicros (i : Instant) : Int :=
  match i.basicDay, i.day with
  | false, .calendar year month day => Calendar.ordinal year month day * dayMicros + i.clockStart
  | false, .ordinal year day => Calendar.ordinal year (min (day / 10 + 1) 13) 1 * dayMicros
  | _, day => Calendar.ordinal day.year 13 1 * dayMicros

/-- The microsecond of the day. -/
def Moment.ofDay (m : Moment) : Nat :=
  m.civil.hour * hourMicros + m.civil.minute * minuteMicros + m.civil.second * 10 ^ 6 +
    m.microsecond

theorem Moment.ofDay_lt (m : Moment) : m.ofDay < dayMicros := by
  have hhour := m.civil.hour_lt
  have hminute := m.civil.minute_lt
  have hsecond := m.civil.second_lt
  have hmicro := m.microsecond.isLt
  rw [ofDay, dayMicros, hourMicros, minuteMicros]
  omega

theorem Moment.micros_eq (m : Moment) : m.micros
    = Calendar.ordinal m.civil.year m.civil.month m.civil.day * dayMicros + m.ofDay := by
  rw [Moment.micros, ofDay, Civil.seconds, dayMicros, hourMicros, minuteMicros]
  push_cast
  omega

theorem Moment.isoformat_eq (m : Moment) : m.isoformat = String.ofList
    (dayText m.civil.year m.civil.month m.civil.day ('T' :: hourText m.ofDay)) := by
  have hminute := m.civil.minute_lt
  have hsecond := m.civil.second_lt
  have hmicro := m.microsecond.isLt
  have hhour : m.ofDay / hourMicros = m.civil.hour := by
    rw [ofDay, hourMicros, minuteMicros]
    omega
  have hrest : m.ofDay % hourMicros
      = m.civil.minute * minuteMicros + m.civil.second * 10 ^ 6 + m.microsecond := by
    rw [ofDay, hourMicros, minuteMicros]
    omega
  have hminutes : (m.civil.minute * minuteMicros + m.civil.second * 10 ^ 6 + m.microsecond)
      / minuteMicros = m.civil.minute := by
    rw [minuteMicros]
    omega
  have hrest' : (m.civil.minute * minuteMicros + m.civil.second * 10 ^ 6 + m.microsecond)
      % minuteMicros = m.civil.second * 10 ^ 6 + m.microsecond := by
    rw [minuteMicros]
    omega
  have hseconds : (m.civil.second * 10 ^ 6 + m.microsecond) / 10 ^ 6 = m.civil.second := by omega
  have hmicros : (m.civil.second * 10 ^ 6 + m.microsecond) % 10 ^ 6 = m.microsecond := by omega
  rw [isoformat, dayText, hourText, hhour, hrest, minuteText, hminutes, hrest', secondText,
    hseconds, hmicros]

theorem le_dayMicros_iff {a b : Int} {start n : Nat} (hstart : start ≤ dayMicros)
    (hn : n < dayMicros) : a * dayMicros + start ≤ b * dayMicros + n ↔
      a < b ∨ a = b ∧ start ≤ n := by
  rw [dayMicros, hourMicros, minuteMicros] at *
  omega

theorem day_le_micros_iff {a b : Int} {n : Nat} (hn : n < dayMicros) :
    a * dayMicros ≤ b * dayMicros + n ↔ a ≤ b := by
  rw [dayMicros, hourMicros, minuteMicros] at *
  omega

theorem Day.Valid.lt_thousand {year day : Nat} (h : (Day.ordinal year day).Valid) : day < 1000 := by
  have hday := h.2
  rw [daysBeforeYear_succ] at hday
  split at hday <;> omega

/-- **The text of an instant is at or before that of a moment from this microsecond on.** -/
theorem text_le_isoformat_iff (i : Instant) (m : Moment) :
    i.text ≤ m.isoformat ↔ i.textMicros ≤ m.micros := by
  have hclock := i.startsAt_clock
  have hvalid := i.valid
  have hyear := i.year_lt
  have hyear' : m.civil.year < 10 ^ 4 := m.civil.year_lt
  have hlt := m.ofDay_lt
  have hdigit : ∀ d : Fin 10, '-' < digit d := by decide
  have hweek : ∀ d : Fin 10, digit d < 'W' := by decide
  rw [String.le_iff_toList_le, Instant.text, m.isoformat_eq, String.toList_ofList,
    String.toList_ofList, m.micros_eq, Instant.textMicros]
  cases hbasic : i.basicDay with
  | false =>
    cases hday : i.day with
    | calendar year month day =>
      rw [hday] at hvalid hyear
      refine (dayText_le_iff hyear hyear' hvalid m.civil.valid).trans ?_
      dsimp only
      rw [cons_le_cons_self, hclock.iff _ hlt, le_dayMicros_iff hclock.le hlt]
      exact Iff.rfl
    | week year number weekday =>
      rw [hday] at hyear
      dsimp only
      rw [day_le_micros_iff hlt]
      exact hyphen_year_le_iff hweek hyear hyear' m.civil.valid
    | ordinal year day =>
      rw [hday] at hvalid hyear
      dsimp only
      rw [day_le_micros_iff hlt]
      exact ordinal_le_iff hyear hyear' hvalid.lt_thousand m.civil.valid
  | true =>
    dsimp only
    rw [day_le_micros_iff hlt]
    cases hday : i.day with
    | calendar year month day =>
      rw [hday] at hyear
      exact year_le_iff (hdigit _) hyear hyear' m.civil.valid
    | week year number weekday =>
      rw [hday] at hyear
      exact year_le_iff (by decide) hyear hyear' m.civil.valid
    | ordinal year day =>
      rw [hday] at hyear
      exact year_le_iff (hdigit _) hyear hyear' m.civil.valid

/-! ## Exact texts -/

theorem value_take (d : Fin 10) (ds : List (Fin 10)) (width : Nat) :
    value ((d :: ds).take (width + 1)) * 10 ^ (width - ds.length)
      = d * 10 ^ width + value (ds.take width) * 10 ^ (width - ds.length) := by
  have hpow : 10 ^ min width ds.length * 10 ^ (width - ds.length) = 10 ^ width := by
    rw [← Nat.pow_add]
    congr 1
    omega
  rw [List.take_succ_cons, value, List.length_take, Nat.add_mul, Nat.mul_assoc, hpow]

/-- What the threshold comes to: the decimals, cut to the width, and one more in the last place that
counts if they end in `Z`, go beyond the width, or fill it with another offset behind them. -/
theorem threshold_eq (zone : Zone) : ∀ (ds : List (Fin 10)) (width : Nat),
    threshold zone ds width = value (ds.take width) * 10 ^ (width - ds.length) +
      if ds.length < width then if zone = .utc then 10 ^ (width - ds.length) else 0
      else if ds.length = width ∧ zone.plain then 0 else 1
  | [], width + 1 => by simp [threshold, value]
  | [], 0 => by simp [threshold, value]
  | _ :: _, 0 => by simp [threshold, value]
  | d :: ds, width + 1 => by
    have hlength : width + 1 - (d :: ds).length = width - ds.length := by
      rw [List.length_cons]
      omega
    rw [threshold, threshold_eq zone ds width, hlength, value_take, List.length_cons, Nat.add_assoc]
    simp only [Nat.add_lt_add_iff_right, Nat.add_right_cancel_iff]

/-- An instant as a moment writes itself: an hour of the day and no second that has been inserted,
no offset, which is not `Z`, and behind a point up to six decimals that are not all zero, if any.
-/
structure Instant.IsExact (i : Instant) : Prop where
  day : i.basicDay = false ∧ ∃ year month day, i.day = .calendar year month day
  clock : i.basicClock = false ∧ ∃ (hour : Fin 25) (minute : Fin 60) (second : Fin 61),
    i.clock = .seconds hour minute second ∧ (hour : Nat) < 24 ∧ (second : Nat) < 60
  zone : i.zone.plain = true ∧ i.zone.seconds = 0
  decimals : i.decimals = [] ∨ i.comma = false ∧ i.decimals.length ≤ 6 ∧ value i.decimals ≠ 0

theorem Zone.ne_utc_of_plain {zone : Zone} (h : zone.plain = true) : zone ≠ .utc := by
  rintro rfl
  cases h

theorem textMicros_exact {zone : Zone} {comma : Bool} {ds : List (Fin 10)}
    (hzone : zone.plain = true)
    (h : ds = [] ∨ comma = false ∧ ds.length ≤ 6 ∧ value ds ≠ 0) :
    textMicros zone comma ds = value ds * 10 ^ (6 - ds.length) := by
  have hutc := Zone.ne_utc_of_plain hzone
  cases ds with
  | nil =>
    rw [textMicros, if_neg hutc, if_pos hzone, value, Nat.zero_mul]
  | cons d ds =>
    obtain ⟨rfl, hlength, hvalue⟩ := h.resolve_left (List.cons_ne_nil d ds)
    have hpos : 1 ≤ value (d :: ds) * 10 ^ (6 - (d :: ds).length) :=
      Nat.mul_pos (Nat.pos_of_ne_zero hvalue) (Nat.pow_pos (by decide))
    rw [textMicros, if_neg Bool.false_ne_true, threshold_eq, List.take_of_length_le hlength]
    rcases Nat.eq_or_lt_of_le hlength with heq | hlt
    · rw [if_neg (Nat.not_lt.2 heq.ge), if_pos ⟨heq, hzone⟩]
      exact Nat.max_eq_right hpos
    · rw [if_pos hlt, if_neg hutc]
      exact Nat.max_eq_right hpos

/-- The microsecond of the day of such an instant. -/
theorem Instant.IsExact.clockStart_eq {i : Instant} (h : i.IsExact) :
    i.clockStart = i.clock.count * 10 ^ 6 + Timestamps.textMicros i.zone i.comma i.decimals := by
  obtain ⟨-, ⟨hbasic, hour, minute, second, hclock, hhour, hsecond⟩, -, -⟩ := h
  have hminute := minute.isLt
  have hle := textMicros_le i.zone i.comma i.decimals
  rw [Instant.clockStart, hclock, hbasic, Clock.count, dayMicros, hourMicros, minuteMicros]
  dsimp only
  rw [if_neg Bool.false_ne_true]
  omega

/-- **Such a text compares as the instant does.** -/
theorem Instant.IsExact.textMicros_eq {i : Instant} (h : i.IsExact) :
    (i.textMicros : ℚ) = i.micros := by
  have hclock := h.clockStart_eq
  obtain ⟨⟨hbasic, year, month, day, hday⟩, ⟨-, hour, minute, second, hseconds, -, -⟩,
    ⟨hplain, hzone⟩, hdecimals⟩ := h
  have hlength : i.decimals.length ≤ 6 := by
    rcases hdecimals with hnil | ⟨-, hlength, -⟩
    · rw [hnil]
      decide
    · exact hlength
  have hpow : (10 : ℚ) ^ 6 = 10 ^ (6 - i.decimals.length) * 10 ^ i.decimals.length := by
    rw [← pow_add, Nat.sub_add_cancel hlength]
  have hne : (10 : ℚ) ^ i.decimals.length ≠ 0 := pow_ne_zero _ (by decide)
  have hscale : (value i.decimals : ℚ) * (i.clock.unit * 10 ^ 6) / 10 ^ i.decimals.length
      = value i.decimals * 10 ^ (6 - i.decimals.length) := by
    rw [hseconds, Clock.unit, Nat.cast_one, one_mul, hpow, ← mul_assoc,
      mul_div_cancel_right₀ _ hne]
  rw [Instant.textMicros, hbasic, hday]
  dsimp only
  rw [Instant.micros, hscale, hzone, hday, Day.count, hclock, textMicros_exact hplain hdecimals,
    dayMicros, hourMicros, minuteMicros]
  push_cast
  ring

/-! ### Moments -/

/-- The digits of `fixed`. -/
def lastDigits : Nat → Nat → List (Fin 10)
  | 0, _ => []
  | width + 1, n => Fin.ofNat 10 (n / 10 ^ width) :: lastDigits width n

theorem map_lastDigits (n : Nat) : ∀ width, (lastDigits width n).map digit = fixed width n
  | 0 => rfl
  | width + 1 => by rw [lastDigits, List.map_cons, map_lastDigits n width, fixed]

theorem length_lastDigits (n : Nat) : ∀ width, (lastDigits width n).length = width
  | 0 => rfl
  | width + 1 => by rw [lastDigits, List.length_cons, length_lastDigits n width]

theorem value_lastDigits (n : Nat) : ∀ width, value (lastDigits width n) = n % 10 ^ width
  | 0 => by rw [lastDigits, value, Nat.pow_zero, Nat.mod_one]
  | width + 1 => by
    rw [lastDigits, value, length_lastDigits, value_lastDigits n width, mod_pow_succ]
    rfl

theorem value_lt : ∀ ds : List (Fin 10), value ds < 10 ^ ds.length
  | [] => by decide
  | d :: ds => by
    have ih := value_lt ds
    have hd : (d : Nat) * 10 ^ ds.length ≤ 9 * 10 ^ ds.length :=
      Nat.mul_le_mul_right _ (Nat.le_of_lt_succ d.isLt)
    rw [value, List.length_cons, Nat.pow_succ]
    omega

/-- The decimals that a moment writes. -/
def Moment.decimals (m : Moment) : List (Fin 10) :=
  if m.microsecond = 0 then [] else lastDigits 6 m.microsecond

/-- A moment as an instant. -/
def Moment.instant (m : Moment) : Instant where
  day := .calendar m.civil.year m.civil.month m.civil.day
  basicDay := false
  clock := .seconds ⟨m.civil.hour, m.civil.hour_lt.trans (by decide)⟩
    ⟨m.civil.minute, m.civil.minute_lt⟩ ⟨m.civil.second, m.civil.second_lt.trans (by decide)⟩
  basicClock := false
  comma := false
  decimals := m.decimals
  zone := .plus false 0 0
  year_lt := m.civil.year_lt
  valid := m.civil.valid
  ends := by
    have hhour := m.civil.hour_lt
    have hminute := m.civil.minute_lt
    have hsecond := m.civil.second_lt
    have hvalue := value_lt m.decimals
    have hcount : m.civil.hour * 3600 + m.civil.minute * 60 + m.civil.second + 1 ≤ 86400 := by
      omega
    have hmul := Nat.mul_le_mul_right (10 ^ m.decimals.length) hcount
    rw [Nat.add_mul, Nat.one_mul] at hmul
    show (m.civil.hour * 3600 + m.civil.minute * 60 + m.civil.second) * 10 ^ m.decimals.length +
      value m.decimals * 1 ≤ 86400 * 10 ^ m.decimals.length
    omega

theorem decimalChars_moment (m : Moment) :
    decimalChars false m.decimals ++ utcChars = microChars m.microsecond := by
  rw [Moment.decimals, microChars]
  by_cases h : m.microsecond = 0
  · rw [if_pos h, if_pos (Fin.val_eq_zero_iff.2 h)]
    rfl
  · rw [if_neg h, if_neg fun h0 => h (Fin.val_eq_zero_iff.1 h0), ← map_lastDigits]
    rfl

/-- It is written in the same way. -/
theorem Moment.text_instant (m : Moment) : m.instant.text = m.isoformat := by
  rw [isoformat, ← decimalChars_moment]
  rfl

theorem Moment.value_decimals (m : Moment) :
    value m.decimals * 10 ^ (6 - m.decimals.length) = m.microsecond := by
  rw [decimals]
  split
  · next h => rw [h]; rfl
  · rw [value_lastDigits, length_lastDigits, Nat.sub_self, Nat.pow_zero, Nat.mul_one,
      Nat.mod_eq_of_lt m.microsecond.isLt]

theorem Moment.instant_isExact (m : Moment) : m.instant.IsExact := by
  refine ⟨⟨rfl, _, _, _, rfl⟩, ⟨rfl, _, _, _, rfl, m.civil.hour_lt, m.civil.second_lt⟩,
    ⟨rfl, rfl⟩, ?_⟩
  show m.decimals = [] ∨ _
  rw [or_iff_not_imp_left]
  intro hne
  have h : m.microsecond ≠ 0 := fun h => hne (if_pos h)
  have hdecimals : m.decimals = lastDigits 6 m.microsecond := if_neg h
  show false = false ∧ m.decimals.length ≤ 6 ∧ value m.decimals ≠ 0
  rw [hdecimals, length_lastDigits, value_lastDigits, Nat.mod_eq_of_lt m.microsecond.isLt]
  exact ⟨rfl, Nat.le_refl 6, fun h0 => h (Fin.ext h0)⟩

/-- The microsecond from which texts are at or after that of a moment is its own. -/
theorem Moment.textMicros_instant (m : Moment) : m.instant.textMicros = m.micros := by
  have hexact := m.instant_isExact
  have hdecimals := textMicros_exact hexact.zone.1 hexact.decimals
  have hclock := hexact.clockStart_eq
  rw [hdecimals] at hclock
  have hvalue : value m.instant.decimals * 10 ^ (6 - m.instant.decimals.length) = m.microsecond :=
    m.value_decimals
  have hcount : m.instant.clock.count
      = m.civil.hour * 3600 + m.civil.minute * 60 + m.civil.second := rfl
  rw [hvalue, hcount] at hclock
  have htext : m.instant.textMicros = Calendar.ordinal m.civil.year m.civil.month m.civil.day *
      dayMicros + m.instant.clockStart := rfl
  rw [htext, hclock, m.micros_eq, ofDay, dayMicros, hourMicros, minuteMicros]
  push_cast
  omega

/-- **Moments compare as their texts do.** -/
theorem isoformat_le_iff (m m' : Moment) : m.isoformat ≤ m'.isoformat ↔ m.micros ≤ m'.micros := by
  rw [← m.text_instant, text_le_isoformat_iff, m.textMicros_instant]

/-- Moments with one text are the same microsecond. -/
theorem micros_eq_of_isoformat_eq {m m' : Moment} (h : m.isoformat = m'.isoformat) :
    m.micros = m'.micros :=
  le_antisymm ((isoformat_le_iff m m').1 h.le) ((isoformat_le_iff m' m).1 h.ge)

/-- No text of a moment has a space in it. -/
theorem space_not_mem_isoformat (m : Moment) : ' ' ∉ m.isoformat.toList := by
  have hdigit : ∀ d : Fin 10, ' ' ≠ digit d := by decide
  have hfixed : ∀ width n, ' ' ∉ fixed width n := by
    intro width n
    rw [← map_lastDigits, List.mem_map]
    rintro ⟨d, -, hd⟩
    exact hdigit d hd.symm
  have hutc : ' ' ∉ utcChars := by decide
  have hmicro : ' ' ∉ microChars m.microsecond := by
    rw [microChars]
    split <;> simp [hfixed, hutc]
  rw [Moment.isoformat, String.toList_ofList]
  simp [hfixed, hmicro]

end Timestamps
