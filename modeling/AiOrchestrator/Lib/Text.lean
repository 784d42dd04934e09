import Mathlib.Algebra.Order.Ring.Nat
import Mathlib.Data.List.Infix
import Mathlib.Data.List.Lex
import Mathlib.Data.List.Sort

/-!
# Text as scripting languages see it

The string operations of the ECMAScript standard library that programs apply to
ids, titles and time stamps, as functions on the characters of a string:
white-space trimming, substring search, lengths and prefixes in UTF-16 code
units, ASCII case folding, `base64url`, and the ISO 8601 date-time form with its
reading as milliseconds since the epoch.

All functions are structurally recursive on character lists, so that they can be
evaluated on concrete strings.
-/

namespace Text

/-! ### Blank text -/

/-- The characters `String.prototype.trim` removes: white space and line
terminators. -/
def isSpace (c : Char) : Bool :=
  let n := c.toNat
  (9 ≤ n && n ≤ 13) || n = 0x20 || n = 0xA0 || n = 0x1680 || (0x2000 ≤ n && n ≤ 0x200A) ||
    n = 0x2028 || n = 0x2029 || n = 0x202F || n = 0x205F || n = 0x3000 || n = 0xFEFF

/-- `s.trim()`. -/
def trim (s : String) : String :=
  String.ofList (((s.toList.dropWhile isSpace).reverse.dropWhile isSpace).reverse)

/-- `s.trimEnd()`. -/
def trimEnd (s : String) : String := String.ofList ((s.toList.reverse.dropWhile isSpace).reverse)

/-- `!s.trim()`: nothing is left after trimming. -/
def isBlank (s : String) : Bool := s.toList.all isSpace

/-! ### Searching -/

/-- `hay.includes(needle)` on characters. -/
def hasInfix (needle : List Char) : List Char → Bool
  | [] => needle.isEmpty
  | c :: cs => needle.isPrefixOf (c :: cs) || hasInfix needle cs

/-- `hay.includes(needle)`. -/
def includes (hay needle : String) : Bool := hasInfix needle.toList hay.toList

/-- `s.startsWith(start)`. -/
def startsWith (s start : String) : Bool := start.toList.isPrefixOf s.toList

/-- `s.endsWith(stop)`. -/
def endsWith (s stop : String) : Bool := stop.toList.isSuffixOf s.toList

/-- ASCII letters in lower case, all other characters unchanged. -/
def lowerAscii (s : String) : String := String.ofList (s.toList.map Char.toLower)

/-- One character of `toLowerCase`, as far as a search for ASCII text can tell: besides the
ASCII letters, the Kelvin sign and the capital dotted I have lower cases with ASCII letters. -/
def lowerChar (c : Char) : List Char :=
  if c.toNat = 0x212A then ['k']
  else if c.toNat = 0x130 then ['i', Char.ofNat 0x307]
  else [c.toLower]

/-- `s.toLowerCase()`, as far as a search for ASCII text can tell. -/
def lowerCase (s : String) : String := String.ofList (s.toList.flatMap lowerChar)

/-- `s.split(separator)` for a separator of one character. -/
def splitOnChar (separator : Char) (s : String) : List String :=
  (s.toList.splitOn separator).map String.ofList

/-- A character before the small letters comes from itself only. -/
theorem eq_of_mem_lowerChar {c d : Char} (hd : d.toNat < 97) (h : d ∈ lowerChar c) : c = d := by
  unfold lowerChar at h
  split at h
  · have hk : d = 'k' := by simpa using h
    subst hk
    simp at hd
  · split at h
    · rcases List.mem_cons.mp h with hi | hdot
      · subst hi
        simp at hd
      · have hsame : d = Char.ofNat 0x307 := by simpa using hdot
        subst hsame
        simp at hd
    · have hlower : d = c.toLower := by simpa using h
      unfold Char.toLower at hlower
      split at hlower
      · next hupper =>
        -- a capital letter becomes a small one
        have hval : d.toNat = c.toNat + 32 := by
          rw [hlower]
          have hle : c.val.toNat ≤ 90 := hupper.2
          show (c.val + ('a'.val - 'A'.val)).toNat = c.val.toNat + 32
          rw [UInt32.toNat_add]
          have hdiff : ('a'.val - 'A'.val).toNat = 32 := by decide
          rw [hdiff]
          omega
        have hge : 65 ≤ c.toNat := hupper.1
        omega
      · exact hlower.symm

theorem hasInfix_iff {needle hay : List Char} : hasInfix needle hay = true ↔ needle <:+: hay := by
  induction hay with
  | nil => simp [hasInfix, List.isEmpty_iff]
  | cons c cs ih =>
    rw [hasInfix, Bool.or_eq_true, ih, List.isPrefixOf_iff_prefix, List.infix_cons_iff]

theorem includes_iff {hay needle : String} :
    includes hay needle = true ↔ needle.toList <:+: hay.toList :=
  hasInfix_iff

theorem endsWith_iff {s stop : String} :
    endsWith s stop = true ↔ ∃ start : String, s = start ++ stop := by
  rw [endsWith, List.isSuffixOf_iff_suffix]
  constructor
  · rintro ⟨front, h⟩
    refine ⟨String.ofList front, String.toList_inj.mp ?_⟩
    simp [h]
  · rintro ⟨start, rfl⟩
    exact ⟨start.toList, by simp⟩

/-! ### UTF-16 lengths -/

/-- The number of UTF-16 code units of a character. -/
def units (c : Char) : Nat := if c.toNat < 0x10000 then 1 else 2

/-- `s.length`. -/
def utf16Length (s : String) : Nat := (s.toList.map units).sum

/-- The UTF-16 code units of a character. -/
def charUnits (c : Char) : List Nat :=
  if c.toNat < 0x10000 then [c.toNat]
  else [0xD800 + (c.toNat - 0x10000) / 0x400, 0xDC00 + (c.toNat - 0x10000) % 0x400]

/-- `entries.sort()`: by the UTF-16 code units of the texts. -/
def sort (entries : List String) : List String :=
  entries.insertionSort fun a b => a.toList.flatMap charUnits ≤ b.toList.flatMap charUnits

/-- The longest prefix within `n` code units. Where the cut falls inside a surrogate
pair the half that JavaScript keeps is written as the replacement character. -/
def takeUnits : Nat → List Char → List Char
  | 0, _ => []
  | _, [] => []
  | 1, c :: _ => if units c = 1 then [c] else ['\uFFFD']
  | n + 2, c :: cs => if units c = 1 then c :: takeUnits (n + 1) cs else c :: takeUnits n cs

/-- `s.slice(0, n)`. -/
def sliceTo (s : String) (n : Nat) : String := String.ofList (takeUnits n s.toList)

/-- The characters from the code unit `n` on, with the half of a surrogate pair that the cut leaves
written as the replacement character. -/
def dropUnits : Nat → List Char → List Char
  | 0, cs => cs
  | _, [] => []
  | 1, c :: cs => if units c = 1 then cs else '\uFFFD' :: cs
  | n + 2, c :: cs => if units c = 1 then dropUnits (n + 1) cs else dropUnits n cs

/-- `s.slice(n)`. -/
def sliceFrom (s : String) (n : Nat) : String := String.ofList (dropUnits n s.toList)

/-! ### base64url -/

/-- The digit of a six-bit number in the URL-safe alphabet. -/
def base64Digit (n : Nat) : Char :=
  if n < 26 then Char.ofNat (65 + n)
  else if n < 52 then Char.ofNat (97 + (n - 26))
  else if n < 62 then Char.ofNat (48 + (n - 52))
  else if n = 62 then '-'
  else '_'

/-- Bytes in URL-safe base 64, without padding. -/
def base64Bytes : List Nat → List Char
  | [] => []
  | [a] => [base64Digit (a / 4), base64Digit (a % 4 * 16)]
  | [a, b] => [base64Digit (a / 4), base64Digit (a % 4 * 16 + b / 16), base64Digit (b % 16 * 4)]
  | a :: b :: c :: rest =>
    base64Digit (a / 4) :: base64Digit (a % 4 * 16 + b / 16) ::
      base64Digit (b % 16 * 4 + c / 64) :: base64Digit (c % 64) :: base64Bytes rest

/-- `Buffer.from(s).toString('base64url')`. -/
def base64Url (s : String) : String :=
  String.ofList (base64Bytes (s.toList.flatMap fun c =>
    (String.utf8EncodeChar c).map UInt8.toNat))

/-! ### ISO 8601 date-times -/

/-- The fields of an ISO date-time with offset. -/
structure DateTime where
  year : Int
  month : Nat
  day : Nat
  hour : Nat
  minute : Nat
  second : Nat
  /-- Milliseconds; further digits of the fraction are cut off. -/
  millis : Nat
  /-- Minutes east of UTC. -/
  offset : Int
deriving DecidableEq

/-- The value of a decimal digit. -/
def digit? (c : Char) : Option Nat :=
  if '0'.toNat ≤ c.toNat ∧ c.toNat ≤ '9'.toNat then some (c.toNat - '0'.toNat) else none

/-- Read exactly `n` decimal digits. -/
def takeDigits : Nat → List Char → Option (Nat × List Char)
  | 0, cs => some (0, cs)
  | _ + 1, [] => none
  | n + 1, c :: cs => do
    let d ← digit? c
    let (rest, cs) ← takeDigits n cs
    pure (d * 10 ^ n + rest, cs)

/-- Read one given character. -/
def takeChar (c : Char) : List Char → Option (List Char)
  | [] => none
  | d :: cs => if d = c then some cs else none

/-- Read the remaining digits of a fraction of a second: the milliseconds, and what
follows the digits. `scale` is the weight of the next digit in milliseconds. -/
def takeFraction : Nat → List Char → Nat × List Char
  | _, [] => (0, [])
  | scale, c :: cs =>
    match digit? c with
    | none => (0, c :: cs)
    | some d => let (ms, rest) := takeFraction (scale / 10) cs; (d * scale + ms, rest)

def isLeapYear (year : Int) : Bool := year % 4 = 0 && (year % 100 != 0 || year % 400 = 0)

def daysInMonth (year : Int) (month : Nat) : Nat :=
  if month = 2 then (if isLeapYear year then 29 else 28)
  else if month = 4 ∨ month = 6 ∨ month = 9 ∨ month = 11 then 30
  else 31

/-- Read the seconds and their fraction, which may both be absent. -/
def takeSeconds : List Char → Option ((Nat × Nat) × List Char)
  | ':' :: cs => do
    let (second, cs) ← takeDigits 2 cs
    guard (second < 60)
    match cs with
    | '.' :: c :: cs =>
      let _ ← digit? c
      let (millis, rest) := takeFraction 100 (c :: cs)
      pure ((second, millis), rest)
    | cs => pure ((second, 0), cs)
  | cs => some ((0, 0), cs)

/-- Read the zone: `Z` or an offset of hours and minutes. -/
def takeZone : List Char → Option Int
  | ['Z'] => some 0
  | sign :: cs => do
    guard (sign = '+' ∨ sign = '-')
    let (hours, cs) ← takeDigits 2 cs
    let cs ← takeChar ':' cs
    let (minutes, cs) ← takeDigits 2 cs
    guard (hours < 24 ∧ minutes < 60 ∧ cs = [])
    let offset : Int := hours * 60 + minutes
    pure (if sign = '+' then offset else -offset)
  | [] => none

/-- Read a year: four digits, or a sign and six digits. -/
def takeYear : List Char → Option (Int × List Char)
  | '+' :: cs => do
    let (year, cs) ← takeDigits 6 cs
    pure ((year : Int), cs)
  | '-' :: cs => do
    let (year, cs) ← takeDigits 6 cs
    guard (year ≠ 0)
    pure (-(year : Int), cs)
  | cs => do
    let (year, cs) ← takeDigits 4 cs
    pure ((year : Int), cs)

/-- Read an ISO 8601 date-time with a zone. -/
def parseDateTime (s : String) : Option DateTime := do
  let (year, cs) ← takeYear s.toList
  let cs ← takeChar '-' cs
  let (month, cs) ← takeDigits 2 cs
  let cs ← takeChar '-' cs
  let (day, cs) ← takeDigits 2 cs
  let cs ← takeChar 'T' cs
  let (hour, cs) ← takeDigits 2 cs
  let cs ← takeChar ':' cs
  let (minute, cs) ← takeDigits 2 cs
  let ((second, millis), cs) ← takeSeconds cs
  let offset ← takeZone cs
  guard (1 ≤ month ∧ month ≤ 12 ∧ 1 ≤ day ∧ day ≤ daysInMonth year month)
  guard (hour < 24 ∧ minute < 60)
  pure { year, month, day, hour, minute, second, millis, offset }

/-- Whether a text is an ISO 8601 date-time with a zone and a year of four digits. -/
def isIsoDateTime (s : String) : Bool :=
  match s.toList with
  | '+' :: _ | '-' :: _ => false
  | _ => (parseDateTime s).isSome

/-- Days from 1970-01-01 to a date of the proleptic Gregorian calendar. -/
def daysFromCivil (year : Int) (month day : Nat) : Int :=
  let y := if month ≤ 2 then year - 1 else year
  let era := y / 400
  let yearOfEra := y - era * 400
  let monthIndex : Int := if month > 2 then (month : Int) - 3 else (month : Int) + 9
  let dayOfYear := (153 * monthIndex + 2) / 5 + (day : Int) - 1
  let dayOfEra := yearOfEra * 365 + yearOfEra / 4 - yearOfEra / 100 + dayOfYear
  era * 146097 + dayOfEra - 719468

/-- The time of a date-time, in milliseconds from 1970-01-01. -/
def DateTime.time (d : DateTime) : Int :=
  let days := daysFromCivil d.year d.month d.day
  let minutes := (days * 24 + d.hour) * 60 + d.minute - d.offset
  (minutes * 60 + d.second) * 1000 + d.millis

/-- The times that a date can have. -/
def isTime (ms : Int) : Bool := -8640000000000000 ≤ ms && ms ≤ 8640000000000000

/-- `Date.parse(s)` for ISO date-times; `none` is `NaN`. -/
def dateParse (s : String) : Option Int := do
  let d ← parseDateTime s
  guard (isTime d.time)
  pure d.time

/-- `n` in decimal with leading zeros up to `width` digits. -/
def padded (width n : Nat) : String :=
  let digits := toString n
  String.ofList (List.replicate (width - digits.length) '0') ++ digits

/-- The year, month and day of a number of days from 1970-01-01. -/
def civilFromDays (days : Int) : Int × Nat × Nat :=
  let z := days + 719468
  let era := z / 146097
  let dayOfEra := z % 146097
  let yearOfEra := (dayOfEra - dayOfEra / 1460 + dayOfEra / 36524 - dayOfEra / 146096) / 365
  let dayOfYear := dayOfEra - (365 * yearOfEra + yearOfEra / 4 - yearOfEra / 100)
  let monthIndex := (5 * dayOfYear + 2) / 153
  let day := (dayOfYear - (153 * monthIndex + 2) / 5 + 1).toNat
  let month := (if monthIndex < 10 then monthIndex + 3 else monthIndex - 9).toNat
  (yearOfEra + era * 400 + (if month ≤ 2 then 1 else 0), month, day)

/-- A year with four digits, or with a sign and six. -/
def yearText (year : Int) : String :=
  if 0 ≤ year ∧ year ≤ 9999 then padded 4 year.toNat
  else (if year < 0 then "-" else "+") ++ padded 6 year.natAbs

/-- `new Date(ms).toISOString()` of a time that a date can have. -/
def toIsoString (ms : Int) : String :=
  let (year, month, day) := civilFromDays (ms / 86400000)
  let inDay := (ms % 86400000).toNat
  yearText year ++ "-" ++ padded 2 month ++ "-" ++ padded 2 day ++ "T" ++
    padded 2 (inDay / 3600000) ++ ":" ++ padded 2 (inDay / 60000 % 60) ++ ":" ++
    padded 2 (inDay / 1000 % 60) ++ "." ++ padded 3 (inDay % 1000) ++ "Z"

example : (dateParse "2026-03-01T12:30:15.250+02:00").map toIsoString =
    some "2026-03-01T10:30:15.250Z" := by decide +kernel

example : isIsoDateTime "2025-02-29T00:00:00Z" = false := by decide +kernel

end Text
