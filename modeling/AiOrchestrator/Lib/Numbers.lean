import AiOrchestrator.Lib.Json
import Mathlib.Data.Rat.Defs
import Mathlib.Algebra.Order.Field.Basic
import Mathlib.Algebra.Order.Field.Rat
import Mathlib.Tactic.FieldSimp
import Mathlib.Tactic.Ring
import Mathlib.Data.List.TakeWhile
import Mathlib.Data.Nat.MaxPowDiv

/-!
# Numbers and their texts

`Number.prototype.toString` writes a finite number as the shortest decimal that is read back as it.
A number is represented here by that decimal: a coefficient without trailing zeros, times a power of
ten. `Decimal.text` follows the cases of the ECMAScript `Number::toString`, and `Decimal.read` reads
such a text back, so that the text determines the number (`Decimal.text_injective`).
-/

/-- **A decimal number** `coefficient * 10 ^ exponent`. -/
structure Decimal where
  coefficient : Int
  exponent : Int
  normal : coefficient % 10 ≠ 0 ∨ (coefficient = 0 ∧ exponent = 0)
deriving DecidableEq

namespace Decimal

/-- The value of a decimal number. -/
def value (d : Decimal) : ℚ := d.coefficient * 10 ^ d.exponent

/-! ### Texts -/

/-- The exponent part of a text. -/
def exponentText (e : Int) : List Char :=
  'e' :: (if e < 0 then '-' else '+') :: Nat.toDigits 10 e.natAbs

/-- The text of the positive number with the digits `s` and the point behind the first `n` of
them. -/
def digitsText (s : List Char) (n : Int) : List Char :=
  if s.length ≤ n ∧ n ≤ 21 then s ++ List.replicate (n - s.length).toNat '0'
  else if 0 < n ∧ n ≤ 21 then s.take n.toNat ++ '.' :: s.drop n.toNat
  else if -6 < n ∧ n ≤ 0 then '0' :: '.' :: (List.replicate (-n).toNat '0' ++ s)
  else if s.length = 1 then s ++ exponentText (n - 1)
  else s.take 1 ++ '.' :: (s.drop 1 ++ exponentText (n - 1))

/-- The characters of `Number::toString`. -/
def chars (d : Decimal) : List Char :=
  let s := Nat.toDigits 10 d.coefficient.natAbs
  if d.coefficient = 0 then ['0']
  else if d.coefficient < 0 then '-' :: digitsText s (s.length + d.exponent)
  else digitsText s (s.length + d.exponent)

/-- `String(value)`. -/
def text (d : Decimal) : String := String.ofList d.chars

/-! ### Reading texts back -/

/-- The number that a list of digits writes. -/
def ofDigits (s : List Char) : ℚ := (Nat.ofDigitChars 10 s 0 : ℕ)

/-- The number behind an `e`. -/
def readExponent : List Char → Int
  | 'e' :: '-' :: s => -(Nat.ofDigitChars 10 s 0 : ℕ)
  | 'e' :: '+' :: s => (Nat.ofDigitChars 10 s 0 : ℕ)
  | _ => 0

/-- The value of an unsigned text. -/
def readDigits (cs : List Char) : ℚ :=
  let mantissa := cs.takeWhile (· ≠ 'e')
  let whole := mantissa.takeWhile (· ≠ '.')
  let fraction := (mantissa.dropWhile (· ≠ '.')).tail
  ofDigits (whole ++ fraction) * 10 ^ (readExponent (cs.dropWhile (· ≠ 'e')) - fraction.length)

/-- The value of a text. -/
def read : List Char → ℚ
  | '-' :: cs => -readDigits cs
  | cs => readDigits cs

/-! ### The digits of a text -/

/-- A list of digits. -/
def Digits (s : List Char) : Prop := ∀ c ∈ s, c.isDigit = true

theorem digits_toDigits (n : Nat) : Digits (Nat.toDigits 10 n) := fun _ hc =>
  Nat.isDigit_of_mem_toDigits (by decide) (by decide) hc

theorem digits_replicate_zero (n : Nat) : Digits (List.replicate n '0') := fun c hc => by
  rw [(List.mem_replicate.mp hc).2]
  rfl

theorem Digits.append {s t : List Char} (hs : Digits s) (ht : Digits t) : Digits (s ++ t) :=
  fun c hc => (List.mem_append.mp hc).elim (hs c) (ht c)

theorem Digits.ne {s : List Char} (hs : Digits s) {c d : Char} (hc : c ∈ s)
    (hd : d.isDigit = false) : c ≠ d := by
  rintro rfl
  rw [hs c hc] at hd
  cases hd

theorem ofDigits_append_zeros (s : List Char) (n : Nat) :
    ofDigits (s ++ List.replicate n '0') = ofDigits s * 10 ^ n := by
  unfold ofDigits
  rw [Nat.ofDigitChars_append, Nat.ofDigitChars_replicate_zero]
  push_cast
  ring

theorem ofDigits_zeros_append (s : List Char) (n : Nat) :
    ofDigits ('0' :: (List.replicate n '0' ++ s)) = ofDigits s := by
  unfold ofDigits
  rw [← List.cons_append, ← List.replicate_succ, Nat.ofDigitChars_append,
    Nat.ofDigitChars_replicate_zero, Nat.mul_zero]

/-- The end of a text: nothing, or an exponent. -/
def Ends (ex : List Char) (e : Int) : Prop := (ex = [] ∧ e = 0) ∨ ex = exponentText e

theorem readExponent_exponentText (e : Int) : readExponent (exponentText e) = e := by
  unfold exponentText
  split
  · rw [readExponent, Nat.ofDigitChars_ten_toDigits]
    omega
  · rw [readExponent, Nat.ofDigitChars_ten_toDigits]
    omega

/-- A text is cut where its exponent begins. -/
theorem cut_exponent {mantissa ex : List Char} {e : Int} (hmantissa : ∀ c ∈ mantissa, c ≠ 'e')
    (hex : Ends ex e) :
    (mantissa ++ ex).takeWhile (· ≠ 'e') = mantissa ∧
      readExponent ((mantissa ++ ex).dropWhile (· ≠ 'e')) = e := by
  have hall : ∀ c ∈ mantissa, decide (c ≠ 'e') = true := fun c hc =>
    decide_eq_true (hmantissa c hc)
  rw [List.takeWhile_append_of_pos hall, List.dropWhile_append_of_pos hall]
  rcases hex with ⟨rfl, rfl⟩ | rfl
  · exact ⟨by simp, rfl⟩
  · have htake : (exponentText e).takeWhile (· ≠ 'e') = [] := rfl
    have hdrop : (exponentText e).dropWhile (· ≠ 'e') = exponentText e := rfl
    rw [htake, hdrop, List.append_nil]
    exact ⟨rfl, readExponent_exponentText e⟩

/-- A text without a point. -/
theorem readDigits_whole {whole ex : List Char} {e : Int} (hwhole : Digits whole)
    (hex : Ends ex e) : readDigits (whole ++ ex) = ofDigits whole * 10 ^ e := by
  obtain ⟨htake, hdrop⟩ := cut_exponent (fun c hc => hwhole.ne hc (by decide)) hex
  have hall : ∀ c ∈ whole, decide (c ≠ '.') = true := fun c hc =>
    decide_eq_true (hwhole.ne hc (by decide))
  have hend : whole.dropWhile (· ≠ '.') = [] := List.dropWhile_eq_nil_iff.mpr hall
  unfold readDigits
  rw [htake, hdrop]
  dsimp only
  rw [List.takeWhile_eq_self_iff.mpr hall, hend]
  simp

/-- A text with a point. -/
theorem readDigits_point {whole fraction ex : List Char} {e : Int} (hwhole : Digits whole)
    (hfraction : Digits fraction) (hex : Ends ex e) :
    readDigits (whole ++ '.' :: (fraction ++ ex)) =
      ofDigits (whole ++ fraction) * 10 ^ (e - fraction.length) := by
  have hmantissa : ∀ c ∈ whole ++ '.' :: fraction, c ≠ 'e' := by
    intro c hc
    rcases List.mem_append.mp hc with hc | hc
    · exact hwhole.ne hc (by decide)
    · rcases List.mem_cons.mp hc with rfl | hc
      · decide
      · exact hfraction.ne hc (by decide)
  obtain ⟨htake, hdrop⟩ := cut_exponent hmantissa hex
  have hall : ∀ c ∈ whole, decide (c ≠ '.') = true := fun c hc =>
    decide_eq_true (hwhole.ne hc (by decide))
  have hsplit : whole ++ '.' :: (fraction ++ ex) = (whole ++ '.' :: fraction) ++ ex := by simp
  unfold readDigits
  rw [hsplit, htake, hdrop]
  dsimp only
  rw [List.takeWhile_append_of_pos hall, List.dropWhile_append_of_pos hall]
  simp

/-- **The text of a positive number** is read as its digits, with the point where it belongs. -/
theorem readDigits_digitsText {s : List Char} (hs : Digits s) (hne : s ≠ []) (n : Int) :
    readDigits (digitsText s n) = ofDigits s * 10 ^ (n - s.length) := by
  have hlength : 0 < s.length := List.length_pos_of_ne_nil hne
  have htake : ∀ k, Digits (s.take k) := fun k c hc => hs c (List.mem_of_mem_take hc)
  have hdrop : ∀ k, Digits (s.drop k) := fun k c hc => hs c (List.mem_of_mem_drop hc)
  have hnone : Ends [] 0 := Or.inl ⟨rfl, rfl⟩
  unfold digitsText
  split_ifs with hzeros hpoint hsmall hone
  · have hread := readDigits_whole (hs.append (digits_replicate_zero (n - s.length).toNat)) hnone
    rw [List.append_nil] at hread
    rw [hread, ofDigits_append_zeros, zpow_zero, mul_one, ← zpow_natCast]
    congr 2
    omega
  · have hread := readDigits_point (htake n.toNat) (hdrop n.toNat) hnone
    rw [List.append_nil] at hread
    rw [hread, List.take_append_drop, List.length_drop]
    congr 2
    omega
  · have hzero : Digits ['0'] := digits_replicate_zero 1
    have hread := readDigits_point hzero ((digits_replicate_zero (-n).toNat).append hs) hnone
    rw [List.append_nil] at hread
    refine hread.trans ?_
    rw [List.singleton_append, ofDigits_zeros_append, List.length_append, List.length_replicate]
    congr 2
    omega
  · rw [readDigits_whole hs (Or.inr rfl), hone]
    rfl
  · rw [readDigits_point (htake 1) (hdrop 1) (Or.inr rfl), List.take_append_drop, List.length_drop]
    congr 2
    omega

/-! ### Texts determine numbers -/

theorem toDigits_ne_nil (n : Nat) : Nat.toDigits 10 n ≠ [] := Nat.toDigits_ne_nil

theorem ofDigits_toDigits (n : Nat) : ofDigits (Nat.toDigits 10 n) = n := by
  unfold ofDigits
  rw [Nat.ofDigitChars_ten_toDigits]

/-- The text of a positive number begins with a digit. -/
theorem digitsText_head {s : List Char} (hs : Digits s) (hne : s ≠ []) (n : Int) :
    ∃ c tail, digitsText s n = c :: tail ∧ c.isDigit = true := by
  obtain ⟨c, tail, rfl⟩ := List.exists_cons_of_ne_nil hne
  have hc := hs c List.mem_cons_self
  unfold digitsText
  split_ifs with hzeros hpoint hsmall hone
  · exact ⟨c, _, rfl, hc⟩
  · obtain ⟨k, hk⟩ : ∃ k, n.toNat = k + 1 := ⟨n.toNat - 1, by omega⟩
    rw [hk]
    exact ⟨c, _, rfl, hc⟩
  · exact ⟨'0', _, rfl, rfl⟩
  · exact ⟨c, _, rfl, hc⟩
  · exact ⟨c, _, rfl, hc⟩

theorem read_of_isDigit {c : Char} {tail : List Char} (hc : c.isDigit = true) :
    read (c :: tail) = readDigits (c :: tail) := by
  have hne : c ≠ '-' := by
    rintro rfl
    cases hc
  unfold read
  split
  · next heq => exact absurd (List.cons.inj heq).1 hne
  · rfl

/-- **A text is read as the value of its number.** -/
theorem read_chars (d : Decimal) : read d.chars = d.value := by
  have hs := digits_toDigits d.coefficient.natAbs
  have hne := toDigits_ne_nil d.coefficient.natAbs
  have hread : readDigits (digitsText (Nat.toDigits 10 d.coefficient.natAbs)
      ((Nat.toDigits 10 d.coefficient.natAbs).length + d.exponent)) =
        (d.coefficient.natAbs : ℚ) * 10 ^ d.exponent := by
    rw [readDigits_digitsText hs hne, ofDigits_toDigits]
    congr 2
    omega
  unfold chars value
  dsimp only
  split_ifs with hzero hneg
  · rw [hzero, Int.cast_zero, zero_mul, read_of_isDigit (by decide)]
    have hzero : Digits ['0'] := digits_replicate_zero 1
    have hzeroes := readDigits_whole hzero (Or.inl ⟨rfl, rfl⟩ : Ends [] 0)
    rw [List.append_nil] at hzeroes
    rw [hzeroes]
    have hof : ofDigits ['0'] = 0 := by
      unfold ofDigits
      rfl
    rw [hof, zero_mul]
  · rw [read, hread]
    have hcast : (d.coefficient : ℚ) = -(d.coefficient.natAbs : ℚ) := by
      have hint : d.coefficient = -(d.coefficient.natAbs : Int) := by omega
      rw [← Int.cast_natCast (R := ℚ), ← Int.cast_neg, ← hint]
    rw [hcast]
    ring
  · obtain ⟨c, tail, heq, hc⟩ := digitsText_head hs hne
      ((Nat.toDigits 10 d.coefficient.natAbs).length + d.exponent)
    rw [heq, read_of_isDigit hc, ← heq, hread]
    have hint : (d.coefficient.natAbs : Int) = d.coefficient := by omega
    rw [← Int.cast_natCast (R := ℚ), hint]

/-- A number that is not zero has no smaller exponent. -/
theorem exponent_le_of_value_eq {d d' : Decimal} (h : d.value = d'.value) (hne : d.coefficient ≠ 0) :
    d'.exponent ≤ d.exponent := by
  by_contra hlt
  obtain ⟨k, hk⟩ : ∃ k : Nat, d'.exponent = d.exponent + (k + 1 : Nat) :=
    ⟨(d'.exponent - d.exponent - 1).toNat, by omega⟩
  have hten : (10 : ℚ) ≠ 0 := by norm_num
  have hscaled : (d.coefficient : ℚ) = d'.coefficient * 10 ^ (k + 1) := by
    unfold value at h
    rw [hk, zpow_add₀ hten, zpow_natCast] at h
    have hcancel : (d.coefficient : ℚ) * 10 ^ d.exponent =
        (d'.coefficient * 10 ^ (k + 1)) * 10 ^ d.exponent := by
      rw [h]
      ring
    exact mul_right_cancel₀ (zpow_ne_zero _ hten) hcancel
  have hint : d.coefficient = d'.coefficient * 10 ^ (k + 1) := by exact_mod_cast hscaled
  rcases d.normal with hnormal | ⟨hzero, -⟩
  · refine hnormal ?_
    rw [hint, pow_succ, ← mul_assoc]
    exact Int.mul_emod_left _ _
  · exact hne hzero

/-- **The value determines the number.** -/
theorem value_injective : Function.Injective value := by
  intro d d' h
  have hten : (10 : ℚ) ≠ 0 := by norm_num
  have hzero : d.coefficient = 0 ↔ d'.coefficient = 0 := by
    have hiff : ∀ e : Decimal, e.value = 0 ↔ e.coefficient = 0 := by
      intro e
      unfold value
      rw [mul_eq_zero, Int.cast_eq_zero, or_iff_left (zpow_ne_zero _ hten)]
    rw [← hiff, ← hiff, h]
  have hexponent : d.exponent = d'.exponent := by
    by_cases hd : d.coefficient = 0
    · rcases d.normal with hnormal | ⟨-, he⟩
      · exact absurd (by rw [hd]; rfl) hnormal
      · rcases d'.normal with hnormal | ⟨-, he'⟩
        · exact absurd (by rw [hzero.mp hd]; rfl) hnormal
        · rw [he, he']
    · exact le_antisymm (exponent_le_of_value_eq h.symm fun hd' => hd (hzero.mpr hd'))
        (exponent_le_of_value_eq h hd)
  have hcoefficient : d.coefficient = d'.coefficient := by
    unfold value at h
    rw [hexponent] at h
    exact_mod_cast mul_right_cancel₀ (zpow_ne_zero _ hten) h
  cases d
  cases d'
  cases hexponent
  cases hcoefficient
  rfl

/-- **The text determines the number.** -/
theorem text_injective : Function.Injective text := by
  intro d d' h
  have hchars : d.chars = d'.chars := String.ofList_injective h
  exact value_injective (by rw [← read_chars, ← read_chars, hchars])

theorem Digits.isNumberChar {s : List Char} (hs : Digits s) :
    ∀ c ∈ s, Json.isNumberChar c = true := fun c hc => by
  simp [Json.isNumberChar, hs c hc]

theorem exponentText_isNumberChar (e : Int) :
    ∀ c ∈ exponentText e, Json.isNumberChar c = true := by
  intro c hc
  rcases List.mem_cons.mp hc with rfl | hc
  · rfl
  rcases List.mem_cons.mp hc with rfl | hc
  · split <;> rfl
  · exact (digits_toDigits _).isNumberChar c hc

theorem digitsText_isNumberChar {s : List Char} (hs : Digits s) (n : Int) :
    ∀ c ∈ digitsText s n, Json.isNumberChar c = true := by
  have htake : ∀ k, ∀ c ∈ s.take k, Json.isNumberChar c = true := fun k c hc =>
    hs.isNumberChar c (List.mem_of_mem_take hc)
  have hdrop : ∀ k, ∀ c ∈ s.drop k, Json.isNumberChar c = true := fun k c hc =>
    hs.isNumberChar c (List.mem_of_mem_drop hc)
  have hzeros : ∀ k, ∀ c ∈ List.replicate k '0', Json.isNumberChar c = true := fun k =>
    (digits_replicate_zero k).isNumberChar
  unfold digitsText
  intro c hc
  split_ifs at hc
  · exact (List.mem_append.mp hc).elim (hs.isNumberChar c) (hzeros _ c)
  · rcases List.mem_append.mp hc with hc | hc
    · exact htake _ c hc
    · rcases List.mem_cons.mp hc with rfl | hc
      · rfl
      · exact hdrop _ c hc
  · rcases List.mem_cons.mp hc with rfl | hc
    · rfl
    rcases List.mem_cons.mp hc with rfl | hc
    · rfl
    · exact (List.mem_append.mp hc).elim (hzeros _ c) (hs.isNumberChar c)
  · exact (List.mem_append.mp hc).elim (hs.isNumberChar c) (exponentText_isNumberChar _ c)
  · rcases List.mem_append.mp hc with hc | hc
    · exact htake _ c hc
    · rcases List.mem_cons.mp hc with rfl | hc
      · rfl
      · exact (List.mem_append.mp hc).elim (hdrop _ c) (exponentText_isNumberChar _ c)

/-- **Texts of numbers** are texts of JSON numbers. -/
theorem numberText_text : Json.NumberText text where
  injective := text_injective
  start d := by
    rw [text, String.toList_ofList]
    unfold chars
    dsimp only
    split_ifs
    · exact ⟨'0', [], rfl, rfl⟩
    · exact ⟨'-', _, rfl, rfl⟩
    · obtain ⟨c, tail, heq, hc⟩ := digitsText_head (digits_toDigits d.coefficient.natAbs)
        (toDigits_ne_nil _) ((Nat.toDigits 10 d.coefficient.natAbs).length + d.exponent)
      exact ⟨c, tail, heq, by simp [Json.isNumberStart, hc]⟩
  chars d c hc := by
    rw [text, String.toList_ofList] at hc
    have hdigits := digitsText_isNumberChar (digits_toDigits d.coefficient.natAbs)
      ((Nat.toDigits 10 d.coefficient.natAbs).length + d.exponent)
    unfold chars at hc
    dsimp only at hc
    split_ifs at hc
    · rw [List.mem_singleton.mp hc]
      rfl
    · rcases List.mem_cons.mp hc with rfl | hc
      · rfl
      · exact hdigits c hc
    · exact hdigits c hc

/-! ### Whole numbers -/

/-- A whole number. -/
def ofNat (n : Nat) : Decimal where
  coefficient := n.divMaxPow 10
  exponent := if n = 0 then 0 else padicValNat 10 n
  normal := by
    by_cases hn : n = 0
    · right
      subst hn
      exact ⟨by simp, rfl⟩
    · left
      have hnot := Nat.not_dvd_divMaxPow (show 1 < 10 by decide) hn
      omega

theorem value_ofNat (n : Nat) : (ofNat n).value = n := by
  unfold value ofNat
  by_cases hn : n = 0
  · subst hn
    simp
  · dsimp only
    rw [if_neg hn, zpow_natCast]
    have hprod := Nat.divMaxPow_mul_pow_padicValNat 10 n
    exact_mod_cast congrArg (Nat.cast : Nat → ℚ) hprod

theorem ofNat_injective : Function.Injective ofNat := by
  intro n m h
  have hvalue : ((n : ℚ)) = m := by rw [← value_ofNat, ← value_ofNat, h]
  exact_mod_cast hvalue

end Decimal

/-! ### Numbers of the language -/

/-- **A number of the language.** Negative zero is not told apart from zero. -/
inductive JsNumber
  | finite (d : Decimal)
  | nan
  | infinite (negative : Bool)
deriving DecidableEq

namespace JsNumber

/-- `Number.isInteger(value)`. -/
def isInteger : JsNumber → Bool
  | finite d => 0 ≤ d.exponent
  | _ => false

/-- `value < 0`. -/
def isNegative : JsNumber → Bool
  | finite d => d.coefficient < 0
  | infinite negative => negative
  | nan => false

/-- `String(value)`. -/
def text : JsNumber → String
  | finite d => d.text
  | nan => "NaN"
  | infinite negative => if negative then "-Infinity" else "Infinity"

end JsNumber
