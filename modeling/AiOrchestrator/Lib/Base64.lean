import AiOrchestrator.Lib.Text

/-!
# Base 64

Three bytes are four digits (`base64Bytes_append`), so a prefix of the digits is the encoding of a prefix
of the bytes (`take_base64Bytes`), and the digits determine the bytes (`base64Bytes_inj`). A decoder reads both
alphabets, passes over other characters and ends at the padding; it gives back the bytes of an encoding
(`decodeBase64_base64Text`), but of more texts than the encodings.
-/

namespace Text

/-- The number of a digit of the URL-safe alphabet. -/
def base64Value (c : Char) : Nat :=
  if c.isUpper then c.toNat - 65
  else if c.isLower then c.toNat - 97 + 26
  else if c.isDigit then c.toNat - 48 + 52
  else if c = '-' then 62
  else 63

theorem base64Value_base64Digit {n : Nat} (h : n < 64) : base64Value (base64Digit n) = n := by
  have hall : ∀ n : Fin 64, base64Value (base64Digit n) = n := by decide
  exact hall ⟨n, h⟩

theorem base64Digit_inj {n m : Nat} (hn : n < 64) (hm : m < 64) :
    base64Digit n = base64Digit m ↔ n = m := by
  refine ⟨fun h => ?_, fun h => h ▸ rfl⟩
  calc n = base64Value (base64Digit n) := (base64Value_base64Digit hn).symm
    _ = base64Value (base64Digit m) := by rw [h]
    _ = m := base64Value_base64Digit hm

theorem base64Bytes_append {a : List Nat} (b : List Nat) (h : 3 ∣ a.length) :
    base64Bytes (a ++ b) = base64Bytes a ++ base64Bytes b := by
  induction a using base64Bytes.induct with
  | case1 => rfl
  | case2 x => exact absurd h (by simp)
  | case3 x y => exact absurd h (by simp)
  | case4 x y z rest ih =>
    have hrest : 3 ∣ rest.length := by simpa [Nat.dvd_add_self_right] using h
    have ih := ih hrest
    simp only [List.cons_append, base64Bytes, ih]

/-- Four digits for three bytes, and no more for the last ones. -/
theorem length_base64Bytes (a : List Nat) :
    (base64Bytes a).length = a.length + (a.length + 2) / 3 := by
  induction a using base64Bytes.induct with
  | case1 => rfl
  | case2 x => simp [base64Bytes]
  | case3 x y => simp [base64Bytes]
  | case4 x y z rest ih =>
    simp only [base64Bytes, List.length_cons, ih]
    omega

/-- **A prefix of the digits** is the encoding of a prefix of the bytes. -/
theorem take_base64Bytes (a : List Nat) (n : Nat) :
    (base64Bytes a).take (4 * n) = base64Bytes (a.take (3 * n)) := by
  rcases le_or_gt (3 * n) a.length with hle | hlt
  · have hlength : (a.take (3 * n)).length = 3 * n := List.length_take_of_le hle
    have hsplit : base64Bytes a = base64Bytes (a.take (3 * n)) ++ base64Bytes (a.drop (3 * n)) := by
      have hthree : 3 ∣ (a.take (3 * n)).length := ⟨n, hlength⟩
      rw [← base64Bytes_append _ hthree, List.take_append_drop]
    have hdigits : (base64Bytes (a.take (3 * n))).length = 4 * n := by
      rw [length_base64Bytes, hlength]
      omega
    rw [hsplit, List.take_left' hdigits]
  · rw [List.take_of_length_le hlt.le, List.take_of_length_le]
    rw [length_base64Bytes]
    omega

/-- **The digits determine the bytes.** -/
theorem base64Bytes_inj {a b : List Nat} (ha : ∀ x ∈ a, x < 256) (hb : ∀ x ∈ b, x < 256) :
    base64Bytes a = base64Bytes b ↔ a = b := by
  refine ⟨fun h => ?_, fun h => h ▸ rfl⟩
  induction a using base64Bytes.induct generalizing b with
  | case1 =>
    match b with
    | [] => rfl
    | [_] | [_, _] | _ :: _ :: _ :: _ => simp [base64Bytes] at h
  | case2 x =>
    have hx := ha x (by simp)
    match b with
    | [] | [_, _] | _ :: _ :: _ :: _ => simp [base64Bytes] at h
    | [x'] =>
      have hx' := hb x' (by simp)
      simp only [base64Bytes, List.cons.injEq, and_true] at h
      rw [base64Digit_inj (by omega) (by omega), base64Digit_inj (by omega) (by omega)] at h
      congr 1
      omega
  | case3 x y =>
    have hx := ha x (by simp)
    have hy := ha y (by simp)
    match b with
    | [] | [_] | _ :: _ :: _ :: _ => simp [base64Bytes] at h
    | [x', y'] =>
      have hx' := hb x' (by simp)
      have hy' := hb y' (by simp)
      simp only [base64Bytes, List.cons.injEq, and_true] at h
      rw [base64Digit_inj (by omega) (by omega), base64Digit_inj (by omega) (by omega),
        base64Digit_inj (by omega) (by omega)] at h
      simp only [List.cons.injEq, and_true]
      omega
  | case4 x y z rest ih =>
    have hx := ha x (by simp)
    have hy := ha y (by simp)
    have hz := ha z (by simp)
    match b with
    | [] | [_] | [_, _] => simp [base64Bytes] at h
    | x' :: y' :: z' :: rest' =>
      have hx' := hb x' (by simp)
      have hy' := hb y' (by simp)
      have hz' := hb z' (by simp)
      simp only [base64Bytes, List.cons.injEq] at h
      obtain ⟨h₁, h₂, h₃, h₄, hrest⟩ := h
      rw [base64Digit_inj (by omega) (by omega)] at h₁ h₂ h₃ h₄
      obtain rfl := ih (fun w hw => ha w (by simp [hw])) (fun w hw => hb w (by simp [hw])) hrest
      simp only [List.cons.injEq, and_true]
      omega

theorem units_base64Digit (n : Nat) : units (base64Digit n) = 1 := by
  rcases Nat.lt_or_ge n 64 with hlt | hge
  · have hall : ∀ n : Fin 64, units (base64Digit n) = 1 := by decide
    exact hall ⟨n, hlt⟩
  · have hlast : base64Digit n = '_' := by
      unfold base64Digit
      rw [if_neg (by omega), if_neg (by omega), if_neg (by omega), if_neg (by omega)]
    rw [hlast]
    rfl

theorem units_of_mem_base64Bytes {a : List Nat} {c : Char} (h : c ∈ base64Bytes a) : units c = 1 := by
  induction a using base64Bytes.induct with
  | case1 => cases h
  | case2 x =>
    simp only [base64Bytes, List.mem_cons, List.not_mem_nil, or_false] at h
    rcases h with rfl | rfl <;> exact units_base64Digit _
  | case3 x y =>
    simp only [base64Bytes, List.mem_cons, List.not_mem_nil, or_false] at h
    rcases h with rfl | rfl | rfl <;> exact units_base64Digit _
  | case4 x y z rest ih =>
    simp only [base64Bytes, List.mem_cons] at h
    rcases h with rfl | rfl | rfl | rfl | h
    iterate 4 exact units_base64Digit _
    exact ih h

/-! ### Texts -/

/-- The bytes of a text in UTF-8. -/
def utf8Bytes (s : String) : List Nat :=
  s.toList.flatMap fun c => (String.utf8EncodeChar c).map UInt8.toNat

theorem utf8Bytes_append (s t : String) : utf8Bytes (s ++ t) = utf8Bytes s ++ utf8Bytes t := by
  rw [utf8Bytes, String.toList_append, List.flatMap_append]
  rfl

theorem lt_of_mem_utf8Bytes {s : String} {b : Nat} (h : b ∈ utf8Bytes s) : b < 256 := by
  obtain ⟨c, -, hb⟩ := List.mem_flatMap.mp h
  obtain ⟨byte, -, rfl⟩ := List.mem_map.mp hb
  exact byte.toNat_lt

/-- The bytes of a text determine it. -/
theorem utf8Bytes_injective : Function.Injective utf8Bytes := by
  intro s t h
  have hbytes : s.toList.flatMap String.utf8EncodeChar = t.toList.flatMap String.utf8EncodeChar := by
    unfold utf8Bytes at h
    rw [← List.map_flatMap, ← List.map_flatMap] at h
    exact List.map_injective_iff.mpr (fun _ _ => UInt8.toNat_inj.mp) h
  rw [← String.toByteArray_inj, ← String.utf8Encode_toList, ← String.utf8Encode_toList]
  unfold List.utf8Encode
  rw [hbytes]

/-- Texts of characters of one unit are cut by characters. -/
theorem takeUnits_eq_take {cs : List Char} (h : ∀ c ∈ cs, units c = 1) (n : Nat) :
    takeUnits n cs = cs.take n := by
  induction cs generalizing n with
  | nil => cases n <;> simp [takeUnits]
  | cons c cs ih =>
    have hc : units c = 1 := h c List.mem_cons_self
    have ih := ih fun d hd => h d (List.mem_cons_of_mem c hd)
    match n with
    | 0 => rfl
    | 1 => simp [takeUnits, hc]
    | n + 2 => simp [takeUnits, hc, ih]

/-- **A prefix of an encoded text.** -/
theorem sliceTo_base64Url_inj (s t : String) (n : Nat) :
    sliceTo (base64Url s) (4 * n) = sliceTo (base64Url t) (4 * n) ↔
      (utf8Bytes s).take (3 * n) = (utf8Bytes t).take (3 * n) := by
  have hslice : ∀ u : String,
      (sliceTo (base64Url u) (4 * n)).toList = base64Bytes ((utf8Bytes u).take (3 * n)) := by
    intro u
    rw [sliceTo, String.toList_ofList, base64Url, String.toList_ofList,
      takeUnits_eq_take (fun c hc => units_of_mem_base64Bytes hc), take_base64Bytes]
    rfl
  have hbyte : ∀ u : String, ∀ b ∈ (utf8Bytes u).take (3 * n), b < 256 := fun u b hb =>
    lt_of_mem_utf8Bytes (List.mem_of_mem_take hb)
  rw [← String.toList_inj, hslice, hslice, base64Bytes_inj (hbyte s) (hbyte t)]

/-! ### Decoding -/

/-- A digit of the URL-safe alphabet as one of the standard alphabet. -/
def standardDigit (c : Char) : Char := if c = '-' then '+' else if c = '_' then '/' else c

/-- `buffer.toString('base64url')`. -/
def base64UrlBytes (bytes : List Nat) : String := String.ofList (base64Bytes bytes)

/-- `buffer.toString('base64')`. -/
def base64Text (bytes : List Nat) : String :=
  String.ofList ((base64Bytes bytes).map standardDigit ++
    List.replicate ((4 - (base64Bytes bytes).length % 4) % 4) '=')

/-- A text with standard digits, padded to groups of four. -/
def paddedBase64 (value : String) : String :=
  let normalized := String.ofList (value.toList.map standardDigit)
  normalized ++ String.ofList (List.replicate ((4 - utf16Length normalized % 4) % 4) '=')

/-- The number of a digit of either alphabet. -/
def digitValue? (c : Char) : Option Nat :=
  if c.isUpper then some (c.toNat - 65)
  else if c.isLower then some (c.toNat - 97 + 26)
  else if c.isDigit then some (c.toNat - 48 + 52)
  else if c = '+' ∨ c = '-' then some 62
  else if c = '/' ∨ c = '_' then some 63
  else none

/-- The bytes of six-bit numbers; what is left of the last group is dropped. -/
def bytesOfDigits : List Nat → List Nat
  | a :: b :: c :: d :: rest =>
    (a * 4 + b / 16) :: (b % 16 * 16 + c / 4) :: (c % 4 * 64 + d) :: bytesOfDigits rest
  | [a, b, c] => [a * 4 + b / 16, b % 16 * 16 + c / 4]
  | [a, b] => [a * 4 + b / 16]
  | _ => []

/-- A lenient decoder: it ends at the padding and passes over what is no digit. -/
def decodeBase64 (text : String) : List Nat :=
  bytesOfDigits ((text.toList.takeWhile (· ≠ '=')).filterMap digitValue?)

theorem standardDigit_base64Digit {n : Nat} (h : n < 64) :
    digitValue? (standardDigit (base64Digit n)) = some n ∧ standardDigit (base64Digit n) ≠ '=' ∧
      units (standardDigit (base64Digit n)) = 1 := by
  have hall : ∀ n : Fin 64, digitValue? (standardDigit (base64Digit n)) = some n.val ∧
      standardDigit (base64Digit n) ≠ '=' ∧ units (standardDigit (base64Digit n)) = 1 := by decide
  exact hall ⟨n, h⟩

theorem exists_of_mem_base64Bytes {a : List Nat} (ha : ∀ x ∈ a, x < 256) {c : Char}
    (h : c ∈ base64Bytes a) : ∃ n < 64, c = base64Digit n := by
  induction a using base64Bytes.induct with
  | case1 => cases h
  | case2 x =>
    have hx := ha x (by simp)
    simp only [base64Bytes, List.mem_cons, List.not_mem_nil, or_false] at h
    rcases h with rfl | rfl <;> exact ⟨_, by omega, rfl⟩
  | case3 x y =>
    have hx := ha x (by simp)
    have hy := ha y (by simp)
    simp only [base64Bytes, List.mem_cons, List.not_mem_nil, or_false] at h
    rcases h with rfl | rfl | rfl <;> exact ⟨_, by omega, rfl⟩
  | case4 x y z rest ih =>
    have hx := ha x (by simp)
    have hy := ha y (by simp)
    have hz := ha z (by simp)
    simp only [base64Bytes, List.mem_cons] at h
    rcases h with rfl | rfl | rfl | rfl | h
    · exact ⟨_, by omega, rfl⟩
    · exact ⟨_, by omega, rfl⟩
    · exact ⟨_, by omega, rfl⟩
    · exact ⟨_, by omega, rfl⟩
    · exact ih (fun w hw => ha w (by simp [hw])) h

theorem paddedBase64_base64UrlBytes {a : List Nat} (ha : ∀ x ∈ a, x < 256) :
    paddedBase64 (base64UrlBytes a) = base64Text a := by
  have hunits : utf16Length (String.ofList ((base64Bytes a).map standardDigit)) =
      (base64Bytes a).length := by
    have hone : ∀ n ∈ ((base64Bytes a).map standardDigit).map units, n = 1 := by
      intro n hn
      simp only [List.mem_map] at hn
      obtain ⟨_, ⟨c, hc, rfl⟩, rfl⟩ := hn
      obtain ⟨m, hm, rfl⟩ := exists_of_mem_base64Bytes ha hc
      exact (standardDigit_base64Digit hm).2.2
    rw [utf16Length, String.toList_ofList, List.eq_replicate_of_mem hone]
    simp
  rw [paddedBase64, base64UrlBytes, String.toList_ofList, hunits, base64Text, String.ofList_append]

theorem bytesOfDigits_base64Bytes {a : List Nat} (ha : ∀ x ∈ a, x < 256) :
    bytesOfDigits (((base64Bytes a).map standardDigit).filterMap digitValue?) = a := by
  induction a using base64Bytes.induct with
  | case1 => rfl
  | case2 x =>
    have hx := ha x (by simp)
    simp only [base64Bytes, List.map_cons, List.map_nil, List.filterMap_cons,
      (standardDigit_base64Digit (n := x / 4) (by omega)).1,
      (standardDigit_base64Digit (n := x % 4 * 16) (by omega)).1, List.filterMap_nil, bytesOfDigits]
    congr 1
    omega
  | case3 x y =>
    have hx := ha x (by simp)
    have hy := ha y (by simp)
    simp only [base64Bytes, List.map_cons, List.map_nil, List.filterMap_cons,
      (standardDigit_base64Digit (n := x / 4) (by omega)).1,
      (standardDigit_base64Digit (n := x % 4 * 16 + y / 16) (by omega)).1,
      (standardDigit_base64Digit (n := y % 16 * 4) (by omega)).1, List.filterMap_nil, bytesOfDigits,
      List.cons.injEq, and_true]
    omega
  | case4 x y z rest ih =>
    have hx := ha x (by simp)
    have hy := ha y (by simp)
    have hz := ha z (by simp)
    simp only [base64Bytes, List.map_cons, List.filterMap_cons,
      (standardDigit_base64Digit (n := x / 4) (by omega)).1,
      (standardDigit_base64Digit (n := x % 4 * 16 + y / 16) (by omega)).1,
      (standardDigit_base64Digit (n := y % 16 * 4 + z / 64) (by omega)).1,
      (standardDigit_base64Digit (n := z % 64) (by omega)).1, bytesOfDigits, List.cons.injEq]
    exact ⟨by omega, by omega, by omega, ih fun w hw => ha w (by simp [hw])⟩

/-- **Encoded bytes** are decoded. -/
theorem decodeBase64_base64Text {a : List Nat} (ha : ∀ x ∈ a, x < 256) :
    decodeBase64 (base64Text a) = a := by
  have hdigits : ∀ c ∈ (base64Bytes a).map standardDigit, decide (c ≠ '=') = true := by
    intro c hc
    obtain ⟨d, hd, rfl⟩ := List.mem_map.mp hc
    obtain ⟨n, hn, rfl⟩ := exists_of_mem_base64Bytes ha hd
    exact decide_eq_true (standardDigit_base64Digit hn).2.1
  have hpadding : ∀ n, (List.replicate n '=').takeWhile (fun c => decide (c ≠ '=')) = [] := by
    intro n
    cases n <;> simp [List.replicate_succ]
  rw [decodeBase64, base64Text, String.toList_ofList, List.takeWhile_append_of_pos hdigits, hpadding,
    List.append_nil, bytesOfDigits_base64Bytes ha]

end Text
