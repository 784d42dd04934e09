import AiOrchestrator.Core.Redaction
import AiOrchestrator.Lib.JsonParts

/-!
# Redaction in tool evidence

`redactSecrets` of `packages/tools/src/secrets/redaction.ts`: values under keys that look like secrets and texts
that look like secrets are replaced, down to a depth. What lies deeper is returned as it is.
-/

namespace AiOrchestrator

namespace ToolRedaction

open Redaction (isAlphanumeric isWordChar)

/-- `RedactSecretsOptions`, with whole depths. -/
structure RedactSecretsOptions where
  redactedValue : Option String
  maxDepth : Option Int

/-- `REDACTED_VALUE`. -/
def redactedValueDefault : String := "[REDACTED]"

/-! ### Patterns -/

/-- The alternatives of `SECRET_KEY_PATTERN`. -/
def secretKeyWords : List String :=
  ["token", "secret", "password", "passwd", "authorization", "apikey", "api-key", "api_key", "privatekey",
    "private-key", "private_key"]

/-- `isSecretKey`. -/
def isSecretKey (key : Option String) : Bool :=
  key.any fun key => secretKeyWords.any (Text.includes (Text.lowerAscii key))

/-- A pattern at a place of a text, behind the character before it. -/
abbrev Pattern := Option Char → List Char → Bool

/-- `pattern.test(value)`: the pattern matches somewhere. -/
def searchFrom (pattern : Pattern) : Option Char → List Char → Bool
  | prev, [] => pattern prev []
  | prev, c :: cs => pattern prev (c :: cs) || searchFrom pattern (some c) cs

/-- No word goes on here. -/
def wordEnds (cs : List Char) : Bool := !cs.head?.any isWordChar

/-- `-----BEGIN [A-Z ]*PRIVATE KEY-----`. The capitals and blanks are one run, since `-` is none of them. -/
def privateKeyBlock : Pattern := fun _ cs =>
  let isNameChar := fun c : Char => c.isUpper || c = ' '
  "-----BEGIN ".toList.isPrefixOf cs &&
    ("PRIVATE KEY".toList.isSuffixOf ((cs.drop 11).takeWhile isNameChar) &&
      "-----".toList.isPrefixOf ((cs.drop 11).dropWhile isNameChar))

/-- A word that begins with one of `starts` and goes on with at least `least` letters and digits, and with
nothing else. -/
def longWord (starts : List String) (least : Nat) : Pattern := fun prev cs =>
  !prev.any isWordChar && starts.any fun start =>
    start.toList.isPrefixOf cs &&
      (decide (least ≤ ((cs.drop start.length).takeWhile isAlphanumeric).length) &&
        wordEnds ((cs.drop start.length).dropWhile isAlphanumeric))

/-- `\b(?:sk|rk)_[A-Za-z0-9]{16,}\b`. -/
def providerKey : Pattern := longWord ["sk_", "rk_"] 16

/-- `\bgh[pousr]_[A-Za-z0-9]{20,}\b`. -/
def forgeToken : Pattern := longWord ["ghp_", "gho_", "ghu_", "ghs_", "ghr_"] 20

/-- `\bAKIA[0-9A-Z]{16}\b`. -/
def accessKeyId : Pattern := fun prev cs =>
  !prev.any isWordChar && ("AKIA".toList.isPrefixOf cs &&
    (((cs.drop 4).take 16).length = 16 && ((cs.drop 4).take 16).all (fun c => c.isDigit || c.isUpper) &&
      wordEnds (cs.drop 20)))

/-- `SECRET_VALUE_PATTERNS`. -/
def secretValuePatterns : List Pattern := [privateKeyBlock, providerKey, forgeToken, accessKeyId]

/-- `isSecretLikeValue`. -/
def isSecretLikeValue (value : String) : Bool :=
  secretValuePatterns.any fun pattern => searchFrom pattern none value.toList

/-! ### Values -/

variable {ν : Type}

section Visit

variable (redactedValue : String) (maxDepth : Int)

mutual

/-- `visit`. -/
def visit (key : Option String) (depth : Nat) : Json ν → Json ν
  | .str s =>
    if maxDepth < depth then .str s
    else if isSecretKey key || isSecretLikeValue s then .str redactedValue
    else .str s
  | .arr items => if maxDepth < depth then .arr items else .arr (visitItems key (depth + 1) items)
  | .obj props => if maxDepth < depth then .obj props else .obj (visitProps (depth + 1) props)
  | .null => .null
  | .bool b => .bool b
  | .num n => .num n
termination_by structural value => value

/-- The items of an array have its key. -/
def visitItems (key : Option String) (depth : Nat) : List (Json ν) → List (Json ν)
  | [] => []
  | item :: items => visit key depth item :: visitItems key depth items
termination_by structural items => items

/-- The properties of an object. -/
def visitProps (depth : Nat) : List (String × Json ν) → List (String × Json ν)
  | [] => []
  | (entryKey, entryValue) :: props =>
    (entryKey, if isSecretKey (some entryKey) then .str redactedValue
      else visit (some entryKey) depth entryValue) :: visitProps depth props
termination_by structural props => props

end

theorem visitItems_eq_map (key : Option String) (depth : Nat) (items : List (Json ν)) :
    visitItems redactedValue maxDepth key depth items =
      items.map (visit redactedValue maxDepth key depth) := by
  induction items with
  | nil => rfl
  | cons item items ih => rw [visitItems, ih, List.map_cons]

/-- The value of a property after the redaction. -/
def visitEntry (depth : Nat) (p : String × Json ν) : Json ν :=
  if isSecretKey (some p.1) then .str redactedValue
  else visit redactedValue maxDepth (some p.1) depth p.2

theorem visitProps_eq_map (depth : Nat) (props : List (String × Json ν)) :
    visitProps redactedValue maxDepth depth props =
      props.map fun p => (p.1, visitEntry redactedValue maxDepth depth p) := by
  induction props with
  | nil => rfl
  | cons p props ih =>
    rw [visitProps, ih, List.map_cons]
    rfl

/-- What lies too deep is returned as it is. -/
theorem visit_of_lt {maxDepth : Int} {depth : Nat} (h : maxDepth < depth) (key : Option String)
    (value : Json ν) : visit redactedValue maxDepth key depth value = value := by
  cases value with
  | null | bool _ | num _ => rfl
  | str s => rw [visit, if_pos h]
  | arr items => rw [visit, if_pos h]
  | obj props => rw [visit, if_pos h]

end Visit

/-- `redactSecrets`. -/
def redactSecrets (options : RedactSecretsOptions) (input : Json ν) : Json ν :=
  visit (options.redactedValue.getD redactedValueDefault) (options.maxDepth.getD 8) none 0 input

end ToolRedaction

end AiOrchestrator
