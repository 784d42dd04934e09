import AiOrchestrator.Lib.Json
import AiOrchestrator.Lib.Replace

/-!
# Redaction of secrets

`redactSecrets` of `packages/shared/src/config/runtime-config.ts`. Values under keys that look like secrets are
replaced as a whole; in every other text the registered secrets are replaced one after the other, the longest
first, and then what the three patterns for keys, bearer tokens and assignments find.
-/

namespace AiOrchestrator

namespace Redaction

/-- `redacted`, the word between the brackets of the marker. -/
def redactedWord : List Char := "redacted".toList

/-- `<redacted>`. -/
def redactedMarker : List Char := Text.bracketed redactedWord

/-- `right.length - left.length` does not put `left` behind `right`. -/
def LongerFirst (left right : String) : Prop := Text.utf16Length right ≤ Text.utf16Length left

instance : DecidableRel LongerFirst := fun _ _ => inferInstanceAs (Decidable (_ ≤ _))

/-- `registerRuntimeSecrets`: the registry is a set in insertion order. -/
def registerRuntimeSecrets (registry secrets : List String) : List String :=
  secrets.foldl
    (fun registry secret =>
      let normalized := Text.trim secret
      if normalized = "" ∨ normalized ∈ registry then registry else registry ++ [normalized])
    registry

/-- `redactRegisteredSecrets`. -/
def redactRegisteredSecrets (registry : List String) (value : String) : String :=
  (registry.insertionSort LongerFirst).foldl
    (fun sanitized secret =>
      Text.replaceAll (Text.matchWord secret.toList redactedMarker) sanitized) value

/-! ### Patterns -/

/-- `[a-zA-Z0-9]`. -/
def isAlphanumeric (c : Char) : Bool := c.isAlpha || c.isDigit

/-- `[a-zA-Z0-9_]`, the characters on one side of a word boundary. -/
def isWordChar (c : Char) : Bool := isAlphanumeric c || c = '_'

/-- `[a-zA-Z0-9_-]`. -/
def isKeyChar (c : Char) : Bool := isWordChar c || c = '-'

/-- `[a-zA-Z0-9._-]`. -/
def isTokenChar (c : Char) : Bool := isKeyChar c || c = '.'

/-- The characters of an assigned value: neither a quote nor a comma nor white space. -/
def isValueChar (c : Char) : Bool := c ≠ '\'' && c ≠ '"' && c ≠ ',' && !Text.isSpace c

/-- A text begins with a word in small letters, in any case. -/
def startsWithIgnoringCase (word cs : List Char) : Bool :=
  word.isPrefixOf (cs.map Char.toLower)

/-- A key of a provider: `sk-` behind no key character, and at least twenty key characters. Since `proj-` consists of key
characters too, all of them are one run, which ends before another character. -/
def matchProviderKey : Text.Matcher := fun prev cs =>
  if prev.any isKeyChar = false ∧ "sk-".toList.isPrefixOf cs = true then
    let run := (cs.drop 3).takeWhile isKeyChar
    if run.length < 20 then none else some (3 + run.length, redactedMarker)
  else none

/-- `bearer` in any case with white space, and at least sixteen token characters, which are replaced. -/
def matchBearer : Text.Matcher := fun _ cs =>
  if startsWithIgnoringCase "bearer".toList cs = true then
    let spaces := (cs.drop 6).takeWhile Text.isSpace
    let token := ((cs.drop 6).dropWhile Text.isSpace).takeWhile isTokenChar
    if spaces = [] ∨ token.length < 16 then none
    else some (6 + spaces.length + token.length, cs.take 6 ++ spaces ++ redactedMarker)
  else none

/-- `shouldRedactAssignedValue`. -/
def shouldRedactAssignedValue (value : List Char) : Bool :=
  8 ≤ Text.utf16Length (String.ofList value) || value.contains '-' || value.contains '_'

/-- The names in front of assignments. -/
def assignedNames : List (List Char) :=
  ["apikey", "api_key", "api-key", "token", "secret", "password"].map String.toList

/-- What an assignment consists of: the name, `:` or `=` between white space, an optional quote, the value and the
same quote again. -/
structure Assignment where
  name : List Char
  separator : List Char
  quote : List Char
  value : List Char

/-- The text of an assignment with another value. -/
def Assignment.text (assignment : Assignment) (value : List Char) : List Char :=
  assignment.name ++ assignment.separator ++ assignment.quote ++ value ++ assignment.quote

/-- The `:` or `=` between white space, and what is behind it. -/
def takeSeparator (cs : List Char) : Option (List Char × List Char) :=
  let front := cs.takeWhile Text.isSpace
  match cs.dropWhile Text.isSpace with
  | sign :: rest =>
    if sign = ':' ∨ sign = '=' then
      some (front ++ [sign] ++ rest.takeWhile Text.isSpace, rest.dropWhile Text.isSpace)
    else none
  | [] => none

/-- The quote at the front, if there is one. -/
def takeQuote (cs : List Char) : List Char :=
  match cs with
  | c :: _ => if c = '\'' ∨ c = '"' then [c] else []
  | [] => []

/-- The assignment at the front of a text behind a word boundary. -/
def readAssignment (prev : Option Char) (cs : List Char) : Option Assignment :=
  if prev.any isWordChar then none
  else
    match assignedNames.find? fun word =>
      startsWithIgnoringCase word cs && !((cs.drop word.length).head?.any isWordChar) with
    | none => none
    | some word =>
      match takeSeparator (cs.drop word.length) with
      | none => none
      | some (separator, rest) =>
        let quote := takeQuote rest
        let value := (rest.drop quote.length).takeWhile isValueChar
        let behind := (rest.drop quote.length).dropWhile isValueChar
        if value = [] ∨ quote.isPrefixOf behind = false then none
        else
          some { name := cs.take word.length, separator := separator, quote := quote, value := value }

/-- An assignment whose value is replaced if it looks like a secret. -/
def matchAssignment : Text.Matcher := fun prev cs =>
  (readAssignment prev cs).map fun assignment =>
    let matched := assignment.text assignment.value
    (matched.length,
      if shouldRedactAssignedValue assignment.value then assignment.text redactedMarker else matched)

/-- `redactSecretStrings`. -/
def redactSecretStrings (registry : List String) (value : String) : String :=
  Text.replaceAll matchAssignment
    (Text.replaceAll matchBearer
      (Text.replaceAll matchProviderKey (redactRegisteredSecrets registry value)))

/-! ### Values -/

/-- `isSecretKey`. -/
def isSecretKey (key : String) : Bool :=
  ["key", "token", "secret", "password", "dsn"].any fun word =>
    Text.includes (Text.lowerAscii key) word

variable {ν : Type}

mutual

/-- `redactSecretsInternal`. -/
def redactSecrets (registry : List String) : Json ν → Json ν
  | .arr items => .arr (redactItems registry items)
  | .str s => .str (redactSecretStrings registry s)
  | .obj props => .obj (redactProps registry props)
  | .null => .null
  | .bool b => .bool b
  | .num n => .num n
termination_by structural value => value

/-- The items of an array. -/
def redactItems (registry : List String) : List (Json ν) → List (Json ν)
  | [] => []
  | item :: items => redactSecrets registry item :: redactItems registry items
termination_by structural items => items

/-- The properties of an object. One of the name `__proto__` is assigned to the prototype and is none of the copy. -/
def redactProps (registry : List String) : List (String × Json ν) → List (String × Json ν)
  | [] => []
  | (key, entry) :: props =>
    if key = "__proto__" then redactProps registry props
    else
      (key, if isSecretKey key then .str (String.ofList redactedMarker)
        else redactSecrets registry entry) :: redactProps registry props
termination_by structural props => props

end

end Redaction

end AiOrchestrator
