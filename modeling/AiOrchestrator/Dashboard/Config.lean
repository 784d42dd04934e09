import AiOrchestrator.Lib.Text

/-!
# The API keys of the dashboard

`parseApiKeys` of `apps/dashboard-api/src/config/dashboard-config.ts`. A `ConfigError` is its message.
-/

namespace AiOrchestrator

namespace Dashboard

structure DashboardApiKeyRecord where
  id : String
  key : String
  roles : List String
deriving DecidableEq

structure DashboardApiSecurityConfig where
  apiKeys : List DashboardApiKeyRecord
  jwtSecret : Option String
  jwtIssuer : Option String
  jwtAudience : Option String

/-- The message about an entry without an id or a key. -/
def invalidEntry (index : Nat) : String :=
  s!"Invalid DASHBOARD_API_KEYS entry at index {index}. Expected id:key@role1|role2."

/-- `roles`: the names between the bars. -/
def roleNames (rolesPart : String) : List String :=
  ((Text.splitOnChar '|' rolesPart).map Text.trim).filter (· ≠ "")

/-- The callback of the last `map` of `parseApiKeys`. -/
def parseApiKeyEntry (index : Nat) (entry : String) : Except String DashboardApiKeyRecord :=
  let atParts := Text.splitOnChar '@' entry
  let idAndKey := atParts[0]?.getD ""
  let rolesPart := atParts[1]?
  if idAndKey = "" then .error (invalidEntry index)
  else
    let colonParts := Text.splitOnChar ':' idAndKey
    let id := (colonParts[0]?.map Text.trim).getD ""
    let key := (colonParts[1]?.map Text.trim).getD ""
    if id = "" ∨ key = "" then .error (invalidEntry index)
    else
      let roles := roleNames (rolesPart.getD "")
      if roles = [] then
        .error s!"DASHBOARD_API_KEYS entry \"{id}\" must include at least one role."
      else .ok { id := id, key := key, roles := roles }

/-- The entries from an index on; the first bad one is thrown. -/
def parseApiKeyEntries : Nat → List String → Except String (List DashboardApiKeyRecord)
  | _, [] => .ok []
  | index, entry :: rest => do
    let record ← parseApiKeyEntry index entry
    let records ← parseApiKeyEntries (index + 1) rest
    pure (record :: records)

/-- The entries between the commas. -/
def apiKeyEntries (rawValue : String) : List String :=
  ((Text.splitOnChar ',' rawValue).map Text.trim).filter (· ≠ "")

/-- `parseApiKeys`. -/
def parseApiKeys : Option String → Except String (List DashboardApiKeyRecord)
  | none => .ok []
  | some rawValue =>
    if Text.trim rawValue = "" then .ok [] else parseApiKeyEntries 0 (apiKeyEntries rawValue)

end Dashboard

end AiOrchestrator
