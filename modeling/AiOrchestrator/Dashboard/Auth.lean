import AiOrchestrator.Dashboard.Config
import AiOrchestrator.Lib.Base64
import AiOrchestrator.Lib.Numbers

/-!
# Authentication of the dashboard

`security/jwt.ts` and `security/dashboard-auth.middleware.ts` of `apps/dashboard-api/src`. What the platform
supplies for a token is the `TokenHost`: the HMAC, the base 64 decoder and `JSON.parse`. A thrown
`TypeError` is its message.
-/

namespace JsNumber

/-- `now < value` for an integer. -/
def isAfter (now : Int) : JsNumber → Bool
  | finite d => (now : ℚ) < d.value
  | nan => false
  | infinite negative => !negative

/-- `now >= value` for an integer. -/
def isReached (now : Int) : JsNumber → Bool
  | finite d => d.value ≤ now
  | nan => false
  | infinite negative => negative

end JsNumber

namespace AiOrchestrator

namespace Dashboard

/-- **What the platform supplies** for tokens. -/
structure TokenHost where
  /-- `createHmac('sha256', secret).update(text).digest()`. -/
  hmacSha256 : String → String → List Nat
  /-- `Buffer.from(text, 'base64')`, which takes any text. -/
  bufferFromBase64 : String → List Nat
  /-- `JSON.parse(buffer.toString('utf8'))`; nothing where it throws. -/
  jsonParse : List Nat → Option (Json JsNumber)
  digest_length : ∀ secret text, (hmacSha256 secret text).length = 32
  digest_bytes : ∀ secret text, ∀ b ∈ hmacSha256 secret text, b < 256
  bufferFromBase64_base64Text : ∀ bytes : List Nat, (∀ b ∈ bytes, b < 256) →
    bufferFromBase64 (Text.base64Text bytes) = bytes
  jsonParse_nil : jsonParse [] = none

/-! ### Tokens -/

structure JwtVerificationOptions where
  issuer : Option String
  audience : Option String

structure VerifiedJwt where
  subject : String
  roles : List String
deriving DecidableEq

/-- A property of a value; a value that is no object has none of the properties of a token. -/
def property (name : String) : Json JsNumber → Option (Json JsNumber)
  | .obj props => (props.find? (·.1 = name)).map (·.2)
  | _ => none

/-- A value that is the given text. -/
def isText (expected : String) : Json JsNumber → Bool
  | .str s => s = expected
  | _ => false

/-- A value that is not falsy. -/
def truthy : Json JsNumber → Bool
  | .null => false
  | .bool b => b
  | .num (.finite d) => d.coefficient ≠ 0
  | .num .nan => false
  | .num (.infinite _) => true
  | .str s => s ≠ ""
  | .arr _ => true
  | .obj _ => true

/-- `audienceMatches`; a number, a Boolean and an object have no method `includes`. -/
def audienceMatches (claim : Option (Json JsNumber)) (expectedAudience : String) :
    Except String Bool :=
  match claim with
  | none => .ok false
  | some .null => .ok false
  | some (.str s) => .ok (s = expectedAudience)
  | some (.arr items) => .ok (items.any (isText expectedAudience))
  | some (.bool _) | some (.num _) | some (.obj _) => .error "claim?.includes is not a function"

/-- The texts among the items of an array that are not blank. -/
def textRoles : List (Json JsNumber) → List String
  | [] => []
  | .str s :: items => if Text.trim s = "" then textRoles items else s :: textRoles items
  | _ :: items => textRoles items

/-- `normalizeRoles`. -/
def normalizeRoles (claim : Option (Json JsNumber)) : List String :=
  match claim with
  | some (.arr items) => textRoles items
  | some (.str s) =>
    if Text.trim s = "" then [] else ((Text.splitOnChar ',' s).map Text.trim).filter (· ≠ "")
  | _ => []

/-- The claim `nbf` or `exp` lets the token through: other values than numbers are not looked at. -/
def passesClock (refused : JsNumber → Bool) (claim : Option (Json JsNumber)) : Bool :=
  match claim with
  | some (.num n) => !refused n
  | _ => true

variable (host : TokenHost)

/-- `decodeBase64Url`. -/
def decodeBase64Url (value : String) : List Nat := host.bufferFromBase64 (Text.paddedBase64 value)

/-- `decodeJsonSegment`. -/
def decodeJsonSegment (segment : String) : Option (Json JsNumber) :=
  host.jsonParse (decodeBase64Url host segment)

/-- `options.issuer && payload.iss !== options.issuer`, negated. -/
def issuerPasses (payload : Json JsNumber) (options : JwtVerificationOptions) : Bool :=
  match options.issuer with
  | none => true
  | some issuer => issuer = "" || (property "iss" payload).any (isText issuer)

/-- `options.audience && !audienceMatches(payload.aud, options.audience)`, negated. -/
def audiencePasses (payload : Json JsNumber) (options : JwtVerificationOptions) :
    Except String Bool :=
  match options.audience with
  | none => .ok true
  | some audience =>
    if audience = "" then .ok true else audienceMatches (property "aud" payload) audience

/-- The identity of a payload, if its subject is a text that is not blank. -/
def identityOf (payload : Json JsNumber) : Option VerifiedJwt :=
  match property "sub" payload with
  | some (.str subject) =>
    if Text.trim subject = "" then none
    else some { subject := subject, roles := normalizeRoles (property "roles" payload) }
  | _ => none

/-- The checks of `verifyHs256Jwt` behind the signature. -/
def verifyClaims (now : Int) (payload : Json JsNumber) (options : JwtVerificationOptions) :
    Except String (Option VerifiedJwt) :=
  if passesClock (JsNumber.isAfter now) (property "nbf" payload) = false then .ok none
  else if passesClock (JsNumber.isReached now) (property "exp" payload) = false then .ok none
  else if issuerPasses payload options = false then .ok none
  else
    match audiencePasses payload options with
    | .error message => .error message
    | .ok false => .ok none
    | .ok true => .ok (identityOf payload)

/-- `verifyHs256Jwt`, at the time `now` in seconds. -/
def verifyHs256Jwt (now : Int) (token secret : String) (options : JwtVerificationOptions) :
    Except String (Option VerifiedJwt) :=
  match Text.splitOnChar '.' token with
  | [encodedHeader, encodedPayload, encodedSignature] =>
    if encodedHeader = "" ∨ encodedPayload = "" ∨ encodedSignature = "" then .ok none
    else
      match decodeJsonSegment host encodedHeader, decodeJsonSegment host encodedPayload with
      | some header, some payload =>
        if truthy header = false ∨ truthy payload = false ∨
            (property "alg" header).any (isText "HS256") = false ∨
            (property "typ" header).any (isText "JWT") = false then .ok none
        else
          let expected := host.hmacSha256 secret (encodedHeader ++ "." ++ encodedPayload)
          let actual := decodeBase64Url host encodedSignature
          if actual.length ≠ expected.length then .ok none
          else if actual ≠ expected then .ok none
          else verifyClaims now payload options
      | _, _ => .ok none
  | _ => .ok none

/-! ### The middleware -/

structure DashboardRequest where
  method : String
  header : String → Option String

/-- The request goes on, is answered, or a `TypeError` is thrown. -/
inductive AuthOutcome
  | next (request : DashboardRequest)
  | response (status : Nat) (message : String)
  | thrown (message : String)

/-- `timingSafeEqualString`. -/
def timingSafeEqualString (left right : String) : Bool :=
  let leftBuffer := Text.utf8Bytes left
  let rightBuffer := Text.utf8Bytes right
  if leftBuffer.length ≠ rightBuffer.length then false else leftBuffer = rightBuffer

/-- An optional text of the configuration, which is left out where it is falsy. -/
def configured (value : Option String) : Option String := value.filter (· ≠ "")

/-- The branch of the middleware for an API key. -/
def authenticateApiKey (security : DashboardApiSecurityConfig) (apiKey : String)
    (request : DashboardRequest) : AuthOutcome :=
  match security.apiKeys.find? fun entry => timingSafeEqualString entry.key apiKey with
  | none => .response 401 "Authentication failed"
  | some entry =>
    if entry.roles.contains "dashboard.read" = false then
      .response 403 "Insufficient role for endpoint"
    else .next request

/-- The branch of the middleware for a bearer token. -/
def authenticateBearer (now : Int) (security : DashboardApiSecurityConfig)
    (request : DashboardRequest) : AuthOutcome :=
  match (configured (request.header "authorization")), (configured security.jwtSecret) with
  | some authorization, some jwtSecret =>
    let parts := Text.splitOnChar ' ' authorization
    let token := parts[1]?.getD ""
    if parts[0]? ≠ some "Bearer" ∨ token = "" then .response 401 "Authentication failed"
    else
      let jwtOptions : JwtVerificationOptions :=
        { issuer := configured security.jwtIssuer, audience := configured security.jwtAudience }
      match verifyHs256Jwt host now token jwtSecret jwtOptions with
      | .error message => .thrown message
      | .ok none => .response 401 "Authentication failed"
      | .ok (some verified) =>
        if verified.roles.contains "dashboard.read" = false then
          .response 403 "Insufficient role for endpoint"
        else .next { request with
          header := fun key => if key = "authorization" then none else request.header key }
  | _, _ => .response 401 "Authentication required"

/-- `createDashboardAuthMiddleware`. -/
def createDashboardAuthMiddleware (now : Int) (security : DashboardApiSecurityConfig)
    (request : DashboardRequest) : AuthOutcome :=
  if request.method = "OPTIONS" then .next request
  else
    match configured (request.header "x-api-key") with
    | some apiKey => authenticateApiKey security apiKey request
    | none => authenticateBearer host now security request

end Dashboard

end AiOrchestrator
