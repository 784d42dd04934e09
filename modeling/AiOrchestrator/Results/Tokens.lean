import AiOrchestrator.Dashboard.Auth
import AiOrchestrator.Lib.Pieces

/-!
# Which tokens authenticate

`verifyHs256Jwt` is the check of the claims behind the check of the signature (`verify_of_signed`), and what the
check of the claims does is read off it claim by claim (`verifyClaims_eq_error_iff`,
`verifyClaims_eq_some_iff`). Against what a valid token is (`ValidToken`) it differs in three ways: a
signature may be any text that decodes to the HMAC, a time that is no number is passed over, and an audience
that has no method `includes` throws. `verifyHs256Jwt_iff` is the exact condition for none of them to occur.
-/

namespace AiOrchestrator

namespace Dashboard

/-! ### Claims -/

section Claims

variable {now : Int} {payload : Json JsNumber} {options : JwtVerificationOptions}

/-- `nbf` and `exp` do not refuse the token, as far as they are numbers. -/
def TimesPass (now : Int) (payload : Json JsNumber) : Prop :=
  passesClock (JsNumber.isAfter now) (property "nbf" payload) = true ∧
    passesClock (JsNumber.isReached now) (property "exp" payload) = true

/-- The issuer is the configured one. -/
def IssuerMatches (payload : Json JsNumber) (options : JwtVerificationOptions) : Prop :=
  ∀ issuer, options.issuer = some issuer → issuer ≠ "" → property "iss" payload = some (.str issuer)

/-- The audience is or contains the configured one. -/
def AudienceMatches (payload : Json JsNumber) (options : JwtVerificationOptions) : Prop :=
  ∀ audience, options.audience = some audience → audience ≠ "" →
    property "aud" payload = some (.str audience) ∨
      ∃ items, property "aud" payload = some (.arr items) ∧ .str audience ∈ items

/-- An audience that is missing, null, a text or an array. -/
def Readable : Option (Json JsNumber) → Prop
  | none | some .null | some (.str _) | some (.arr _) => True
  | some (.bool _) | some (.num _) | some (.obj _) => False

/-- The subject is a text that is not blank. -/
def HasSubject (payload : Json JsNumber) : Prop :=
  ∃ subject, property "sub" payload = some (.str subject) ∧ Text.trim subject ≠ ""

/-- The roles of a payload contain a role: as an item of an array or between the commas of a text. -/
def HasRole (role : String) (payload : Json JsNumber) : Prop :=
  (∃ items, property "roles" payload = some (.arr items) ∧ .str role ∈ items) ∨
    ∃ s, property "roles" payload = some (.str s) ∧ role ∈ (Text.splitOnChar ',' s).map Text.trim

theorem isText_iff {expected : String} {value : Json JsNumber} :
    isText expected value = true ↔ value = .str expected := by
  cases value with
  | str s => simp [isText]
  | _ => exact ⟨nofun, nofun⟩

theorem any_isText_iff {expected : String} {claim : Option (Json JsNumber)} :
    claim.any (isText expected) = true ↔ claim = some (.str expected) := by
  cases claim with
  | none => exact ⟨nofun, nofun⟩
  | some value => simp [isText_iff]

theorem audienceMatches_eq_ok_true_iff {claim : Option (Json JsNumber)} {audience : String} :
    audienceMatches claim audience = .ok true ↔
      claim = some (.str audience) ∨ ∃ items, claim = some (.arr items) ∧ .str audience ∈ items := by
  match claim with
  | none | some .null | some (.bool _) | some (.num _) | some (.obj _) =>
    simp [audienceMatches]
  | some (.str s) => simp [audienceMatches]
  | some (.arr items) => simp [audienceMatches, isText_iff]

theorem audienceMatches_ne_error_iff {claim : Option (Json JsNumber)} {audience : String} :
    (∃ message, audienceMatches claim audience = .error message) ↔ ¬ Readable claim := by
  match claim with
  | none | some .null | some (.str _) | some (.arr _) => simp [audienceMatches, Readable]
  | some (.bool _) | some (.num _) | some (.obj _) => simp [audienceMatches, Readable]

theorem issuerPasses_iff :
    issuerPasses payload options = true ↔ IssuerMatches payload options := by
  unfold issuerPasses IssuerMatches
  cases options.issuer with
  | none => exact ⟨nofun, fun _ => rfl⟩
  | some issuer =>
    simp only [Bool.or_eq_true, decide_eq_true_eq, any_isText_iff]
    constructor
    · rintro (h | h) _ ⟨⟩ hne
      · exact absurd h hne
      · exact h
    · intro h
      by_cases hne : issuer = ""
      · exact .inl hne
      · exact .inr (h issuer rfl hne)

theorem audiencePasses_eq_ok_true_iff :
    audiencePasses payload options = .ok true ↔ AudienceMatches payload options := by
  unfold audiencePasses AudienceMatches
  cases options.audience with
  | none => exact ⟨nofun, fun _ => rfl⟩
  | some audience =>
    by_cases hne : audience = ""
    · exact ⟨by rintro - _ ⟨⟩ h; exact absurd hne h, fun _ => if_pos hne⟩
    · simp only [if_neg hne, audienceMatches_eq_ok_true_iff]
      exact ⟨by rintro h _ ⟨⟩ -; exact h, fun h => h audience rfl hne⟩

/-- Whether the check of the audience throws. -/
def AudienceReadable (payload : Json JsNumber) (options : JwtVerificationOptions) : Prop :=
  ∀ audience, options.audience = some audience → audience ≠ "" → Readable (property "aud" payload)

theorem audiencePasses_eq_error_iff :
    (∃ message, audiencePasses payload options = .error message) ↔
      ¬ AudienceReadable payload options := by
  unfold audiencePasses AudienceReadable
  cases options.audience with
  | none => simp
  | some audience =>
    by_cases hne : audience = ""
    · simp [hne]
    · dsimp only
      rw [if_neg hne, audienceMatches_ne_error_iff, not_iff_not]
      exact ⟨by rintro h _ ⟨⟩ -; exact h, fun h => h audience rfl hne⟩

theorem identityOf_isSome_iff : (identityOf payload).isSome = true ↔ HasSubject payload := by
  unfold identityOf HasSubject
  match property "sub" payload with
  | none | some .null | some (.bool _) | some (.num _) | some (.arr _) | some (.obj _) => simp
  | some (.str subject) =>
    by_cases hblank : Text.trim subject = "" <;> simp [hblank]

/-- **Thrown errors**: the check of the audience is the only one that throws. -/
theorem verifyClaims_eq_error_iff :
    (∃ message, verifyClaims now payload options = .error message) ↔
      TimesPass now payload ∧ IssuerMatches payload options ∧
        ¬ AudienceReadable payload options := by
  rw [← audiencePasses_eq_error_iff, ← issuerPasses_iff]
  unfold verifyClaims TimesPass
  cases passesClock (JsNumber.isAfter now) (property "nbf" payload) <;>
    cases passesClock (JsNumber.isReached now) (property "exp" payload) <;>
    cases issuerPasses payload options <;>
    simp
  match audiencePasses payload options with
  | .error _ | .ok false | .ok true => simp

/-- **Accepted claims**. -/
theorem verifyClaims_eq_some_iff {identity : VerifiedJwt} :
    verifyClaims now payload options = .ok (some identity) ↔
      TimesPass now payload ∧ IssuerMatches payload options ∧ AudienceMatches payload options ∧
        identityOf payload = some identity := by
  rw [← audiencePasses_eq_ok_true_iff, ← issuerPasses_iff]
  unfold verifyClaims TimesPass
  cases passesClock (JsNumber.isAfter now) (property "nbf" payload) <;>
    cases passesClock (JsNumber.isReached now) (property "exp" payload) <;>
    cases issuerPasses payload options <;>
    simp
  match audiencePasses payload options with
  | .error _ | .ok false | .ok true => simp

theorem mem_textRoles_iff {role : String} {items : List (Json JsNumber)} :
    role ∈ textRoles items ↔ .str role ∈ items ∧ Text.trim role ≠ "" := by
  induction items with
  | nil => simp [textRoles]
  | cons item items ih =>
    cases item with
    | str s =>
      rw [textRoles]
      split_ifs with hblank
      · rw [ih, List.mem_cons]
        constructor
        · exact fun h => ⟨.inr h.1, h.2⟩
        · rintro ⟨heq | hmem, hrole⟩
          · obtain rfl := Json.str.inj heq
            exact absurd hblank hrole
          · exact ⟨hmem, hrole⟩
      · rw [List.mem_cons, ih, List.mem_cons]
        constructor
        · rintro (rfl | h)
          · exact ⟨.inl rfl, hblank⟩
          · exact ⟨.inr h.1, h.2⟩
        · rintro ⟨heq | hmem, hrole⟩
          · exact .inl (Json.str.inj heq)
          · exact .inr ⟨hmem, hrole⟩
    | _ => simp [textRoles, ih]

/-- The role that is asked for is among the roles of an identity where the payload has it. -/
theorem mem_normalizeRoles_iff {role : String} (hrole : Text.trim role = role) (hne : role ≠ "") :
    role ∈ normalizeRoles (property "roles" payload) ↔ HasRole role payload := by
  unfold HasRole normalizeRoles
  match property "roles" payload with
  | none | some .null | some (.bool _) | some (.num _) | some (.obj _) => simp
  | some (.arr items) => simp [mem_textRoles_iff, hrole, hne]
  | some (.str s) =>
    simp only [reduceCtorEq, Option.some.injEq, Json.str.injEq, false_and, exists_false, false_or,
      exists_eq_left', decide_not]
    split_ifs with hblank
    · simp only [List.not_mem_nil, false_iff]
      intro hmem
      obtain ⟨piece, hpiece, rfl⟩ := List.mem_map.mp hmem
      refine hne (Text.trim_eq_empty_iff.mpr fun c hc => ?_)
      exact Text.trim_eq_empty_iff.mp hblank c (Text.mem_of_mem_splitOnChar hpiece hc)
    · simp [hne]

end Claims

/-! ### Signatures -/

section Signatures

variable {host : TokenHost} {now : Int} {token secret : String} {options : JwtVerificationOptions}

/-- A token that is signed as far as the code looks: its header is that of an HS256 token, its payload is a
value, and its third segment decodes to the HMAC of the first two. -/
def Signed (host : TokenHost) (token secret : String) (payload : Json JsNumber) : Prop :=
  ∃ encodedHeader encodedPayload encodedSignature header,
    Text.splitOnChar '.' token = [encodedHeader, encodedPayload, encodedSignature] ∧
      decodeJsonSegment host encodedHeader = some header ∧
      property "alg" header = some (.str "HS256") ∧ property "typ" header = some (.str "JWT") ∧
      decodeJsonSegment host encodedPayload = some payload ∧
      decodeBase64Url host encodedSignature =
        host.hmacSha256 secret (encodedHeader ++ "." ++ encodedPayload)

theorem decodeBase64Url_base64UrlBytes {bytes : List Nat} (h : ∀ b ∈ bytes, b < 256) :
    decodeBase64Url host (Text.base64UrlBytes bytes) = bytes := by
  rw [decodeBase64Url, Text.paddedBase64_base64UrlBytes h, host.bufferFromBase64_base64Text bytes h]

theorem decodeBase64Url_empty : decodeBase64Url host "" = [] := by
  have hnone : ∀ b ∈ ([] : List Nat), b < 256 := nofun
  have hempty : Text.base64UrlBytes [] = "" := rfl
  rw [← hempty]
  exact decodeBase64Url_base64UrlBytes hnone

theorem ne_empty_of_decodeJsonSegment {segment : String} {value : Json JsNumber}
    (h : decodeJsonSegment host segment = some value) : segment ≠ "" := by
  rintro rfl
  rw [decodeJsonSegment, decodeBase64Url_empty, host.jsonParse_nil] at h
  cases h

theorem Signed.payload_eq {payload payload' : Json JsNumber} (h : Signed host token secret payload)
    (h' : Signed host token secret payload') : payload = payload' := by
  obtain ⟨_, _, _, _, hsplit, -, -, -, hpayload, -⟩ := h
  obtain ⟨_, _, _, _, hsplit', -, -, -, hpayload', -⟩ := h'
  rw [hsplit] at hsplit'
  simp only [List.cons.injEq, and_true] at hsplit'
  obtain ⟨-, rfl, -⟩ := hsplit'
  exact Option.some.inj (hpayload.symm.trans hpayload')

theorem property_falsy {value : Json JsNumber} (h : truthy value = false) (name : String) :
    property name value = none := by
  cases value with
  | obj props => cases h
  | _ => rfl

/-- A payload without any property is refused and raises no error. -/
theorem verifyClaims_falsy {payload : Json JsNumber} (h : truthy payload = false) :
    verifyClaims now payload options = .ok none := by
  have hnone : ∀ name, property name payload = none := property_falsy h
  have hidentity : identityOf payload = none := by
    rw [identityOf, hnone]
  have haudience : audiencePasses payload options = .ok true ∨
      audiencePasses payload options = .ok false := by
    unfold audiencePasses
    rw [hnone]
    cases options.audience with
    | none => exact .inl rfl
    | some audience =>
      dsimp only
      split_ifs
      · exact .inl rfl
      · exact .inr rfl
  unfold verifyClaims
  split_ifs
  · rfl
  · rfl
  · rfl
  · rcases haudience with h | h <;> rw [h]
    exact congrArg _ hidentity

/-- **A signed token** is as good as its claims. -/
theorem verify_of_signed {payload : Json JsNumber} (h : Signed host token secret payload) :
    verifyHs256Jwt host now token secret options = verifyClaims now payload options := by
  obtain ⟨encodedHeader, encodedPayload, encodedSignature, header, hsplit, hheader, halg, htyp,
    hpayload, hsignature⟩ := h
  have hne := ne_empty_of_decodeJsonSegment hheader
  have hne' := ne_empty_of_decodeJsonSegment hpayload
  have hne'' : encodedSignature ≠ "" := by
    rintro rfl
    have hlength := host.digest_length secret (encodedHeader ++ "." ++ encodedPayload)
    rw [← hsignature, decodeBase64Url_empty] at hlength
    cases hlength
  have htruthy : truthy header = true := by
    by_contra hfalsy
    rw [property_falsy (Bool.eq_false_iff.mpr hfalsy)] at halg
    cases halg
  unfold verifyHs256Jwt
  rw [hsplit]
  dsimp only
  rw [if_neg (by simp [hne, hne', hne'']), hheader, hpayload]
  dsimp only
  rw [any_isText_iff.mpr halg, any_isText_iff.mpr htyp, htruthy]
  by_cases hfalsy : truthy payload = false
  · rw [if_pos (.inr (.inl hfalsy)), verifyClaims_falsy hfalsy]
  · rw [if_neg (by simp [hfalsy]), if_neg (not_not.mpr (congrArg List.length hsignature)),
      if_neg (not_not.mpr hsignature)]

/-- Any other token is refused. -/
theorem verify_of_not_signed (h : ∀ payload, ¬ Signed host token secret payload) :
    verifyHs256Jwt host now token secret options = .ok none := by
  unfold verifyHs256Jwt
  split
  · next encodedHeader encodedPayload encodedSignature hsplit =>
    split_ifs with hempty
    · rfl
    · split
      · next header payload hheader hpayload =>
        by_cases hrefused : truthy header = false ∨ truthy payload = false ∨
            (property "alg" header).any (isText "HS256") = false ∨
            (property "typ" header).any (isText "JWT") = false
        · exact if_pos hrefused
        rw [if_neg hrefused]
        dsimp only
        split_ifs with hlength hsignature
        · rfl
        · rfl
        · refine absurd ⟨encodedHeader, encodedPayload, encodedSignature, header, hsplit, hheader, ?_,
            ?_, hpayload, ?_⟩ (h payload)
          · rw [← any_isText_iff, ← Bool.not_eq_false]
            exact fun halg => hrefused (.inr (.inr (.inl halg)))
          · rw [← any_isText_iff, ← Bool.not_eq_false]
            exact fun htyp => hrefused (.inr (.inr (.inr htyp)))
          · exact not_not.mp hsignature
      · rfl
  · rfl

/-! ### The promise -/

/-- A time of a valid token: where it is present it is a number that the clock satisfies. -/
def ClockClaim (refused : JsNumber → Bool) (claim : Option (Json JsNumber)) : Prop :=
  ∀ value, claim = some value → ∃ n, value = .num n ∧ refused n = false

/-- **A valid token** with its payload. -/
structure ValidToken (host : TokenHost) (now : Int) (token secret : String)
    (options : JwtVerificationOptions) (payload : Json JsNumber) : Prop where
  segments : ∃ encodedHeader encodedPayload encodedSignature header,
    Text.splitOnChar '.' token = [encodedHeader, encodedPayload, encodedSignature] ∧
      decodeJsonSegment host encodedHeader = some (.obj header) ∧
      property "alg" (.obj header) = some (.str "HS256") ∧
      property "typ" (.obj header) = some (.str "JWT") ∧
      decodeJsonSegment host encodedPayload = some payload ∧
      encodedSignature = Text.base64UrlBytes
        (host.hmacSha256 secret (encodedHeader ++ "." ++ encodedPayload))
  object : ∃ props, payload = .obj props
  notBefore : ClockClaim (JsNumber.isAfter now) (property "nbf" payload)
  expires : ClockClaim (JsNumber.isReached now) (property "exp" payload)
  issuer : IssuerMatches payload options
  audience : AudienceMatches payload options
  subject : HasSubject payload

/-- The token of a bearer request. -/
def bearerToken (request : DashboardRequest) : Option String := do
  let authorization ← request.header "authorization"
  let parts := Text.splitOnChar ' ' authorization
  if parts[0]? = some "Bearer" then parts[1]? else none

/-- **What the check of a token promises**: it never throws, it returns an identity just for valid tokens, and
the middleware lets a request with the token through just with the role that reads the dashboard. -/
structure TokenPromise (host : TokenHost) (now : Int) (token secret : String)
    (options : JwtVerificationOptions) : Prop where
  noThrow : ∀ message, verifyHs256Jwt host now token secret options ≠ .error message
  identity : (∃ identity, verifyHs256Jwt host now token secret options = .ok (some identity)) ↔
    ∃ payload, ValidToken host now token secret options payload
  middleware : ∀ (security : DashboardApiSecurityConfig) (request : DashboardRequest),
    configured security.jwtSecret = some secret →
    options = ⟨configured security.jwtIssuer, configured security.jwtAudience⟩ →
    request.method ≠ "OPTIONS" → configured (request.header "x-api-key") = none →
    bearerToken request = some token →
    (∃ passed, createDashboardAuthMiddleware host now security request = .next passed) →
      ∃ payload, ValidToken host now token secret options payload ∧
        HasRole "dashboard.read" payload

/-- A time that is no number is missing. -/
def TimesAreNumbers (payload : Json JsNumber) : Prop :=
  (∀ value, property "nbf" payload = some value → ∃ n, value = .num n) ∧
    ∀ value, property "exp" payload = some value → ∃ n, value = .num n

/-- The third segment is the encoding of the bytes that it decodes to. -/
def CanonicalSignature (host : TokenHost) (token : String) : Prop :=
  ∀ encodedHeader encodedPayload encodedSignature,
    Text.splitOnChar '.' token = [encodedHeader, encodedPayload, encodedSignature] →
      encodedSignature = Text.base64UrlBytes (decodeBase64Url host encodedSignature)

/-- **Where the check is right**: a signed token that gets as far as its audience has one that can be read,
and if its audience and subject pass, its times are numbers and its signature is spelled as it is
encoded. -/
def StrictToken (host : TokenHost) (now : Int) (token secret : String)
    (options : JwtVerificationOptions) : Prop :=
  ∀ payload, Signed host token secret payload → TimesPass now payload →
    IssuerMatches payload options →
      AudienceReadable payload options ∧
        (AudienceMatches payload options → HasSubject payload →
          TimesAreNumbers payload ∧ CanonicalSignature host token)

theorem isSome_property {value : Json JsNumber} {name : String} {claim : Json JsNumber}
    (h : property name value = some claim) : ∃ props, value = .obj props := by
  cases value with
  | obj props => exact ⟨props, rfl⟩
  | _ => cases h

theorem passesClock_iff {refused : JsNumber → Bool} {claim : Option (Json JsNumber)}
    (h : ∀ value, claim = some value → ∃ n, value = .num n) :
    passesClock refused claim = true ↔ ClockClaim refused claim := by
  unfold ClockClaim
  cases claim with
  | none => exact ⟨nofun, fun _ => rfl⟩
  | some value =>
    obtain ⟨n, rfl⟩ := h value rfl
    simp [passesClock]

/-- A valid token is signed, and its times and its signature are as they have to be. -/
theorem ValidToken.strict {payload : Json JsNumber}
    (h : ValidToken host now token secret options payload) :
    Signed host token secret payload ∧ TimesPass now payload ∧ TimesAreNumbers payload ∧
      CanonicalSignature host token := by
  obtain ⟨⟨encodedHeader, encodedPayload, encodedSignature, header, hsplit, hheader, halg, htyp,
    hpayload, hsignature⟩, -, hnbf, hexp, -, -, -⟩ := h
  have hdecoded : decodeBase64Url host encodedSignature =
      host.hmacSha256 secret (encodedHeader ++ "." ++ encodedPayload) := by
    rw [hsignature]
    exact decodeBase64Url_base64UrlBytes (host.digest_bytes _ _)
  have hnumbers : TimesAreNumbers payload :=
    ⟨fun value hvalue => (hnbf value hvalue).imp fun _ h => h.1,
      fun value hvalue => (hexp value hvalue).imp fun _ h => h.1⟩
  refine ⟨⟨encodedHeader, encodedPayload, encodedSignature, .obj header, hsplit, hheader, halg, htyp,
    hpayload, hdecoded⟩, ⟨(passesClock_iff hnumbers.1).mpr hnbf, (passesClock_iff hnumbers.2).mpr hexp⟩,
    hnumbers, ?_⟩
  intro encodedHeader' encodedPayload' encodedSignature' hsplit'
  rw [hsplit] at hsplit'
  simp only [List.cons.injEq, and_true] at hsplit'
  obtain ⟨rfl, rfl, rfl⟩ := hsplit'
  rw [hdecoded]
  exact hsignature

/-- What a signed token lacks to be valid. -/
theorem Signed.valid {payload : Json JsNumber} (h : Signed host token secret payload)
    (htimes : TimesPass now payload) (hnumbers : TimesAreNumbers payload)
    (hcanonical : CanonicalSignature host token) (hissuer : IssuerMatches payload options)
    (haudience : AudienceMatches payload options) (hsubject : HasSubject payload) :
    ValidToken host now token secret options payload := by
  obtain ⟨encodedHeader, encodedPayload, encodedSignature, header, hsplit, hheader, halg, htyp,
    hpayload, hsignature⟩ := h
  obtain ⟨props, rfl⟩ := isSome_property halg
  have hencoded := hcanonical _ _ _ hsplit
  rw [hsignature] at hencoded
  exact
    { segments := ⟨encodedHeader, encodedPayload, encodedSignature, props, hsplit, hheader, halg, htyp,
        hpayload, hencoded⟩
      object := by
        obtain ⟨_, hsub, -⟩ := hsubject
        exact isSome_property hsub
      notBefore := (passesClock_iff hnumbers.1).mp htimes.1
      expires := (passesClock_iff hnumbers.2).mp htimes.2
      issuer := hissuer
      audience := haudience
      subject := hsubject }

/-- **Returned identities** are those of signed tokens whose claims pass. -/
theorem verify_eq_some_iff {identity : VerifiedJwt} :
    verifyHs256Jwt host now token secret options = .ok (some identity) ↔
      ∃ payload, Signed host token secret payload ∧ TimesPass now payload ∧
        IssuerMatches payload options ∧ AudienceMatches payload options ∧
        identityOf payload = some identity := by
  constructor
  · intro h
    by_cases hsigned : ∃ payload, Signed host token secret payload
    · obtain ⟨payload, hsigned⟩ := hsigned
      rw [verify_of_signed hsigned, verifyClaims_eq_some_iff] at h
      exact ⟨payload, hsigned, h⟩
    · rw [verify_of_not_signed (not_exists.mp hsigned)] at h
      cases h
  · rintro ⟨payload, hsigned, h⟩
    rw [verify_of_signed hsigned]
    exact verifyClaims_eq_some_iff.mpr h

theorem verify_eq_error_iff :
    (∃ message, verifyHs256Jwt host now token secret options = .error message) ↔
      ∃ payload, Signed host token secret payload ∧ TimesPass now payload ∧
        IssuerMatches payload options ∧ ¬ AudienceReadable payload options := by
  constructor
  · rintro ⟨message, h⟩
    by_cases hsigned : ∃ payload, Signed host token secret payload
    · obtain ⟨payload, hsigned⟩ := hsigned
      rw [verify_of_signed hsigned] at h
      exact ⟨payload, hsigned, verifyClaims_eq_error_iff.mp ⟨message, h⟩⟩
    · rw [verify_of_not_signed (not_exists.mp hsigned)] at h
      cases h
  · rintro ⟨payload, hsigned, h⟩
    rw [verify_of_signed hsigned]
    exact verifyClaims_eq_error_iff.mpr h

/-- **Requests that pass** the middleware with a bearer token have an identity with the role. -/
theorem verified_of_next {security : DashboardApiSecurityConfig} {request passed : DashboardRequest}
    (hmethod : request.method ≠ "OPTIONS") (hkey : configured (request.header "x-api-key") = none)
    (h : createDashboardAuthMiddleware host now security request = .next passed) :
    ∃ token secret identity, bearerToken request = some token ∧
      configured security.jwtSecret = some secret ∧
      verifyHs256Jwt host now token secret
          ⟨configured security.jwtIssuer, configured security.jwtAudience⟩ = .ok (some identity) ∧
      "dashboard.read" ∈ identity.roles := by
  unfold createDashboardAuthMiddleware at h
  rw [if_neg hmethod, hkey] at h
  dsimp only at h
  unfold authenticateBearer at h
  split at h
  · next authorization secret hauthorization hsecret =>
    dsimp only at h
    split_ifs at h with hrefused
    obtain ⟨hbearer, htoken⟩ := not_or.mp hrefused
    have hheader : request.header "authorization" = some authorization :=
      (Option.filter_eq_some_iff.mp hauthorization).1
    cases hparts : (Text.splitOnChar ' ' authorization)[1]? with
    | none =>
      rw [hparts] at htoken
      exact absurd rfl htoken
    | some token =>
      rw [hparts, Option.getD_some] at h
      split at h
      · cases h
      · cases h
      · next identity hverified =>
        split_ifs at h with hrole
        refine ⟨token, secret, identity, ?_, hsecret, hverified, ?_⟩
        · unfold bearerToken
          rw [hheader]
          exact (if_pos (not_not.mp hbearer)).trans hparts
        · simpa using hrole
  · cases h

/-- **Dashboard tokens.** A token is checked as promised exactly if it is strict: for any HMAC, decoder and
`JSON.parse`, any time, token, secret and options. -/
theorem verifyHs256Jwt_iff (host : TokenHost) (now : Int) (token secret : String)
    (options : JwtVerificationOptions) :
    TokenPromise host now token secret options ↔ StrictToken host now token secret options := by
  constructor
  · intro h payload hsigned htimes hissuer
    refine ⟨?_, fun haudience hsubject => ?_⟩
    · by_contra hunreadable
      obtain ⟨message, hthrown⟩ := verify_eq_error_iff.mpr ⟨payload, hsigned, htimes, hissuer, hunreadable⟩
      exact h.noThrow message hthrown
    · obtain ⟨identity, hidentity⟩ := Option.isSome_iff_exists.mp (identityOf_isSome_iff.mpr hsubject)
      obtain ⟨payload', hvalid⟩ := h.identity.mp
        ⟨identity, verify_eq_some_iff.mpr ⟨payload, hsigned, htimes, hissuer, haudience, hidentity⟩⟩
      obtain ⟨hsigned', -, hnumbers, hcanonical⟩ := hvalid.strict
      obtain rfl := hsigned.payload_eq hsigned'
      exact ⟨hnumbers, hcanonical⟩
  · intro h
    have hvalid : ∀ {identity}, verifyHs256Jwt host now token secret options = .ok (some identity) →
        ∃ payload, ValidToken host now token secret options payload ∧
          identityOf payload = some identity := by
      intro identity hverified
      obtain ⟨payload, hsigned, htimes, hissuer, haudience, hidentity⟩ := verify_eq_some_iff.mp hverified
      have hsubject : HasSubject payload := identityOf_isSome_iff.mp (by rw [hidentity]; rfl)
      obtain ⟨hnumbers, hcanonical⟩ := (h payload hsigned htimes hissuer).2 haudience hsubject
      exact ⟨payload, hsigned.valid htimes hnumbers hcanonical hissuer haudience hsubject, hidentity⟩
    refine ⟨fun message hthrown => ?_, ⟨?_, ?_⟩, ?_⟩
    · obtain ⟨payload, hsigned, htimes, hissuer, hunreadable⟩ := verify_eq_error_iff.mp ⟨message, hthrown⟩
      exact hunreadable (h payload hsigned htimes hissuer).1
    · rintro ⟨identity, hverified⟩
      exact (hvalid hverified).imp fun _ h => h.1
    · rintro ⟨payload, hvalidToken⟩
      obtain ⟨hsigned, htimes, -, -⟩ := hvalidToken.strict
      obtain ⟨identity, hidentity⟩ :=
        Option.isSome_iff_exists.mp (identityOf_isSome_iff.mpr hvalidToken.subject)
      exact ⟨identity, verify_eq_some_iff.mpr
        ⟨payload, hsigned, htimes, hvalidToken.issuer, hvalidToken.audience, hidentity⟩⟩
    · rintro security request hsecret hoptions hmethod hkey htoken ⟨passed, hnext⟩
      obtain ⟨token', secret', identity, htoken', hsecret', hverified, hrole⟩ :=
        verified_of_next hmethod hkey hnext
      obtain rfl := Option.some.inj (htoken.symm.trans htoken')
      obtain rfl := Option.some.inj (hsecret.symm.trans hsecret')
      rw [← hoptions] at hverified
      obtain ⟨payload, hvalidToken, hidentity⟩ := hvalid hverified
      refine ⟨payload, hvalidToken, ?_⟩
      rw [← mem_normalizeRoles_iff (by decide) (by decide)]
      obtain ⟨subject, hsub, hblank⟩ := hvalidToken.subject
      rw [identityOf, hsub] at hidentity
      dsimp only at hidentity
      rw [if_neg hblank] at hidentity
      obtain rfl := Option.some.inj hidentity
      exact hrole

end Signatures

/-! ### A token with odd claims -/

def sampleHeaderText : String := "\x7b\"alg\":\"HS256\",\"typ\":\"JWT\"\x7d"

def samplePayloadText : String := "\x7b\"sub\":\"reader\",\"aud\":1,\"exp\":\"soon\"\x7d"

def samplePayload : Json JsNumber :=
  .obj [("sub", .str "reader"), ("aud", .num (.finite ⟨1, 0, .inl (by decide)⟩)), ("exp", .str "soon")]

/-- `JSON.parse` on the two texts. -/
def sampleParse (bytes : List Nat) : Option (Json JsNumber) :=
  if bytes = Text.utf8Bytes sampleHeaderText then
    some (.obj [("alg", .str "HS256"), ("typ", .str "JWT")])
  else if bytes = Text.utf8Bytes samplePayloadText then some samplePayload
  else none

/-- A platform with one digest. -/
def sampleHost : TokenHost where
  hmacSha256 _ _ := List.replicate 32 255
  bufferFromBase64 := Text.decodeBase64
  jsonParse := sampleParse
  digest_length _ _ := rfl
  digest_bytes _ _ b hb := by
    rw [(List.mem_replicate.mp hb).2]
    decide
  bufferFromBase64_base64Text _ h := Text.decodeBase64_base64Text h
  jsonParse_nil := by decide +kernel

theorem sampleHost_jsonParse : sampleHost.jsonParse = sampleParse := rfl

def sampleToken : String :=
  Text.base64Url sampleHeaderText ++ "." ++ Text.base64Url samplePayloadText ++ "." ++
    Text.base64UrlBytes (List.replicate 32 255)

theorem sampleToken_signed : Signed sampleHost sampleToken "secret" samplePayload := by
  have hdecode : ∀ text, decodeBase64Url sampleHost (Text.base64Url text) = Text.utf8Bytes text :=
    fun text => decodeBase64Url_base64UrlBytes fun _ => Text.lt_of_mem_utf8Bytes
  refine ⟨Text.base64Url sampleHeaderText, Text.base64Url samplePayloadText,
    Text.base64UrlBytes (List.replicate 32 255), .obj [("alg", .str "HS256"), ("typ", .str "JWT")],
    by decide +kernel, ?_, rfl, rfl, ?_, decodeBase64Url_base64UrlBytes (sampleHost.digest_bytes "" "")⟩
  · rw [decodeJsonSegment, hdecode, sampleHost_jsonParse, sampleParse, if_pos rfl]
  · have hne : Text.utf8Bytes samplePayloadText ≠ Text.utf8Bytes sampleHeaderText := fun h =>
      absurd (Text.utf8Bytes_injective h) (by decide)
    rw [decodeJsonSegment, hdecode, sampleHost_jsonParse, sampleParse, if_neg hne, if_pos rfl]

/-- **Odd claims**: a token whose expiry is a text never expires, and one whose audience is a number makes
the check throw. -/
theorem sampleToken_not_promised :
    ¬ TokenPromise sampleHost 2000000000 sampleToken "secret" ⟨none, none⟩ ∧
      ¬ TokenPromise sampleHost 2000000000 sampleToken "secret" ⟨none, some "dashboard"⟩ := by
  constructor
  · intro h
    have hverified : verifyHs256Jwt sampleHost 2000000000 sampleToken "secret" ⟨none, none⟩ =
        .ok (some ⟨"reader", []⟩) := by
      rw [verify_of_signed sampleToken_signed]
      rfl
    obtain ⟨payload, hvalid⟩ := h.identity.mp ⟨_, hverified⟩
    obtain ⟨hsigned, -, hnumbers, -⟩ := hvalid.strict
    obtain rfl := sampleToken_signed.payload_eq hsigned
    obtain ⟨n, hn⟩ := hnumbers.2 (.str "soon") rfl
    cases hn
  · intro h
    refine h.noThrow "claim?.includes is not a function" ?_
    rw [verify_of_signed sampleToken_signed]
    rfl

end Dashboard

end AiOrchestrator
