import AiOrchestrator.Dashboard.Auth
import AiOrchestrator.Lib.Pieces

/-!
# How API keys are written

`parseApiKeys` takes the first pieces between the separators of an entry (`parseApiKeyEntry_eq_ok_iff`) and drops
the others. With one `@` and one `:` before it an entry has the documented form (`entryForm_iff`); with more
a record is made of a part of it. What is read is rendered and read again without a change
(`parseApiKeys_renderApiKeys`). `parseApiKeys_iff` says for which texts the records are the complete entries,
so that no request is authenticated by a part of a key.
-/

namespace AiOrchestrator

namespace Dashboard

/-! ### Entries -/

/-- A record made of the first pieces of an entry. -/
structure Reads (entry : String) (record : DashboardApiKeyRecord) (idAndKey rolesPart : String)
    (afterRoles : List String) (idPart keyPart : String) (afterKey : List String) : Prop where
  atParts : Text.splitOnChar '@' entry = idAndKey :: rolesPart :: afterRoles
  colonParts : Text.splitOnChar ':' idAndKey = idPart :: keyPart :: afterKey
  record_eq : record = ⟨Text.trim idPart, Text.trim keyPart, roleNames rolesPart⟩
  id_ne : Text.trim idPart ≠ ""
  key_ne : Text.trim keyPart ≠ ""
  roles_ne : roleNames rolesPart ≠ []

/-- An entry with an id, a key and a role in its first pieces. -/
def Usable (entry : String) : Prop :=
  ∃ record idAndKey rolesPart afterRoles idPart keyPart afterKey,
    Reads entry record idAndKey rolesPart afterRoles idPart keyPart afterKey

theorem roleNames_empty : roleNames "" = [] := by decide

/-- **Accepted entries** are the usable ones. -/
theorem parseApiKeyEntry_eq_ok_iff {index : Nat} {entry : String} {record : DashboardApiKeyRecord} :
    parseApiKeyEntry index entry = .ok record ↔
      ∃ idAndKey rolesPart afterRoles idPart keyPart afterKey,
        Reads entry record idAndKey rolesPart afterRoles idPart keyPart afterKey := by
  obtain ⟨idAndKey, atRest, hat⟩ := List.exists_cons_of_ne_nil (Text.splitOnChar_ne_nil '@' entry)
  obtain ⟨idPart, colonRest, hcolon⟩ :=
    List.exists_cons_of_ne_nil (Text.splitOnChar_ne_nil ':' idAndKey)
  constructor
  · intro h
    unfold parseApiKeyEntry at h
    simp only [hat, List.getElem?_cons_zero, Option.getD_some, hcolon, Option.map_some] at h
    split_ifs at h with hempty hfields hroles
    obtain ⟨hid, hkey⟩ := not_or.mp hfields
    cases colonRest with
    | nil => exact absurd rfl hkey
    | cons keyPart afterKey =>
      cases atRest with
      | nil => exact absurd roleNames_empty hroles
      | cons rolesPart afterRoles =>
        exact ⟨idAndKey, rolesPart, afterRoles, idPart, keyPart, afterKey, hat, hcolon,
          (Except.ok.inj h).symm, hid, hkey, hroles⟩
  · rintro ⟨idAndKey', rolesPart, afterRoles, idPart', keyPart, afterKey, hread⟩
    have hidAndKey : idAndKey' ≠ "" := by
      rintro rfl
      have hone : Text.splitOnChar ':' "" = [""] := by decide
      rw [hread.colonParts] at hone
      cases hone
    unfold parseApiKeyEntry
    simp only [hread.atParts, List.getElem?_cons_zero, List.getElem?_cons_succ, Option.getD_some,
      hread.colonParts, Option.map_some]
    rw [if_neg hidAndKey, if_neg (not_or.mpr ⟨hread.id_ne, hread.key_ne⟩), if_neg hread.roles_ne,
      hread.record_eq]

theorem parseApiKeyEntries_eq_ok_iff {index : Nat} {entries : List String}
    {records : List DashboardApiKeyRecord} :
    parseApiKeyEntries index entries = .ok records ↔
      List.Forall₂ (fun entry record => parseApiKeyEntry 0 entry = .ok record) entries records := by
  have hindex : ∀ {index entry record}, parseApiKeyEntry index entry = .ok record ↔
      parseApiKeyEntry 0 entry = .ok record := by
    intro index entry record
    rw [parseApiKeyEntry_eq_ok_iff, parseApiKeyEntry_eq_ok_iff]
  induction entries generalizing index records with
  | nil =>
    rw [parseApiKeyEntries, List.forall₂_nil_left_iff, Except.ok.injEq, eq_comm]
  | cons entry rest ih =>
    rw [parseApiKeyEntries, List.forall₂_cons_left_iff]
    cases hentry : parseApiKeyEntry index entry with
    | error message =>
      constructor
      · exact nofun
      · rintro ⟨record, _, hrecord, -, -⟩
        rw [hindex.mpr hrecord] at hentry
        cases hentry
    | ok record =>
      cases hrest : parseApiKeyEntries (index + 1) rest with
      | error message =>
        constructor
        · exact nofun
        · rintro ⟨_, tail, -, htail, -⟩
          rw [ih.mpr htail] at hrest
          cases hrest
      | ok tail =>
        constructor
        · intro h
          exact ⟨record, tail, hindex.mp hentry, ih.mp hrest, (Except.ok.inj h).symm⟩
        · rintro ⟨record', tail', hrecord', htail', rfl⟩
          rw [hindex.mpr hrecord'] at hentry
          rw [ih.mpr htail'] at hrest
          obtain rfl := Except.ok.inj hentry
          obtain rfl := Except.ok.inj hrest
          rfl

/-! ### The documented form -/

/-- **The form `id:key@role|role|...`** of an entry, with white space around the parts, and its record. -/
def EntryForm (entry : String) (record : DashboardApiKeyRecord) : Prop :=
  ∃ idPart keyPart rolesPart, entry = idPart ++ ":" ++ keyPart ++ "@" ++ rolesPart ∧
    (':' ∉ idPart.toList ∧ '@' ∉ idPart.toList) ∧ (':' ∉ keyPart.toList ∧ '@' ∉ keyPart.toList) ∧
    '@' ∉ rolesPart.toList ∧
    record = ⟨Text.trim idPart, Text.trim keyPart, roleNames rolesPart⟩ ∧
    Text.trim idPart ≠ "" ∧ Text.trim keyPart ≠ "" ∧ roleNames rolesPart ≠ []

/-- No more than one `@`, and no more than one `:` before it. -/
def PlainSeparators (entry : String) : Prop :=
  (Text.splitOnChar '@' entry).length ≤ 2 ∧
    ∀ idAndKey ∈ (Text.splitOnChar '@' entry).head?, (Text.splitOnChar ':' idAndKey).length ≤ 2

theorem colon_eq : String.singleton ':' = ":" := rfl

theorem at_eq : String.singleton '@' = "@" := rfl

/-- An entry of the documented form is a usable one with plain separators. -/
theorem entryForm_iff {entry : String} {record : DashboardApiKeyRecord} :
    EntryForm entry record ↔ parseApiKeyEntry 0 entry = .ok record ∧ PlainSeparators entry := by
  rw [parseApiKeyEntry_eq_ok_iff]
  constructor
  · rintro ⟨idPart, keyPart, rolesPart, hentry, hid, hkey, hroles, hrecord, hne⟩
    have hat : Text.splitOnChar '@' entry = [idPart ++ ":" ++ keyPart, rolesPart] := by
      rw [Text.splitOnChar_eq_pair_iff, at_eq]
      refine ⟨hentry, ?_, hroles⟩
      simp [hid.2, hkey.2]
    have hcolon : Text.splitOnChar ':' (idPart ++ ":" ++ keyPart) = [idPart, keyPart] := by
      rw [Text.splitOnChar_eq_pair_iff, colon_eq]
      exact ⟨rfl, hid.1, hkey.1⟩
    refine ⟨⟨_, rolesPart, [], idPart, keyPart, [], hat, hcolon, hrecord, hne.1, hne.2.1, hne.2.2⟩, ?_⟩
    unfold PlainSeparators
    rw [hat]
    refine ⟨le_rfl, ?_⟩
    rintro _ ⟨⟩
    rw [hcolon]
    exact le_rfl
  · rintro ⟨⟨idAndKey, rolesPart, afterRoles, idPart, keyPart, afterKey, hread⟩, hat, hcolon⟩
    rw [hread.atParts] at hat hcolon
    have hafterRoles : afterRoles = [] := by simpa using hat
    have hafterKey : afterKey = [] := by
      have hlength := hcolon idAndKey rfl
      rw [hread.colonParts] at hlength
      simpa using hlength
    have hatPair := hread.atParts
    have hcolonPair := hread.colonParts
    rw [hafterRoles, Text.splitOnChar_eq_pair_iff, at_eq] at hatPair
    rw [hafterKey, Text.splitOnChar_eq_pair_iff, colon_eq] at hcolonPair
    obtain ⟨hentry, hnoAt, hrolesAt⟩ := hatPair
    obtain ⟨hidAndKey, hidColon, hkeyColon⟩ := hcolonPair
    rw [hidAndKey] at hnoAt hentry
    simp only [String.toList_append, List.mem_append, not_or] at hnoAt
    exact ⟨idPart, keyPart, rolesPart, hentry, ⟨hidColon, hnoAt.1.1⟩, ⟨hkeyColon, hnoAt.2⟩, hrolesAt,
      hread.record_eq, hread.id_ne, hread.key_ne, hread.roles_ne⟩

/-! ### Rendering -/

/-- A record in the documented form. -/
def DashboardApiKeyRecord.text (record : DashboardApiKeyRecord) : String :=
  record.id ++ ":" ++ record.key ++ "@" ++ String.intercalate "|" record.roles

/-- Records as a text of the configuration. -/
def renderApiKeys (records : List DashboardApiKeyRecord) : String :=
  String.intercalate "," (records.map (·.text))

/-- A trimmed text that is not empty. -/
structure Word (s : String) : Prop where
  trimmed : Text.trim s = s
  ne_empty : s ≠ ""

/-- A record whose parts are words without the separators behind them. -/
structure WellFormed (record : DashboardApiKeyRecord) : Prop where
  id : Word record.id
  key : Word record.key
  roles : ∀ role ∈ record.roles, Word role
  roles_ne : record.roles ≠ []
  id_plain : ':' ∉ record.id.toList ∧ '@' ∉ record.id.toList ∧ ',' ∉ record.id.toList
  key_plain : ':' ∉ record.key.toList ∧ '@' ∉ record.key.toList ∧ ',' ∉ record.key.toList
  roles_plain : ∀ role ∈ record.roles,
    '@' ∉ role.toList ∧ '|' ∉ role.toList ∧ ',' ∉ role.toList

theorem mem_roleNames_iff {role rolesPart : String} :
    role ∈ roleNames rolesPart ↔
      (∃ piece ∈ Text.splitOnChar '|' rolesPart, Text.trim piece = role) ∧ role ≠ "" := by
  simp [roleNames]

/-- **What is read** is well-formed. -/
theorem wellFormed_of_parse {entry : String} {record : DashboardApiKeyRecord}
    (h : parseApiKeyEntry 0 entry = .ok record) (hcomma : ',' ∉ entry.toList) :
    WellFormed record := by
  obtain ⟨idAndKey, rolesPart, afterRoles, idPart, keyPart, afterKey, hread⟩ :=
    parseApiKeyEntry_eq_ok_iff.mp h
  have hidAndKey : idAndKey ∈ Text.splitOnChar '@' entry := by simp [hread.atParts]
  have hrolesPart : rolesPart ∈ Text.splitOnChar '@' entry := by simp [hread.atParts]
  have hpart : ∀ part ∈ Text.splitOnChar ':' idAndKey, ':' ∉ (Text.trim part).toList ∧
      '@' ∉ (Text.trim part).toList ∧ ',' ∉ (Text.trim part).toList := by
    intro part hpart
    refine ⟨fun hmem => ?_, fun hmem => ?_, fun hmem => ?_⟩
    · exact Text.sep_notMem_of_mem_splitOnChar hpart (Text.mem_of_mem_trim hmem)
    · exact Text.sep_notMem_of_mem_splitOnChar hidAndKey
        (Text.mem_of_mem_splitOnChar hpart (Text.mem_of_mem_trim hmem))
    · exact hcomma (Text.mem_of_mem_splitOnChar hidAndKey
        (Text.mem_of_mem_splitOnChar hpart (Text.mem_of_mem_trim hmem)))
  have hrecord := hread.record_eq
  subst hrecord
  refine ⟨⟨Text.trim_trim _, hread.id_ne⟩, ⟨Text.trim_trim _, hread.key_ne⟩, fun role hrole => ?_,
    hread.roles_ne, hpart idPart (by simp [hread.colonParts]), hpart keyPart (by simp [hread.colonParts]),
    fun role hrole => ?_⟩
  · obtain ⟨⟨piece, -, rfl⟩, hne⟩ := mem_roleNames_iff.mp hrole
    exact ⟨Text.trim_trim _, hne⟩
  · obtain ⟨⟨piece, hpiece, rfl⟩, -⟩ := mem_roleNames_iff.mp hrole
    refine ⟨fun hmem => ?_, fun hmem => ?_, fun hmem => ?_⟩
    · exact Text.sep_notMem_of_mem_splitOnChar hrolesPart
        (Text.mem_of_mem_splitOnChar hpiece (Text.mem_of_mem_trim hmem))
    · exact Text.sep_notMem_of_mem_splitOnChar hpiece (Text.mem_of_mem_trim hmem)
    · exact hcomma (Text.mem_of_mem_splitOnChar hrolesPart
        (Text.mem_of_mem_splitOnChar hpiece (Text.mem_of_mem_trim hmem)))

theorem bar_eq : String.singleton '|' = "|" := rfl

theorem comma_eq : String.singleton ',' = "," := rfl

theorem roleNames_intercalate {roles : List String} (hne : roles ≠ [])
    (hwords : ∀ role ∈ roles, Word role) (hplain : ∀ role ∈ roles, '|' ∉ role.toList) :
    roleNames (String.intercalate "|" roles) = roles := by
  rw [roleNames, ← bar_eq, Text.splitOnChar_intercalate hne hplain]
  have hmap : roles.map Text.trim = roles :=
    (List.map_congr_left fun role hrole => (hwords role hrole).trimmed).trans (List.map_id _)
  rw [hmap, List.filter_eq_self]
  exact fun role hrole => decide_eq_true (hwords role hrole).ne_empty

/-- A character of joined texts is one of the separator or of a text. -/
theorem mem_intercalate {c : Char} {sep : String} {texts : List String}
    (h : c ∈ (String.intercalate sep texts).toList) :
    c ∈ sep.toList ∨ ∃ text ∈ texts, c ∈ text.toList := by
  induction texts with
  | nil => simp at h
  | cons first rest ih =>
    cases rest with
    | nil =>
      rw [String.intercalate_singleton] at h
      exact .inr ⟨first, List.mem_cons_self, h⟩
    | cons second rest =>
      rw [String.intercalate_cons_cons, String.toList_append, String.toList_append, List.mem_append,
        List.mem_append] at h
      rcases h with (h | h) | h
      · exact .inr ⟨first, List.mem_cons_self, h⟩
      · exact .inl h
      · rcases ih h with h | ⟨text, htext, h⟩
        · exact .inl h
        · exact .inr ⟨text, List.mem_cons_of_mem _ htext, h⟩

/-- Joined words end like a word. -/
theorem word_intercalate_bar {roles : List String} (hne : roles ≠ [])
    (hwords : ∀ role ∈ roles, Word role) : Word (String.intercalate "|" roles) := by
  induction roles with
  | nil => exact absurd rfl hne
  | cons first rest ih =>
    have hfirst := hwords first List.mem_cons_self
    cases rest with
    | nil =>
      rw [String.intercalate_singleton]
      exact hfirst
    | cons second rest =>
      have hrest := ih (List.cons_ne_nil _ _) fun role hrole => hwords role (List.mem_cons_of_mem _ hrole)
      rw [String.intercalate_cons_cons]
      refine ⟨Text.trim_append_append "|" hfirst.trimmed hfirst.ne_empty hrest.trimmed hrest.ne_empty,
        fun hempty => hfirst.ne_empty ?_⟩
      simp only [String.append_eq_empty_iff] at hempty
      exact hempty.1.1

/-- **A rendered record** is an entry of the documented form that trimming leaves alone. -/
theorem WellFormed.text {record : DashboardApiKeyRecord} (h : WellFormed record) :
    EntryForm record.text record ∧ Word record.text ∧ ',' ∉ record.text.toList := by
  have hroles := word_intercalate_bar h.roles_ne h.roles
  have hnames := roleNames_intercalate h.roles_ne h.roles fun role hrole => (h.roles_plain role hrole).2.1
  have hchars : ∀ c, c ≠ '|' → (∀ role ∈ record.roles, c ∉ role.toList) →
      c ∉ (String.intercalate "|" record.roles).toList := by
    intro c hc hnot hmem
    rcases mem_intercalate hmem with hbar | ⟨role, hrole, hmem⟩
    · exact hc (by simpa using hbar)
    · exact hnot role hrole hmem
  have hat := hchars '@' (by decide) fun role hrole => (h.roles_plain role hrole).1
  have hcomma := hchars ',' (by decide) fun role hrole => (h.roles_plain role hrole).2.2
  refine ⟨⟨record.id, record.key, _, rfl, ⟨h.id_plain.1, h.id_plain.2.1⟩,
    ⟨h.key_plain.1, h.key_plain.2.1⟩, hat, ?_, ?_, ?_, ?_⟩, ⟨?_, ?_⟩, ?_⟩
  · rw [h.id.trimmed, h.key.trimmed, hnames]
  · rw [h.id.trimmed]
    exact h.id.ne_empty
  · rw [h.key.trimmed]
    exact h.key.ne_empty
  · rw [hnames]
    exact h.roles_ne
  · have hmid := Text.trim_append_append (":" ++ record.key ++ "@") h.id.trimmed h.id.ne_empty
      hroles.trimmed hroles.ne_empty
    simpa [DashboardApiKeyRecord.text, String.append_assoc] using hmid
  · intro hempty
    simp only [DashboardApiKeyRecord.text, String.append_eq_empty_iff] at hempty
    exact h.id.ne_empty hempty.1.1.1.1
  · simp only [DashboardApiKeyRecord.text, String.toList_append, List.mem_append, not_or]
    exact ⟨⟨⟨⟨h.id_plain.2.2, by decide⟩, h.key_plain.2.2⟩, by decide⟩, hcomma⟩

theorem apiKeyEntries_blank {rawValue : String} (h : Text.trim rawValue = "") :
    apiKeyEntries rawValue = [] := by
  have hcomma : ',' ∉ rawValue.toList := fun hmem =>
    absurd (Text.trim_eq_empty_iff.mp h ',' hmem) (by decide)
  simp [apiKeyEntries, Text.splitOnChar_eq_singleton hcomma, h]

theorem parseApiKeys_some (rawValue : String) :
    parseApiKeys (some rawValue) = parseApiKeyEntries 0 (apiKeyEntries rawValue) := by
  rw [parseApiKeys]
  split_ifs with hblank
  · rw [apiKeyEntries_blank hblank]
    rfl
  · rfl

theorem comma_notMem_of_mem_apiKeyEntries {rawValue entry : String}
    (h : entry ∈ apiKeyEntries rawValue) : ',' ∉ entry.toList := by
  simp only [apiKeyEntries, List.mem_filter, List.mem_map] at h
  obtain ⟨⟨piece, hpiece, rfl⟩, -⟩ := h
  exact fun hmem => Text.sep_notMem_of_mem_splitOnChar hpiece (Text.mem_of_mem_trim hmem)

theorem apiKeyEntries_renderApiKeys {records : List DashboardApiKeyRecord}
    (h : ∀ record ∈ records, WellFormed record) :
    apiKeyEntries (renderApiKeys records) = records.map (·.text) := by
  by_cases hne : records = []
  · rw [hne]
    exact apiKeyEntries_blank (by decide)
  · have htexts : ∀ text ∈ records.map (·.text), Word text ∧ ',' ∉ text.toList := by
      intro text htext
      obtain ⟨record, hrecord, rfl⟩ := List.mem_map.mp htext
      exact (h record hrecord).text.2
    rw [apiKeyEntries, renderApiKeys, ← comma_eq,
      Text.splitOnChar_intercalate (by simpa using hne) fun text htext => (htexts text htext).2]
    have hmap : (records.map (·.text)).map Text.trim = records.map (·.text) :=
      (List.map_congr_left fun text htext => (htexts text htext).1.trimmed).trans (List.map_id _)
    rw [hmap, List.filter_eq_self]
    exact fun text htext => decide_eq_true (htexts text htext).1.ne_empty

/-- **The round trip**: well-formed records are read as they were rendered. -/
theorem parseApiKeys_renderApiKeys {records : List DashboardApiKeyRecord}
    (h : ∀ record ∈ records, WellFormed record) :
    parseApiKeys (some (renderApiKeys records)) = .ok records := by
  rw [parseApiKeys_some, apiKeyEntries_renderApiKeys h, parseApiKeyEntries_eq_ok_iff,
    List.forall₂_map_left_iff, List.forall₂_same]
  exact fun record hrecord => (entryForm_iff.mp (h record hrecord).text.1).1

/-! ### The promise -/

/-- The entries of a configuration that may be missing. -/
def entriesOf (rawValue : Option String) : List String := (rawValue.map apiKeyEntries).getD []

theorem parseApiKeys_eq_ok_iff {rawValue : Option String} {records : List DashboardApiKeyRecord} :
    parseApiKeys rawValue = .ok records ↔
      List.Forall₂ (fun entry record => parseApiKeyEntry 0 entry = .ok record) (entriesOf rawValue)
        records := by
  cases rawValue with
  | none =>
    show Except.ok [] = Except.ok records ↔ List.Forall₂ _ [] records
    rw [List.forall₂_nil_left_iff, Except.ok.injEq, eq_comm]
  | some rawValue => rw [parseApiKeys_some, parseApiKeyEntries_eq_ok_iff]; rfl

/-- **What the records of a configuration promise**: they are the complete entries, they are read as they are
rendered, and a request with an API key is let in just with the complete key of an entry. -/
structure KeysAsWritten (rawValue : Option String) (records : List DashboardApiKeyRecord) : Prop where
  complete : List.Forall₂ EntryForm (entriesOf rawValue) records
  rendered : parseApiKeys (some (renderApiKeys records)) = .ok records
  authenticated : ∀ (host : TokenHost) (now : Int) (security : DashboardApiSecurityConfig)
    (request : DashboardRequest) (apiKey : String), security.apiKeys = records →
    request.method ≠ "OPTIONS" → request.header "x-api-key" = some apiKey → apiKey ≠ "" →
    createDashboardAuthMiddleware host now security request ≠ .response 401 "Authentication failed" →
      ∃ entry ∈ entriesOf rawValue, ∃ record, EntryForm entry record ∧ record.key = apiKey

theorem timingSafeEqualString_iff {left right : String} :
    timingSafeEqualString left right = true ↔ left = right := by
  unfold timingSafeEqualString
  constructor
  · intro h
    dsimp only at h
    split_ifs at h with hlength
    exact Text.utf8Bytes_injective (of_decide_eq_true h)
  · rintro rfl
    simp

/-- A request with an API key that is not refused has the key of a record. -/
theorem exists_record_of_middleware {host : TokenHost} {now : Int}
    {security : DashboardApiSecurityConfig} {request : DashboardRequest} {apiKey : String}
    (hmethod : request.method ≠ "OPTIONS") (hheader : request.header "x-api-key" = some apiKey)
    (hne : apiKey ≠ "")
    (h : createDashboardAuthMiddleware host now security request ≠
      .response 401 "Authentication failed") :
    ∃ record ∈ security.apiKeys, record.key = apiKey := by
  have hconfigured : configured (request.header "x-api-key") = some apiKey := by
    rw [hheader]
    simp [configured, hne]
  unfold createDashboardAuthMiddleware at h
  rw [if_neg hmethod, hconfigured] at h
  dsimp only at h
  unfold authenticateApiKey at h
  split at h
  · exact absurd rfl h
  · next record hrecord =>
    have hequal := List.find?_some hrecord
    exact ⟨record, List.mem_of_find?_eq_some hrecord, timingSafeEqualString_iff.mp hequal⟩

theorem exists_of_forall₂ {α β : Type} {R : α → β → Prop} {l : List α} {m : List β}
    (h : List.Forall₂ R l m) : (∀ a ∈ l, ∃ b ∈ m, R a b) ∧ ∀ b ∈ m, ∃ a ∈ l, R a b := by
  induction h with
  | nil => exact ⟨nofun, nofun⟩
  | cons hfirst _ ih =>
    constructor
    · intro a ha
      rcases List.mem_cons.mp ha with rfl | ha
      · exact ⟨_, List.mem_cons_self, hfirst⟩
      · exact (ih.1 a ha).imp fun _ h => ⟨List.mem_cons_of_mem _ h.1, h.2⟩
    · intro b hb
      rcases List.mem_cons.mp hb with rfl | hb
      · exact ⟨_, List.mem_cons_self, hfirst⟩
      · exact (ih.2 b hb).imp fun _ h => ⟨List.mem_cons_of_mem _ h.1, h.2⟩

/-- Usable entries are read one after the other. -/
theorem exists_records {entries : List String} (h : ∀ entry ∈ entries, Usable entry) :
    ∃ records, List.Forall₂ (fun entry record => parseApiKeyEntry 0 entry = .ok record) entries
      records := by
  induction entries with
  | nil => exact ⟨[], .nil⟩
  | cons first rest ih =>
    obtain ⟨record, hreads⟩ := h first List.mem_cons_self
    obtain ⟨records, hrest⟩ := ih fun entry hentry => h entry (List.mem_cons_of_mem _ hentry)
    exact ⟨record :: records, .cons (parseApiKeyEntry_eq_ok_iff.mpr hreads) hrest⟩

/-- **API keys of the dashboard.** The records of a text are its complete entries exactly if an entry lacks an
id, a key or a role, so that the text is rejected, or every entry has no more than one `@` and no more than
one `:` before it. -/
theorem parseApiKeys_iff (rawValue : Option String) :
    (∀ records, parseApiKeys rawValue = .ok records → KeysAsWritten rawValue records) ↔
      (∃ entry ∈ entriesOf rawValue, ¬ Usable entry) ∨
        ∀ entry ∈ entriesOf rawValue, PlainSeparators entry := by
  constructor
  · intro h
    by_cases hunusable : ∃ entry ∈ entriesOf rawValue, ¬ Usable entry
    · exact .inl hunusable
    · refine .inr fun entry hentry => ?_
      obtain ⟨records, hrecords⟩ := exists_records fun entry hentry =>
        not_not.mp fun hnot => hunusable ⟨entry, hentry, hnot⟩
      have hforms := (h records (parseApiKeys_eq_ok_iff.mpr hrecords)).complete
      obtain ⟨record, -, hform⟩ := (exists_of_forall₂ hforms).1 entry hentry
      exact (entryForm_iff.mp hform).2
  · intro h records hparse
    have hrecords := parseApiKeys_eq_ok_iff.mp hparse
    have hcomma : ∀ entry ∈ entriesOf rawValue, ',' ∉ entry.toList := by
      intro entry hentry
      cases rawValue with
      | none => exact absurd hentry List.not_mem_nil
      | some rawValue => exact comma_notMem_of_mem_apiKeyEntries hentry
    have hplain : ∀ entry ∈ entriesOf rawValue, PlainSeparators entry := by
      rcases h with ⟨entry, hentry, hunusable⟩ | h
      · obtain ⟨record, -, hrecord⟩ := (exists_of_forall₂ hrecords).1 entry hentry
        exact absurd ⟨record, parseApiKeyEntry_eq_ok_iff.mp hrecord⟩ hunusable
      · exact h
    have hforms : List.Forall₂ EntryForm (entriesOf rawValue) records :=
      ((List.forall₂_and_left _ _).mpr ⟨hplain, hrecords⟩).imp fun entry record h =>
        entryForm_iff.mpr ⟨h.2, h.1⟩
    have hwell : ∀ record ∈ records, WellFormed record := by
      intro record hrecord
      obtain ⟨entry, hentry, hparsed⟩ := (exists_of_forall₂ hrecords).2 record hrecord
      exact wellFormed_of_parse hparsed (hcomma entry hentry)
    refine ⟨hforms, parseApiKeys_renderApiKeys hwell, ?_⟩
    rintro host now security request apiKey rfl hmethod hheader hne hlet
    obtain ⟨record, hrecord, hkey⟩ := exists_record_of_middleware hmethod hheader hne hlet
    obtain ⟨entry, hentry, hform⟩ := (exists_of_forall₂ hforms).2 record hrecord
    exact ⟨entry, hentry, record, hform, hkey⟩

/-- **A dropped tail**: with a second `:` the key ends before it, and with a second `@` the roles do. -/
theorem tail_dropped :
    parseApiKeys (some "reader:secret:part@dashboard.read") =
        .ok [⟨"reader", "secret", ["dashboard.read"]⟩] ∧
      ¬ ∀ records, parseApiKeys (some "reader:secret:part@dashboard.read") = .ok records →
        KeysAsWritten (some "reader:secret:part@dashboard.read") records := by
  have hparse : parseApiKeys (some "reader:secret:part@dashboard.read") =
      .ok [⟨"reader", "secret", ["dashboard.read"]⟩] := by rfl
  refine ⟨hparse, fun h => ?_⟩
  have hforms := (h _ hparse).complete
  have hentries : entriesOf (some "reader:secret:part@dashboard.read") =
      ["reader:secret:part@dashboard.read"] := by decide +kernel
  rw [hentries] at hforms
  obtain ⟨record, -, hform⟩ := (exists_of_forall₂ hforms).1 _ List.mem_cons_self
  have hlength := (entryForm_iff.mp hform).2.2 "reader:secret:part" (by decide +kernel)
  revert hlength
  decide +kernel

end Dashboard

end AiOrchestrator
