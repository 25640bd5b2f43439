import RasatTrading.Text

/-! Stored credentials: secrets that a backend of the operating system protects, and the blobs that stand for them. -/

namespace Rasat

/-- Bytes of a blob. -/
abbrev Bytes := List UInt8

/-- The UTF-8 encoding of a text. -/
def encodeUtf8 (text : String) : Bytes := text.toByteArray.data.toList

/-- The text of bytes; absent when they are no UTF-8. -/
def decodeUtf8 (bytes : Bytes) : Option String := String.fromUTF8? ⟨bytes.toArray⟩

theorem decodeUtf8_encodeUtf8 (text : String) : decodeUtf8 (encodeUtf8 text) = some text := by
  unfold decodeUtf8 encodeUtf8
  rw [decoded_iff, Array.toArray_toList]

/-- The exceptions of the secret store. -/
inductive SecretError
  | store (text : String)
  /-- No backend of the operating system is available. -/
  | unavailable (text : String)
  /-- A blob could not be decrypted. -/
  | decrypt (text : String)
  deriving DecidableEq, Repr

/-- A value that the data protection of the operating system returns. -/
inductive ProtectedData
  | bytes (data : Bytes)
  | text (value : String)
  | other
  deriving DecidableEq, Repr

/-- The data protection of the operating system; a call that raises gives nothing. -/
structure DataProtection where
  /-- `CryptProtectData`: no two calls need to give the same ciphertext. Some bindings return it behind a
  description. -/
  protect : ℕ → Bytes → Option (Option String × ProtectedData)
  /-- `CryptUnprotectData`. -/
  unprotect : Bytes → Option (String × ProtectedData)

/-- What is documented of the data protection: the same user gets back what was protected. -/
structure DataProtection.Lawful (dpapi : DataProtection) : Prop where
  readsBack : ∀ salt data description blob, dpapi.protect salt data = some (description, .bytes blob) →
    ∃ found, dpapi.unprotect blob = some (found, .bytes data)

/-- The keyring of the operating system, over its contents; a call that raises gives nothing. -/
structure Keyring (κ : Type) where
  setPassword : κ → String → String → String → Option κ
  /-- `get_password`: a password that was never set is `None`. -/
  getPassword : κ → String → String → Option (Option String)

/-- What is documented of the keyring: a password that was set is found. -/
structure Keyring.Lawful {κ : Type} (keyring : Keyring κ) : Prop where
  readsBack : ∀ store service username password after,
    keyring.setPassword store service username password = some after →
      keyring.getPassword after service username = some (some password)

/-- A secret store: the backends that were found when it was made. -/
structure SecretStore (κ : Type) where
  /-- Whether the operating system is Windows. -/
  windows : Bool
  win32crypt : Option DataProtection
  keyring : Option (Keyring κ)

namespace SecretStore

variable {κ : Type}

def dpapiPrefix : Bytes := encodeUtf8 "dpapi:v1:"

def keyringPrefix : Bytes := encodeUtf8 "keyring:v1:"

def keyringService : String := "rasattrading-mcp"

inductive Backend
  | dpapi | keyring
  deriving DecidableEq, Repr

/-- `backend`. -/
def backend (secrets : SecretStore κ) : Option Backend :=
  if secrets.win32crypt.isSome ∧ secrets.windows then some .dpapi
  else if secrets.keyring.isSome then some .keyring
  else none

/-- `_keyring_username`. -/
def keyringUsername (accountId field : String) : String := accountId ++ ":" ++ field

/-- The ciphertext that the data protection gives, behind its prefix. -/
def sealBytes (dpapi : DataProtection) (salt : ℕ) (value : String) : Except SecretError Bytes :=
  match dpapi.protect salt (encodeUtf8 value) with
  | some (_, .bytes ciphertext) => .ok (dpapiPrefix ++ ciphertext)
  -- A Windows installation that has the data protection is not downgraded to a keyring.
  | _ => .error (.unavailable "Windows DPAPI is unavailable")

/-- `encrypt`: the contents of the keyring afterwards, and the blob. -/
def encrypt (secrets : SecretStore κ) (store : κ) (salt : ℕ) (accountId field value : String) :
    Except SecretError (κ × Bytes) :=
  if value = "" then .error (.store "credential value must be a valid string")
  else
    match secrets.win32crypt, secrets.windows, secrets.keyring with
    | some dpapi, true, _ => (sealBytes dpapi salt value).map fun blob => (store, blob)
    | _, _, some keyring =>
      let username := keyringUsername accountId field
      match keyring.setPassword store keyringService username value with
      | some after => .ok (after, keyringPrefix ++ encodeUtf8 username)
      | none => .error (.unavailable "OS credential backend is unavailable")
    | _, _, none => .error (.unavailable "Windows DPAPI/keyring backend is unavailable")

/-- The secret behind a ciphertext of the data protection. -/
def unsealBytes (dpapi : DataProtection) (ciphertext : Bytes) : Except SecretError String :=
  match dpapi.unprotect ciphertext with
  | some (_, .bytes data) =>
    match decodeUtf8 data with
    | some value => .ok value
    | none => .error (.decrypt "could not decrypt credential")
  | some (_, .text value) => .ok value
  | _ => .error (.decrypt "could not decrypt credential")

/-- The secret that the keyring has under the username of a descriptor. -/
def lookUp (keyring : Keyring κ) (store : κ) (expected : String) (descriptor : Bytes) :
    Except SecretError String :=
  match decodeUtf8 descriptor with
  | none => .error (.decrypt "could not decrypt credential")
  | some username =>
    -- A copied descriptor is not trusted to read another field or account.
    if username ≠ expected then .error (.decrypt "invalid credential reference")
    else
      match keyring.getPassword store keyringService username with
      | none => .error (.decrypt "could not decrypt credential")
      | some found =>
        if found.getD "" = "" then .error (.decrypt "credential not found") else .ok (found.getD "")

/-- `decrypt`. -/
def decrypt (secrets : SecretStore κ) (store : κ) (accountId field : String) (blob : Bytes) :
    Except SecretError String :=
  if dpapiPrefix.isPrefixOf blob then
    match secrets.win32crypt with
    | none => .error (.decrypt "DPAPI backend is unavailable")
    | some dpapi => unsealBytes dpapi (blob.drop dpapiPrefix.length)
  else if keyringPrefix.isPrefixOf blob then
    match secrets.keyring with
    | none => .error (.decrypt "keyring backend is unavailable")
    | some keyring =>
      lookUp keyring store (keyringUsername accountId field) (blob.drop keyringPrefix.length)
  else .error (.decrypt "unknown credential format")

end SecretStore

/-- The credential columns of an account's row; a column may be empty. -/
structure CredentialRow where
  accountId : String
  encryptedApiKey : Option Bytes
  encryptedSecret : Option Bytes
  deriving DecidableEq, Repr

/-- A secret of an account, or the error that hides why there is none. -/
def credentialOf {κ : Type} (secrets : SecretStore κ) (store : κ) (accountId field : String) (blob : Bytes) :
    Except Exc String :=
  match secrets.decrypt store accountId field blob with
  | .ok value => .ok value
  | .error (.decrypt _) => reject .credentialDecryptFailed "could not decrypt account credential"
  | .error (.store text) | .error (.unavailable text) => .error (.other text)

/-- `get_credentials`. -/
def getCredentials {κ : Type} (secrets : SecretStore κ) (store : κ) (accounts : List CredentialRow)
    (accountId : String) : Except Exc (String × String) :=
  match accounts.find? fun row => row.accountId = accountId with
  | none => reject .accountNotFound ("account not found: " ++ accountId)
  | some row =>
    -- An empty blob counts as a missing one.
    match row.encryptedApiKey.getD [], row.encryptedSecret.getD [] with
    | [], _ | _, [] => reject .accountNoCredentials "account is public/read-only; no API credentials"
    | apiKey, apiSecret => do
      let key ← credentialOf secrets store accountId "api_key" apiKey
      let secret ← credentialOf secrets store accountId "api_secret" apiSecret
      return (key, secret)

end Rasat
