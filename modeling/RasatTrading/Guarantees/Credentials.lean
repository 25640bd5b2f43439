import RasatTrading.Storage.Credentials

/-! When a blob is only good for the account and the field that it was made for. -/

namespace Rasat

namespace SecretStore

variable {κ : Type} {secrets : SecretStore κ} {store after : κ} {salt : ℕ} {blob : Bytes}
variable {accountId field otherAccount otherField value : String}

/-- The correct backends that a store may have. -/
structure Lawful (secrets : SecretStore κ) : Prop where
  dpapi : ∀ dpapi ∈ secrets.win32crypt, dpapi.Lawful
  keyring : ∀ keyring ∈ secrets.keyring, keyring.Lawful

/-- The blobs of the data protection have its prefix. -/
theorem dpapi_prefixed (ciphertext : Bytes) : dpapiPrefix.isPrefixOf (dpapiPrefix ++ ciphertext) = true := by
  rw [List.isPrefixOf_iff_prefix]
  exact List.prefix_append _ _

/-- The blobs of the keyring have its prefix and not the other one. -/
theorem keyring_prefixed (descriptor : Bytes) :
    dpapiPrefix.isPrefixOf (keyringPrefix ++ descriptor) = false ∧
      keyringPrefix.isPrefixOf (keyringPrefix ++ descriptor) = true := by
  constructor
  · -- Their first letters differ.
    rfl
  · rw [List.isPrefixOf_iff_prefix]
    exact List.prefix_append _ _

/-- What the data protection sealed it unseals, for whichever account and field. -/
theorem decrypt_sealed {dpapi : DataProtection} (lawful : dpapi.Lawful) (found : secrets.win32crypt = some dpapi)
    (sealing : sealBytes dpapi salt value = .ok blob) : secrets.decrypt store accountId field blob = .ok value := by
  unfold sealBytes at sealing
  split at sealing
  · rename_i description ciphertext protection
    cases sealing
    obtain ⟨other, unprotected⟩ := lawful.readsBack salt _ description ciphertext protection
    unfold decrypt unsealBytes
    rw [if_pos (dpapi_prefixed ciphertext), found, List.drop_left]
    simp only [unprotected, decodeUtf8_encodeUtf8]
  · cases sealing

/-- What the keyring keeps is found under the username that is in its blob, and refused for any other one. -/
theorem decrypt_kept (accountId field : String) {keyring : Keyring κ} (lawful : keyring.Lawful)
    (found : secrets.keyring = some keyring)
    {username : String} (kept : keyring.setPassword store keyringService username value = some after)
    (filled : value ≠ "") :
    secrets.decrypt after accountId field (keyringPrefix ++ encodeUtf8 username) =
      if username = keyringUsername accountId field then .ok value
      else .error (.decrypt "invalid credential reference") := by
  obtain ⟨other, own⟩ := keyring_prefixed (encodeUtf8 username)
  have password := lawful.readsBack store keyringService username value after kept
  unfold decrypt lookUp
  rw [other, own, found, List.drop_left]
  simp only [Bool.false_eq_true, if_false, if_true, decodeUtf8_encodeUtf8, ne_eq, ite_not]
  split
  · rw [password]
    simp [filled]
  · rfl

/-- A blob that was made for one account and field is decrypted there, and refused with a `SecretDecryptError`
anywhere else. -/
def Bound (secrets : SecretStore κ) (store : κ) (accountId field otherAccount otherField value : String)
    (blob : Bytes) : Prop :=
  if accountId = otherAccount ∧ field = otherField then
    secrets.decrypt store accountId field blob = .ok value
  else ∃ text, secrets.decrypt store accountId field blob = .error (.decrypt text)

/-- With correct backends a blob is bound to its account and field exactly when it is looked at there, or when the
keyring is the backend and has different usernames for the two places. -/
theorem blob_bound_iff (lawful : secrets.Lawful)
    (encrypted : secrets.encrypt store salt otherAccount otherField value = .ok (after, blob)) :
    secrets.Bound after accountId field otherAccount otherField value blob ↔
      (accountId = otherAccount ∧ field = otherField) ∨
        (secrets.backend = some .keyring ∧
          keyringUsername accountId field ≠ keyringUsername otherAccount otherField) := by
  unfold encrypt at encrypted
  split at encrypted
  · cases encrypted
  rename_i filled
  split at encrypted
  · -- The data protection knows no accounts.
    rename_i dpapi dpapiFound windows
    have backend : secrets.backend = some .dpapi := by simp [SecretStore.backend, dpapiFound, windows]
    cases result : sealBytes dpapi salt value with
    | error raised => simp [result, Except.map] at encrypted
    | ok sealing =>
      obtain ⟨rfl, rfl⟩ : store = after ∧ sealing = blob := by simpa [result, Except.map] using encrypted
      have opened : secrets.decrypt store accountId field sealing = .ok value :=
        decrypt_sealed (lawful.dpapi dpapi dpapiFound) dpapiFound result
      unfold Bound
      rw [opened, backend]
      split
      · rename_i same
        simp [same]
      · rename_i elsewhere
        simp [elsewhere]
  · -- The keyring has the username in its blob.
    rename_i keyring keyringFound absent
    have backend : secrets.backend = some .keyring := by
      unfold SecretStore.backend
      rw [if_neg, keyringFound]
      · rfl
      · rintro ⟨present, windows⟩
        obtain ⟨dpapi, dpapiFound⟩ := Option.isSome_iff_exists.mp present
        exact absent dpapi dpapiFound windows
    dsimp only at encrypted
    split at encrypted
    · rename_i stored kept
      cases encrypted
      have opened := decrypt_kept accountId field (lawful.keyring keyring keyringFound) keyringFound kept filled
      unfold Bound
      rw [opened, backend]
      split
      · rename_i same
        simp [same]
      · rename_i elsewhere
        -- Two places may still have one username.
        by_cases shared : keyringUsername otherAccount otherField = keyringUsername accountId field
        · simp [elsewhere, shared]
        · simp [shared, Ne.symm shared]
    · cases encrypted
  · cases encrypted

end SecretStore

/-- A data protection that puts a salt before the data. -/
def saltedProtection : DataProtection where
  protect salt data := some (none, .bytes (UInt8.ofNat salt :: data))
  unprotect blob := some ("", .bytes (blob.drop 1))

theorem saltedProtection_lawful : saltedProtection.Lawful where
  readsBack salt data description blob given := by
    cases given
    exact ⟨"", rfl⟩

/-- A store with the data protection of Windows and no keyring. -/
def windowsStore : SecretStore Unit where
  windows := true
  win32crypt := some saltedProtection
  keyring := none

theorem windowsStore_lawful : windowsStore.Lawful where
  dpapi dpapi found := by
    cases found
    exact saltedProtection_lawful
  keyring keyring found := by cases found

/-- The blob of one account's secret. -/
def firstBlob : Bytes := SecretStore.dpapiPrefix ++ 7 :: encodeUtf8 "s3cret"

/-- A blob is bound to the place that it was made for. -/
theorem dpapi_blob_bound : windowsStore.Bound () "a" "api_secret" "a" "api_secret" "s3cret" firstBlob :=
  (SecretStore.blob_bound_iff windowsStore_lawful rfl).mpr (.inl ⟨rfl, rfl⟩)

/-- With the data protection, the blob of one account is a credential of another one. -/
theorem dpapi_blob_copied :
    windowsStore.encrypt () 7 "a" "api_secret" "s3cret" = .ok ((), firstBlob) ∧
      ¬windowsStore.Bound () "b" "api_secret" "a" "api_secret" "s3cret" firstBlob ∧
      getCredentials windowsStore () [⟨"b", some firstBlob, some firstBlob⟩] "b" = .ok ("s3cret", "s3cret") := by
  have opened (field : String) : windowsStore.decrypt () "b" field firstBlob = .ok "s3cret" :=
    SecretStore.decrypt_sealed saltedProtection_lawful rfl
      (rfl : SecretStore.sealBytes saltedProtection 7 "s3cret" = .ok firstBlob)
  refine ⟨rfl, ?_, ?_⟩
  · unfold SecretStore.Bound
    rw [opened]
    simp
  · rfl

end Rasat
