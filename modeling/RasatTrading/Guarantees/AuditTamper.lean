import Mathlib.Data.Set.Function
import RasatTrading.Guarantees.AuditChain

/-! What a change of the committed audit table must alter for the verification to notice it. -/

namespace Rasat

variable {σ Details α : Type}

/-- The columns of an audit row that a change may replace. -/
structure AuditFields where
  actor : String
  action : String
  details : String
  createdAt : Int
  deriving DecidableEq, Repr

/-- What a change does to the row of each number: delete it, or store these columns. -/
abbrev Tampering := Nat → Option AuditFields

/-- The columns of a row outside its number and its hashes. -/
def AuditRow.fields (row : AuditRow) : AuditFields :=
  ⟨row.actor, row.action, row.details, row.createdAt⟩

/-- The row with replaced columns; its number and its hashes stay. -/
def AuditRow.withFields (row : AuditRow) (fields : AuditFields) : AuditRow :=
  { row with
    actor := fields.actor
    action := fields.action
    details := fields.details
    createdAt := fields.createdAt }

@[simp] theorem AuditRow.fields_withFields (row : AuditRow) (fields : AuditFields) :
    (row.withFields fields).fields = fields := rfl

/-- The table after a change. -/
def tampered (tampering : Tampering) (rows : List AuditRow) : List AuditRow :=
  rows.filterMap fun row => (tampering row.seq).map row.withFields

/-- The columns as one text, the way they enter the hash. -/
def AuditFields.text (fields : AuditFields) : String :=
  s!"{fields.actor}|{fields.action}|{fields.details}|{fields.createdAt}"

/-- The text that is hashed for a row after a given hash. -/
def hashPayload (prevHash : String) (seq : Nat) (fields : AuditFields) : String :=
  s!"{prevHash}|{seq}|" ++ fields.text

/-- The texts that a verification hashes, starting after a given hash. -/
def hashedTexts : String → List AuditRow → List String
  | _, [] => []
  | prevHash, row :: rest => hashPayload prevHash row.seq row.fields :: hashedTexts row.hash rest

/-- An entry is hashed as one text. -/
theorem hashEntry_payload (sha256Hex : String → String) (prevHash : String) (seq : Nat) (fields : AuditFields) :
    hashEntry sha256Hex prevHash seq fields.actor fields.action fields.details fields.createdAt =
      sha256Hex (hashPayload prevHash seq fields) := by
  -- Both texts are the same pieces, grouped differently.
  simp only [hashEntry, hashPayload, AuditFields.text, toString, String.append_assoc]

/-- Two rows under one predecessor and number hash one text only if their columns read the same. -/
theorem hashPayload_text {prevHash : String} {seq : Nat} {fields other : AuditFields} :
    hashPayload prevHash seq fields = hashPayload prevHash seq other ↔
      fields.text = other.text := by
  -- The predecessor and the number are a common prefix.
  unfold hashPayload
  exact String.append_right_inj _

variable {sha256Hex : String → String} {rows : List AuditRow}

/-- A verified chain hashes every row after the hash that the row itself names. -/
theorem hashedTexts_chained :
    ∀ {seq : Nat} {prevHash : String}, ChainedFrom sha256Hex seq prevHash rows →
      hashedTexts prevHash rows =
        rows.map fun row => hashPayload row.prevHash row.seq row.fields := by
  induction rows with
  | nil =>
    intro seq prevHash _
    rfl
  | cons row rest ih =>
    intro seq prevHash chained
    obtain ⟨_, named, _, goesOn⟩ := chained
    have following := ih goesOn
    have named : row.prevHash = prevHash := named
    -- The row names the very hash that the verification carries along.
    simp only [hashedTexts, List.map_cons, named]
    rw [← following]
    rfl

/-- Every row of a chain stores the hash of its own text. -/
theorem intact_hashed (intact : Intact sha256Hex rows) {row : AuditRow} (member : row ∈ rows) :
    row.hash = sha256Hex (hashPayload row.prevHash row.seq row.fields) := by
  rw [← hashEntry_payload sha256Hex]
  exact HashChain.continues_sealed intact (List.mem_map_of_mem member)

variable {tampering : Tampering}

/-- A row that a change keeps stands in the changed table with its new columns. -/
theorem mem_tampered {row : AuditRow}
    {fields : AuditFields} (member : row ∈ rows) (stored : tampering row.seq = some fields) :
    row.withFields fields ∈ tampered tampering rows := by
  unfold tampered
  rw [List.mem_filterMap]
  exact ⟨row, member, by rw [stored, Option.map_some]⟩

/-- What a change does to a link of the chain. -/
def Tampering.onLinks (tampering : Tampering) :
    HashChain.Link (String × String × String × Int) String →
      Option (String × String × String × Int) :=
  fun link => (tampering link.seq).map fun fields =>
    (fields.actor, fields.action, fields.details, fields.createdAt)

/-- Changing the table changes the chain that it stores. -/
theorem tampered_links (tampering : Tampering) (rows : List AuditRow) :
    (tampered tampering rows).map AuditRow.link =
      HashChain.rewritten tampering.onLinks (rows.map AuditRow.link) := by
  -- Both sides visit the rows one by one.
  unfold tampered HashChain.rewritten
  rw [List.map_filterMap, List.filterMap_map]
  congr 1
  funext row
  simp only [Function.comp_apply, Tampering.onLinks, Option.map_map]
  rfl

/-- A changed chain is still stored in the order of its numbers. -/
theorem tampered_ordered (intact : Intact sha256Hex rows) (tampering : Tampering) :
    orderBySeq (tampered tampering rows) = tampered tampering rows := by
  have ascending : (rows.map (·.seq)).Pairwise (· ≤ ·) := by
    rw [chainedFrom_seqs intact]
    exact (List.pairwise_lt_range' 1 (by decide)).imp Nat.le_of_lt
  -- Dropping rows and replacing columns leaves the numbers in order.
  have kept : (tampered tampering rows).Pairwise fun left right => left.seq ≤ right.seq := by
    refine List.Pairwise.filterMap _ ?_ (List.pairwise_map.mp ascending)
    intro left right below changed changedLeft other changedRight
    obtain ⟨fields, _, rfl⟩ := Option.map_eq_some_iff.mp changedLeft
    obtain ⟨others, _, rfl⟩ := Option.map_eq_some_iff.mp changedRight
    exact below
  unfold orderBySeq
  exact List.mergeSort_of_pairwise (kept.imp fun below => decide_eq_true below)

/-- A change of the kind that breaks something the verification looks at. -/
def Noticeable (tampering : Tampering) (rows : List AuditRow) : Prop :=
  -- Either a row is deleted under a newer one that stays, or a kept row reads differently.
  (∃ older ∈ rows, ∃ newer ∈ rows, older.seq < newer.seq ∧ tampering older.seq = none ∧
      tampering newer.seq ≠ none) ∨
    ∃ row ∈ rows, ∃ fields, tampering row.seq = some fields ∧ fields.text ≠ row.fields.text

/-- A table is still a chain after a change that is not noticeable. -/
theorem unnoticeable_intact (intact : Intact sha256Hex rows) (unnoticeable : ¬Noticeable tampering rows) :
    Intact sha256Hex (tampered tampering rows) := by
  unfold Intact ChainedFrom
  rw [tampered_links]
  refine (HashChain.continues_rewritten intact).mpr ⟨?_, ?_⟩
  · -- A deleted row has only deleted rows above it.
    intro older olderMember newer newerMember below deleted
    obtain ⟨oldRow, oldMember, rfl⟩ := List.mem_map.mp olderMember
    obtain ⟨newRow, newMember, rfl⟩ := List.mem_map.mp newerMember
    have gone : tampering oldRow.seq = none := Option.map_eq_none_iff.mp deleted
    by_contra stays
    refine unnoticeable (.inl ⟨oldRow, oldMember, newRow, newMember, below, gone, ?_⟩)
    intro goneToo
    exact stays (by simp [Tampering.onLinks, AuditRow.link, goneToo])
  · -- A kept row reads the same, so it hashes to what is stored.
    intro link member entry changed
    obtain ⟨row, rowMember, rfl⟩ := List.mem_map.mp member
    obtain ⟨fields, stored, rfl⟩ := Option.map_eq_some_iff.mp changed
    have reads : fields.text = row.fields.text := by
      by_contra differs
      exact unnoticeable (.inr ⟨row, rowMember, fields, stored, differs⟩)
    show hashEntry sha256Hex row.prevHash row.seq fields.actor fields.action fields.details
        fields.createdAt = row.hash
    rw [intact_hashed intact rowMember, hashEntry_payload, hashPayload_text.mpr reads]

/-- A noticeable change breaks the chain, when the hashed texts do not collide. -/
theorem noticeable_broken (intact : Intact sha256Hex rows) (injective : Set.InjOn sha256Hex
      {text | text ∈ hashedTexts genesisHash rows ∨
        text ∈ hashedTexts genesisHash (tampered tampering rows)})
    (stillIntact : Intact sha256Hex (tampered tampering rows)) :
    ¬Noticeable tampering rows := by
  have unbroken := stillIntact
  unfold Intact ChainedFrom at unbroken
  rw [tampered_links] at unbroken
  obtain ⟨suffix, seals⟩ := (HashChain.continues_rewritten intact).mp unbroken
  intro noticeable
  rcases noticeable with ⟨older, olderMember, newer, newerMember, below, deleted, stays⟩ |
    ⟨row, member, fields, stored, differs⟩
  · -- The newer row would have to be deleted as well.
    have gone := suffix older.link (List.mem_map_of_mem olderMember) newer.link
      (List.mem_map_of_mem newerMember) below (by simp [Tampering.onLinks, AuditRow.link, deleted])
    exact stays (Option.map_eq_none_iff.mp gone)
  · -- The kept row hashes to the same value as before, so it was hashed as the same text.
    have resealed := seals row.link (List.mem_map_of_mem member)
      (fields.actor, fields.action, fields.details, fields.createdAt)
      (by simp [Tampering.onLinks, AuditRow.link, stored])
    have sealedBefore := intact_hashed intact member
    have sealedAfter : row.hash = sha256Hex (hashPayload row.prevHash row.seq fields) := by
      rw [← hashEntry_payload sha256Hex]
      exact resealed.symm
    have before : hashPayload row.prevHash row.seq row.fields ∈ hashedTexts genesisHash rows := by
      rw [hashedTexts_chained intact, List.mem_map]
      exact ⟨row, member, rfl⟩
    have after : hashPayload row.prevHash row.seq fields ∈
        hashedTexts genesisHash (tampered tampering rows) := by
      rw [hashedTexts_chained stillIntact, List.mem_map]
      exact ⟨row.withFields fields, mem_tampered member stored, by
        rw [AuditRow.fields_withFields, AuditRow.withFields]⟩
    have same := injective (.inr after) (.inl before) (sealedAfter.symm.trans sealedBefore)
    exact differs (hashPayload_text.mp same)

/--
The verification notices a change of the committed table exactly when it is noticeable.

The table is that of any run of queued transactions, restarts and rollbacks.
-/
theorem tampering_noticed_iff (sha256Hex : String → String) (encode : Details → Except Exc String)
    (tables : σ) (moves : List (WriterMove σ Details α)) (tampering : Tampering)
    (injective : Set.InjOn sha256Hex
      {text |
        text ∈ hashedTexts genesisHash
          ((Writer.opened tables).run sha256Hex encode moves).disk.audit ∨
        text ∈ hashedTexts genesisHash
          (tampered tampering ((Writer.opened tables).run sha256Hex encode moves).disk.audit)}) :
    let rows := ((Writer.opened tables).run sha256Hex encode moves).disk.audit
    verify sha256Hex (tampered tampering rows) ≠ [] ↔ Noticeable tampering rows := by
  intro rows
  have intact : Intact sha256Hex rows := run_moves_intact moves (by trivial)
  -- The verification finds nothing exactly on chains.
  have verified : verify sha256Hex (tampered tampering rows) = [] ↔
      Intact sha256Hex (tampered tampering rows) := by
    unfold verify
    rw [tampered_ordered intact]
    exact verifyFrom_empty
  rw [Ne, verified]
  constructor
  · intro broken
    by_contra unnoticeable
    exact broken (unnoticeable_intact intact unnoticeable)
  · intro noticeable stillIntact
    exact noticeable_broken intact injective stillIntact noticeable

/-- The digests of the texts that the sample log hashes. -/
def sampleDigests : List (String × String) :=
  [("GENESIS|1|a|act1|\x7b\"x\": 1\x7d|1700000000",
      "05470ad07478095735b0096bfdb0a026f1cc86754b3c8e6249676d2a7f24a7b4"),
    ("05470ad07478095735b0096bfdb0a026f1cc86754b3c8e6249676d2a7f24a7b4" ++
        "|2|b|act2|\x7b\"x\": 2\x7d|1700000005",
      "38007fa13c4d67424abbfd4099069bd5610d63cd86ac1fdd4d6befc5494d8e3a"),
    ("05470ad07478095735b0096bfdb0a026f1cc86754b3c8e6249676d2a7f24a7b4" ++
        "|2|b|act2|\x7btampered\x7d|1700000005",
      "aa6002e309fe9fcdf28ffc12afe68e29a4cf91ea04f748112e1aef1bc73953a3")]

/-- SHA-256 on the texts of the sample log. -/
def sampleSha256 (text : String) : String := (sampleDigests.lookup text).getD ""

/-- Two appended rows, each in a transaction of its own. -/
def sampleMoves : List (WriterMove Unit String Nat) :=
  [.write (appendWrite "a" "act1" "\x7b\"x\": 1\x7d"), .serve ⟨fun _ => 1700000000, fun _ => none, none⟩,
    .write (appendWrite "b" "act2" "\x7b\"x\": 2\x7d"), .serve ⟨fun _ => 1700000005, fun _ => none, none⟩]

/-- The audit table after the two appends. -/
def sampleLog : List AuditRow := ((Writer.opened ()).run sampleSha256 .ok sampleMoves).disk.audit

/-- New details for the second row, the other columns as they are. -/
def rewriteSecond : Tampering := fun seq =>
  if seq = 2 then some ⟨"b", "act2", "\x7btampered\x7d", 1700000005⟩
  else some ⟨"a", "act1", "\x7b\"x\": 1\x7d", 1700000000⟩

/-- The newest row deleted, the first one as it is. -/
def deleteNewest : Tampering := fun seq =>
  if seq = 2 then none else some ⟨"a", "act1", "\x7b\"x\": 1\x7d", 1700000000⟩

/-- Rewritten details of a stored row are noticed. -/
theorem rewritten_details_noticed : verify sampleSha256 (tampered rewriteSecond sampleLog) ≠ [] := by
  refine (tampering_noticed_iff sampleSha256 .ok () sampleMoves rewriteSecond ?_).mpr ?_
  · -- Only three texts are hashed, and their digests differ.
    have texts : ∀ text, (text ∈ hashedTexts genesisHash sampleLog ∨
        text ∈ hashedTexts genesisHash (tampered rewriteSecond sampleLog)) →
          text ∈ sampleDigests.map (·.1) := by
      intro text hashed
      have listed : hashedTexts genesisHash sampleLog ++
          hashedTexts genesisHash (tampered rewriteSecond sampleLog) ⊆
            sampleDigests.map (·.1) := by
        decide +kernel
      exact listed (List.mem_append.mpr hashed)
    have apart : ∀ left ∈ sampleDigests.map (·.1), ∀ right ∈ sampleDigests.map (·.1),
        sampleSha256 left = sampleSha256 right → left = right := by
      decide +kernel
    intro left leftHashed right rightHashed same
    exact apart left (texts left leftHashed) right (texts right rightHashed) same
  · refine .inr ⟨?_, ?_, ⟨"b", "act2", "\x7btampered\x7d", 1700000005⟩, ?_⟩
    · exact ⟨2, "b", "act2", "\x7b\"x\": 2\x7d",
        "05470ad07478095735b0096bfdb0a026f1cc86754b3c8e6249676d2a7f24a7b4",
        "38007fa13c4d67424abbfd4099069bd5610d63cd86ac1fdd4d6befc5494d8e3a", 1700000005⟩
    · decide +kernel
    · exact ⟨rfl, by decide⟩

/-- Deleting the newest row leaves a shorter log that still verifies. -/
theorem newest_deletion_unnoticed :
    sampleLog.length = 2 ∧ (tampered deleteNewest sampleLog).length = 1 ∧
      verify sampleSha256 (tampered deleteNewest sampleLog) = [] := by
  decide +kernel

end Rasat
