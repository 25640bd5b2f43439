import Mathlib.Data.Fintype.EquivFin
import RasatTrading.Guarantees.EmergencyStop
import RasatTrading.Guarantees.LogRoundTrip

/-! When the emergency log survives what is in its file: appends are recovered, lookups do not raise. -/

namespace Rasat

open Document

variable {svc : StopService} {lib : LogLibrary} {content : ByteArray}

/-! Continuing the last row. -/

/-- Whether the number behind a value can be written. -/
def countable : Document → Bool
  | .int value => shortInt (value + 1)
  | .bool _ | .float _ => true
  | _ => false

/-- A row that the next one can continue from: it counts as false, or it has a hash whose texts can be encoded,
and a number with a next one. -/
def Continues (last : Document) : Prop :=
  truthyDocument last → ∃ members hash seq, last = .object members ∧ members.lookup (.text "hash") = some hash ∧
    hash.encodable ∧ members.lookup (.text "seq") = some seq ∧ countable seq

/-- The next number can be written exactly when the number is countable. -/
theorem countable_iff {prevSeq : Document} :
    countable prevSeq ↔ ∃ seq, succDocument prevSeq = .ok seq ∧ seq.raw.isJson = true := by
  cases prevSeq with
  | int value => exact ⟨fun short => ⟨.int (value + 1), rfl, short⟩, fun ⟨_, next, short⟩ => by cases next; exact short⟩
  | bool value => cases value <;> exact iff_of_true rfl ⟨_, rfl, by decide⟩
  | float value =>
    refine iff_of_true rfl ?_
    simp only [succDocument]
    cases value.extended with
    | finite number => exact ⟨.float _, rfl, rfl⟩
    | infinite | nan => exact ⟨.float value, rfl, rfl⟩
  | _ => exact iff_of_false Bool.false_ne_true fun ⟨_, next, _⟩ => by cases next

/-- The value of a key of a proper object is proper. -/
theorem proper_lookup {members : List (Str × Document)} (proper : Proper (.object members)) {key : Str}
    {value : Document} (found : members.lookup key = some value) : Proper value :=
  (proper_object.mp proper).2 (key, value) (mem_of_lookup found)

/-- What a new row would continue from, when its number and the hash before it can be written. -/
def Continued (rows : List Document) (prevHash seq : Document) : Prop :=
  ∃ prevSeq, tailOf rows = .ok (prevSeq, prevHash) ∧ succDocument prevSeq = .ok seq ∧
    seq.raw.isJson = true ∧ prevHash.raw.isJson = true

variable {rows : List Document}

/-- Rows without a last one that counts as true are continued from the start of the chain. -/
theorem tailOf_start (none : ∀ last ∈ rows.getLast?, truthyDocument last = false) :
    tailOf rows = .ok (.int 0, .text genesisHash) := by
  unfold tailOf
  cases listed : rows.getLast? with
  | none => rfl
  | some last =>
    have blank := none last listed
    simp only [Option.getD_some, blank]
    rfl

/-- A new row continues from the last row exactly when that is possible. -/
theorem continues_iff (proper : ∀ row ∈ rows, Proper row) :
    (∃ prevHash seq, Continued rows prevHash seq) ↔ ∀ last ∈ rows.getLast?, Continues last := by
  by_cases filled : ∃ last ∈ rows.getLast?, truthyDocument last = true
  · obtain ⟨last, listed, filled⟩ := filled
    have own : Proper last := proper last (List.mem_of_getLast? listed)
    have tail : tailOf rows = (do return (← itemOf "seq" last, ← itemOf "hash" last)) := by
      unfold tailOf
      rw [show rows.getLast? = some last from listed]
      exact if_pos filled
    rw [show rows.getLast? = some last from listed]
    simp only [Option.mem_some_iff, forall_eq', Continues, filled, forall_const]
    constructor
    · rintro ⟨prevHash, seq, prevSeq, found, next, short, sealable⟩
      rw [tail] at found
      obtain ⟨number, item, found⟩ := bind_ok.mp found
      obtain ⟨hash, digest, same⟩ := bind_ok.mp found
      cases same
      cases last with
      | object members =>
        simp only [itemOf] at item digest
        split at item
        · rename_i numbered
          cases item
          split at digest
          · rename_i hashed
            cases digest
            have encodable := Raw.isJson_encodable sealable
            rw [raw_encodable] at encodable
            exact ⟨members, prevHash, prevSeq, rfl, hashed, encodable, numbered, countable_iff.mpr ⟨seq, next, short⟩⟩
          · cases digest
        · cases item
      | _ => cases item
    · rintro ⟨members, hash, number, rfl, digest, encodable, counted, short⟩
      obtain ⟨seq, next, short⟩ := countable_iff.mp short
      have hashed := proper_lookup own digest
      refine ⟨hash, seq, number, ?_, next, short, raw_isJson hash hashed.short hashed.distinct encodable⟩
      rw [tail]
      simp only [itemOf, counted, digest]
      rfl
  · have blank : ∀ last ∈ rows.getLast?, truthyDocument last = false := fun last listed =>
      Bool.eq_false_iff.mpr fun full => filled ⟨last, listed, full⟩
    refine iff_of_true ⟨.text genesisHash, .int 1, .int 0, tailOf_start blank, rfl, by decide, rfl⟩ ?_
    intro last listed full
    rw [blank last listed] at full
    cases full

/-! Looking into rows. -/

/-- A row that can be looked into: an object, and the details of a cancellation or a sale are one. -/
def Lookable (row : Document) : Prop :=
  ∃ members, row = .object members ∧
    (truthyDocument (memberOf "_corrupt" members) = false →
      (isText cancelLogAction (memberOf "action" members) ∨ isText sellLogAction (memberOf "action" members)) →
        ∃ details, orEmpty (memberOf "details" members) = .object details)

/-- The details of a row, when it is a sale under a key that starts with some text. -/
def saleUnder (text : Text) (front : String) : Document → Option (List (Str × Document))
  | .object members =>
    if truthyDocument (memberOf "_corrupt" members) then none
    else if isText sellLogAction (memberOf "action" members) then
      match orEmpty (memberOf "details" members) with
      | .object details =>
        if startsWith text front ((details.lookup (.text "idem_key")).getD (.text "")) then some details else none
      | _ => none
    else none
  | _ => none

/-- The details of the last sale of an account and a symbol. -/
def lastSale (text : Text) (accountId symbol : String) (rows : List Document) : Option (List (Str × Document)) :=
  (rows.filterMap (saleUnder text (accountId ++ ":" ++ symbol ++ ":"))).getLast?

/-- A sale that is confirmed, or can be asked for: its client order id, when it has one, can be sent. -/
def Resumable (details : List (Str × Document)) : Prop :=
  isPendingText (memberOf "status" details) → truthyDocument (memberOf "cid" details) →
    sendable (memberOf "cid" details)

/-- The value that a row has under a key. -/
theorem getOr_members (key : String) (members : List (Str × Document)) :
    getOr key .null (.object members) = .ok (memberOf key members) := rfl

/-- Looking for a cancellation does not raise on rows that can be looked into. -/
theorem isActionDone_returns (lookable : ∀ row ∈ rows, Lookable row) (idemKey : String) :
    ∃ done, isActionDone cancelLogAction idemKey rows = .ok done := by
  induction rows with
  | nil => exact ⟨false, rfl⟩
  | cons row rest ih =>
    obtain ⟨done, later⟩ := ih fun other member => lookable other (List.mem_cons_of_mem _ member)
    obtain ⟨members, rfl, inside⟩ := lookable _ List.mem_cons_self
    simp only [isActionDone, getOr_members, Bind.bind, Except.bind, later]
    by_cases corrupt : truthyDocument (memberOf "_corrupt" members)
    · exact ⟨done, if_pos corrupt⟩
    rw [if_neg corrupt]
    by_cases own : isText cancelLogAction (memberOf "action" members)
    · obtain ⟨details, read⟩ := inside (by simpa using corrupt) (.inl own)
      rw [if_pos own, read]
      by_cases same : isText idemKey (memberOf "idem_key" details)
      · exact ⟨true, if_pos same⟩
      · exact ⟨done, if_neg same⟩
    · exact ⟨done, if_neg own⟩

variable {text : Text}

/-- A row that can be looked into is the latest sale when it is one. -/
theorem latestSell_step {front : String} {row : Document} (lookable : Lookable row)
    (rest : List Document) (latest : Option Document) :
    latestSell text front (row :: rest) latest =
      latestSell text front rest (((saleUnder text front row).map .object).or latest) := by
  obtain ⟨members, rfl, inside⟩ := lookable
  simp only [latestSell, saleUnder, getOr_members, Bind.bind, Except.bind]
  by_cases corrupt : truthyDocument (memberOf "_corrupt" members)
  · rw [if_pos corrupt, if_pos corrupt]
    rfl
  rw [if_neg corrupt, if_neg corrupt]
  by_cases own : isText sellLogAction (memberOf "action" members)
  · obtain ⟨details, read⟩ := inside (by simpa using corrupt) (.inr own)
    rw [if_pos own, if_pos own, read]
    simp only [getOr]
    split <;> rfl
  · rw [if_neg own, if_neg own]
    rfl

/-- Looking for a sale finds the last one among rows that can be looked into. -/
theorem latestSell_returns {front : String} (lookable : ∀ row ∈ rows, Lookable row) (latest : Option Document) :
    latestSell text front rows latest =
      .ok (((rows.filterMap (saleUnder text front)).getLast?.map .object).or latest) := by
  induction rows generalizing latest with
  | nil => rfl
  | cons row rest ih =>
    rw [latestSell_step (lookable row List.mem_cons_self),
      ih fun other member => lookable other (List.mem_cons_of_mem _ member)]
    cases sale : saleUnder text front row with
    | none => rw [List.filterMap_cons_none sale]; rfl
    | some details =>
      rw [List.filterMap_cons_some sale, List.getLast?_cons]
      cases (rest.filterMap (saleUnder text front)).getLast? <;> rfl

/-- The sale that a run looks up. -/
theorem latestSellDetails_returns (lookable : ∀ row ∈ rows, Lookable row) (accountId symbol : String) :
    latestSellDetails text accountId symbol rows = .ok ((lastSale text accountId symbol rows).map .object) := by
  rw [latestSellDetails, latestSell_returns lookable, Option.or_none]
  rfl

/-- A sale has an id to ask for exactly when its own one, if any, can be sent. -/
theorem priorCid_iff {accountId symbol : String} {details : List (Str × Document)} :
    (∃ cid, priorCid svc accountId symbol details = .ok cid) ↔
      (truthyDocument (memberOf "cid" details) → sendable (memberOf "cid" details)) := by
  unfold priorCid
  dsimp only
  by_cases named : truthyDocument (memberOf "cid" details)
  · rw [if_pos named]
    have sent := sentId_decides (memberOf "cid" details)
    constructor
    · rintro ⟨cid, same⟩ -
      exact (sent.of_ok same).1
    · intro known
      obtain ⟨cid, same, -⟩ := sent.returned (known named)
      exact ⟨cid, same⟩
  · rw [if_neg named]
    exact iff_of_true ⟨_, rfl⟩ fun full => absurd full named

/-! Which rows the lookups get past. -/

/-- The characters of the idempotency key in the details of a row, if it has one. -/
def idemKeyOf : Document → List Char
  | .object members =>
    match orEmpty (memberOf "details" members) with
    | .object details =>
      match memberOf "idem_key" details with
      | .str (.text value) => value.toList
      | _ => []
    | _ => []
  | _ => []

/-- Some key stands in none of the rows. -/
theorem fresh_key (rows : List Document) : ∃ key : String, ∀ row ∈ rows, ∀ members details,
    row = .object members → orEmpty (memberOf "details" members) = .object details →
      isText key (memberOf "idem_key" details) = false := by
  -- The keys of the rows are finitely many.
  obtain ⟨chars, unused⟩ := Infinite.exists_notMem_finset (rows.map idemKeyOf).toFinset
  refine ⟨String.ofList chars, ?_⟩
  rintro row member members details rfl read
  by_contra same
  rw [Bool.not_eq_false] at same
  refine unused (List.mem_toFinset.mpr (List.mem_map.mpr ⟨_, member, ?_⟩))
  simp only [idemKeyOf, read]
  unfold isText at same
  split at same
  · rename_i value found
    obtain rfl := of_decide_eq_true same
    rw [found]
    exact String.toList_ofList
  · cases same

/-- Rows in which a fresh key can be looked for can be looked into for cancellations. -/
theorem lookable_cancels {key : String}
    (unused : ∀ row ∈ rows, ∀ members details, row = .object members →
      orEmpty (memberOf "details" members) = .object details → isText key (memberOf "idem_key" details) = false)
    {done : Bool} (looked : isActionDone cancelLogAction key rows = .ok done) :
    ∀ row ∈ rows, ∃ members, row = .object members ∧
      (truthyDocument (memberOf "_corrupt" members) = false → isText cancelLogAction (memberOf "action" members) →
        ∃ details, orEmpty (memberOf "details" members) = .object details) := by
  induction rows with
  | nil => exact List.forall_mem_nil _
  | cons row rest ih =>
    have apart := fun other member => unused other (List.mem_cons_of_mem row member)
    rw [List.forall_mem_cons]
    cases row with
    | object members =>
      simp only [isActionDone, getOr_members, Bind.bind, Except.bind] at looked
      -- The lookup gets past a row that is corrupt, of another action, or with readable details under another key.
      by_cases corrupt : truthyDocument (memberOf "_corrupt" members)
      · rw [if_pos corrupt] at looked
        exact ⟨⟨members, rfl, fun sane => absurd corrupt (by simp [sane])⟩, ih apart looked⟩
      rw [if_neg corrupt] at looked
      by_cases own : isText cancelLogAction (memberOf "action" members)
      · rw [if_pos own] at looked
        cases read : orEmpty (memberOf "details" members) with
        | object details =>
          rw [read, getOr_members] at looked
          simp only [unused _ List.mem_cons_self members details rfl read] at looked
          exact ⟨⟨members, rfl, fun _ _ => ⟨details, read⟩⟩, ih apart looked⟩
        | _ => rw [read] at looked; cases looked
      · rw [if_neg own] at looked
        exact ⟨⟨members, rfl, fun _ mine => absurd mine own⟩, ih apart looked⟩
    | _ => cases looked

/-- Rows in which a sale can be looked for can be looked into for sales. -/
theorem lookable_sales {front : String} {latest found : Option Document}
    (looked : latestSell text front rows latest = .ok found) :
    ∀ row ∈ rows, ∀ members, row = .object members → truthyDocument (memberOf "_corrupt" members) = false →
      isText sellLogAction (memberOf "action" members) →
        ∃ details, orEmpty (memberOf "details" members) = .object details := by
  induction rows generalizing latest with
  | nil => exact List.forall_mem_nil _
  | cons row rest ih =>
    rw [List.forall_mem_cons]
    cases row with
    | object members =>
      simp only [latestSell, getOr_members, Bind.bind, Except.bind] at looked
      -- The loop reads every row to the end, so each of its own rows has to have readable details.
      by_cases corrupt : truthyDocument (memberOf "_corrupt" members)
      · rw [if_pos corrupt] at looked
        refine ⟨fun other same sane => ?_, ih looked⟩
        cases same
        exact absurd corrupt (by simp [sane])
      rw [if_neg corrupt] at looked
      by_cases mine : isText sellLogAction (memberOf "action" members)
      · rw [if_pos mine] at looked
        cases read : orEmpty (memberOf "details" members) with
        | object details =>
          rw [read] at looked
          simp only [getOr] at looked
          refine ⟨fun other same _ _ => ?_, ?_⟩
          · cases same
            exact ⟨details, read⟩
          · split at looked <;> exact ih looked
        | _ => rw [read] at looked; cases looked
      · rw [if_neg mine] at looked
        refine ⟨fun other same _ own => ?_, ih looked⟩
        cases same
        exact absurd own mine
    | _ => cases looked

/-! Appending. -/

/-- What a row continues from is proper, as the rows are. -/
theorem tailOf_proper (proper : ∀ row ∈ rows, Proper row) {prevSeq prevHash : Document}
    (tail : tailOf rows = .ok (prevSeq, prevHash)) : Proper prevHash := by
  unfold tailOf at tail
  dsimp only at tail
  split at tail
  · cases listed : rows.getLast? with
    | none =>
      rw [listed] at tail
      cases tail
    | some last =>
      rw [listed, Option.getD_some] at tail
      obtain ⟨number, -, tail⟩ := bind_ok.mp tail
      obtain ⟨hash, digest, same⟩ := bind_ok.mp tail
      cases same
      unfold itemOf at digest
      split at digest
      · split at digest
        · rename_i hashed
          cases digest
          exact proper_lookup (proper _ (List.mem_of_getLast? listed)) hashed
        · cases digest
      · cases digest
      · cases digest
      · cases digest
  · cases tail
    exact ⟨rfl, rfl⟩

/-- The next number can be written when it can be hashed. -/
theorem succDocument_json {prevSeq seq : Document} {numbered : String} (next : succDocument prevSeq = .ok seq)
    (number : hashText lib seq = .ok numbered) : seq.raw.isJson = true := by
  cases seq with
  | int value =>
    simp only [hashText] at number
    split at number
    · assumption
    · cases number
  | float value => rfl
  | _ =>
    -- Only numbers are next to a value.
    unfold succDocument at next
    split at next
    · cases next
    · cases next
    · split at next <;> cases next
    · cases next

/-- The hash of the row before it is encoded with a row. -/
theorem encodable_prevHash {seq prevHash document : Document} {actor action hash : String} {safeDetails : Raw}
    {createdAt : ℤ}
    (dumped : dumps false (entryRaw seq prevHash actor action safeDetails hash createdAt) = .ok document)
    (encodable : document.encodable = true) : prevHash.encodable = true := by
  have texts := (((dump_decides false _).mapError dumpError).of_ok dumped).2.1
  rw [encodable, Raw.encodable, entryRaw, Raw.everywhere, eq_comm, Bool.and_eq_true] at texts
  -- The members of the row are encoded one after the other.
  obtain ⟨-, members⟩ := texts
  simp only [Raw.everyMember, Bool.and_eq_true] at members
  obtain ⟨-, -, -, -, continued, -⟩ := members
  exact (raw_encodable prevHash).symm.trans continued

section Appended

variable {actor action : String} {details : List (Key × Raw)} {now : ℤ} {after : ByteArray}

/-- The steps of a successful append. -/
theorem append_steps (appended : append lib content actor action details now = .ok after) :
    ∃ rows prevSeq prevHash seq numbered hash document, entries content = .ok rows ∧
      tailOf rows = .ok (prevSeq, prevHash) ∧ succDocument prevSeq = .ok seq ∧ hashText lib seq = .ok numbered ∧
      dumps false (entryRaw seq prevHash actor action (mask (.dict details)) hash now) = .ok document ∧
      document.encodable = true ∧ after = content ++ (String.ofList document.write ++ "\n").toByteArray := by
  obtain ⟨rows, read, appended⟩ := bind_ok.mp appended
  obtain ⟨line, written, same⟩ := bind_ok.mp appended
  cases same
  unfold entryLine at written
  obtain ⟨⟨prevSeq, prevHash⟩, tail, written⟩ := bind_ok.mp written
  obtain ⟨seq, next, written⟩ := bind_ok.mp written
  obtain ⟨safeDetails, redacted, written⟩ := bind_ok.mp written
  obtain ⟨shown, -, written⟩ := bind_ok.mp written
  obtain ⟨detailsJson, -, written⟩ := bind_ok.mp written
  obtain ⟨hashed, before, written⟩ := bind_ok.mp written
  obtain ⟨numbered, number, written⟩ := bind_ok.mp written
  obtain ⟨document, dumped, encoded⟩ := bind_ok.mp written
  have encodable := (((encoded_decides document).mapError dumpError).of_ok encoded).1
  have text : line = String.ofList document.write := by
    rw [encode, Document.encoded, if_pos encodable] at encoded
    cases encoded
    rfl
  obtain ⟨-, rfl⟩ := (redact_decides (.dict details)).of_ok redacted
  exact ⟨rows, prevSeq, prevHash, seq, numbered, _, document, read, tail, next, number, dumped, encodable, by rw [text]⟩

/-- What a successful append does: it continues the rows of the file by one line. -/
theorem append_ok (appended : append lib content actor action details now = .ok after) :
    ∃ rows document, entries content = .ok rows ∧ (∃ prevHash seq, Continued rows prevHash seq) ∧
      after = content ++ (String.ofList (Document.write document) ++ "\n").toByteArray := by
  obtain ⟨rows, prevSeq, prevHash, seq, numbered, hash, document, read, tail, next, number, dumped, encodable, same⟩ :=
    append_steps appended
  refine ⟨rows, document, read, ⟨prevHash, seq, prevSeq, tail, next, succDocument_json next number, ?_⟩, same⟩
  have proper := tailOf_proper (entries_proper read) tail
  exact raw_isJson prevHash proper.short proper.distinct (encodable_prevHash dumped encodable)

/-- A successful append could write its time and its details. -/
theorem append_dumpable (appended : append lib content actor action details now = .ok after) :
    shortInt now = true ∧ (mask (.dict details)).dumpable false = true := by
  obtain ⟨rows, prevSeq, prevHash, seq, numbered, hash, document, -, -, -, -, dumped, -⟩ := append_steps appended
  have dumpable := (((dump_decides false _).mapError dumpError).of_ok dumped).1
  rw [entryRaw, Raw.dumpable, Raw.everywhere, Bool.and_eq_true] at dumpable
  -- The details and the time are members of the row.
  obtain ⟨-, members⟩ := dumpable
  simp only [Raw.everyMember, Bool.and_eq_true] at members
  obtain ⟨-, -, -, known, -, -, timed, -⟩ := members
  exact ⟨timed, known⟩

/-- Whether the details of an append can be logged, when they can be written at all. -/
def Storable (details : List (Key × Raw)) : Prop :=
  (mask (.dict details)).dumpable false = true → (Raw.dict details).isJson = true

/-- A successful append adds its row to the rows of the file. -/
theorem LogHolds.written {rows : List Document} (holds : LogHolds content rows) (storable : Storable details)
    (appended : Rasat.append lib content actor action details now = .ok after) :
    ∃ seq prevHash hash, LogHolds after
      (rows ++ [json (entryRaw seq prevHash actor action (mask (.dict details)) hash now)]) := by
  obtain ⟨timed, known⟩ := append_dumpable appended
  obtain ⟨found, document, read, ⟨prevHash, seq, prevSeq, tail, next, counted, continued⟩, -⟩ := append_ok appended
  obtain rfl : rows = found := Except.ok.inj (holds.entries.symm.trans read)
  obtain ⟨hashed, before⟩ := @hashText_json lib _ continued
  obtain ⟨numbered, number⟩ := @hashText_json lib _ counted
  have loggable : Loggable ⟨actor, action, details, now⟩ := ⟨storable known, timed⟩
  obtain ⟨grown, again, recovered⟩ := holds.appended loggable tail next counted continued before number
  obtain rfl : after = grown := Except.ok.inj (appended.symm.trans again)
  exact ⟨seq, prevHash, _, recovered⟩

end Appended

/-- The log works whatever is in its file: every append of JSON details is recovered as one more row behind the
rows that were there, no lookup raises, and an unconfirmed sale that is found can be asked for. -/
structure RobustLog (svc : StopService) (lib : LogLibrary) (content : ByteArray) : Prop where
  appends : ∀ call : LogCall, Loggable call → ∃ rows after prevHash seq hash, entries content = .ok rows ∧
    append lib content call.actor call.action call.details call.now = .ok after ∧
      entries after = .ok (rows ++
        [json (entryRaw seq prevHash call.actor call.action (mask (.dict call.details)) hash call.now)])
  cancels : ∀ rows, entries content = .ok rows → ∀ idemKey,
    ∃ done, isActionDone cancelLogAction idemKey rows = .ok done
  sales : ∀ rows, entries content = .ok rows → ∀ accountId symbol,
    ∃ latest, latestSellDetails svc.text accountId symbol rows = .ok latest ∧
      ∀ details, latest = some (.object details) → isPendingText (memberOf "status" details) →
        ∃ cid, priorCid svc accountId symbol details = .ok cid

/-- Rows that can be continued and looked into, with sales that can be asked for. -/
structure IntactRows (text : Text) (rows : List Document) : Prop where
  continues : ∀ last ∈ rows.getLast?, Continues last
  lookable : ∀ row ∈ rows, Lookable row
  resumable : ∀ accountId symbol, ∀ details ∈ lastSale text accountId symbol rows, Resumable details

/-- What a file must hold for the log to work: readable lines, the last one ended, of intact rows. -/
def IntactLog (text : Text) (content : ByteArray) : Prop := ∃ rows, LogHolds content rows ∧ IntactRows text rows

/-- For every content of the file, the emergency log is robust exactly when the content is intact. -/
theorem emergency_log_robust_iff (svc : StopService) (lib : LogLibrary) (content : ByteArray) :
    RobustLog svc lib content ↔ IntactLog svc.text content := by
  constructor
  · intro robust
    obtain ⟨rows, after, prevHash, seq, hash, read, appended, recovered⟩ :=
      robust.appends ⟨"", "", [], 0⟩ ⟨by decide, by decide⟩
    obtain ⟨others, document, reread, continued, rfl⟩ := append_ok appended
    obtain rfl : rows = others := Except.ok.inj (read.symm.trans reread)
    obtain ⟨text, decoded, lines⟩ := entries_ok.mp read
    have ended : Terminated text := by
      -- Without a final newline the appended row would merge with the last line.
      by_contra unended
      rw [entries, decoded_append decoded] at recovered
      exact entriesOf_merged unended (written_whole document) lines recovered
    have lookable : ∀ row ∈ rows, Lookable row := by
      intro row member
      -- A key that no row uses makes the lookup read the whole log.
      obtain ⟨key, unused⟩ := fresh_key rows
      obtain ⟨done, looked⟩ := robust.cancels rows read key
      obtain ⟨latest, sold, -⟩ := robust.sales rows read "" ""
      obtain ⟨members, rfl, inside⟩ := lookable_cancels unused looked row member
      refine ⟨members, rfl, fun sane own => ?_⟩
      rcases own with cancel | sale
      · exact inside sane cancel
      · exact lookable_sales sold _ member members rfl sane sale
    refine ⟨rows, ⟨text, decoded, ended, lines⟩,
      (continues_iff (entriesOf_proper lines)).mp continued, lookable, ?_⟩
    intro accountId symbol details last pending
    obtain ⟨latest, found, asks⟩ := robust.sales rows read accountId symbol
    rw [latestSellDetails_returns lookable, show lastSale svc.text accountId symbol rows = some details from last] at found
    cases found
    exact priorCid_iff.mp (asks details rfl pending)
  · rintro ⟨rows, holds, continues, lookable, resumable⟩
    obtain ⟨prevHash, seq, prevSeq, tail, next, counted, continued⟩ := (continues_iff holds.proper).mpr continues
    obtain ⟨hashed, before⟩ := @hashText_json lib _ continued
    obtain ⟨numbered, number⟩ := @hashText_json lib _ counted
    refine ⟨fun call loggable => ?_, fun found read key => ?_, fun found read accountId symbol => ?_⟩
    · obtain ⟨after, appended, grown⟩ := holds.appended loggable tail next counted continued before number
      exact ⟨rows, after, prevHash, seq, _, holds.entries, appended, grown.entries⟩
    · obtain rfl : rows = found := Except.ok.inj (holds.entries.symm.trans read)
      exact isActionDone_returns lookable key
    · obtain rfl : rows = found := Except.ok.inj (holds.entries.symm.trans read)
      refine ⟨_, latestSellDetails_returns lookable accountId symbol, fun details same pending => ?_⟩
      obtain ⟨found, last, own⟩ := Option.map_eq_some_iff.mp same
      cases own
      exact priorCid_iff.mpr (resumable accountId symbol _ last pending)

/-- The beginning of a row, as a crash leaves it. -/
def tornRow : String := "\x7b\"action\": \"emergency_canc"

/-- The file after a crash in its first append. -/
def tornLog : ByteArray := tornRow.toByteArray

/-- After a torn row no append goes through. -/
theorem torn_log_fails :
    ¬∀ (svc : StopService) (lib : LogLibrary) (content : ByteArray), RobustLog svc lib content := by
  intro robust
  obtain ⟨rows, after, prevHash, seq, hash, -, appended, -⟩ :=
    (robust plainStop bareLibrary tornLog).appends ⟨"", "", [], 0⟩ ⟨by decide, by decide⟩
  -- The corrupt row has no number to continue from.
  have failed : (append bareLibrary tornLog "" "" [] 0).isOk = false := by decide +kernel
  rw [show append bareLibrary tornLog "" "" [] 0 = .ok after from appended] at failed
  cases failed

end Rasat
