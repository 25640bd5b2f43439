import RasatTrading.Emergency.Lines
import RasatTrading.Guarantees.Secrets
import RasatTrading.Ledger.Chain

/-! What is appended to the emergency log is read back, and it verifies. -/

namespace Rasat

open Document HashChain

/-- One call of `append`. -/
structure LogCall where
  actor : String
  action : String
  details : List (Key × Raw)
  now : ℤ

/-- What the hash of a row seals. -/
structure SealedEntry where
  actor : String
  action : String
  details : Document
  createdAt : ℤ

/-- A row of the log as a link of its chain. -/
abbrev EntryLink := Link SealedEntry String

/-- The entry of a call: its details are redacted. -/
def LogCall.sealed (call : LogCall) : SealedEntry :=
  ⟨call.actor, call.action, json (mask (.dict call.details)), call.now⟩

/-- How a row is sealed. -/
def sealEntry (lib : LogLibrary) (prevHash : String) (seq : ℕ) (entry : SealedEntry) : String :=
  entryHash lib prevHash (toString (seq : ℤ)) entry.actor entry.action (String.ofList entry.details.write)
    entry.createdAt

/-- The row of a link. -/
def entryRow (link : EntryLink) : Document :=
  .object [
    (.text "action", .text link.entry.action),
    (.text "actor", .text link.entry.actor),
    (.text "created_at", .int link.entry.createdAt),
    (.text "details", link.entry.details),
    (.text "hash", .text link.hash),
    (.text "prev_hash", .text link.prev),
    (.text "seq", .int link.seq)]

/-- The link of a call behind a chain. -/
abbrev LogCall.link (lib : LogLibrary) (chain : List EntryLink) (call : LogCall) : EntryLink :=
  nextLink (sealEntry lib) 0 genesisHash chain call.sealed

/-- The chain of some calls, one after the other. -/
def chainOf (lib : LogLibrary) (calls : List LogCall) : List EntryLink :=
  calls.foldl (fun chain call => chain ++ [call.link lib chain]) []

/-- Some calls one after the other, whichever processes make them. -/
def appendAll (lib : LogLibrary) (content : ByteArray) (calls : List LogCall) : Except Exc ByteArray :=
  calls.foldlM (fun content call => append lib content call.actor call.action call.details call.now) content

variable {lib : LogLibrary}

/-! The document of a row. -/

/-- The value that an append writes for a link. -/
def linkRaw (link : EntryLink) (safeDetails : Raw) : Raw :=
  entryRaw (.int link.seq) (.text link.prev) link.entry.actor link.entry.action safeDetails link.hash
    link.entry.createdAt

/-- Its document is the row of the link. -/
theorem json_linkRaw {link : EntryLink} {safeDetails : Raw} (shown : link.entry.details = json safeDetails) :
    json (linkRaw link safeDetails) = entryRow link := by
  unfold entryRow
  rw [shown]
  rfl

/-- The row of an append is a JSON value when its parts are. -/
theorem entryRaw_isJson {seq prevHash : Document} {actor action hash : String} {safeDetails : Raw} {createdAt : ℤ}
    (counted : seq.raw.isJson = true) (continued : prevHash.raw.isJson = true) (timed : shortInt createdAt = true)
    (known : safeDetails.isJson = true) :
    (entryRaw seq prevHash actor action safeDetails hash createdAt).isJson = true := by
  have names : (["seq", "actor", "action", "details", "prev_hash", "hash", "created_at"].map fun name =>
      Key.str (.text name)).all Key.isText = true ∧
        (["seq", "actor", "action", "details", "prev_hash", "hash", "created_at"].map fun name =>
          Key.str (.text name)).Nodup := by decide
  have number (value : ℤ) : (Raw.int value).isJson = shortInt value := rfl
  have text (value : String) : (Raw.str (.text value)).isJson = true := rfl
  rw [entryRaw, Raw.isJson, Raw.everywhere, Bool.and_eq_true]
  refine ⟨Bool.and_eq_true_iff.mpr ⟨names.1, decide_eq_true names.2⟩, ?_⟩
  show (seq.raw.isJson && ((Raw.str (.text actor)).isJson && ((Raw.str (.text action)).isJson &&
    (safeDetails.isJson && (prevHash.raw.isJson && ((Raw.str (.text hash)).isJson &&
      ((Raw.int createdAt).isJson && true))))))) = true
  simp only [number, text, counted, continued, timed, known, Bool.and_self]

/-! Appending. -/

/-- Redaction can read the keys of a JSON value. -/
theorem redactable_json (value : Raw) (known : value.isJson = true) : redactable value = true := by
  induction value with
  | list items ih =>
    rw [redactable, redactableItems_iff]
    exact fun item there => ih item there (Raw.everyItem_iff.mp known item there)
  | dict members ih =>
    obtain ⟨named, parts⟩ := Raw.everywhere_dict.mp known
    rw [Bool.and_eq_true, List.all_eq_true] at named
    rw [redactable, redactableMembers_iff]
    refine fun member there => ⟨?_, .inr (ih member there (parts member there))⟩
    have text := named.1 member.1 (List.mem_map_of_mem there)
    cases same : member.1 with
    | str key => exact ⟨key, rfl⟩
    | _ =>
      rw [same] at text
      cases text
  | _ => rfl

/-- Redacted JSON details. -/
theorem redact_json {details : List (Key × Raw)} (known : (Raw.dict details).isJson = true) :
    redact (.dict details) = .ok (mask (.dict details)) ∧ (mask (.dict details)).isJson = true := by
  obtain ⟨shown, redacted, rfl⟩ := (redact_decides (.dict details)).returned (redactable_json _ known)
  exact ⟨redacted, everywhere_overwrite rfl false _ known⟩

theorem dumps_json (asText : Bool) {value : Raw} (known : value.isJson = true) :
    dumps asText value = .ok (json value) := by
  rw [dumps, dump_json asText value known]
  rfl

theorem encode_json {value : Raw} (known : value.isJson = true) :
    encode (json value) = .ok (String.ofList (json value).write) := by
  rw [encode, encoded, if_pos (json_written known).1]
  rfl

/-- A call that can be logged: JSON details, and a time that can be written. -/
structure Loggable (call : LogCall) : Prop where
  json : (Raw.dict call.details).isJson = true
  timed : shortInt call.now = true

/-- A number or a hash that can be written can be hashed. -/
theorem hashText_json {value : Document} (known : value.raw.isJson = true) :
    ∃ shown, hashText lib value = .ok shown := by
  cases value with
  | str value =>
    cases value with
    | text value => exact ⟨value, rfl⟩
    | broken codes => cases known
  | int value => exact ⟨toString value, if_pos known⟩
  | _ => exact ⟨_, rfl⟩

/-- The line of an append, behind rows that can be continued. -/
theorem entryLine_json {rows : List Document} {call : LogCall} (loggable : Loggable call)
    {prevSeq prevHash seq : Document} (tail : tailOf rows = .ok (prevSeq, prevHash))
    (next : succDocument prevSeq = .ok seq) (counted : seq.raw.isJson = true)
    (continued : prevHash.raw.isJson = true) {hashed numbered : String} (before : hashText lib prevHash = .ok hashed)
    (number : hashText lib seq = .ok numbered) :
    entryLine lib rows call.actor call.action call.details call.now =
      .ok (String.ofList (json (entryRaw seq prevHash call.actor call.action (mask (.dict call.details))
        (entryHash lib hashed numbered call.actor call.action (String.ofList (json (mask (.dict call.details))).write)
          call.now) call.now)).write) := by
  have ⟨redacted, known⟩ := redact_json loggable.json
  -- Step by step the call goes through.
  unfold entryLine
  refine bind_ok.mpr ⟨_, tail, ?_⟩
  refine bind_ok.mpr ⟨_, next, ?_⟩
  refine bind_ok.mpr ⟨_, redacted, ?_⟩
  refine bind_ok.mpr ⟨_, dumps_json true known, ?_⟩
  refine bind_ok.mpr ⟨_, encode_json known, ?_⟩
  refine bind_ok.mpr ⟨_, before, ?_⟩
  refine bind_ok.mpr ⟨_, number, ?_⟩
  have whole (hash : String) : (entryRaw seq prevHash call.actor call.action (mask (.dict call.details)) hash
      call.now).isJson = true := entryRaw_isJson counted continued loggable.timed known
  exact bind_ok.mpr ⟨_, dumps_json false (whole _), encode_json (whole _)⟩

/-- The file of rows that can be continued, behind an append. -/
theorem LogHolds.appended {content : ByteArray} {rows : List Document} (holds : LogHolds content rows)
    {call : LogCall} (loggable : Loggable call) {prevSeq prevHash seq : Document}
    (tail : tailOf rows = .ok (prevSeq, prevHash)) (next : succDocument prevSeq = .ok seq)
    (counted : seq.raw.isJson = true) (continued : prevHash.raw.isJson = true) {hashed numbered : String}
    (before : hashText lib prevHash = .ok hashed) (number : hashText lib seq = .ok numbered) :
    ∃ after, Rasat.append lib content call.actor call.action call.details call.now = .ok after ∧
      LogHolds after (rows ++ [json (entryRaw seq prevHash call.actor call.action (mask (.dict call.details))
        (entryHash lib hashed numbered call.actor call.action (String.ofList (json (mask (.dict call.details))).write)
          call.now) call.now)]) := by
  have line := entryLine_json loggable tail next counted continued before number
  have known := (redact_json loggable.json).2
  obtain ⟨encodable, short, distinct⟩ := json_written (entryRaw_isJson counted continued loggable.timed known)
  refine ⟨_, ?_, holds.append encodable short distinct⟩
  exact bind_ok.mpr ⟨_, holds.entries, bind_ok.mpr ⟨_, line, rfl⟩⟩

/-- The last row of a chain gives its number and its hash. -/
theorem tailOf_chain (chain : List EntryLink) :
    tailOf (chain.map entryRow) = .ok (.int (endSeq 0 chain), .text (endHash genesisHash chain)) := by
  unfold tailOf endSeq endHash
  rw [List.getLast?_map]
  cases chain.getLast? with
  | none => rfl
  | some link => rfl

/-- An append adds the row of the next link. -/
theorem append_chain {content : ByteArray} {chain : List EntryLink} (holds : LogHolds content (chain.map entryRow))
    {call : LogCall} (loggable : Loggable call) (counted : shortInt (endSeq 0 chain + 1) = true) :
    ∃ after, append lib content call.actor call.action call.details call.now = .ok after ∧
      LogHolds after ((chain ++ [call.link lib chain]).map entryRow) := by
  have number : hashText lib (.int (endSeq 0 chain + 1)) = .ok (toString ((endSeq 0 chain : ℤ) + 1)) := if_pos counted
  have row : json (linkRaw (call.link lib chain) (mask (.dict call.details))) = entryRow (call.link lib chain) :=
    json_linkRaw rfl
  rw [List.map_append, List.map_singleton, ← row]
  exact holds.appended loggable (tailOf_chain chain) rfl counted rfl rfl number

/-! Verifying. -/

/-- A row that continues the chain has no findings. -/
theorem verifyEntry_link {link : EntryLink} {prevSeq : ℕ} {prevHash : String} (canonical : link.entry.details.Canonical)
    (encodable : link.entry.details.encodable = true) (counted : shortInt link.seq = true)
    (next : link.seq = prevSeq + 1) (follows : link.prev = prevHash)
    (hashed : link.hash = sealEntry lib link.prev link.seq link.entry) :
    verifyEntry lib ⟨.text prevHash, prevSeq⟩ (entryRow link) = .ok ([], ⟨.text link.hash, link.seq⟩) := by
  have details : dumps true link.entry.details.raw = .ok link.entry.details := by
    rw [dumps, dump_raw true _ canonical]
    rfl
  have text : encode link.entry.details = .ok (String.ofList link.entry.details.write) := by
    rw [encode, encoded, if_pos encodable]
    rfl
  have number : hashText lib (.int link.seq) = .ok (toString (link.seq : ℤ)) := if_pos counted
  have gaps : gapFindings link.seq ((prevSeq : ℤ) + 1) = .ok [] := if_pos (by rw [next]; rfl)
  -- Step by step the verifier reads back what the writer has put into the row.
  unfold verifyEntry
  refine bind_ok.mpr ⟨.null, rfl, ?_⟩
  rw [if_neg (by decide)]
  refine bind_ok.mpr ⟨.int link.seq, rfl, ?_⟩
  refine bind_ok.mpr ⟨link.seq, rfl, ?_⟩
  refine bind_ok.mpr ⟨link.entry.details, rfl, ?_⟩
  refine bind_ok.mpr ⟨_, details, ?_⟩
  refine bind_ok.mpr ⟨.int link.entry.createdAt, rfl, ?_⟩
  refine bind_ok.mpr ⟨link.entry.createdAt, rfl, ?_⟩
  refine bind_ok.mpr ⟨[], gaps, ?_⟩
  refine bind_ok.mpr ⟨.text link.prev, rfl, ?_⟩
  refine bind_ok.mpr ⟨.text link.entry.actor, rfl, ?_⟩
  refine bind_ok.mpr ⟨.text link.entry.action, rfl, ?_⟩
  refine bind_ok.mpr ⟨prevHash, rfl, ?_⟩
  refine bind_ok.mpr ⟨_, number, ?_⟩
  refine bind_ok.mpr ⟨link.entry.actor, rfl, ?_⟩
  refine bind_ok.mpr ⟨link.entry.action, rfl, ?_⟩
  refine bind_ok.mpr ⟨_, text, ?_⟩
  refine bind_ok.mpr ⟨.text link.hash, rfl, ?_⟩
  refine bind_ok.mpr ⟨.text link.hash, rfl, ?_⟩
  -- Neither finding is made: the link follows the one before it, and its hash is that of its content.
  have breaks : ¬strOf lib (.text link.prev) ≠ Str.text prevHash := by
    rw [not_not, follows]
    rfl
  have changes : ¬strOf lib (.text link.hash) ≠ Str.text (entryHash lib prevHash (toString (link.seq : ℤ))
      link.entry.actor link.entry.action (String.ofList link.entry.details.write) link.entry.createdAt) := by
    rw [not_not, hashed, follows]
    rfl
  rw [if_neg breaks, if_neg changes]
  rfl

/-- What the links of the log seal. -/
structure Sealable (link : EntryLink) : Prop where
  canonical : link.entry.details.Canonical
  encodable : link.entry.details.encodable = true
  counted : shortInt link.seq = true

/-- A chain verifies. -/
theorem verifyEntries_chain {chain : List EntryLink} {prevSeq : ℕ} {prevHash : String}
    (continues : HashChain.Continues (sealEntry lib) prevSeq prevHash chain)
    (sealable : ∀ link ∈ chain, Sealable link) :
    verifyEntries lib ⟨.text prevHash, prevSeq⟩ (chain.map entryRow) = .ok [] := by
  induction chain generalizing prevSeq prevHash with
  | nil => rfl
  | cons link rest ih =>
    obtain ⟨next, follows, hashed, goesOn⟩ := continues
    rw [List.forall_mem_cons] at sealable
    obtain ⟨canonical, encodable, counted⟩ := sealable.1
    rw [List.map_cons, verifyEntries,
      verifyEntry_link canonical encodable counted next follows (by rw [hashed, follows])]
    show (do return [] ++ (← verifyEntries lib _ _)) = _
    rw [ih goesOn sealable.2]
    rfl

/-! Whole runs. -/

section Runs

variable (lib)

theorem chainOf_append (calls : List LogCall) (call : LogCall) :
    chainOf lib (calls ++ [call]) = chainOf lib calls ++ [call.link lib (chainOf lib calls)] := by
  unfold chainOf
  rw [List.foldl_append]
  rfl

theorem chainOf_continues (calls : List LogCall) :
    HashChain.Continues (sealEntry lib) 0 genesisHash (chainOf lib calls) := by
  induction calls using List.reverseRecOn with
  | nil => trivial
  | append_singleton calls call ih =>
    rw [chainOf_append]
    exact continues_next call.sealed ih

/-- The entries of the chain are those of the calls. -/
theorem chainOf_entries (calls : List LogCall) : (chainOf lib calls).map (·.entry) = calls.map LogCall.sealed := by
  induction calls using List.reverseRecOn with
  | nil => rfl
  | append_singleton calls call ih => rw [chainOf_append, List.map_append, List.map_append, ih]; rfl

theorem chainOf_length (calls : List LogCall) : (chainOf lib calls).length = calls.length := by
  have lengths := congrArg List.length (chainOf_entries lib calls)
  rwa [List.length_map, List.length_map] at lengths

/-- The rows are numbered from one. -/
theorem chainOf_seqs (calls : List LogCall) : (chainOf lib calls).map (·.seq) = List.range' 1 calls.length := by
  rw [continues_seqs (chainOf_continues lib calls), chainOf_length]

theorem chainOf_endSeq (calls : List LogCall) : endSeq 0 (chainOf lib calls) = calls.length := by
  unfold endSeq
  rw [← List.getLast?_map, chainOf_seqs, List.getLast?_range']
  by_cases empty : calls.length = 0
  · rw [if_pos empty, empty]
    rfl
  · rw [if_neg empty]
    show 1 + calls.length - 1 = calls.length
    omega

/-- The log after some calls holds their chain. -/
theorem appendAll_chain {calls : List LogCall} (loggable : ∀ call ∈ calls, Loggable call)
    (counted : shortInt calls.length = true) :
    ∃ content, appendAll lib .empty calls = .ok content ∧ LogHolds content ((chainOf lib calls).map entryRow) := by
  induction calls using List.reverseRecOn with
  | nil => exact ⟨.empty, rfl, holds_empty⟩
  | append_singleton calls call ih =>
    rw [List.length_append, List.length_singleton, shortInt_iff] at counted
    have fewer : shortInt calls.length = true := shortInt_iff.mpr (by omega)
    obtain ⟨content, appended, holds⟩ := ih (fun other listed => loggable other (by simp [listed])) fewer
    have next : shortInt (endSeq 0 (chainOf lib calls) + 1) = true := by
      rw [chainOf_endSeq, shortInt_iff]
      omega
    obtain ⟨after, last, grown⟩ := append_chain holds (loggable call (by simp)) next
    refine ⟨after, ?_, ?_⟩
    · unfold appendAll at appended ⊢
      rw [List.foldlM_append, appended]
      show (append lib content call.actor call.action call.details call.now >>= pure) = .ok after
      rw [last]
      rfl
    · rw [chainOf_append]
      exact grown

/-- Every link of the chain seals a document that is read back. -/
theorem chainOf_sealable {calls : List LogCall} (loggable : ∀ call ∈ calls, Loggable call)
    (counted : shortInt calls.length = true) : ∀ link ∈ chainOf lib calls, Sealable link := by
  intro link listed
  have entry : link.entry ∈ calls.map LogCall.sealed := by
    rw [← chainOf_entries lib]
    exact List.mem_map_of_mem listed
  have seq : link.seq ∈ List.range' 1 calls.length := by
    rw [← chainOf_seqs lib]
    exact List.mem_map_of_mem listed
  obtain ⟨call, made, same⟩ := List.mem_map.mp entry
  have known := (redact_json (loggable call made).json).2
  rw [List.mem_range'_1] at seq
  constructor
  · rw [← same]
    exact json_canonical _ known
  · rw [← same]
    exact (json_written known).1
  · rw [shortInt_iff] at counted ⊢
    omega

/-- Calls with JSON details are read back in order, with the documents of their redacted details, and verify. -/
theorem log_round_trip {calls : List LogCall} (loggable : ∀ call ∈ calls, Loggable call)
    (counted : shortInt calls.length = true) :
    ∃ content, appendAll lib .empty calls = .ok content ∧
      entries content = .ok ((chainOf lib calls).map entryRow) ∧
      (chainOf lib calls).map (·.entry) = calls.map LogCall.sealed ∧
      (chainOf lib calls).map (·.seq) = List.range' 1 calls.length ∧
      verifyLog lib content = .ok [] := by
  obtain ⟨content, appended, holds⟩ := appendAll_chain lib loggable counted
  refine ⟨content, appended, holds.entries, chainOf_entries lib calls, chainOf_seqs lib calls, ?_⟩
  unfold verifyLog
  rw [holds.entries]
  exact verifyEntries_chain (chainOf_continues lib calls) (chainOf_sealable lib loggable counted)

end Runs

/-- A call with a secret and a line break. -/
def pausedCall : LogCall where
  actor := "operator"
  action := "pause"
  details := [(.str (.text "token"), .str (.text "t")), (.str (.text "note"), .str (.text "a\nb"))]
  now := 7

/-- A stop whose details list an order. -/
def stoppedCall : LogCall where
  actor := "watchdog"
  action := "stop"
  details := [(.str (.text "orders"), .list [.int 1])]
  now := 9

/-- Two calls are read back. -/
theorem paused_and_stopped :
    ∃ content, appendAll bareLibrary .empty [pausedCall, stoppedCall] = .ok content ∧
      entries content = .ok ((chainOf bareLibrary [pausedCall, stoppedCall]).map entryRow) ∧
      (chainOf bareLibrary [pausedCall, stoppedCall]).map (·.entry) = [pausedCall.sealed, stoppedCall.sealed] ∧
      (chainOf bareLibrary [pausedCall, stoppedCall]).map (·.seq) = [1, 2] ∧
      verifyLog bareLibrary content = .ok [] := by
  apply log_round_trip bareLibrary
  · intro call listed
    rw [List.mem_pair] at listed
    obtain rfl | rfl := listed
    · exact ⟨by decide, by decide⟩
    · exact ⟨by decide, by decide⟩
  · decide

/-- A stop whose details hold a tuple. -/
def tupledDetails : List (Key × Raw) := [(.str (.text "orders"), .tuple [.int 1])]

/-- A number with too many digits is not logged. -/
theorem append_long {value : ℤ} (long : shortInt value = false) (actor action : String) (now : ℤ) :
    append lib .empty actor action [(.str (.text "size"), .int value)] now = .error (dumpError .tooLong) := by
  have dumped : dumps true (.dict [(.str (.text "size"), .int value)]) = .error (dumpError .tooLong) := by
    rw [dumps, dump, dumpMembers, dump, long]
    rfl
  unfold append
  rw [holds_empty.entries]
  show (do return _ ++ (String.toByteArray ((← entryLine lib [] actor action _ now) ++ "\n"))) = _
  have line : entryLine lib [] actor action [(.str (.text "size"), .int value)] now = .error (dumpError .tooLong) := by
    show (dumps true (.dict [(.str (.text "size"), .int value)]) >>= fun _ => _) = _
    rw [dumped]
    rfl
  rw [line]
  rfl

/-- A tuple is read back as a list, and a number of more than 4300 digits is not logged at all. -/
theorem tuple_read_as_list :
    (∃ content row, append bareLibrary .empty "watchdog" "stop" tupledDetails 9 = .ok content ∧
      entries content = .ok [row] ∧ redact (.dict tupledDetails) = .ok (.dict tupledDetails) ∧
      (itemOf "details" row).map raw = .ok (.dict [(.str (.text "orders"), .list [.int 1])])) ∧
      append bareLibrary .empty "watchdog" "stop" [(.str (.text "size"), .int (10 ^ maxDigits))] 9 =
        .error (dumpError .tooLong) := by
  constructor
  · have loggable : Loggable ⟨"watchdog", "stop", tupledDetails, 9⟩ := ⟨by decide, by decide⟩
    obtain ⟨content, appended, holds⟩ := append_chain
      (show LogHolds .empty (List.map entryRow []) from holds_empty) loggable (by decide)
    exact ⟨content, _, appended, holds.entries, rfl, rfl⟩
  · apply append_long
    have power (digits : ℕ) : ¬(10 ^ digits : ℤ).natAbs < 10 ^ digits := by
      rw [Int.natAbs_pow]
      exact lt_irrefl _
    rw [← Bool.not_eq_true, shortInt_iff]
    exact power maxDigits

end Rasat
