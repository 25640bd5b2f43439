import RasatTrading.Document.Dump
import RasatTrading.Storage.Audit
import RasatTrading.Text

/-! Details of log entries: the values that they are made from, redacted and dumped. -/

namespace Rasat

open Document

/-- The keys whose values never enter a log. -/
def sensitiveKeys : List String :=
  ["key", "secret", "api_key", "api_secret", "apikey", "apisecret", "token", "password",
    "passphrase", "encrypted_api_key", "encrypted_secret", "signature"]

/-- Whether the value of a key never enters a log. -/
def isSensitive : Str → Bool
  | .text key => lower key ∈ sensitiveKeys
  -- A lone surrogate is in none of the names.
  | .broken _ => false

def redactedMark : Raw := .str (.text "***REDACTED***")

/-- The exception of a key that is no string. -/
def noLower : Exc := .other "object has no attribute 'lower'"

mutual

/-- `_redact`. -/
def redact : Raw → Except Exc Raw
  | .dict members => do return .dict (← redactMembers members)
  | .list items => do return .list (← redactItems items)
  | value => .ok value

def redactItems : List Raw → Except Exc (List Raw)
  | [] => .ok []
  | item :: rest => do return (← redact item) :: (← redactItems rest)

def redactMembers : List (Key × Raw) → Except Exc (List (Key × Raw))
  | [] => .ok []
  | (.str key, value) :: rest => do
    let shown ← (if isSensitive key then .ok redactedMark else redact value)
    return (.str key, shown) :: (← redactMembers rest)
  | _ :: _ => .error noLower

end

/-- The exception of a value that is not dumped. -/
def dumpError : DumpFlaw → Exc
  | .mixedKeys => .other "'<' not supported between instances of different types"
  | .foreign => .other "Object is not JSON serializable"
  | .tooLong => .other "Exceeds the limit (4300 digits) for integer string conversion"
  | .unencodable => .other "'utf-8' codec can't encode characters: surrogates not allowed"

/-- `json.dumps` with sorted keys; an object of another type is dumped as its text, when that is asked for. -/
def dumps (asText : Bool) (value : Raw) : Except Exc Document := (dump asText value).mapError dumpError

/-- The text of a document, for its hash or for a file. -/
def encode (document : Document) : Except Exc String := document.encoded.mapError dumpError

/-- The details column of `append_in_connection`. -/
def auditDetails (details : List (Key × Raw)) : Except Exc String := do
  let safeDetails ← redact (.dict details)
  encode (← dumps true safeDetails)

/-- `append_in_connection`. -/
def auditAppend (sha256Hex : String → String) (rows : List AuditRow) (actor action : String)
    (details : List (Key × Raw)) (now : ℤ) : Except Exc (ℕ × List AuditRow) :=
  appendInConnection sha256Hex rows actor action (auditDetails details) now

/-- The last row in the order of the numbers has the highest one. -/
theorem seq_le_last {rows : List AuditRow} {row : AuditRow} (stored : row ∈ rows) :
    row.seq ≤ ((orderBySeq rows).getLast?.map (·.seq)).getD 0 := by
  have sorted : (orderBySeq rows).Pairwise fun left right => decide (left.seq ≤ right.seq) = true := by
    apply List.pairwise_mergeSort
    · intro first second third
      simp only [decide_eq_true_eq]
      exact Nat.le_trans
    · intro first second
      simp only [Bool.or_eq_true, decide_eq_true_eq]
      exact Nat.le_total _ _
  have listed : row ∈ orderBySeq rows := List.mem_mergeSort.mpr stored
  have filled : orderBySeq rows ≠ [] := List.ne_nil_of_mem listed
  rw [List.getLast?_eq_some_getLast filled, Option.map_some, Option.getD_some]
  rw [← List.dropLast_append_getLast filled, List.mem_append, List.mem_singleton] at listed
  rw [← List.dropLast_append_getLast filled, List.pairwise_append] at sorted
  -- A row is before the last one, or is it.
  rcases listed with before | rfl
  · have below := sorted.2.2 row before _ (List.mem_singleton_self _)
    exact of_decide_eq_true below
  · exact Nat.le_refl _

/-- An append fails only with its details. -/
theorem appendInConnection_ok (sha256Hex : String → String) (rows : List AuditRow) (actor action detailsJson : String)
    (now : ℤ) : ∃ seq row, (row.actor = actor ∧ row.action = action ∧ row.details = detailsJson) ∧
      appendInConnection sha256Hex rows actor action (.ok detailsJson) now = .ok (seq, rows ++ [row]) := by
  have fresh (row : AuditRow) (next : row.seq = ((orderBySeq rows).getLast?.map (·.seq)).getD 0 + 1) :
      insertAuditRow rows row = .ok (rows ++ [row]) := by
    unfold insertAuditRow
    -- Only a number that is taken is refused.
    rw [if_neg]
    simp only [List.any_eq_true, beq_iff_eq, not_exists, not_and]
    intro stored listed same
    have below := seq_le_last listed
    omega
  unfold appendInConnection
  simp only [bind, Except.bind, pure, Except.pure]
  rw [fresh _ rfl]
  exact ⟨_, _, ⟨rfl, rfl, rfl⟩, rfl⟩

end Rasat

/-! What redaction makes of details. -/

namespace Rasat

open Document

/-- Whether a key names a secret. -/
def namesSecret : Key → Bool
  | .str key => isSensitive key
  | _ => false

mutual

/-- A value with a mark in the place of each secret; the inside of tuples is only looked at when that is asked for. -/
def overwrite (mark : Raw) (tuples : Bool) : Raw → Raw
  | .list items => .list (overwriteItems mark tuples items)
  | .tuple items => .tuple (if tuples then overwriteItems mark tuples items else items)
  | .dict members => .dict (overwriteMembers mark tuples members)
  | value => value

def overwriteItems (mark : Raw) (tuples : Bool) : List Raw → List Raw
  | [] => []
  | item :: rest => overwrite mark tuples item :: overwriteItems mark tuples rest

def overwriteMembers (mark : Raw) (tuples : Bool) : List (Key × Raw) → List (Key × Raw)
  | [] => []
  | (key, value) :: rest =>
    (key, if namesSecret key then mark else overwrite mark tuples value) :: overwriteMembers mark tuples rest

end

/-- What redaction makes of a value whose keys it can read. -/
abbrev mask (value : Raw) : Raw := overwrite redactedMark false value

mutual

/-- Whether redaction can read the keys that it comes to. -/
def redactable : Raw → Bool
  | .list items => redactableItems items
  | .dict members => redactableMembers members
  | _ => true

def redactableItems : List Raw → Bool
  | [] => true
  | item :: rest => redactable item && redactableItems rest

def redactableMembers : List (Key × Raw) → Bool
  | [] => true
  | (.str key, value) :: rest => (namesSecret (.str key) || redactable value) && redactableMembers rest
  | _ :: _ => false

end

/-- All items of a list. -/
theorem redactableItems_iff {items : List Raw} :
    redactableItems items = true ↔ ∀ item ∈ items, redactable item = true := by
  induction items with
  | nil => exact iff_of_true rfl (List.forall_mem_nil _)
  | cons first rest ih => rw [redactableItems, Bool.and_eq_true, ih, List.forall_mem_cons]

/-- All keys of a dictionary are strings, and all that is not secret in it can be read. -/
theorem redactableMembers_iff {members : List (Key × Raw)} : redactableMembers members = true ↔
    ∀ member ∈ members, (∃ key, member.1 = .str key) ∧ (namesSecret member.1 = true ∨ redactable member.2 = true) := by
  induction members with
  | nil => exact iff_of_true rfl (List.forall_mem_nil _)
  | cons first rest ih =>
    obtain ⟨key, value⟩ := first
    rw [List.forall_mem_cons, ← ih]
    cases key with
    | str key => simp [redactableMembers]
    | _ => simp [redactableMembers]

/-! What redaction returns. -/

mutual

theorem redact_decides : (value : Raw) → Decides (redact value) (redactable value) fun shown => shown = mask value
  | .list items => by
    rw [redact, redactable, ← Bool.and_true (redactableItems _)]
    exact (redactItems_decides items).bind fun shown same => .ok (by rw [same]; rfl)
  | .dict members => by
    rw [redact, redactable, ← Bool.and_true (redactableMembers _)]
    exact (redactMembers_decides members).bind fun shown same => .ok (by rw [same]; rfl)
  | .none | .bool _ | .int _ | .float _ | .str _ | .tuple _ | .other _ => .ok rfl

theorem redactItems_decides : (items : List Raw) →
    Decides (redactItems items) (redactableItems items) fun shown => shown = overwriteItems redactedMark false items
  | [] => .ok rfl
  | item :: rest => by
    rw [redactItems, redactableItems, ← Bool.and_true (redactableItems _)]
    apply (redact_decides item).bind
    intro first one
    apply (redactItems_decides rest).bind
    intro others all
    exact .ok (by rw [one, all, overwriteItems])

theorem redactMembers_decides : (members : List (Key × Raw)) →
    Decides (redactMembers members) (redactableMembers members) fun shown =>
      shown = overwriteMembers redactedMark false members
  | [] => .ok rfl
  | (.str key, value) :: rest => by
    rw [redactMembers, redactableMembers, ← Bool.and_true (redactableMembers _)]
    have first : Decides (if isSensitive key then Except.ok redactedMark else redact value)
        (namesSecret (.str key) || redactable value) fun shown =>
          shown = if namesSecret (.str key) then redactedMark else mask value := by
      show Decides (if namesSecret (.str key) then Except.ok redactedMark else redact value) _ _
      cases namesSecret (.str key) with
      | true => exact .ok rfl
      | false => exact redact_decides value
    -- The mark or the redacted value comes first, then the other members.
    apply first.bind
    intro shown one
    apply (redactMembers_decides rest).bind
    intro others all
    exact .ok (by rw [one, all, overwriteMembers])
  | (.int _, _) :: _ | (.float _, _) :: _ | (.bool _, _) :: _ | (.none, _) :: _ => .error _

end

section Marks

variable {mark : Raw} {plain : Raw → Bool} {keys : List Key → Bool}

/-- The items of a list are marked one by one. -/
theorem overwriteItems_map (tuples : Bool) (items : List Raw) :
    overwriteItems mark tuples items = items.map (overwrite mark tuples) := by
  induction items with
  | nil => rfl
  | cons first rest ih => rw [overwriteItems, ih, List.map_cons]

/-- So are the members of a dictionary. -/
theorem overwriteMembers_map (tuples : Bool) (members : List (Key × Raw)) :
    overwriteMembers mark tuples members = members.map fun member =>
      (member.1, if namesSecret member.1 then mark else overwrite mark tuples member.2) := by
  induction members with
  | nil => rfl
  | cons first rest ih => rw [overwriteMembers, ih, List.map_cons]

/-- Their keys stay as they are. -/
theorem overwriteMembers_keys (tuples : Bool) (members : List (Key × Raw)) :
    (overwriteMembers mark tuples members).map Prod.fst = members.map Prod.fst := by
  rw [overwriteMembers_map, List.map_map]
  rfl

/-- What holds of all parts of a value and of a mark holds of them when secrets are marked. -/
theorem everywhere_overwrite (marked : mark.everywhere plain keys = true) (tuples : Bool) (value : Raw)
    (holds : value.everywhere plain keys = true) : (overwrite mark tuples value).everywhere plain keys = true := by
  induction value with
  | list items ih =>
    rw [overwrite, Raw.everywhere, overwriteItems_map, Raw.everyItem_iff, List.forall_mem_map]
    exact fun item there => ih item there (Raw.everyItem_iff.mp holds item there)
  | tuple items ih =>
    cases tuples with
    | false => exact holds
    | true =>
      rw [overwrite, if_pos rfl, Raw.everywhere, overwriteItems_map, Raw.everyItem_iff, List.forall_mem_map]
      exact fun item there => ih item there (Raw.everyItem_iff.mp holds item there)
  | dict members ih =>
    obtain ⟨named, parts⟩ := Raw.everywhere_dict.mp holds
    rw [overwrite, Raw.everywhere_dict, overwriteMembers_keys, overwriteMembers_map, List.forall_mem_map]
    refine ⟨named, fun member there => ?_⟩
    dsimp only
    split
    · exact marked
    · exact ih member there (parts member there)
  | _ => exact holds

end Marks

end Rasat
