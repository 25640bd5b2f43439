import RasatTrading.Guarantees.EmergencyLog

/-! The rows of the emergency log that the emergency stop writes, and what it finds in them later. -/

namespace Rasat

open Document

variable {svc : StopService} {lib : LogLibrary}

/-- A name without a colon; account ids are hexadecimal. -/
def Plain (name : String) : Prop := ':' ∉ name.toList

/-- What stands before the first separator is determined. -/
theorem prefix_parts {c : Char} {left right front back : List Char} (plain : c ∉ left) (clear : c ∉ right)
    (leads : (left ++ c :: front) <+: (right ++ c :: back)) : left = right ∧ front <+: back := by
  induction left generalizing right with
  | nil =>
    cases right with
    | nil => exact ⟨rfl, (List.cons_prefix_cons.mp leads).2⟩
    | cons d rest =>
      obtain ⟨rfl, -⟩ := List.cons_prefix_cons.mp leads
      exact absurd List.mem_cons_self clear
  | cons d rest ih =>
    cases right with
    | nil =>
      obtain ⟨rfl, -⟩ := List.cons_prefix_cons.mp leads
      exact absurd List.mem_cons_self plain
    | cons e others =>
      obtain ⟨rfl, later⟩ := List.cons_prefix_cons.mp leads
      obtain ⟨rfl, more⟩ := ih (fun member => plain (List.mem_cons_of_mem _ member))
        (fun member => clear (List.mem_cons_of_mem _ member)) later
      exact ⟨rfl, more⟩

/-- The key of a sale starts with its own account and symbol only. -/
theorem key_leads {accountId symbol account sold rest : String} (plain : Plain accountId)
    (plainSymbol : Plain symbol) (clear : Plain account) (clearSold : Plain sold) :
    (accountId ++ ":" ++ symbol ++ ":").toList.isPrefixOf
        (account ++ ":" ++ sold ++ ":" ++ rest).toList ↔ accountId = account ∧ symbol = sold := by
  simp only [List.isPrefixOf_iff_prefix, String.toList_append, List.append_assoc]
  constructor
  · intro leads
    obtain ⟨same, later⟩ := prefix_parts plain clear leads
    obtain ⟨same', -⟩ := prefix_parts plainSymbol clearSold later
    exact ⟨String.toList_inj.mp same, String.toList_inj.mp same'⟩
  · rintro ⟨rfl, rfl⟩
    simp

/-! Rows as they are read back. -/

/-- The members of a row. -/
theorem json_entryRaw (seq prevHash : Document) (actor action hash : String) (safeDetails : Raw) (createdAt : ℤ) :
    json (entryRaw seq prevHash actor action safeDetails hash createdAt) = .object [
      (.text "action", .text action),
      (.text "actor", .text actor),
      (.text "created_at", .int createdAt),
      (.text "details", json safeDetails),
      (.text "hash", .text hash),
      (.text "prev_hash", json prevHash.raw),
      (.text "seq", json seq.raw)] := rfl

/-- The members of the details of a sale. -/
def saleMembers (svc : StopService) (accountId runNonce cid : String) (item : PlanItem) (result : OrderResult) :
    List (Str × Document) :=
  [(.text "account_id", .text accountId),
    (.text "cid", .text cid),
    (.text "exchange_order_id", json (result.exchangeOrderId.elim .none rawText)),
    (.text "idem_key", .text (accountId ++ ":" ++ item.symbol ++ ":" ++ svc.text.float item.quantity ++ ":" ++
      runNonce)),
    (.text "quantity", .float (.ofDecimal (item.quantity < 0) |item.quantity|)),
    (.text "run_nonce", .text runNonce),
    (.text "status", .text result.status.name),
    (.text "symbol", .text item.symbol)]

/-- Nothing in the details of a sale is redacted. -/
theorem mask_sellDetails (accountId runNonce cid : String) (item : PlanItem) (result : OrderResult) :
    mask (.dict (sellDetails svc accountId runNonce cid item result)) =
      .dict (sellDetails svc accountId runNonce cid item result) := by
  cases named : result.exchangeOrderId with
  | none => simp only [sellDetails, named]; rfl
  | some id => simp only [sellDetails, named]; rfl

/-- The details of a sale as they are read back. -/
theorem json_sellDetails (accountId runNonce cid : String) (item : PlanItem) (result : OrderResult) :
    json (.dict (sellDetails svc accountId runNonce cid item result)) =
      .object (saleMembers svc accountId runNonce cid item result) := rfl

/-- The details of a sale can be logged. -/
theorem sellDetails_isJson (accountId runNonce cid : String) (item : PlanItem) (result : OrderResult) :
    (Raw.dict (sellDetails svc accountId runNonce cid item result)).isJson = true := by
  cases named : result.exchangeOrderId with
  | none => simp only [sellDetails, named]; rfl
  | some id => simp only [sellDetails, named]; rfl

/-- The details of a sale can be stored. -/
theorem sellDetails_storable (accountId runNonce cid : String) (item : PlanItem) (result : OrderResult) :
    Storable (sellDetails svc accountId runNonce cid item result) := fun _ => sellDetails_isJson ..

/-- The details of a cancellation can be stored when its count can be written. -/
theorem cancelDetails_storable (accountId symbol key : String) (count : ℤ) :
    Storable (cancelDetails accountId symbol key count) := by
  have written : (mask (.dict (cancelDetails accountId symbol key count))).dumpable false = (shortInt count && true) := rfl
  have logged : (Raw.dict (cancelDetails accountId symbol key count)).isJson = (shortInt count && true) := rfl
  rw [Storable, written, logged]
  exact id

/-- The row that an append writes, as it is read back. -/
abbrev loggedRow (seq prevHash : Document) (actor action : String) (details : List (Key × Raw)) (hash : String)
    (now : ℤ) : Document :=
  json (entryRaw seq prevHash actor action (mask (.dict details)) hash now)

section Row

variable {seq prevHash : Document} {actor action hash : String} {details : List (Key × Raw)} {now : ℤ}

/-- A row that was written can be looked into. -/
theorem loggedRow_lookable : Lookable (loggedRow seq prevHash actor action details hash now) := by
  refine ⟨_, json_entryRaw .., fun _ _ => ?_⟩
  show ∃ found, orEmpty (json (mask (.dict details))) = .object found
  unfold orEmpty
  split
  · exact ⟨_, rfl⟩
  · exact ⟨[], rfl⟩

/-- A row that was written can be continued as long as its number has a next one. -/
theorem loggedRow_continues (counted : countable (json seq.raw) = true) :
    Continues (loggedRow seq prevHash actor action details hash now) :=
  fun _ => ⟨_, .text hash, json seq.raw, json_entryRaw .., rfl, rfl, rfl, counted⟩

/-- A row of another action is no sale. -/
theorem saleUnder_other {text : Text} {front : String} (apart : action ≠ sellLogAction) :
    saleUnder text front (loggedRow seq prevHash actor action details hash now) = none := by
  have other : isText sellLogAction (.text action) = false := by simpa [isText] using apart
  show (if isText sellLogAction (.text action) then _ else _) = _
  rw [other]
  rfl

/-- The row of a sale is one of its own account and symbol, and of no other. -/
theorem saleUnder_sale {accountId symbol account runNonce cid : String} {item : PlanItem} {result : OrderResult}
    (plain : Plain accountId) (plainSymbol : Plain symbol) (clear : Plain account) (clearSold : Plain item.symbol) :
    saleUnder svc.text (accountId ++ ":" ++ symbol ++ ":")
        (loggedRow seq prevHash actor sellLogAction (sellDetails svc account runNonce cid item result) hash now) =
      if accountId = account ∧ symbol = item.symbol then some (saleMembers svc account runNonce cid item result)
      else none := by
  rw [loggedRow, mask_sellDetails, json_entryRaw, json_sellDetails]
  show (if startsWith svc.text (accountId ++ ":" ++ symbol ++ ":") (.text (account ++ ":" ++ item.symbol ++ ":" ++
    svc.text.float item.quantity ++ ":" ++ runNonce)) then some _ else none) = _
  have key : startsWith svc.text (accountId ++ ":" ++ symbol ++ ":") (.text (account ++ ":" ++ item.symbol ++ ":" ++
      svc.text.float item.quantity ++ ":" ++ runNonce)) = true ↔ accountId = account ∧ symbol = item.symbol := by
    rw [← @key_leads _ _ _ _ (svc.text.float item.quantity ++ ":" ++ runNonce) plain plainSymbol clear clearSold]
    simp only [startsWith, strDocument, Str.shown, String.append_assoc]
  by_cases same : accountId = account ∧ symbol = item.symbol
  · rw [if_pos (key.mpr same), if_pos same]
  · rw [if_neg (fun leads => same (key.mp leads)), if_neg same]

end Row

/-- The sale behind some rows is that of the last row, if it is one. -/
theorem lastSale_append (text : Text) (accountId symbol : String) (rows : List Document) (row : Document) :
    lastSale text accountId symbol (rows ++ [row]) =
      (saleUnder text (accountId ++ ":" ++ symbol ++ ":") row).or (lastSale text accountId symbol rows) := by
  unfold lastSale
  rw [List.filterMap_append]
  cases sale : saleUnder text (accountId ++ ":" ++ symbol ++ ":") row with
  | none => rw [List.filterMap_cons_none sale, List.filterMap_nil, List.append_nil]; rfl
  | some details => rw [List.filterMap_cons_some sale, List.filterMap_nil, List.getLast?_concat]; rfl

/-! The sale of a row. -/

section Sale

variable {accountId symbol account runNonce cid : String} {item : PlanItem} {result : OrderResult}

/-- The logged state of a sale is the reported one. -/
theorem saleMembers_pending :
    isPendingText (memberOf "status" (saleMembers svc accountId runNonce cid item result)) = result.status.isOpen := by
  show isPendingText (.text result.status.name) = _
  cases result.status <;> decide

/-- A logged sale is looked up under its own id. -/
theorem saleMembers_cid (filled : cid ≠ "") :
    priorCid svc accountId symbol (saleMembers svc account runNonce cid item result) = .ok cid := by
  have own : truthyDocument (.text cid) = true := by simpa [truthyDocument] using filled
  exact if_pos own

/-- Its id can be sent. -/
theorem saleMembers_resumable : Resumable (saleMembers svc accountId runNonce cid item result) := fun _ _ => rfl

end Sale

/-! Intact files. -/

/-- The details that the emergency stop logs: those of a cancellation, or of a sale. -/
inductive LoggedDetails (svc : StopService) : String → List (Key × Raw) → Prop
  | cancel (details : List (Key × Raw)) : LoggedDetails svc cancelLogAction details
  | sale (accountId runNonce cid : String) (item : PlanItem) (result : OrderResult) :
    LoggedDetails svc sellLogAction (sellDetails svc accountId runNonce cid item result)

/-- Intact rows stay intact behind a row of the emergency stop. -/
theorem IntactRows.append {rows : List Document} (intact : IntactRows svc.text rows) {seq prevHash : Document}
    {actor action hash : String} {details : List (Key × Raw)} {now : ℤ} (own : LoggedDetails svc action details)
    (counted : countable (json seq.raw) = true) :
    IntactRows svc.text (rows ++ [loggedRow seq prevHash actor action details hash now]) where
  continues := by
    intro last listed
    rw [List.getLast?_concat] at listed
    cases listed
    exact loggedRow_continues counted
  lookable := by
    intro row listed
    rcases List.mem_append.mp listed with old | new
    · exact intact.lookable row old
    · rw [List.mem_singleton.mp new]
      exact loggedRow_lookable
  resumable := by
    intro accountId symbol found last
    rw [lastSale_append] at last
    cases own with
    | cancel details =>
      rw [saleUnder_other (by decide)] at last
      exact intact.resumable accountId symbol found last
    | sale account runNonce cid item result =>
      cases sale : saleUnder svc.text (accountId ++ ":" ++ symbol ++ ":") (loggedRow seq prevHash actor sellLogAction
          (sellDetails svc account runNonce cid item result) hash now) with
      | none =>
        rw [sale] at last
        exact intact.resumable accountId symbol found last
      | some members =>
        rw [sale] at last
        cases last
        -- The details of the row are those of the sale, whichever key they were found under.
        rw [loggedRow, mask_sellDetails, json_entryRaw, json_sellDetails] at sale
        have same : (if startsWith svc.text (accountId ++ ":" ++ symbol ++ ":") (.text (account ++ ":" ++ item.symbol ++
            ":" ++ svc.text.float item.quantity ++ ":" ++ runNonce)) then
              some (saleMembers svc account runNonce cid item result) else none) = some found := sale
        split at same
        · cases same
          exact saleMembers_resumable
        · cases same

/-- Whether the row that continues a file can be continued itself: the log does not run out of numbers. -/
def Numbered (log : ByteArray) : Prop :=
  ∀ rows prevHash seq, entries log = .ok rows → Continued rows prevHash seq → countable (json seq.raw)

/-- An intact file can be appended to, and stays intact as long as it does not run out of numbers. -/
theorem intact_append {content : ByteArray} (intact : IntactLog svc.text content) (numbered : Numbered content)
    {action : String} {details : List (Key × Raw)} {now : ℤ} (own : LoggedDetails svc action details)
    (known : (Raw.dict details).isJson = true) (timed : shortInt now = true) :
    ∃ rows after prevHash seq hash, LogHolds content rows ∧ IntactRows svc.text rows ∧
      append lib content "emergency_stop" action details now = .ok after ∧
      LogHolds after (rows ++ [loggedRow seq prevHash "emergency_stop" action details hash now]) ∧
      IntactRows svc.text (rows ++ [loggedRow seq prevHash "emergency_stop" action details hash now]) := by
  obtain ⟨rows, holds, whole⟩ := intact
  obtain ⟨prevHash, seq, continued⟩ := (continues_iff holds.proper).mpr whole.continues
  obtain ⟨prevSeq, tail, next, counted, sealable⟩ := continued
  obtain ⟨hashed, before⟩ := @hashText_json lib _ sealable
  obtain ⟨numeral, number⟩ := @hashText_json lib _ counted
  have loggable : Loggable ⟨"emergency_stop", action, details, now⟩ := ⟨known, timed⟩
  obtain ⟨after, appended, grown⟩ := holds.appended loggable tail next counted sealable before number
  have further := numbered rows prevHash seq holds.entries ⟨prevSeq, tail, next, counted, sealable⟩
  exact ⟨rows, after, prevHash, seq, _, holds, whole, appended, grown, whole.append own further⟩

end Rasat
