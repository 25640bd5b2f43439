import RasatTrading.Orders.Exposure

/-! What a complete scan for unprotected positions has looked at. -/

namespace Rasat

variable {outside : Outside} {account : LabeledAccount} {orders : List OpenOrder}
  {balances : List (String × AssetBalance)} {scan after : PositionScan}

/-- The scan looks at an asset other than the quote asset that the account holds. -/
def HeldAsset (entry : String × AssetBalance) : Prop := entry.1 ≠ "USDT" ∧ 0 < entry.2.quantity

/-- The price of an asset is known. -/
def Outside.Prices (outside : Outside) (asset : String) : Prop :=
  ∃ price, outside.price (usdtSymbol asset) = .ok (some price)

/-- An asset is worth less than the scan shows. -/
def Dust (outside : Outside) (entry : String × AssetBalance) : Prop :=
  ∃ price, outside.price (usdtSymbol entry.1) = .ok (some price) ∧
    entry.2.quantity * price < minUnprotectedValueUsd

/-- The account has an open SELL for an asset. -/
def Protected (orders : List OpenOrder) (asset : String) : Prop :=
  some (usdtSymbol asset) ∈ sellSymbols orders

/-- The position that the scan reports for an asset at a price. -/
def positionAt (account : LabeledAccount) (entry : String × AssetBalance) (price : ℚ) :
    UnprotectedPosition where
  accountId := account.accountId
  accountLabel := account.label
  symbol := usdtSymbol entry.1
  quantity := entry.2.quantity
  valueUsd := entry.2.quantity * price

/-- A position is reported for an asset of some balances. -/
def Reports (outside : Outside) (account : LabeledAccount) (orders : List OpenOrder)
    (entry : String × AssetBalance) (position : UnprotectedPosition) : Prop :=
  HeldAsset entry ∧ ¬Protected orders entry.1 ∧ ∃ price,
    outside.price (usdtSymbol entry.1) = .ok (some price) ∧
      minUnprotectedValueUsd ≤ entry.2.quantity * price ∧ position = positionAt account entry price

/-- One asset adds the position that is reported for it, if there is one. -/
theorem scanAsset_spec {entry : String × AssetBalance}
    (scanned : scanAsset outside account orders scan entry = .ok after) :
    after.errors = scan.errors ∧ ∀ position, position ∈ after.unprotected ↔
      position ∈ scan.unprotected ∨ Reports outside account orders entry position := by
  -- An asset for which nothing is reported is passed over.
  have passes (none : ∀ position, ¬Reports outside account orders entry position)
      (same : after = scan) : after.errors = scan.errors ∧ ∀ position, position ∈ after.unprotected ↔
        position ∈ scan.unprotected ∨ Reports outside account orders entry position := by
    subst same
    exact ⟨rfl, fun position => ⟨.inl, fun either => either.resolve_right (none position)⟩⟩
  unfold scanAsset at scanned
  by_cases quote : entry.1 = "USDT"
  · rw [if_pos quote] at scanned
    refine passes ?_ (Except.ok.inj scanned).symm
    rintro position ⟨held, -⟩
    exact held.1 quote
  rw [if_neg quote] at scanned
  by_cases amount : entry.2.quantity ≤ 0
  · rw [if_pos amount] at scanned
    refine passes ?_ (Except.ok.inj scanned).symm
    rintro position ⟨held, -⟩
    exact absurd amount (not_le.mpr held.2)
  rw [if_neg amount] at scanned
  obtain ⟨answer, priced, rest⟩ := bind_ok.mp scanned
  cases answer with
  | none =>
    refine passes ?_ (Except.ok.inj rest).symm
    rintro position ⟨-, -, price, known, -⟩
    rw [priced] at known
    cases known
  | some price =>
    have only (other : ℚ) (known : outside.price (usdtSymbol entry.1) = .ok (some other)) :
        other = price := by
      rw [priced] at known
      exact (Option.some.inj (Except.ok.inj known)).symm
    dsimp only at rest
    by_cases small : entry.2.quantity * price < minUnprotectedValueUsd
    · rw [if_pos small] at rest
      refine passes ?_ (Except.ok.inj rest).symm
      rintro position ⟨-, -, other, known, enough, -⟩
      rw [only other known] at enough
      exact absurd small (not_lt.mpr enough)
    rw [if_neg small] at rest
    by_cases sells : some (usdtSymbol entry.1) ∈ sellSymbols orders
    · rw [if_pos sells] at rest
      refine passes ?_ (Except.ok.inj rest).symm
      rintro position ⟨-, open_, -⟩
      exact open_ sells
    · -- What is held, priced, worth enough and without a SELL is reported at its price.
      rw [if_neg sells] at rest
      cases rest
      refine ⟨rfl, fun position => ?_⟩
      simp only [List.mem_append, List.mem_singleton]
      constructor
      · rintro (old | rfl)
        · exact .inl old
        · exact .inr ⟨⟨quote, not_le.mp amount⟩, sells, price, priced, not_lt.mp small, rfl⟩
      · rintro (old | ⟨-, -, other, known, -, rfl⟩)
        · exact .inl old
        · rw [only other known]
          exact .inr rfl

/-- The assets of an account add the positions that are reported for them. -/
theorem scanAssets_spec (scanned : balances.foldlM (scanAsset outside account orders) scan = .ok after) :
    after.errors = scan.errors ∧ ∀ position, position ∈ after.unprotected ↔
      position ∈ scan.unprotected ∨
        ∃ entry ∈ balances, Reports outside account orders entry position := by
  -- The walk goes on from what the first asset leaves.
  induction balances generalizing scan with
  | nil =>
    cases scanned
    exact ⟨rfl, fun position => by simp⟩
  | cons entry rest ih =>
    rw [List.foldlM_cons] at scanned
    obtain ⟨middle, first, others⟩ := bind_ok.mp scanned
    obtain ⟨quiet, added⟩ := scanAsset_spec first
    obtain ⟨silent, further⟩ := ih others
    refine ⟨silent.trans quiet, fun position => ?_⟩
    rw [further, added, or_assoc]
    simp only [List.mem_cons, exists_eq_or_imp]

/-- The view of an account, when both of its requests succeed. -/
def Views (outside : Outside) (account : LabeledAccount) (balances : List (String × AssetBalance))
    (orders : List OpenOrder) : Prop := accountView outside account.accountId = .ok (balances, orders)

/-- A position that is reported for an asset of an account. -/
def ReportsOf (outside : Outside) (account : LabeledAccount) (position : UnprotectedPosition) : Prop :=
  ∃ balances orders, Views outside account balances orders ∧
    ∃ entry ∈ balances, Reports outside account orders entry position

/-- The accounts add the positions that are reported for them, and an error for each that failed. -/
theorem scanAccounts_spec {accounts : List LabeledAccount}
    (scanned : accounts.foldlM (scanAccount outside) scan = .ok after) :
    (after.errors = [] ↔ scan.errors = [] ∧
        ∀ account ∈ accounts, ∃ balances orders, Views outside account balances orders) ∧
      ∀ position, position ∈ after.unprotected ↔
        position ∈ scan.unprotected ∨ ∃ account ∈ accounts, ReportsOf outside account position := by
  induction accounts generalizing scan with
  | nil =>
    cases scanned
    exact ⟨by simp, fun position => by simp⟩
  | cons account rest ih =>
    -- An account that fails is noted, any other one is scanned asset by asset.
    rw [List.foldlM_cons] at scanned
    obtain ⟨middle, first, others⟩ := bind_ok.mp scanned
    obtain ⟨failures, further⟩ := ih others
    unfold scanAccount at first
    cases viewed : accountView outside account.accountId with
    | error raised =>
      rw [viewed] at first
      cases first
      refine ⟨?_, fun position => ?_⟩
      · rw [failures]
        constructor
        · rintro ⟨none, -⟩
          simp at none
        · rintro ⟨-, all⟩
          obtain ⟨balances, orders, seen⟩ := all account List.mem_cons_self
          rw [Views, viewed] at seen
          cases seen
      · rw [further]
        simp only [List.mem_cons, exists_eq_or_imp]
        constructor
        · exact Or.imp_right .inr
        · rintro (old | ⟨balances, orders, seen, -⟩ | later)
          · exact .inl old
          · rw [Views, viewed] at seen
            cases seen
          · exact .inr later
    | ok view =>
      obtain ⟨balances, orders⟩ := view
      rw [viewed] at first
      obtain ⟨quiet, added⟩ := scanAssets_spec first
      refine ⟨?_, fun position => ?_⟩
      · rw [failures, quiet]
        simp only [List.forall_mem_cons]
        exact ⟨fun known => ⟨known.1, ⟨balances, orders, viewed⟩, known.2⟩,
          fun known => ⟨known.1, known.2.2⟩⟩
      · rw [further, added, or_assoc]
        simp only [List.mem_cons, exists_eq_or_imp]
        -- The view of an account is a function of it.
        have own : ReportsOf outside account position ↔
            ∃ entry ∈ balances, Reports outside account orders entry position := by
          constructor
          · rintro ⟨_, _, seen, reported⟩
            rw [Views, viewed] at seen
            cases seen
            exact reported
          · exact fun reported => ⟨balances, orders, viewed, reported⟩
        rw [own]

/-- Every held asset of every scanned account is listed, dust or protected. -/
def LookedAt (outside : Outside) (accounts : List LabeledAccount) (reply : UnprotectedReply) : Prop :=
  ∀ account ∈ accounts, account.isScanned → ∃ balances orders, Views outside account balances orders ∧
    ∀ entry ∈ balances, HeldAsset entry →
      (∃ position ∈ reply.unprotected, position.accountId = account.accountId ∧
        position.symbol = usdtSymbol entry.1) ∨ Dust outside entry ∨ Protected orders entry.1

/-- A complete reply has looked at everything exactly when every held asset of every scanned account has
a price or an open SELL. -/
theorem complete_looked_at_iff {accounts : List LabeledAccount} {reply : UnprotectedReply}
    (listed : outside.accounts = .ok accounts)
    (found : findUnprotectedPositions outside = .ok reply) (complete : reply.complete) :
    LookedAt outside accounts reply ↔
      ∀ account ∈ accounts, account.isScanned → ∀ balances orders, Views outside account balances orders →
        ∀ entry ∈ balances, HeldAsset entry → outside.Prices entry.1 ∨ Protected orders entry.1 := by
  unfold findUnprotectedPositions at found
  rw [listed] at found
  obtain ⟨_, same, rest⟩ := bind_ok.mp found
  cases same
  obtain ⟨scan, scanned, returned⟩ := bind_ok.mp rest
  cases returned
  obtain ⟨failures, reported⟩ := scanAccounts_spec scanned
  -- A complete scan noted no error, so every account was seen.
  have views := (failures.mp (of_decide_eq_true complete)).2
  constructor
  · intro looked account member real balances orders viewed entry inside held
    obtain ⟨_, _, same, each⟩ := looked account member real
    rw [Views, viewed] at same
    cases same
    rcases each entry inside held with ⟨position, shown, -, symbol⟩ | ⟨price, priced, -⟩ | sells
    · -- A listed position was priced under the same symbol.
      rcases (reported position).mp shown with old | ⟨other, -, _, _, -, source, -, -, -, price, priced, -, rfl⟩
      · cases old
      · rw [show usdtSymbol source.1 = usdtSymbol entry.1 from symbol] at priced
        exact .inl ⟨price, priced⟩
    · exact .inl ⟨price, priced⟩
    · exact .inr sells
  · intro priced account member real
    obtain ⟨balances, orders, viewed⟩ := views account (List.mem_filter.mpr ⟨member, real⟩)
    refine ⟨balances, orders, viewed, fun entry inside held => ?_⟩
    by_cases sells : Protected orders entry.1
    · exact .inr (.inr sells)
    -- With a price the asset is dust or is listed.
    rcases priced account member real balances orders viewed entry inside held with ⟨price, known⟩ | covered
    · by_cases small : entry.2.quantity * price < minUnprotectedValueUsd
      · exact .inr (.inl ⟨price, known, small⟩)
      · refine .inl ⟨positionAt account entry price, (reported _).mpr (.inr ?_), rfl, rfl⟩
        exact ⟨account, List.mem_filter.mpr ⟨member, real⟩, balances, orders, viewed, entry, inside,
          held, sells, price, known, not_lt.mp small, rfl⟩
    · exact absurd covered sells

/-- A real account with credentials. -/
def holder : LabeledAccount where
  accountId := "main"
  label := "main"
  tradingLock := .real
  credentialsConfigured := true

/-- The account holds five coins of an asset and has no open order. -/
def oneHolding (price : Option ℚ) : Outside where
  accounts := .ok [holder]
  balanceDetail := fun _ => .ok [("USDT", { free := some 100 }), ("BTC", { free := some 5 })]
  openOrders := fun _ => .ok []
  price := fun _ => .ok price

/-- What the scan replies about the account with one holding. -/
def oneReply (price : Option ℚ) : UnprotectedReply where
  unprotected := match price with
    | none => []
    | some price => [⟨"main", "main", "BTCUSDT", 5, 5 * price⟩]
  count := if price = none then 0 else 1
  accountCount := 1
  complete := true
  errors := []

/-- The scan of a holding that has a price. -/
theorem priced_holding_looked_at :
    LookedAt (oneHolding (some 100)) [holder] (oneReply (some 100)) ↔
      ∀ account ∈ [holder], account.isScanned → ∀ balances orders,
        Views (oneHolding (some 100)) account balances orders →
          ∀ entry ∈ balances, HeldAsset entry →
            (oneHolding (some 100)).Prices entry.1 ∨ Protected orders entry.1 :=
  complete_looked_at_iff rfl (by decide +kernel) rfl

/-- A holding without a price is not looked at, and the reply is complete. -/
theorem unpriced_holding_missed :
    findUnprotectedPositions (oneHolding none) = .ok (oneReply none) ∧
      ¬LookedAt (oneHolding none) [holder] (oneReply none) := by
  refine ⟨by decide +kernel, fun looked => ?_⟩
  obtain ⟨balances, orders, viewed, each⟩ := looked holder (by simp) rfl
  cases viewed
  -- The coins are not listed, have no price and no open SELL.
  rcases each ("BTC", { free := some 5 }) (by simp) ⟨by decide, by decide +kernel⟩ with
    ⟨position, shown, -⟩ | ⟨price, priced, -⟩ | sells
  · cases shown
  · cases priced
  · cases sells

end Rasat
