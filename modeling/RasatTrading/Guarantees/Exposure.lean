import Mathlib.Data.List.Perm.Basic
import RasatTrading.Coop.Outcome
import RasatTrading.Orders.Exposure

/-! The exposure that the caps are checked against is the exposure that is reported. -/

namespace Rasat

open Coop Keyed

/-- What the database, the broker and the market answer while nothing changes. -/
structure Sources where
  db : Database
  balance : String → Except RasatError Balances
  price : String → Option ℚ

/-- The answer to a request of the exposure calculations. -/
def Sources.respond (sources : Sources) : (request : Req) → Except Exc request.Ans
  | .read query => .ok (query.run sources.db 0)
  | .broker (.getBalance accountId) => (sources.balance accountId).mapError .rasat
  | .market (.price symbol) => .ok (sources.price symbol)
  | _ => .error (.other "not asked")

namespace Sources

variable (sources : Sources)

/-- The exposure of an account as the cap check computes it. -/
def enforced (accountId : String) : Except Exc ℚ :=
  (currentExposure accountId quoteAsset).outcome sources.respond

/-- The exposure of an account by symbol, as the report computes it. -/
def bySymbol (accountId : String) : Except Exc (Tally String ℚ) :=
  (exposureBySymbol accountId).outcome sources.respond

/-- The value of a held asset other than the quote asset. -/
def heldValue (asset : String × ℚ) : Except Exc ℚ :=
  match sources.price (asset.1 ++ quoteAsset) with
  | none => reject .staleData ("could not obtain exposure price: " ++ asset.1 ++ quoteAsset)
  | some price => .ok (asset.2 * price)

/-- One turn of a loop over the balances: an asset that counts is added with its value. -/
def addHeld {α : Type} (add : α → String → ℚ → α) (sum : α) (asset : String × ℚ) : Except Exc α :=
  if asset.1 = quoteAsset ∨ asset.2 ≤ 0 then .ok sum
  else (sources.heldValue asset).map (add sum (asset.1 ++ quoteAsset))

/-- A turn of either loop comes to such a turn. -/
theorem outcome_turn {α : Type} {add : α → String → ℚ → α} {sum : α} {asset : String × ℚ}
    {next : Option ℚ → Task α}
    (missing : next none =
      raise .staleData ("could not obtain exposure price: " ++ asset.1 ++ quoteAsset))
    (priced : ∀ price, next (some price) = .done (add sum (asset.1 ++ quoteAsset) (asset.2 * price))) :
    Prog.outcome sources.respond
      (if asset.1 = quoteAsset ∨ asset.2 ≤ 0 then .done sum
        else (market (.price (asset.1 ++ quoteAsset))).bind next) =
      sources.addHeld add sum asset := by
  unfold addHeld heldValue
  split
  · rfl
  · simp only [Prog.outcome_bind, market, Prog.outcome_call, respond, Except.bind]
    cases sources.price (asset.1 ++ quoteAsset) with
    | none => rw [missing]; rfl
    | some price => rw [priced]; rfl

/-- The balances of an account. -/
def balances (accountId : String) : Except Exc Balances :=
  (sources.balance accountId).mapError .rasat

/-- The cap check adds the values of the held assets to the open orders. -/
theorem enforced_eq (accountId : String) :
    sources.enforced accountId = (sources.balances accountId).bind fun balances =>
      balances.foldlM (sources.addHeld fun sum _ value => sum + value)
        (openOrderNotional sources.db.orders accountId) := by
  have shifted : ∀ (notional held : ℚ) (asset : String × ℚ),
      (sources.addHeld (fun sum _ value => sum + value) held asset).map (notional + ·) =
        sources.addHeld (fun sum _ value => sum + value) (notional + held) asset := by
    intro notional held asset
    unfold addHeld
    split
    · rfl
    · cases sources.heldValue asset with
      | error raised => rfl
      | ok value =>
        -- The open orders come first in both sums.
        exact congrArg Except.ok (add_assoc notional held value).symm
  have flat : sources.enforced accountId = (sources.balances accountId).bind fun balances =>
      (balances.foldlM (sources.addHeld fun sum _ value => sum + value) 0).map
        (openOrderNotional sources.db.orders accountId + ·) := by
    unfold enforced currentExposure
    simp only [Prog.bind_eq, Prog.pure_eq, Prog.outcome_bind, dbRead, broker, Prog.outcome_call,
      respond, Query.run, Prog.outcome_foldlM]
    refine congrArg (Except.bind (sources.balances accountId)) (funext fun balances => ?_)
    refine congrArg (fun body : ℚ → String × ℚ → Except Exc ℚ =>
      Except.bind (List.foldlM body 0 balances) fun held =>
        .ok (openOrderNotional sources.db.orders accountId + held)) ?_
    funext held asset
    exact sources.outcome_turn rfl fun _ => rfl
  rw [flat]
  refine congrArg (Except.bind (sources.balances accountId)) (funext fun balances => ?_)
  rw [foldlM_map (shifted _), add_zero]

/-- The report adds the same values under the symbols of the assets. -/
theorem bySymbol_eq (accountId : String) :
    sources.bySymbol accountId = (sources.balances accountId).bind fun balances =>
      balances.foldlM (sources.addHeld Tally.add)
        (openNotionalBySymbol sources.db.orders accountId) := by
  unfold bySymbol exposureBySymbol
  simp only [Prog.bind_eq, Prog.pure_eq, Prog.outcome_bind, dbRead, broker, Prog.outcome_call,
    respond, Query.run, Prog.outcome_foldlM]
  refine congrArg (Except.bind (sources.balances accountId)) (funext fun balances => ?_)
  refine congrArg (fun body => List.foldlM body _ balances) ?_
  funext tally asset
  exact sources.outcome_turn rfl fun _ => rfl

/-- The open orders by symbol sum up to all open orders. -/
theorem total_openNotionalBySymbol (orders : List Order) (accountId : String) :
    (openNotionalBySymbol orders accountId).total = openOrderNotional orders accountId := by
  unfold openNotionalBySymbol openOrderNotional
  rw [Tally.total_addAll, Tally.total_empty, zero_add, List.map_map]
  rfl

/-- Both calculations of one account come to the same sum or raise the same error. -/
theorem total_bySymbol (accountId : String) :
    (sources.bySymbol accountId).map Tally.total = sources.enforced accountId := by
  have agree : ∀ (tally : Tally String ℚ) (asset : String × ℚ),
      (sources.addHeld Tally.add tally asset).map Tally.total =
        sources.addHeld (fun sum _ value => sum + value) tally.total asset := by
    intro tally asset
    unfold addHeld
    split
    · rfl
    · cases sources.heldValue asset with
      | error raised => rfl
      | ok value => exact congrArg Except.ok (Tally.total_add tally _ value)
  rw [bySymbol_eq, enforced_eq]
  cases sources.balances accountId with
  | error raised => rfl
  | ok balances =>
    refine (foldlM_map agree balances _).trans ?_
    rw [total_openNotionalBySymbol]
    rfl

/-- Only canonical errors are raised. -/
theorem bySymbol_error {accountId : String} {raised : Exc}
    (failed : sources.bySymbol accountId = .error raised) : ∃ error, raised = .rasat error := by
  rw [bySymbol_eq] at failed
  unfold balances at failed
  cases answered : sources.balance accountId with
  | error error =>
    rw [answered] at failed
    exact ⟨error, (Except.error.inj failed).symm⟩
  | ok held =>
    rw [answered] at failed
    change held.foldlM _ (openNotionalBySymbol sources.db.orders accountId) = _ at failed
    -- The first asset without a price decides.
    clear answered
    generalize openNotionalBySymbol sources.db.orders accountId = tally at failed
    induction held generalizing tally with
    | nil => cases failed
    | cons asset rest ih =>
      rw [List.foldlM_cons] at failed
      cases turned : sources.addHeld Tally.add tally asset with
      | ok after =>
        rw [turned] at failed
        exact ih after failed
      | error error =>
        rw [turned] at failed
        cases failed
        unfold addHeld heldValue at turned
        split at turned
        · cases turned
        · split at turned
          · exact ⟨_, (Except.error.inj turned).symm⟩
          · cases turned

/-- What one account contributes to the report. -/
def shown (account : Account) : Option (String × ℚ) :=
  match sources.enforced account.accountId with
  | .ok value => some (account.accountId, value)
  | .error _ => none

/-- The error that is listed for an account. -/
def listed (account : Account) : Option (String × RasatError) :=
  match sources.enforced account.accountId with
  | .ok _ => none
  | .error raised => some (account.accountId, exposureError raised)

/-- One turn of the report, with the calculation of the account done. -/
def gather (gathered : Exposures) (account : Account) : Exposures :=
  match sources.bySymbol account.accountId with
  | .ok per => gathered.addAccount account.accountId per
  | .error raised => gathered.addError account.accountId (exposureError raised)

/-- A turn of the report never raises. -/
theorem outcome_gather (gathered : Exposures) (account : Account) :
    (gatherExposure gathered account).outcome sources.respond =
      .ok (sources.gather gathered account) := by
  unfold gatherExposure gather
  simp only [Prog.bind_eq, Prog.outcome_bind, Prog.outcome_attempt, Except.bind]
  unfold bySymbol
  cases (exposureBySymbol account.accountId).outcome sources.respond <;> rfl

/-- The gathered exposures of all accounts, in the order in which they are listed. -/
def gathered : Exposures :=
  (sources.db.accounts.insertionSort listedBefore).foldl sources.gather {}

/-- The report. -/
def report : TotalExposure where
  total := sources.gathered.bySymbol.total
  bySymbol := sources.gathered.bySymbol.rows.insertionSort fun left right => right.2 ≤ left.2
  perAccount := sources.gathered.perAccount
  accountCount := sources.db.accounts.length
  complete := sources.gathered.errors = []
  errors := sources.gathered.errors

/-- The report is always given. -/
theorem outcome_report : getTotalExposure.outcome sources.respond = .ok sources.report := by
  have loop : ∀ (accounts : List Account) (start : Exposures),
      accounts.foldlM (fun gathered account =>
        (gatherExposure gathered account).outcome sources.respond) start =
        .ok (accounts.foldl sources.gather start) := by
    intro accounts
    induction accounts with
    | nil => exact fun _ => rfl
    | cons account rest ih =>
      intro start
      rw [List.foldlM_cons, outcome_gather]
      exact ih _
  unfold getTotalExposure
  simp only [Prog.bind_eq, Prog.pure_eq, Prog.outcome_bind, dbRead, Prog.outcome_call, respond,
    Query.run, Except.bind, Prog.outcome_foldlM, loop, Prog.outcome_done, List.length_insertionSort]
  rfl

variable {account : Account}

/-- What a calculated account adds to the report. -/
theorem gather_ok {per : Tally String ℚ} (start : Exposures)
    (calculated : sources.bySymbol account.accountId = .ok per) :
    sources.shown account = some (account.accountId, per.total) ∧ sources.listed account = none ∧
      sources.gather start account = start.addAccount account.accountId per := by
  have enforced : sources.enforced account.accountId = .ok per.total := by
    rw [← total_bySymbol, calculated]
    rfl
  unfold shown listed gather
  rw [enforced, calculated]
  exact ⟨rfl, rfl, rfl⟩

/-- What an account adds whose calculation raised. -/
theorem gather_error {raised : Exc} (start : Exposures)
    (failed : sources.bySymbol account.accountId = .error raised) :
    sources.shown account = none ∧
      sources.listed account = some (account.accountId, exposureError raised) ∧
      sources.gather start account = start.addError account.accountId (exposureError raised) := by
  have enforced : sources.enforced account.accountId = .error raised := by
    rw [← total_bySymbol, failed]
    rfl
  unfold shown listed gather
  rw [enforced, failed]
  exact ⟨rfl, rfl, rfl⟩

/-- The loop lists the errors in order and adds up the exposures. -/
theorem foldl_gather (accounts : List Account) (start : Exposures) :
    (accounts.foldl sources.gather start).errors =
        start.errors ++ accounts.filterMap sources.listed ∧
      (accounts.foldl sources.gather start).bySymbol.total =
        start.bySymbol.total + ((accounts.filterMap sources.shown).map Prod.snd).sum := by
  induction accounts generalizing start with
  | nil => simp
  | cons account rest ih =>
    obtain ⟨errors, total⟩ := ih (sources.gather start account)
    rw [List.foldl_cons, errors, total]
    cases calculated : sources.bySymbol account.accountId with
    | ok per =>
      obtain ⟨shown, listed, gathers⟩ := sources.gather_ok start calculated
      rw [List.filterMap_cons_none listed, List.filterMap_cons_some shown, gathers]
      refine ⟨rfl, ?_⟩
      change Tally.total (Tally.addAll _ per.rows) + _ = _
      rw [Tally.total_addAll, List.map_cons, List.sum_cons, add_assoc]
      rfl
    | error raised =>
      obtain ⟨shown, listed, gathers⟩ := sources.gather_error start calculated
      rw [List.filterMap_cons_some listed, List.filterMap_cons_none shown, gathers]
      exact ⟨by simp [Exposures.addError], rfl⟩

/-- Accounts with different ids are entered one behind the other. -/
theorem foldl_gather_perAccount {accounts : List Account} {start : Exposures}
    (distinct : (start.perAccount.rows.map Prod.fst ++ accounts.map Account.accountId).Nodup) :
    (accounts.foldl sources.gather start).perAccount.rows =
      start.perAccount.rows ++ accounts.filterMap sources.shown := by
  induction accounts generalizing start with
  | nil => simp
  | cons account rest ih =>
    rw [List.foldl_cons]
    cases calculated : sources.bySymbol account.accountId with
    | ok per =>
      obtain ⟨shown, -, gathers⟩ := sources.gather_ok start calculated
      have fresh : ∀ row ∈ start.perAccount.rows, row.1 ≠ account.accountId := by
        intro row member same
        refine (List.disjoint_of_nodup_append distinct) (List.mem_map.mpr ⟨row, member, same⟩) ?_
        simp
      have entered : (start.addAccount account.accountId per).perAccount.rows =
          start.perAccount.rows ++ [(account.accountId, per.total)] :=
        upsertRow_fresh fresh
      rw [gathers, ih ?_, entered, List.filterMap_cons_some shown, List.append_assoc]
      · rfl
      · rw [entered]
        simpa using distinct
    | error raised =>
      obtain ⟨shown, -, gathers⟩ := sources.gather_error start calculated
      rw [gathers, List.filterMap_cons_none shown]
      refine ih (distinct.sublist ?_)
      exact List.Sublist.append_left (List.sublist_cons_self _ _) _

section Unique

variable (unique : (sources.db.accounts.map Account.accountId).Nodup)
include unique

/-- What the report says about the accounts, in the order of the list. -/
theorem report_rows : sources.report.perAccount.rows =
        (sources.db.accounts.insertionSort listedBefore).filterMap sources.shown ∧
      sources.report.errors =
        (sources.db.accounts.insertionSort listedBefore).filterMap sources.listed ∧
      sources.report.total = sources.report.perAccount.total := by
  have sorted := List.perm_insertionSort listedBefore sources.db.accounts
  have distinct : ((sources.db.accounts.insertionSort listedBefore).map Account.accountId).Nodup :=
    (sorted.map Account.accountId).nodup_iff.mpr unique
  have apart : ((({} : Exposures).perAccount.rows.map Prod.fst) ++
      (sources.db.accounts.insertionSort listedBefore).map Account.accountId).Nodup := by
    simpa [Table.empty] using distinct
  have entered := sources.foldl_gather_perAccount apart
  obtain ⟨errors, total⟩ :=
    sources.foldl_gather (sources.db.accounts.insertionSort listedBefore) {}
  refine ⟨entered, errors, total.trans ?_⟩
  simp only [report, Tally.total, gathered, entered]
  simp [Table.empty]

omit unique in
/-- An account is shown with its enforced exposure. -/
theorem shown_eq_some {row : String × ℚ} :
    sources.shown account = some row ↔
      row.1 = account.accountId ∧ sources.enforced account.accountId = .ok row.2 := by
  unfold shown
  cases sources.enforced account.accountId with
  | error raised => simp
  | ok value =>
    constructor
    · intro same
      cases same
      exact ⟨rfl, rfl⟩
    · rintro ⟨name, amount⟩
      cases amount
      rw [← name]

/-- The report shows exactly the accounts whose enforced exposure can be calculated. -/
theorem find_perAccount (member : account ∈ sources.db.accounts) {value : ℚ} :
    sources.enforced account.accountId = .ok value ↔
      sources.report.perAccount.find account.accountId = some (account.accountId, value) := by
  have found : (account.accountId, value) ∈ sources.report.perAccount.rows ↔
      sources.report.perAccount.find account.accountId = some (account.accountId, value) :=
    Table.mem_rows_iff
  rw [← found, (sources.report_rows unique).1, List.mem_filterMap]
  constructor
  · intro enforced
    refine ⟨account, (List.mem_insertionSort _).mpr member, ?_⟩
    exact sources.shown_eq_some.mpr ⟨rfl, enforced⟩
  · rintro ⟨other, listed, shown⟩
    obtain ⟨name, enforced⟩ := sources.shown_eq_some.mp shown
    rw [show account.accountId = other.accountId from name]
    exact enforced

omit unique in
/-- An account is listed with the error of its enforced exposure. -/
theorem listed_eq_some {entry : String × RasatError} :
    sources.listed account = some entry ↔
      entry.1 = account.accountId ∧ sources.enforced account.accountId = .error (.rasat entry.2) := by
  unfold listed
  cases enforced : sources.enforced account.accountId with
  | ok value => simp
  | error raised =>
    have canonical : ∃ error, raised = .rasat error := by
      rw [← total_bySymbol] at enforced
      cases calculated : sources.bySymbol account.accountId with
      | ok per =>
        rw [calculated] at enforced
        cases enforced
      | error other =>
        rw [calculated] at enforced
        cases enforced
        exact sources.bySymbol_error calculated
    obtain ⟨error, rfl⟩ := canonical
    constructor
    · intro same
      cases same
      exact ⟨rfl, rfl⟩
    · rintro ⟨name, same⟩
      obtain rfl := Exc.rasat.inj (Except.error.inj same)
      rw [← name]
      rfl

/-- The report lists exactly the errors of the accounts that are not shown. -/
theorem mem_errors (member : account ∈ sources.db.accounts) {error : RasatError} :
    sources.enforced account.accountId = .error (.rasat error) ↔
      (account.accountId, error) ∈ sources.report.errors := by
  rw [(sources.report_rows unique).2.1, List.mem_filterMap]
  constructor
  · intro enforced
    refine ⟨account, (List.mem_insertionSort _).mpr member, ?_⟩
    exact sources.listed_eq_some.mpr ⟨rfl, enforced⟩
  · rintro ⟨other, listed, found⟩
    obtain ⟨name, enforced⟩ := sources.listed_eq_some.mp found
    rw [show account.accountId = other.accountId from name]
    exact enforced

/-- The report is complete when every account is shown. -/
theorem report_complete : sources.report.complete = true ↔ ∀ account ∈ sources.db.accounts,
      (sources.report.perAccount.find account.accountId).isSome := by
  have none : sources.report.complete = true ↔ sources.report.errors = [] := by
    simp [report]
  rw [none, (sources.report_rows unique).2.1, List.filterMap_eq_nil_iff]
  constructor
  · intro clean account member
    have unlisted := clean account ((List.mem_insertionSort _).mpr member)
    cases enforced : sources.enforced account.accountId with
    | ok value =>
      rw [(sources.find_perAccount unique member).mp enforced]
      rfl
    | error raised =>
      unfold listed at unlisted
      rw [enforced] at unlisted
      cases unlisted
  · intro shown account listed
    have member := (List.mem_insertionSort _).mp listed
    obtain ⟨row, found⟩ := Option.isSome_iff_exists.mp (shown account member)
    have name : row.1 = account.accountId := Table.key_of_find found
    have entered : sources.report.perAccount.find account.accountId =
        some (account.accountId, row.2) := by
      rw [found, ← name]
    have enforced := (sources.find_perAccount unique member).mpr entered
    unfold Sources.listed
    rw [enforced]

end Unique

end Sources

/-- While nothing changes, the exposure that the cap check computes for an account is the one that
the report shows for it, and where it raises, the report lists that error; the total is the sum of
both breakdowns, and the report is complete when no account is missing. -/
theorem exposure_as_reported (sources : Sources) (unique : (sources.db.accounts.map Account.accountId).Nodup) :
    ∃ report, getTotalExposure.outcome sources.respond = .ok report ∧
      (∀ account ∈ sources.db.accounts, ∀ value,
        (currentExposure account.accountId "USDT").outcome sources.respond = .ok value ↔
          report.perAccount.find account.accountId = some (account.accountId, value)) ∧
      (∀ account ∈ sources.db.accounts, ∀ raised,
        (currentExposure account.accountId "USDT").outcome sources.respond = .error raised ↔
          ∃ error, raised = .rasat error ∧ (account.accountId, error) ∈ report.errors) ∧
      report.total = (report.bySymbol.map Prod.snd).sum ∧
      report.total = (report.perAccount.rows.map Prod.snd).sum ∧
      (report.complete = true ↔ ∀ account ∈ sources.db.accounts,
        (report.perAccount.find account.accountId).isSome) := by
  refine ⟨sources.report, sources.outcome_report, ?_⟩
  refine ⟨?_, ?_, ?_, (sources.report_rows unique).2.2, sources.report_complete unique⟩
  · intro account member value
    exact sources.find_perAccount unique member
  · intro account member raised
    constructor
    · intro enforced
      have failed : sources.enforced account.accountId = .error raised := enforced
      cases calculated : sources.bySymbol account.accountId with
      | ok per =>
        rw [← sources.total_bySymbol, calculated] at failed
        cases failed
      | error other =>
        obtain ⟨error, rfl⟩ := sources.bySymbol_error calculated
        rw [← sources.total_bySymbol, calculated] at failed
        cases failed
        exact ⟨error, rfl, (sources.mem_errors unique member).mp enforced⟩
    · rintro ⟨error, rfl, listed⟩
      exact (sources.mem_errors unique member).mpr listed
  · -- Sorting by value keeps the amounts.
    have sorted := List.perm_insertionSort (fun left right : String × ℚ => right.2 ≤ left.2)
      sources.gathered.bySymbol.rows
    exact ((sorted.map Prod.snd).sum_eq).symm

/-- An account with an open order and two assets, and one whose balance is not given. -/
def twoAccounts : Sources where
  db := { accounts := [{ accountId := "a", createdAt := 1 }, { accountId := "b" }] }
  balance := fun accountId =>
    if accountId = "a" then .ok [("USDT", 50), ("BTC", 2), ("ETH", 3)]
    else .error ⟨.timeout, "balance timed out"⟩
  price := fun symbol => if symbol = "BTCUSDT" then some 100 else some 10

/-- The account whose balance is given is shown with its holdings, the other one with its error. -/
theorem two_accounts_reported :
    (twoAccounts.db.accounts.map Account.accountId).Nodup ∧
      ∃ report, getTotalExposure.outcome twoAccounts.respond = .ok report ∧
        (report.perAccount.find "a" = some ("a", 230)) ∧
        ("b", ⟨.timeout, "balance timed out"⟩) ∈ report.errors ∧ report.complete = false := by
  have unique : (twoAccounts.db.accounts.map Account.accountId).Nodup := by decide
  obtain ⟨report, given, values, errors, -, -, complete⟩ := exposure_as_reported twoAccounts unique
  have shown : (currentExposure "a" "USDT").outcome twoAccounts.respond = .ok 230 := by
    decide +kernel
  have raised : (currentExposure "b" "USDT").outcome twoAccounts.respond =
      .error (.rasat ⟨.timeout, "balance timed out"⟩) := by
    decide +kernel
  refine ⟨unique, report, given, ?_, ?_, ?_⟩
  · exact (values { accountId := "a", createdAt := 1 } (by decide) 230).mp shown
  · obtain ⟨error, same, listed⟩ := (errors { accountId := "b" } (by decide) _).mp raised
    cases same
    exact listed
  · -- The second account is missing from the report.
    refine Bool.eq_false_iff.mpr fun whole => ?_
    obtain ⟨row, found⟩ := Option.isSome_iff_exists.mp
      (complete.mp whole { accountId := "b" } (by decide))
    have name : row.1 = "b" := Table.key_of_find found
    have entered : report.perAccount.find "b" = some ("b", row.2) := by
      rw [found, ← name]
    have calculated := (values { accountId := "b" } (by decide) row.2).mpr entered
    rw [raised] at calculated
    cases calculated

end Rasat
