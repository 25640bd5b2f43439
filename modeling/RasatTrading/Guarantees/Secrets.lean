import RasatTrading.Emergency.Entries
import RasatTrading.Guarantees.Runs

/-! When secrets have no influence on what is logged: redaction must reach every value that is written. -/

namespace Rasat

open Document

/-- A value with all its secrets struck out. -/
abbrev strike (mark value : Raw) : Raw := overwrite mark true value

mutual

/-- Whether a secret is inside a tuple, where redaction does not come; inside a tuple every secret counts. -/
def leaks (inside : Bool) : Raw → Bool
  | .list items => leaksItem inside items
  | .tuple items => leaksItem true items
  | .dict members => leaksMember inside members
  | _ => false

/-- An item of a list does. -/
def leaksItem (inside : Bool) : List Raw → Bool
  | [] => false
  | item :: rest => leaks inside item || leaksItem inside rest

/-- A member of a dictionary does, or hides behind its key. -/
def leaksMember (inside : Bool) : List (Key × Raw) → Bool
  | [] => false
  | (key, value) :: rest => (if namesSecret key then inside else leaks inside value) || leaksMember inside rest

end

/-! What is left of the secrets. -/

section Marks

variable {mark : Raw} {plain : Raw → Bool} {keys : List Key → Bool}

/-- A list leaks what an item leaks. -/
theorem leaksItem_any (inside : Bool) (items : List Raw) : leaksItem inside items = items.any (leaks inside) := by
  induction items with
  | nil => rfl
  | cons first rest ih => rw [leaksItem, ih, List.any_cons]

/-- A dictionary leaks what is under the name of a secret, and what another member leaks. -/
theorem leaksMember_any (inside : Bool) (members : List (Key × Raw)) : leaksMember inside members =
    members.any fun member => if namesSecret member.1 then inside else leaks inside member.2 := by
  induction members with
  | nil => rfl
  | cons first rest ih => rw [leaksMember, ih, List.any_cons]

/-- Without secrets there is nothing to strike out. -/
theorem strike_clean (value : Raw) (clean : leaks true value = false) : overwrite mark true value = value := by
  induction value with
  | list items ih | tuple items ih =>
    simp only [leaks, leaksItem_any, List.any_eq_false, Bool.not_eq_true] at clean
    simp only [overwrite, overwriteItems_map, if_true]
    exact congrArg _ ((List.map_congr_left fun item there => ih item there (clean item there)).trans (List.map_id _))
  | dict members ih =>
    simp only [leaks, leaksMember_any, List.any_eq_false, Bool.not_eq_true] at clean
    rw [overwrite, overwriteMembers_map]
    refine congrArg Raw.dict ((List.map_congr_left fun member there => ?_).trans (List.map_id _))
    have own := clean member there
    split at own
    · cases own
    · rename_i open_
      rw [if_neg open_, ih member there own]
      rfl
  | _ => rfl

/-- What a second marking makes of a dictionary, when it makes the same of the members that are no secrets. -/
theorem overwriteMembers_twice {first second : Raw} {again once : Bool} {members : List (Key × Raw)}
    (same : ∀ member ∈ members, namesSecret member.1 = false →
      overwrite second again (overwrite first once member.2) = overwrite second again member.2) :
    overwriteMembers second again (overwriteMembers first once members) = overwriteMembers second again members := by
  simp only [overwriteMembers_map, List.map_map]
  refine List.map_congr_left fun member there => ?_
  cases secret : namesSecret member.1 with
  | true => simp [secret]
  | false => simp [secret, same member there secret]

/-- Where nothing leaks, redaction shows the same whatever the secrets are. -/
theorem mask_strike (value : Raw) (safe : leaks false value = false) :
    overwrite redactedMark false (overwrite mark true value) = overwrite redactedMark false value := by
  induction value with
  | list items ih =>
    simp only [leaks, leaksItem_any, List.any_eq_false, Bool.not_eq_true] at safe
    simp only [overwrite, overwriteItems_map, List.map_map]
    exact congrArg Raw.list (List.map_congr_left fun item there => ih item there (safe item there))
  | tuple items =>
    have clean : overwrite mark true (.tuple items) = .tuple items := strike_clean (.tuple items) safe
    rw [clean]
  | dict members ih =>
    simp only [leaks, leaksMember_any, List.any_eq_false, Bool.not_eq_true] at safe
    refine congrArg Raw.dict (overwriteMembers_twice fun member there open_ => ih member there ?_)
    have own := safe member there
    rwa [open_, if_neg Bool.false_ne_true] at own
  | _ => rfl

/-- The secrets that were there do not matter when they are struck out again. -/
theorem strike_strike (other value : Raw) :
    overwrite mark true (overwrite other true value) = overwrite mark true value := by
  induction value with
  | list items ih | tuple items ih =>
    simp only [overwrite, overwriteItems_map, List.map_map, if_true]
    exact congrArg _ (List.map_congr_left ih)
  | dict members ih => exact congrArg Raw.dict (overwriteMembers_twice fun member there _ => ih member there)
  | _ => rfl

/-- Redaction can read the same keys. -/
theorem redactable_strike (value : Raw) : redactable (overwrite mark true value) = redactable value := by
  induction value with
  | list items ih =>
    rw [Bool.eq_iff_iff, overwrite, redactable, redactable, redactableItems_iff, redactableItems_iff,
      overwriteItems_map, List.forall_mem_map]
    exact forall₂_congr fun item there => by rw [ih item there]
  | dict members ih =>
    rw [Bool.eq_iff_iff, overwrite, redactable, redactable, redactableMembers_iff, redactableMembers_iff,
      overwriteMembers_map, List.forall_mem_map]
    refine forall₂_congr fun member there => and_congr_right fun _ => ?_
    cases secret : namesSecret member.1 with
    | true => simp only [true_or]
    | false => rw [if_neg Bool.false_ne_true, ih member there]
  | _ => rfl

/-- As much leaks. -/
theorem leaks_strike (inside : Bool) (value : Raw) : leaks inside (overwrite mark true value) = leaks inside value := by
  induction value generalizing inside with
  | list items ih | tuple items ih =>
    simp only [overwrite, leaks, leaksItem_any, overwriteItems_map, if_true, List.any_map]
    rw [Bool.eq_iff_iff, List.any_eq_true, List.any_eq_true]
    exact exists_congr fun item => and_congr_right fun there => by rw [Function.comp_apply, ih item there]
  | dict members ih =>
    simp only [overwrite, leaks, leaksMember_any, overwriteMembers_map, List.any_map]
    rw [Bool.eq_iff_iff, List.any_eq_true, List.any_eq_true]
    refine exists_congr fun member => and_congr_right fun there => ?_
    rw [Function.comp_apply]
    cases secret : namesSecret member.1 with
    | true => rfl
    | false => simp [ih member there]
  | _ => rfl

/-- What holds of a mark and of all that redaction shows still holds when secrets are marked before. -/
theorem everywhere_mask (marked : mark.everywhere plain keys = true) (value : Raw)
    (holds : (overwrite redactedMark false value).everywhere plain keys = true) :
    (overwrite redactedMark false (overwrite mark true value)).everywhere plain keys = true := by
  induction value with
  | list items ih =>
    simp only [overwrite, Raw.everywhere, overwriteItems_map, Raw.everyItem_iff, List.forall_mem_map] at holds ⊢
    exact fun item there => ih item there (holds item there)
  | tuple items => exact everywhere_overwrite marked true (.tuple items) holds
  | dict members ih =>
    simp only [overwrite, Raw.everywhere_dict, overwriteMembers_keys] at holds ⊢
    simp only [overwriteMembers_map, List.forall_mem_map] at holds ⊢
    refine ⟨holds.1, fun member there => ?_⟩
    have own := holds.2 member there
    split at own
    · rename_i secret
      rwa [if_pos secret]
    · rename_i open_
      rw [if_neg open_, if_neg open_]
      exact ih member there own
  | _ => exact holds

/-- A mark that is not fit shows wherever there are secrets. -/
theorem strike_unfit (unfit : mark.everywhere plain keys = false) (value : Raw) (leaking : leaks true value = true) :
    (overwrite mark true value).everywhere plain keys = false := by
  rw [← Bool.not_eq_true] at unfit ⊢
  intro holds
  induction value with
  | list items ih | tuple items ih =>
    simp only [overwrite, if_true, Raw.everywhere, overwriteItems_map, Raw.everyItem_iff, List.forall_mem_map] at holds
    simp only [leaks, leaksItem_any, List.any_eq_true] at leaking
    obtain ⟨item, there, found⟩ := leaking
    exact ih item there found (holds item there)
  | dict members ih =>
    rw [overwrite, Raw.everywhere_dict, overwriteMembers_map, List.forall_mem_map] at holds
    simp only [leaks, leaksMember_any, List.any_eq_true] at leaking
    obtain ⟨member, there, found⟩ := leaking
    have own := holds.2 member there
    dsimp only at own
    split at own
    · exact unfit own
    · rename_i open_
      rw [if_neg open_] at found
      exact ih member there found own
  | _ => cases leaking

/-- The same behind the redaction, wherever something leaks. -/
theorem mask_unfit (unfit : mark.everywhere plain keys = false) (value : Raw) (leaking : leaks false value = true) :
    (overwrite redactedMark false (overwrite mark true value)).everywhere plain keys = false := by
  rw [← Bool.not_eq_true]
  intro holds
  induction value with
  | list items ih =>
    simp only [overwrite, Raw.everywhere, overwriteItems_map, Raw.everyItem_iff, List.forall_mem_map] at holds
    simp only [leaks, leaksItem_any, List.any_eq_true] at leaking
    obtain ⟨item, there, found⟩ := leaking
    exact ih item there found (holds item there)
  | tuple items =>
    have shown := strike_unfit unfit (.tuple items) leaking
    rw [overwrite, if_pos rfl] at shown
    exact absurd (holds.symm.trans shown) (by decide)
  | dict members ih =>
    simp only [overwrite, Raw.everywhere_dict, overwriteMembers_map, List.forall_mem_map] at holds
    simp only [leaks, leaksMember_any, List.any_eq_true] at leaking
    obtain ⟨member, there, found⟩ := leaking
    split at found
    · cases found
    · rename_i open_
      have own := holds.2 member there
      rw [if_neg open_, if_neg open_] at own
      exact ih member there found own
  | _ => cases leaking

end Marks

/-! What the logs store. -/

/-- The audit rows after an append, which stores nothing when it raises. -/
def auditAfter (sha256Hex : String → String) (rows : List AuditRow) (actor action : String)
    (details : List (Key × Raw)) (now : ℤ) : List AuditRow :=
  ((auditAppend sha256Hex rows actor action details now).toOption.map Prod.snd).getD rows

/-- The emergency log after an append, which writes nothing when it raises. -/
def logAfter (lib : LogLibrary) (content : ByteArray) (actor action : String) (details : List (Key × Raw)) (now : ℤ) :
    ByteArray := (append lib content actor action details now).toOption.getD content

/-- Two details differ only in what is stored under the names of secrets. -/
def SameButSecrets (left right : List (Key × Raw)) : Prop :=
  overwriteMembers .none true left = overwriteMembers .none true right

/-- Appending details stores the same as appending any others that differ only in secrets. -/
def SecretsHidden (lib : LogLibrary) (rows : List AuditRow) (content : ByteArray) (actor action : String) (now : ℤ)
    (details : List (Key × Raw)) : Prop :=
  ∀ others, (Raw.dict others).serializable = true → SameButSecrets details others →
    auditAfter lib.sha256Hex rows actor action details now = auditAfter lib.sha256Hex rows actor action others now ∧
      logAfter lib content actor action details now = logAfter lib content actor action others now

/-- Whether details are stored as they are redacted. -/
def storedAsIs (details : List (Key × Raw)) : Bool :=
  redactable (.dict details) && ((mask (.dict details)).dumpable true && (mask (.dict details)).encodable)

/-- Details whose secrets are all a given text. -/
def withSecret (secret : Str) (details : List (Key × Raw)) : List (Key × Raw) :=
  overwriteMembers (.str secret) true details

section Stored

variable {details others : List (Key × Raw)} {lib : LogLibrary} {rows : List AuditRow} {content : ByteArray}
  {actor action : String} {now : ℤ}

/-- The details are stored exactly when they can be redacted and dumped. -/
theorem auditDetails_decides (details : List (Key × Raw)) :
    Decides (auditDetails details) (storedAsIs details) fun _ => True := by
  unfold auditDetails storedAsIs
  apply (redact_decides (.dict details)).bind
  intro shown same
  subst same
  have dumped := (dump_decides true (mask (.dict details))).mapError dumpError
  apply dumped.bind
  intro document written
  have text := (encoded_decides document).mapError dumpError
  rw [written.1] at text
  exact text

/-- An entry that can be stored is, -/
theorem auditAfter_stored (stored : storedAsIs details = true) :
    ∃ row, auditAfter lib.sha256Hex rows actor action details now = rows ++ [row] := by
  obtain ⟨detailsJson, encoded, -⟩ := (auditDetails_decides details).returned stored
  obtain ⟨seq, row, -, appended⟩ := appendInConnection_ok lib.sha256Hex rows actor action detailsJson now
  refine ⟨row, ?_⟩
  unfold auditAfter auditAppend
  rw [encoded, appended]
  rfl

/-- and one that cannot leaves the table as it was. -/
theorem auditAfter_raised (raised : storedAsIs details = false) :
    auditAfter lib.sha256Hex rows actor action details now = rows := by
  obtain ⟨exc, encoded⟩ := (auditDetails_decides details).raised raised
  unfold auditAfter auditAppend
  rw [encoded]
  rfl

/-- The emergency log dumps the details as the audit log does before it writes them. -/
theorem entryLine_audited {found : List Document} {line : String}
    (written : entryLine lib found actor action details now = .ok line) : ∃ text, auditDetails details = .ok text := by
  unfold entryLine at written
  obtain ⟨tail, -, written⟩ := bind_ok.mp written
  obtain ⟨seq, -, written⟩ := bind_ok.mp written
  obtain ⟨safe, shown, written⟩ := bind_ok.mp written
  obtain ⟨document, dumped, written⟩ := bind_ok.mp written
  obtain ⟨detailsJson, encoded, -⟩ := bind_ok.mp written
  refine ⟨detailsJson, ?_⟩
  unfold auditDetails
  exact bind_ok.mpr ⟨safe, shown, bind_ok.mpr ⟨document, dumped, encoded⟩⟩

/-- So does the log of the emergency stop. -/
theorem logAfter_raised (raised : storedAsIs details = false) :
    logAfter lib content actor action details now = content := by
  unfold logAfter
  cases appended : append lib content actor action details now with
  | error _ => rfl
  | ok after =>
    unfold append at appended
    obtain ⟨found, -, appended⟩ := bind_ok.mp appended
    obtain ⟨line, written, -⟩ := bind_ok.mp appended
    obtain ⟨text, encoded⟩ := entryLine_audited written
    have stored := ((auditDetails_decides details).of_ok encoded).1
    rw [raised] at stored
    cases stored

/-! Details that differ only in secrets. -/

/-- Details whose secrets were struck out, struck out again. -/
theorem struck_again {mark : Raw} (other : Raw) (details : List (Key × Raw)) :
    overwriteMembers mark true (overwriteMembers other true details) = overwriteMembers mark true details :=
  Raw.dict.inj (strike_strike other (.dict details))

/-- The secrets that were there do not matter when they are overwritten. -/
theorem withSecret_congr (same : SameButSecrets details others) (secret : Str) :
    withSecret secret details = withSecret secret others := by
  unfold withSecret
  rw [← struck_again .none details, ← struck_again .none others]
  exact congrArg _ same

/-- A secret is found where it was put. -/
theorem withSecret_same (secret : Str) (details : List (Key × Raw)) :
    SameButSecrets details (withSecret secret details) :=
  (struck_again (.str secret) details).symm

/-- With the secret, the details can still be dumped. -/
theorem withSecret_serializable (secret : Str) (known : (Raw.dict details).serializable = true) :
    (Raw.dict (withSecret secret details)).serializable = true :=
  everywhere_overwrite rfl true (.dict details) known

/-- Details that are stored as they are can be stored with empty secrets. -/
theorem blank_stored (stored : storedAsIs details = true) : storedAsIs (withSecret (.text "") details) = true := by
  unfold storedAsIs at stored ⊢
  simp only [Bool.and_eq_true] at stored ⊢
  obtain ⟨readable, dumpable, encodable⟩ := stored
  refine ⟨?_, ?_, ?_⟩
  · exact (redactable_strike (.dict details)).trans readable
  · exact everywhere_mask rfl (.dict details) dumpable
  · exact everywhere_mask rfl (.dict details) encodable

/-- A secret with a lone surrogate shows where it leaks. -/
theorem broken_raised (leaking : leaks false (.dict details) = true) (codes : List ℕ) :
    storedAsIs (withSecret (.broken codes) details) = false := by
  unfold storedAsIs
  have shown : (mask (.dict (withSecret (.broken codes) details))).encodable = false :=
    mask_unfit rfl (.dict details) leaking
  rw [shown, Bool.and_false, Bool.and_false]

/-- Where nothing leaks, all details with the same rest are redacted alike. -/
theorem mask_congr (safe : leaks false (.dict details) = false) (same : SameButSecrets details others) :
    mask (.dict details) = mask (.dict others) ∧ redactable (.dict details) = redactable (.dict others) := by
  have struck : strike .none (.dict details) = strike .none (.dict others) := congrArg Raw.dict same
  have safeToo : leaks false (.dict others) = false := by
    calc leaks false (.dict others)
      _ = leaks false (strike .none (.dict others)) := (leaks_strike false _).symm
      _ = leaks false (strike .none (.dict details)) := by rw [struck]
      _ = leaks false (.dict details) := leaks_strike false _
      _ = false := safe
  constructor
  · calc mask (.dict details)
      _ = mask (strike .none (.dict details)) := (mask_strike _ safe).symm
      _ = mask (strike .none (.dict others)) := by rw [struck]
      _ = mask (.dict others) := mask_strike _ safeToo
  · calc redactable (.dict details)
      _ = redactable (strike .none (.dict details)) := (redactable_strike _).symm
      _ = redactable (strike .none (.dict others)) := by rw [struck]
      _ = redactable (.dict others) := redactable_strike _

/-- Details that are redacted alike are stored alike. -/
theorem stored_congr (shown : mask (.dict details) = mask (.dict others))
    (readable : redactable (.dict details) = redactable (.dict others)) :
    auditAfter lib.sha256Hex rows actor action details now = auditAfter lib.sha256Hex rows actor action others now ∧
      logAfter lib content actor action details now = logAfter lib content actor action others now := by
  cases stored : storedAsIs details with
  | false =>
    have raised : storedAsIs others = false := by
      unfold storedAsIs at stored ⊢
      rw [← shown, ← readable]
      exact stored
    rw [auditAfter_raised stored, auditAfter_raised raised, logAfter_raised stored, logAfter_raised raised]
    exact ⟨rfl, rfl⟩
  | true =>
    -- What is redacted alike is the same to everything behind the redaction.
    have same : redact (.dict details) = redact (.dict others) := by
      unfold storedAsIs at stored
      rw [Bool.and_eq_true] at stored
      obtain ⟨left, one, rfl⟩ := (redact_decides (.dict details)).returned stored.1
      obtain ⟨right, other, rfl⟩ := (redact_decides (.dict others)).returned (readable ▸ stored.1)
      rw [one, other, shown]
    constructor
    · unfold auditAfter auditAppend auditDetails
      rw [same]
    · unfold logAfter append entryLine
      rw [same]

end Stored

/-- Whatever is logged already: appending details stores the same for all secrets exactly when no secret is inside a
tuple, or when the details cannot be stored with empty secrets either. -/
theorem secrets_hidden_iff (lib : LogLibrary) (rows : List AuditRow) (content : ByteArray) (actor action : String)
    (now : ℤ) {details : List (Key × Raw)} (serializable : (Raw.dict details).serializable = true) :
    SecretsHidden lib rows content actor action now details ↔
      leaks false (.dict details) = false ∨ storedAsIs (withSecret (.text "") details) = false := by
  constructor
  · intro hidden
    by_contra open_
    simp only [not_or, Bool.not_eq_false] at open_
    obtain ⟨leaking, storable⟩ := open_
    -- Empty secrets are stored, and secrets with a lone surrogate are not.
    have blank := (hidden _ (withSecret_serializable (.text "") serializable) (withSecret_same _ details)).1
    have broken := (hidden _ (withSecret_serializable (.broken [0xD800]) serializable) (withSecret_same _ details)).1
    obtain ⟨row, appended⟩ : ∃ row, auditAfter lib.sha256Hex rows actor action (withSecret (.text "") details) now =
      rows ++ [row] := auditAfter_stored storable
    rw [auditAfter_raised (broken_raised leaking _)] at broken
    rw [broken, appended] at blank
    have lengths := congrArg List.length blank
    simp at lengths
  · intro safe others _ same
    rcases safe with closed | stuck
    · obtain ⟨shown, readable⟩ := mask_congr closed same
      exact stored_congr shown readable
    · -- What is stored as it is could be stored with empty secrets.
      have raised {given : List (Key × Raw)} (blank : withSecret (.text "") given = withSecret (.text "") details) :
          storedAsIs given = false := by
        by_contra stored
        rw [Bool.not_eq_false] at stored
        have both := blank_stored stored
        rw [blank, stuck] at both
        cases both
      have one := raised rfl
      have other := raised (withSecret_congr same (.text "")).symm
      rw [auditAfter_raised one, auditAfter_raised other, logAfter_raised one, logAfter_raised other]
      exact ⟨rfl, rfl⟩

/-- The details of an account in a list. -/
def listedAccount (secret : String) : List (Key × Raw) :=
  [(.str (.text "accounts"), .list [.dict [(.str (.text "api_key"), .str (.text secret))]])]

/-- The details of an account in a tuple. -/
def tupledAccount (secret : String) : List (Key × Raw) :=
  [(.str (.text "accounts"), .tuple [.dict [(.str (.text "api_key"), .str (.text secret))]])]

/-- A library that does not look at its arguments. -/
def bareLibrary : LogLibrary := ⟨plainText, fun _ => none, fun _ => ""⟩

/-- In a list the secret has no influence. -/
theorem listed_secret_hidden : SecretsHidden bareLibrary [] .empty "" "" 0 (listedAccount "a") :=
  (secrets_hidden_iff bareLibrary [] .empty "" "" 0 (by decide)).mpr (.inl (by decide +kernel))

/-- In a tuple it is stored as it is. -/
theorem tupled_secret_stored :
    (Raw.dict (tupledAccount "a")).serializable = true ∧ (Raw.dict (tupledAccount "b")).serializable = true ∧
      SameButSecrets (tupledAccount "a") (tupledAccount "b") ∧
        (auditAfter bareLibrary.sha256Hex [] "" "" (tupledAccount "a") 0).map AuditRow.details =
            ["\x7b\"accounts\": [\x7b\"api_key\": \"a\"\x7d]\x7d"] ∧
          (auditAfter bareLibrary.sha256Hex [] "" "" (tupledAccount "b") 0).map AuditRow.details =
            ["\x7b\"accounts\": [\x7b\"api_key\": \"b\"\x7d]\x7d"] := by
  refine ⟨by decide, by decide, ?_, ?_, ?_⟩
  · rfl
  · decide +kernel
  · decide +kernel

end Rasat
