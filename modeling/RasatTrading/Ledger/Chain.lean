import Mathlib.Data.List.Nodup

/-! Numbered records in a chain of hashes, each sealing the hash before it. -/

namespace HashChain

variable {ε η : Type*}

/-- One numbered record, sealed together with the hash of the record before it. -/
structure Link (ε η : Type*) where
  seq : Nat
  entry : ε
  prev : η
  hash : η

/-- The chain goes on from the given number and hash without a gap, each hash a true seal. -/
def Continues (sealed : η → Nat → ε → η) : Nat → η → List (Link ε η) → Prop
  | _, _, [] => True
  | seq, prev, link :: rest =>
    link.seq = seq + 1 ∧ link.prev = prev ∧ link.hash = sealed prev link.seq link.entry ∧
      Continues sealed link.seq link.hash rest

/-- The number that a chain ends with, continuing from the given one. -/
def endSeq (seq : Nat) (chain : List (Link ε η)) : Nat := (chain.getLast?.map (·.seq)).getD seq

/-- The hash that a chain ends with, continuing from the given one. -/
def endHash (prev : η) (chain : List (Link ε η)) : η := (chain.getLast?.map (·.hash)).getD prev

/-- The end of a nonempty chain does not depend on where the chain started. -/
theorem endSeq_cons (seq : Nat) (link : Link ε η) (rest : List (Link ε η)) :
    endSeq seq (link :: rest) = endSeq link.seq rest := by
  cases rest with
  | nil => rfl
  | cons next rest => simp [endSeq, List.getLast?_cons]

/-- The last hash of a nonempty chain does not depend on where the chain started. -/
theorem endHash_cons (prev : η) (link : Link ε η) (rest : List (Link ε η)) :
    endHash prev (link :: rest) = endHash link.hash rest := by
  cases rest with
  | nil => rfl
  | cons next rest => simp [endHash, List.getLast?_cons]

variable {sealed : η → Nat → ε → η} {chain : List (Link ε η)} {seq : Nat} {prev : η} {change : Link ε η → Option ε}

/-- A chain splits anywhere: the second part goes on from the end of the first. -/
theorem continues_append {first second : List (Link ε η)} :
    ∀ {seq : Nat} {prev : η},
      Continues sealed seq prev (first ++ second) ↔
        Continues sealed seq prev first ∧
          Continues sealed (endSeq seq first) (endHash prev first) second := by
  -- The induction walks down the first part, so the starting point stays quantified.
  induction first with
  | nil =>
    intro seq prev
    simp [Continues, endSeq, endHash]
  | cons link rest ih =>
    intro seq prev
    rw [List.cons_append, endSeq_cons, endHash_cons]
    simp only [Continues, ih, and_assoc]

/-- A chain is numbered consecutively. -/
theorem continues_seqs :
    ∀ {seq : Nat} {prev : η}, Continues sealed seq prev chain →
      chain.map (·.seq) = List.range' (seq + 1) chain.length := by
  induction chain with
  | nil =>
    intro seq prev _
    rfl
  | cons link rest ih =>
    intro seq prev chained
    obtain ⟨numbered, _, _, goesOn⟩ := chained
    have following := ih goesOn
    rw [List.map_cons, List.length_cons, List.range'_succ, following, numbered]

/-- Every record but the first names the hash of the record before it. -/
theorem continues_prev (chained : Continues sealed seq prev chain) {before after : List (Link ε η)}
    {first second : Link ε η} (shape : chain = before ++ first :: second :: after) :
    second.prev = first.hash := by
  subst shape
  -- Cutting just before the pair leaves it at the head of a chain.
  exact (continues_append.mp chained).2.2.2.2.2.1

/-- The first record names the hash that the chain starts from. -/
theorem continues_head (chained : Continues sealed seq prev chain) {first : Link ε η}
    (opens : chain.head? = some first) : first.prev = prev := by
  cases chain with
  | nil => cases opens
  | cons link rest =>
    cases opens
    exact chained.2.1

variable {link : Link ε η}

/-- The hash of every record seals its entry after the hash that it names. -/
theorem continues_sealed (chained : Continues sealed seq prev chain)
    (member : link ∈ chain) : link.hash = sealed link.prev link.seq link.entry := by
  -- Cutting just before the record leaves it at the head of a chain.
  obtain ⟨before, after, shape⟩ := List.append_of_mem member
  rw [shape] at chained
  obtain ⟨-, -, named, hashed, -⟩ := continues_append.mp chained
  rw [named]
  exact hashed

/-- The record that seals an entry onto the end of a chain. -/
def nextLink (sealed : η → Nat → ε → η) (seq : Nat) (prev : η) (chain : List (Link ε η))
    (entry : ε) : Link ε η where
  seq := endSeq seq chain + 1
  entry := entry
  prev := endHash prev chain
  hash := sealed (endHash prev chain) (endSeq seq chain + 1) entry

/-- Sealing an entry onto a chain gives a chain. -/
theorem continues_next (entry : ε) (chained : Continues sealed seq prev chain) :
    Continues sealed seq prev (chain ++ [nextLink sealed seq prev chain entry]) :=
  continues_append.mpr ⟨chained, rfl, rfl, rfl, trivial⟩

/-- The records that a change keeps, with new entries under their old numbers and hashes. -/
def rewritten (change : Link ε η → Option ε) (chain : List (Link ε η)) : List (Link ε η) :=
  chain.filterMap fun link => (change link).map fun entry => { link with entry := entry }

/-- A rewritten chain keeps only records of the old one. -/
theorem mem_rewritten : link ∈ rewritten change chain ↔
      ∃ old ∈ chain, change old = some link.entry ∧ link = { old with entry := link.entry } := by
  unfold rewritten
  rw [List.mem_filterMap]
  constructor
  · rintro ⟨old, member, kept⟩
    obtain ⟨entry, changed, same⟩ := Option.map_eq_some_iff.mp kept
    subst same
    exact ⟨old, member, changed, rfl⟩
  · rintro ⟨old, member, changed, same⟩
    exact ⟨old, member, by rw [changed, Option.map_some, ← same]⟩

/-- A record of a chain has a number above the one that the chain starts from. -/
theorem continues_above (chained : Continues sealed seq prev chain) (member : link ∈ chain) :
    seq < link.seq := by
  -- The numbers are the range just above the start.
  have listed : link.seq ∈ chain.map (·.seq) := List.mem_map_of_mem member
  rw [continues_seqs chained, List.mem_range'_1] at listed
  omega

/-- Behind a gap in the numbers nothing can be kept, since what is kept starts with the next number. -/
theorem rewritten_gap (gap : ∀ link ∈ chain, seq + 1 < link.seq)
    (continues : Continues sealed seq prev (rewritten change chain)) :
    ∀ link ∈ chain, change link = none := by
  intro other member
  by_contra kept
  obtain ⟨entry, changed⟩ := Option.ne_none_iff_exists'.mp kept
  have inside : { other with entry := entry } ∈ rewritten change chain :=
    mem_rewritten.mpr ⟨other, member, changed, rfl⟩
  cases shape : rewritten change chain with
  | nil => simp [shape] at inside
  | cons first others =>
    rw [shape] at continues
    have opens : first ∈ rewritten change chain := by simp [shape]
    obtain ⟨old, oldMember, _, same⟩ := mem_rewritten.mp opens
    have above := gap old oldMember
    have firstSeq : first.seq = old.seq := by rw [same]
    have starts := continues.1
    omega

/-- Dropping the first record goes unnoticed exactly when all others are dropped, too. -/
theorem continues_dropped {rest : List (Link ε η)} (gap : ∀ link ∈ rest, seq + 1 < link.seq) :
    Continues sealed seq prev (rewritten change rest) ↔ ∀ link ∈ rest, change link = none := by
  constructor
  · exact rewritten_gap gap
  · intro dropped
    have empty : rewritten change rest = [] := List.filterMap_eq_nil_iff.mpr fun other member => by
      simp [dropped other member]
    rw [empty]
    trivial

/--
A change goes unnoticed exactly when it drops only the newest records and keeps every seal.

A dropped record leaves a gap in the numbers unless nothing newer is kept.
-/
theorem continues_rewritten
    :
    ∀ {seq : Nat} {prev : η}, Continues sealed seq prev chain →
      (Continues sealed seq prev (rewritten change chain) ↔
        (∀ older ∈ chain, ∀ newer ∈ chain, older.seq < newer.seq →
          change older = none → change newer = none) ∧
        ∀ link ∈ chain, ∀ entry, change link = some entry →
          sealed link.prev link.seq entry = link.hash) := by
  -- The induction walks along the old chain; a dropped head forces the rest to be dropped.
  induction chain with
  | nil =>
    intro seq prev _
    simp [rewritten, Continues]
  | cons link rest ih =>
    intro seq prev chained
    obtain ⟨numbered, named, hashed, goesOn⟩ := chained
    have newer : ∀ other ∈ rest, link.seq < other.seq := fun other member =>
      continues_above goesOn member
    cases changed : change link with
    | none =>
      have shape : rewritten change (link :: rest) = rewritten change rest := by
        simp [rewritten, changed]
      have gap : ∀ other ∈ rest, seq + 1 < other.seq := fun other member => numbered ▸ newer other member
      rw [shape, continues_dropped gap]
      constructor
      · intro dropped
        refine ⟨?_, ?_⟩
        · intro older _ later laterMember below _
          rcases List.mem_cons.mp laterMember with rfl | laterMember
          · exact changed
          · exact dropped later laterMember
        · intro kept keptMember entry changedKept
          rcases List.mem_cons.mp keptMember with rfl | keptMember
          · simp [changed] at changedKept
          · simp [dropped kept keptMember] at changedKept
      · rintro ⟨suffix, _⟩ other member
        exact suffix link (by simp) other (by simp [member]) (newer other member) changed
    | some entry =>
      have shape : rewritten change (link :: rest) =
          { link with entry := entry } :: rewritten change rest := by
        simp [rewritten, changed]
      rw [shape]
      have following := ih goesOn
      rw [numbered] at following
      simp only [Continues, numbered, named, true_and]
      rw [following]
      constructor
      · rintro ⟨resealed, suffix, seals⟩
        refine ⟨?_, ?_⟩
        · intro older olderMember later laterMember below gone
          rcases List.mem_cons.mp olderMember with rfl | olderInRest
          · simp [changed] at gone
          rcases List.mem_cons.mp laterMember with rfl | laterInRest
          · have above := newer older olderInRest
            omega
          · exact suffix older olderInRest later laterInRest below gone
        · intro kept keptMember other changedKept
          rcases List.mem_cons.mp keptMember with rfl | keptMember
          · rw [changed] at changedKept
            cases changedKept
            rw [named, numbered]
            exact resealed.symm
          · exact seals kept keptMember other changedKept
      · rintro ⟨suffix, seals⟩
        refine ⟨?_, ?_, ?_⟩
        · have resealed := seals link (by simp) entry changed
          rw [named, numbered] at resealed
          exact resealed.symm
        · intro older olderMember later laterMember below gone
          exact suffix older (by simp [olderMember]) later (by simp [laterMember]) below gone
        · intro kept keptMember other changedKept
          exact seals kept (by simp [keptMember]) other changedKept

end HashChain
