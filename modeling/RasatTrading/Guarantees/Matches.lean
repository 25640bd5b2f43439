import RasatTrading.Analysis.Filters

/-! The matches that a filter reports: its true leaves under true nodes only. -/

namespace Rasat

variable {ctx : Context}

mutual

/-- The leaves of a node from left to right, each with the nodes above it, the outermost one first. -/
def FilterNode.leaves (above : List FilterNode) : FilterNode → List (List FilterNode × FilterTest)
  | .leaf test => [(above, test)]
  | .and first rest =>
    -- An inner node is the last ancestor of its children.
    first.leaves (above ++ [.and first rest]) ++ FilterNode.allLeaves (above ++ [.and first rest]) rest
  | .or first rest =>
    first.leaves (above ++ [.or first rest]) ++ FilterNode.allLeaves (above ++ [.or first rest]) rest

def FilterNode.allLeaves (above : List FilterNode) :
    List FilterNode → List (List FilterNode × FilterTest)
  | [] => []
  | node :: rest => node.leaves above ++ FilterNode.allLeaves above rest

end

mutual

/-- The leaves with their ancestors are the leaves. -/
theorem tests_leaves (above : List FilterNode) :
    (node : FilterNode) → (node.leaves above).map Prod.snd = node.tests
  | .leaf test => by simp [FilterNode.leaves, FilterNode.tests]
  | .and first rest => by
    simp [FilterNode.leaves, FilterNode.tests, tests_leaves _ first, tests_allLeaves _ rest]
  | .or first rest => by
    simp [FilterNode.leaves, FilterNode.tests, tests_leaves _ first, tests_allLeaves _ rest]

theorem tests_allLeaves (above : List FilterNode) :
    (nodes : List FilterNode) →
      (FilterNode.allLeaves above nodes).map Prod.snd = FilterNode.allTests nodes
  | [] => by simp [FilterNode.allLeaves, FilterNode.allTests]
  | node :: rest => by
    simp [FilterNode.allLeaves, FilterNode.allTests, tests_leaves above node, tests_allLeaves above rest]

end

variable {outer : FilterNode}

mutual

/-- Every node above a node is above its leaves. -/
theorem above_leaves {above : List FilterNode} (listed : outer ∈ above) {leaf : List FilterNode × FilterTest} :
    (node : FilterNode) → leaf ∈ node.leaves above → outer ∈ leaf.1
  | .leaf test, member => by
    simp only [FilterNode.leaves, List.mem_singleton] at member
    exact member ▸ listed
  | .and first rest, member => by
    have deeper := List.mem_append_left [FilterNode.and first rest] listed
    simp only [FilterNode.leaves, List.mem_append] at member
    rcases member with inside | inside
    · exact above_leaves deeper first inside
    · exact above_allLeaves deeper rest inside
  | .or first rest, member => by
    have deeper := List.mem_append_left [FilterNode.or first rest] listed
    simp only [FilterNode.leaves, List.mem_append] at member
    rcases member with inside | inside
    · exact above_leaves deeper first inside
    · exact above_allLeaves deeper rest inside

theorem above_allLeaves {above : List FilterNode} (listed : outer ∈ above)
    {leaf : List FilterNode × FilterTest} :
    (nodes : List FilterNode) → leaf ∈ FilterNode.allLeaves above nodes → outer ∈ leaf.1
  | [], member => by simp [FilterNode.allLeaves] at member
  | node :: rest, member => by
    simp only [FilterNode.allLeaves, List.mem_append] at member
    rcases member with inside | inside
    · exact above_leaves listed node inside
    · exact above_allLeaves listed rest inside

end

/-- Whether a node is true in a context; an evaluation that raises has no truth value. -/
def FilterNode.holds (ctx : Context) (node : FilterNode) : Bool :=
  match evalNode ctx node with
  | .ok value => value
  | .error _ => false

theorem holds_ok {node : FilterNode} {value : Bool} (evaluated : evalNode ctx node = .ok value) :
    node.holds ctx = value := by
  simp [FilterNode.holds, evaluated]

/-- Whether a leaf and all nodes above it are true in a context. -/
def matching (ctx : Context) (leaf : List FilterNode × FilterTest) : Bool :=
  leaf.1.all (FilterNode.holds ctx) && (FilterNode.leaf leaf.2).holds ctx

/-- The true leaves under true nodes, from left to right. -/
def FilterNode.allMatched (ctx : Context) (above nodes : List FilterNode) : List FilterTest :=
  ((FilterNode.allLeaves above nodes).filter (matching ctx)).map Prod.snd

/-- The true leaves of one node under true nodes, from left to right. -/
def FilterNode.matched (ctx : Context) (above : List FilterNode) (node : FilterNode) : List FilterTest :=
  ((node.leaves above).filter (matching ctx)).map Prod.snd

theorem allMatched_cons (above : List FilterNode) (node : FilterNode) (rest : List FilterNode) :
    FilterNode.allMatched ctx above (node :: rest) =
      node.matched ctx above ++ FilterNode.allMatched ctx above rest := by
  simp [FilterNode.allMatched, FilterNode.matched, FilterNode.allLeaves]

/-- Under a node that is not true no leaf matches. -/
theorem allMatched_nil {above : List FilterNode} (listed : outer ∈ above)
    (fails : outer.holds ctx = false) (nodes : List FilterNode) :
    FilterNode.allMatched ctx above nodes = [] := by
  -- The failing node is above each leaf, whatever that leaf is.
  unfold FilterNode.allMatched
  rw [List.map_eq_nil_iff, List.filter_eq_nil_iff]
  intro leaf member matched
  simp only [matching, Bool.and_eq_true, List.all_eq_true] at matched
  have succeeds := matched.1 outer (above_allLeaves listed nodes member)
  simp [fails] at succeeds

variable {rest : List FilterNode}

/-- An inner node matches what its children match below it. -/
theorem matched_inner {above : List FilterNode} {node first : FilterNode}
    (inner : node = .and first rest ∨ node = .or first rest) :
    node.matched ctx above = FilterNode.allMatched ctx (above ++ [node]) (first :: rest) := by
  rcases inner with rfl | rfl <;>
    simp [FilterNode.matched, FilterNode.allMatched, FilterNode.leaves, FilterNode.allLeaves]

/-- What the collecting evaluation of a node says: the truth value of the node, and as its matches, of which only a
true node has some, the true leaves under true nodes. -/
structure Collected (ctx : Context) (node : FilterNode) (value : Bool) (found : List FilterTest) : Prop where
  evaluated : evalNode ctx node = .ok value
  filled : found ≠ [] ↔ value = true
  exact : ∀ above, above.all (FilterNode.holds ctx) = true → node.matched ctx above = found

/-- The same of the children that an inner node evaluates, whose matches it collects. -/
def AllCollected (ctx : Context) (nodes : List FilterNode) (found : List FilterTest) : Prop :=
  ∀ above, above.all (FilterNode.holds ctx) = true → FilterNode.allMatched ctx above nodes = found

/-- The matches of the first of some nodes stand before those of the others. -/
theorem AllCollected.cons {node : FilterNode} {value : Bool} {found later : List FilterTest}
    (first : Collected ctx node value found) (others : AllCollected ctx rest later) :
    AllCollected ctx (node :: rest) (found ++ later) := by
  intro above upheld
  rw [allMatched_cons, first.exact above upheld, others above upheld]

/-- An inner node is faithful when its children are: only a true node hands on what they match. -/
theorem Collected.inner {node first : FilterNode} {value : Bool}
    {found : List FilterTest} (inner : node = .and first rest ∨ node = .or first rest)
    (evaluated : evalNode ctx node = .ok value) (filled : found ≠ [] ↔ value = true)
    (children : value = true → AllCollected ctx (first :: rest) found) : Collected ctx node value found where
  evaluated := evaluated
  filled := filled
  exact above upheld := by
    rw [matched_inner inner]
    have own := holds_ok evaluated
    cases value with
    | true =>
      -- A true node is one more true node above its children.
      refine children rfl _ ?_
      simp only [List.all_append, upheld, List.all_cons, own, List.all_nil, Bool.and_self]
    | false =>
      rw [allMatched_nil (List.mem_append_right above List.mem_cons_self) own]
      by_contra present
      exact absurd (filled.mp (Ne.symm present)) (by decide)

mutual

/-- The collecting evaluation is faithful. -/
theorem evalWithMatches_collected :
    (node : FilterNode) → {value : Bool} → {found : List FilterTest} →
      evalWithMatches ctx node = .ok (value, found) → Collected ctx node value found
  | .leaf test, value, found, collected => by
    simp only [evalWithMatches, bind_ok] at collected
    obtain ⟨truth, evaluated, given⟩ := collected
    have node : evalNode ctx (.leaf test) = .ok truth := by rw [evalNode, evaluated]
    have own := holds_ok node
    -- A leaf matches by itself, if the nodes above it are true.
    have exact (above : List FilterNode) (upheld : above.all (FilterNode.holds ctx) = true) :
        (FilterNode.leaf test).matched ctx above = if truth then [test] else [] := by
      cases truth <;> simp [FilterNode.matched, FilterNode.leaves, matching, upheld, own]
    cases truth with
    | true =>
      cases given
      exact ⟨node, by simp, exact⟩
    | false =>
      cases given
      exact ⟨node, by simp, exact⟩
  | .and first rest, value, found, collected => by
    simp only [evalWithMatches, bind_ok] at collected
    obtain ⟨⟨truth, own⟩, evaluated, given⟩ := collected
    have head := evalWithMatches_collected first evaluated
    cases truth with
    | false =>
      -- The first child decides.
      cases given
      exact .inner (.inl rfl) (by rw [evalNode, head.evaluated]; rfl) (by simp) (by simp)
    | true =>
      obtain ⟨later, evaluatedRest, kept, dropped⟩ := matchAll_collected rest given
      have node : evalNode ctx (.and first rest) = .ok value := by
        rw [evalNode, head.evaluated]
        exact evaluatedRest
      refine .inner (.inl rfl) node ?_ ?_
      · cases value with
        | true =>
          rw [(kept rfl).1]
          have present := head.filled.mpr rfl
          simp [present]
        | false => simp [dropped rfl]
      · rintro rfl
        rw [(kept rfl).1]
        exact .cons head (kept rfl).2
  | .or first rest, value, found, collected => by
    simp only [evalWithMatches, bind_ok] at collected
    obtain ⟨⟨truth, own⟩, evaluated, matched, gathered, given⟩ := collected
    have head := evalWithMatches_collected first evaluated
    obtain ⟨truthRest, later, evaluatedRest, rfl, filledRest, others⟩ := matchAny_collected rest gathered
    -- The matches of a child that fails are none, so that it makes no difference to add them.
    have added : (if truth then own else []) = own := by
      cases truth with
      | true => rfl
      | false =>
        by_contra present
        exact absurd (head.filled.mp (Ne.symm present)) (by decide)
    dsimp only at given
    rw [added] at given
    cases given
    have either : (!(own ++ later).isEmpty) = (truth || truthRest) := by
      rw [Bool.eq_iff_iff, Bool.or_eq_true, ← head.filled, ← filledRest]
      simp only [Bool.not_eq_true', List.isEmpty_eq_false_iff, ne_eq, List.append_eq_nil_iff]
      tauto
    refine .inner (.inr rfl) ?_ (by simp) fun _ => .cons head others
    rw [evalNode, head.evaluated, either]
    cases truth with
    | true => rfl
    | false => exact evaluatedRest

/-- The loop over the children of an `and` node adds the matches of true children, until one of them fails. -/
theorem matchAll_collected :
    (nodes : List FilterNode) → {before : List FilterTest} → {value : Bool} → {found : List FilterTest} →
      matchAll ctx before nodes = .ok (value, found) →
      ∃ later, evalAll ctx nodes = .ok value ∧
        (value = true → found = before ++ later ∧ AllCollected ctx nodes later) ∧
        (value = false → found = [])
  | [], before, value, found, collected => by
    simp only [matchAll, Except.ok.injEq, Prod.mk.injEq] at collected
    obtain ⟨rfl, rfl⟩ := collected
    exact ⟨[], rfl, fun _ => ⟨by simp, fun _ _ => rfl⟩, by simp⟩
  | node :: rest, before, value, found, collected => by
    simp only [matchAll, bind_ok] at collected
    obtain ⟨⟨truth, own⟩, evaluated, given⟩ := collected
    have head := evalWithMatches_collected node evaluated
    cases truth with
    | false =>
      cases given
      exact ⟨[], by rw [evalAll, head.evaluated]; rfl, by simp, by simp⟩
    | true =>
      obtain ⟨later, evaluatedRest, kept, dropped⟩ := matchAll_collected rest given
      refine ⟨own ++ later, ?_, ?_, dropped⟩
      · rw [evalAll, head.evaluated]
        exact evaluatedRest
      · rintro rfl
        obtain ⟨same, others⟩ := kept rfl
        exact ⟨by simp [same], .cons head others⟩

/-- The loop over the children of an `or` node adds the matches of all true children. -/
theorem matchAny_collected :
    (nodes : List FilterNode) → {before found : List FilterTest} →
      matchAny ctx before nodes = .ok found →
      ∃ value later, evalAny ctx nodes = .ok value ∧ found = before ++ later ∧
        (later ≠ [] ↔ value = true) ∧ AllCollected ctx nodes later
  | [], before, found, collected => by
    simp only [matchAny, Except.ok.injEq] at collected
    exact ⟨false, [], rfl, by simp [collected], by simp, fun _ _ => rfl⟩
  | node :: rest, before, found, collected => by
    simp only [matchAny, bind_ok] at collected
    obtain ⟨⟨truth, own⟩, evaluated, given⟩ := collected
    have head := evalWithMatches_collected node evaluated
    obtain ⟨truthRest, later, evaluatedRest, rfl, filledRest, others⟩ := matchAny_collected rest given
    refine ⟨truth || truthRest, own ++ later, ?_, ?_, ?_, .cons head others⟩
    · rw [evalAny, head.evaluated]
      cases truth with
      | true => rfl
      | false => exact evaluatedRest
    · cases truth with
      | true => simp
      | false =>
        have lacking : own = [] := by
          by_contra present
          exact absurd (head.filled.mp present) (by decide)
        simp [lacking]
    · rw [Bool.or_eq_true, ← head.filled, ← filledRest]
      simp only [ne_eq, List.append_eq_nil_iff]
      tauto

end

/-- Wherever the collecting evaluation does not raise, it gives the truth value of the filter; its matches are leaves
of the filter that are true, there are some exactly when the filter is true, and they are, from left to right, all the
leaves that are true under true nodes only. -/
theorem matches_faithful {node : FilterNode} {value : Bool} {found : List FilterTest}
    (collected : evalWithMatches ctx node = .ok (value, found)) :
    evalNode ctx node = .ok value ∧
      (∀ test ∈ found, test ∈ node.tests ∧ test.eval ctx = .ok true) ∧
      (found ≠ [] ↔ value = true) ∧
      found = ((node.leaves []).filter (matching ctx)).map Prod.snd := by
  obtain ⟨evaluated, filled, exact⟩ := evalWithMatches_collected node collected
  have same : found = ((node.leaves []).filter (matching ctx)).map Prod.snd := (exact [] rfl).symm
  refine ⟨evaluated, ?_, filled, same⟩
  intro test member
  rw [same] at member
  obtain ⟨leaf, inside, rfl⟩ := List.mem_map.mp member
  obtain ⟨listed, matched⟩ := List.mem_filter.mp inside
  constructor
  · rw [← tests_leaves []]
    exact List.mem_map_of_mem listed
  · -- A leaf that is true does not raise.
    have holds := (Bool.and_eq_true _ _ ▸ matched).2
    unfold FilterNode.holds at holds
    split at holds
    · rename_i truth same
      rw [evalNode] at same
      rw [same, holds]
    · cases holds

/-- A price that has risen, and a price that has not fallen or that is above its average. -/
def risingFilter : FilterNode :=
  .and (.leaf (.priceChange oneBar { min := some (.finite 5) }))
    [.or (.leaf (.priceChange 2 { min := some (.finite 0) })) [.leaf (.aboveBelowVwap .above)]]

/-- Two candles, of which the second one is higher, and an average below it. -/
def risingContext : Context where
  candles := [⟨0, 100, 100, 100, 100, 1, 100, 1⟩, ⟨60000, 100, 110, 100, 110, 1, 110, 1⟩]
  close := some 110
  asOf := 60000
  vwap := some 105

theorem rising_collected : evalWithMatches risingContext risingFilter =
    .ok (true, [.priceChange 1 { min := some (.finite 5) }, .aboveBelowVwap .above]) := by
  -- The price has risen by ten percent; for a change over two bars the series is too short.
  have risen : (FilterTest.priceChange oneBar { min := some (.finite 5) }).eval risingContext = .ok true :=
    congrArg Except.ok (by decide +kernel)
  have short : (FilterTest.priceChange 2 { min := some (.finite 0) }).eval risingContext = .ok false :=
    congrArg Except.ok (by decide +kernel)
  have above : (FilterTest.aboveBelowVwap .above).eval risingContext = .ok true :=
    show evalAboveBelowVwap .above risingContext = .ok true by decide +kernel
  simp only [risingFilter, evalWithMatches, matchAll, matchAny, risen, short, above]
  rfl

/-- The matches of this filter are its true leaves under true nodes. -/
theorem rising_matched :
    evalNode risingContext risingFilter = .ok true ∧
      (∀ test ∈ [.priceChange 1 { min := some (.finite 5) }, .aboveBelowVwap .above],
        test ∈ risingFilter.tests ∧ test.eval risingContext = .ok true) ∧
      ([.priceChange 1 { min := some (.finite 5) }, .aboveBelowVwap .above] ≠ ([] : List FilterTest) ↔
        true = true) ∧
      [.priceChange 1 { min := some (.finite 5) }, .aboveBelowVwap .above] =
        ((risingFilter.leaves []).filter (matching risingContext)).map Prod.snd :=
  matches_faithful rising_collected

end Rasat
