import Mathlib.Data.List.Induction
import Mathlib.Order.Lattice

/-! Items taken one after the other: kept when they are near to none kept before, or put into the first cluster that
they are near to. -/

namespace Greedy

variable {α : Type*} (near : α → α → Bool)

/-- One more item: kept, unless it is near to one that is kept. -/
def keepOne (kept : List α) (item : α) : List α := if kept.any (near item) then kept else kept ++ [item]

/-- The items that are kept. -/
def keep (items : List α) : List α := items.foldl (keepOne near) []

variable {near}

theorem keep_append_singleton (items : List α) (item : α) :
    keep near (items ++ [item]) = keepOne near (keep near items) item := by
  unfold keep
  rw [List.foldl_append]
  rfl

theorem keepOne_cases (kept : List α) (item : α) :
    (∃ other ∈ kept, near item other = true) ∧ keepOne near kept item = kept ∨
      (∀ other ∈ kept, near item other = false) ∧ keepOne near kept item = kept ++ [item] := by
  unfold keepOne
  cases found : kept.any (near item) with
  | true =>
    rw [List.any_eq_true] at found
    exact .inl ⟨found, rfl⟩
  | false =>
    rw [List.any_eq_false] at found
    exact .inr ⟨fun other listed => by simpa using found other listed, rfl⟩

/-- Nothing is added, and the order is kept. -/
theorem keep_sublist (items : List α) : (keep near items).Sublist items := by
  -- The items are taken from the front, so the induction adds the last one.
  induction items using List.reverseRecOn with
  | nil => exact .slnil
  | append_singleton items item ih =>
    rw [keep_append_singleton]
    rcases keepOne_cases (keep near items) item with ⟨-, same⟩ | ⟨-, added⟩
    · rw [same]
      exact ih.trans (List.sublist_append_left _ _)
    · rw [added]
      exact ih.append (List.Sublist.refl _)

/-- No kept item is near to one that was kept before it. -/
theorem keep_pairwise (items : List α) : (keep near items).Pairwise fun one other => near other one = false := by
  induction items using List.reverseRecOn with
  | nil => exact .nil
  | append_singleton items item ih =>
    rw [keep_append_singleton]
    rcases keepOne_cases (keep near items) item with ⟨-, same⟩ | ⟨free, added⟩
    · rw [same]
      exact ih
    · rw [added, List.pairwise_append]
      refine ⟨ih, List.pairwise_singleton _ _, ?_⟩
      -- The new item is near to none of those that are kept.
      intro one listed other new
      rw [List.mem_singleton] at new
      rw [new]
      exact free one listed

/-- What is kept of a front is kept of the whole. -/
theorem keep_front (front back : List α) : keep near front <+: keep near (front ++ back) := by
  induction back using List.reverseRecOn with
  | nil => exact ⟨[], by rw [List.append_nil, List.append_nil]⟩
  | append_singleton back item ih =>
    rw [← List.append_assoc, keep_append_singleton]
    rcases keepOne_cases (keep near (front ++ back)) item with ⟨-, same⟩ | ⟨-, added⟩
    · rw [same]
      exact ih
    · rw [added]
      exact ih.trans (List.prefix_append _ _)

/-- An item is kept, or near to one that is kept of the items before it. -/
theorem keep_covers (front : List α) (item : α) (back : List α) :
    item ∈ keep near (front ++ item :: back) ∨ ∃ kept ∈ keep near front, near item kept = true := by
  -- What is decided when the item is taken stays so.
  have shape : front ++ item :: back = (front ++ [item]) ++ back := by simp
  rcases keepOne_cases (keep near front) item with ⟨found, -⟩ | ⟨-, added⟩
  · exact .inr found
  · left
    rw [shape]
    apply (keep_front (front ++ [item]) back).subset
    rw [keep_append_singleton, added]
    exact List.mem_append_right _ (List.mem_singleton_self _)

/-! Clusters. -/

section Place

variable (fits : α → List α → Bool)

/-- Put an item into the first cluster that it fits into. -/
def place (item : α) : List (List α) → List (List α)
  | [] => [[item]]
  | cluster :: rest => if fits item cluster then (cluster ++ [item]) :: rest else cluster :: place item rest

/-- The clusters of some items. -/
def clusters (items : List α) : List (List α) := items.foldl (fun found item => place fits item found) []

variable {fits}

/-- An item extends the first cluster that it fits into, or it is a cluster of its own. -/
theorem place_cases (item : α) (found : List (List α)) :
    (∃ front cluster back, found = front ++ cluster :: back ∧ fits item cluster = true ∧
        (∀ other ∈ front, fits item other = false) ∧
        place fits item found = front ++ (cluster ++ [item]) :: back) ∨
      (∀ other ∈ found, fits item other = false) ∧ place fits item found = found ++ [[item]] := by
  -- The clusters are tried from the first one on.
  induction found with
  | nil => exact .inr ⟨List.forall_mem_nil _, rfl⟩
  | cons cluster rest ih =>
    rw [place]
    cases here : fits item cluster with
    | true => exact .inl ⟨[], cluster, rest, rfl, here, List.forall_mem_nil _, rfl⟩
    | false =>
      rw [if_neg Bool.false_ne_true]
      rcases ih with ⟨front, chosen, back, rfl, fit, others, placed⟩ | ⟨others, placed⟩
      · exact .inl ⟨cluster :: front, chosen, back, rfl, fit, List.forall_mem_cons.mpr ⟨here, others⟩,
          by rw [placed]; rfl⟩
      · exact .inr ⟨List.forall_mem_cons.mpr ⟨here, others⟩, by rw [placed]; rfl⟩

theorem clusters_append_singleton (items : List α) (item : α) :
    clusters fits (items ++ [item]) = place fits item (clusters fits items) := by
  unfold clusters
  rw [List.foldl_append]
  rfl

/-- No item is lost or doubled. -/
theorem clusters_perm (items : List α) : (clusters fits items).flatten.Perm items := by
  induction items using List.reverseRecOn with
  | nil => exact .refl _
  | append_singleton items item ih =>
    rw [clusters_append_singleton]
    -- Placing an item changes the order of the items only.
    have more := ih.append_right [item]
    rcases place_cases item (clusters fits items) with ⟨front, cluster, back, shape, -, -, placed⟩ | ⟨-, placed⟩
    · rw [placed]
      refine List.Perm.trans ?_ more
      rw [shape]
      simp only [List.flatten_append, List.flatten_cons, List.append_assoc]
      exact (List.perm_append_comm.append_left cluster).append_left front.flatten
    · rw [placed, List.flatten_append]
      exact more

/-- A cluster has its items in the order in which they came. -/
theorem clusters_sublist (items : List α) : ∀ cluster ∈ clusters fits items, cluster.Sublist items := by
  induction items using List.reverseRecOn with
  | nil => exact List.forall_mem_nil _
  | append_singleton items item ih =>
    rw [clusters_append_singleton]
    -- The other clusters stay as they are.
    have grown (other : List α) (listed : other ∈ clusters fits items) : other.Sublist (items ++ [item]) :=
      (ih other listed).trans (List.sublist_append_left _ _)
    rcases place_cases item (clusters fits items) with ⟨front, cluster, back, shape, -, -, placed⟩ | ⟨-, placed⟩
    · rw [placed]
      rw [shape] at ih grown
      intro other listed
      rw [List.mem_append, List.mem_cons] at listed
      rcases listed with before | rfl | after
      · exact grown other (List.mem_append_left _ before)
      · exact (ih cluster (by simp)).append (List.Sublist.refl _)
      · exact grown other (by simp [after])
    · rw [placed]
      intro other listed
      rw [List.mem_append, List.mem_singleton] at listed
      rcases listed with before | rfl
      · exact grown other before
      · exact List.sublist_append_right _ _

/-- A cluster that grew item by item, each of which fitted. -/
inductive Grown (fits : α → List α → Bool) : List α → Prop
  | one (item : α) : Grown fits [item]
  | more {cluster : List α} {item : α} (grown : Grown fits cluster) (fit : fits item cluster = true) :
    Grown fits (cluster ++ [item])

theorem clusters_grown (items : List α) : ∀ cluster ∈ clusters fits items, Grown fits cluster := by
  induction items using List.reverseRecOn with
  | nil => exact List.forall_mem_nil _
  | append_singleton items item ih =>
    rw [clusters_append_singleton]
    rcases place_cases item (clusters fits items) with ⟨front, cluster, back, shape, fit, -, placed⟩ | ⟨-, placed⟩
    · rw [placed]
      rw [shape] at ih
      intro other listed
      rw [List.mem_append, List.mem_cons] at listed
      rcases listed with before | rfl | after
      · exact ih other (List.mem_append_left _ before)
      · -- The cluster that it fits into has grown by one item.
        exact .more (ih cluster (by simp)) fit
      · exact ih other (by simp [after])
    · rw [placed]
      intro other listed
      rw [List.mem_append, List.mem_singleton] at listed
      rcases listed with before | rfl
      · exact ih other before
      · exact .one item

theorem Grown.nonempty {cluster : List α} (grown : Grown fits cluster) : cluster ≠ [] := by
  cases grown with
  | one item => exact List.cons_ne_nil _ _
  | more grown fit => exact List.append_ne_nil_of_right_ne_nil _ (List.cons_ne_nil _ _)

/-- Each later item of a cluster fitted to the items before it. -/
theorem Grown.fitted {cluster front back : List α} {item : α} (grown : Grown fits cluster)
    (shape : cluster = front ++ item :: back) (later : front ≠ []) : fits item front = true := by
  induction grown generalizing back with
  | one only =>
    cases front with
    | nil => exact absurd rfl later
    | cons first rest => simp at shape
  | @more cluster last grown fit ih =>
    -- The item is the last one of the cluster, or it came before that.
    rcases List.eq_nil_or_concat back with rfl | ⟨inner, final, rfl⟩
    · obtain ⟨rfl, same⟩ := List.append_inj' shape rfl
      cases same
      exact fit
    · have cut : cluster ++ [last] = (front ++ item :: inner) ++ [final] := by
        rw [shape]
        simp
      exact ih (List.append_inj' cut rfl).1

variable {κ : Type*} [LinearOrder κ] {key : α → κ}

/-- The cluster of the greatest key so far: it is the first that another item with that key fits into. -/
structure Homes (fits : α → List α → Bool) (key : α → κ) (item : α) (found : List (List α)) : Prop where
  apart : found.Pairwise fun one other => ∀ left ∈ one, ∀ right ∈ other, key left ≠ key right
  below : ∀ cluster ∈ found, ∀ other ∈ cluster, key other ≤ key item
  home : ∀ front cluster back, found = front ++ cluster :: back → (∃ other ∈ cluster, key other = key item) →
    fits item cluster = true ∧ ∀ other ∈ front, fits item other = false

namespace Homes

variable {item : α} {found front back : List (List α)} {cluster other : List α}

/-- A cluster that an item does not fit into has nothing with its key. -/
theorem free (homes : Homes fits key item found) (listed : other ∈ found) (unfit : fits item other = false) :
    ∀ member ∈ other, key member ≠ key item := by
  intro member inside same
  obtain ⟨one, two, shape⟩ := List.append_of_mem listed
  have home := homes.home one other two shape ⟨member, inside, same⟩
  rw [unfit] at home
  cases home.1

/-- Nor has a cluster behind one that the item fits into. -/
theorem free_behind (homes : Homes fits key item (front ++ cluster :: back)) (fit : fits item cluster = true)
    (listed : other ∈ back) : ∀ member ∈ other, key member ≠ key item := by
  intro member inside same
  obtain ⟨one, two, rfl⟩ := List.append_of_mem listed
  have home := homes.home (front ++ cluster :: one) other two (by simp) ⟨member, inside, same⟩
  have chosen := home.2 cluster (by simp)
  rw [fit] at chosen
  cases chosen

/-- The clusters stay apart when an item joins the only one that has its key. -/
theorem joined_apart (homes : Homes fits key item (front ++ cluster :: back))
    (before : ∀ other ∈ front, ∀ member ∈ other, key member ≠ key item)
    (behind : ∀ other ∈ back, ∀ member ∈ other, key member ≠ key item) :
    (front ++ (cluster ++ [item]) :: back).Pairwise
      fun one other => ∀ left ∈ one, ∀ right ∈ other, key left ≠ key right := by
  have apart := homes.apart
  rw [List.pairwise_append, List.pairwise_cons] at apart ⊢
  obtain ⟨front_apart, ⟨cluster_apart, back_apart⟩, between⟩ := apart
  refine ⟨front_apart, ⟨?_, back_apart⟩, ?_⟩
  · intro other listed left in_left right in_right
    rw [List.mem_append, List.mem_singleton] at in_left
    rcases in_left with old | rfl
    · exact cluster_apart other listed left old right in_right
    · exact (behind other listed right in_right).symm
  · intro one listed other chosen left in_left right in_right
    rw [List.mem_cons] at chosen
    rcases chosen with rfl | later
    · rw [List.mem_append, List.mem_singleton] at in_right
      rcases in_right with old | rfl
      · exact between one listed cluster List.mem_cons_self left in_left right old
      · exact before one listed left in_left
    · exact between one listed other (List.mem_cons_of_mem _ later) left in_left right in_right

/-- An item joins the first cluster that it fits into. -/
theorem joined (homes : Homes fits key item (front ++ cluster :: back)) (fit : fits item cluster = true)
    (others : ∀ other ∈ front, fits item other = false) (grows : fits item (cluster ++ [item]) = true) :
    Homes fits key item (front ++ (cluster ++ [item]) :: back) := by
  have before : ∀ other ∈ front, ∀ member ∈ other, key member ≠ key item :=
    fun other listed => homes.free (List.mem_append_left _ listed) (others other listed)
  have behind : ∀ other ∈ back, ∀ member ∈ other, key member ≠ key item :=
    fun other listed => homes.free_behind fit listed
  refine ⟨homes.joined_apart before behind, ?_, ?_⟩
  · intro other listed member inside
    rw [List.mem_append, List.mem_cons] at listed
    rcases listed with earlier | rfl | after
    · exact homes.below other (List.mem_append_left _ earlier) member inside
    · rw [List.mem_append, List.mem_singleton] at inside
      rcases inside with old | rfl
      · exact homes.below cluster (by simp) member old
      · exact le_refl _
    · exact homes.below other (by simp [after]) member inside
  · -- The only cluster with the key of the item is the one that it has joined.
    intro one chosen two shape keyed
    obtain ⟨member, inside, same⟩ := keyed
    -- The chosen cluster stands behind the one that grew, is that one, or stands before it.
    rcases List.append_eq_append_iff.mp shape with ⟨gap, rfl, rest⟩ | ⟨gap, rfl, rest⟩
    · cases gap with
      | nil =>
        rw [List.nil_append, List.cons.injEq] at rest
        rw [← rest.1]
        refine ⟨grows, ?_⟩
        simpa using others
      | cons first gap =>
        rw [List.cons_append, List.cons.injEq] at rest
        exact absurd same (behind chosen (by rw [rest.2]; simp) member inside)
    · cases gap with
      | nil =>
        rw [List.nil_append, List.cons.injEq] at rest
        rw [rest.1]
        refine ⟨grows, ?_⟩
        simpa using others
      | cons first gap =>
        rw [List.cons_append, List.cons.injEq] at rest
        exact absurd same (before chosen (by rw [rest.1]; simp) member inside)

/-- An item that fits nowhere founds a cluster. -/
theorem founded (homes : Homes fits key item found) (others : ∀ other ∈ found, fits item other = false)
    (alone : fits item [item] = true) : Homes fits key item (found ++ [[item]]) := by
  have before : ∀ other ∈ found, ∀ member ∈ other, key member ≠ key item :=
    fun other listed => homes.free listed (others other listed)
  refine ⟨?_, ?_, ?_⟩
  · rw [List.pairwise_append]
    refine ⟨homes.apart, List.pairwise_singleton _ _, ?_⟩
    intro one listed other new left in_left right in_right
    rw [List.mem_singleton] at new
    rw [new, List.mem_singleton] at in_right
    rw [in_right]
    exact before one listed left in_left
  · intro other listed member inside
    rw [List.mem_append, List.mem_singleton] at listed
    rcases listed with earlier | rfl
    · exact homes.below other earlier member inside
    · rw [List.mem_singleton] at inside
      rw [inside]
  · intro one chosen two shape keyed
    obtain ⟨member, inside, same⟩ := keyed
    -- The chosen cluster is the new one, or an old one, which has nothing with the key.
    rcases List.eq_nil_or_concat two with rfl | ⟨inner, final, rfl⟩
    · obtain ⟨rfl, last⟩ := List.append_inj' shape rfl
      cases last
      exact ⟨alone, others⟩
    · have cut : found ++ [[item]] = (one ++ chosen :: inner) ++ [final] := by
        rw [shape]
        simp
      obtain ⟨rfl, -⟩ := List.append_inj' cut rfl
      exact absurd same (before chosen (by simp) member inside)

end Homes

/-- An item takes the home of its key, or founds it. -/
theorem Homes.place {item : α} {found : List (List α)} (homes : Homes fits key item found)
    (grows : ∀ cluster ∈ found, fits item cluster = true → fits item (cluster ++ [item]) = true)
    (alone : fits item [item] = true) : Homes fits key item (Greedy.place fits item found) := by
  rcases place_cases item found with ⟨front, cluster, back, rfl, fit, others, placed⟩ | ⟨others, placed⟩
  · rw [placed]
    exact homes.joined fit others (grows cluster (by simp) fit)
  · rw [placed]
    exact homes.founded others alone

theorem Homes.next {item after : α} {found : List (List α)} (homes : Homes fits key item found)
    (later : key item ≤ key after)
    (congr : ∀ cluster, key after = key item → fits after cluster = fits item cluster) :
    Homes fits key after found where
  apart := homes.apart
  below cluster listed other inside := le_trans (homes.below cluster listed other inside) later
  home := by
    intro front cluster back shape keyed
    obtain ⟨other, inside, same⟩ := keyed
    -- The keys do not go back, so a key that comes again is that of the last item.
    have most := homes.below cluster (by rw [shape]; simp) other inside
    have equal : key after = key item := le_antisymm (by rw [← same]; exact most) later
    obtain ⟨fit, others⟩ := homes.home front cluster back shape ⟨other, inside, same.trans equal⟩
    refine ⟨by rw [congr cluster equal, fit], ?_⟩
    intro before listed
    rw [congr before equal, others before listed]

/-- In the order of their keys, items with one key end in one cluster, when a cluster goes on to fit. -/
theorem clusters_homes {items : List α} (sorted : items.Pairwise fun one other => key one ≤ key other)
    (grows : ∀ item ∈ items, ∀ cluster, cluster ≠ [] → cluster.length < items.length →
      (∀ other ∈ cluster, other ∈ items ∧ key other ≤ key item) → fits item cluster = true →
        fits item (cluster ++ [item]) = true)
    (alone : ∀ item ∈ items, fits item [item] = true)
    (congr : ∀ one other cluster, key one = key other → fits one cluster = fits other cluster) {next : α}
    (last : ∀ item ∈ items, key item ≤ key next) : Homes fits key next (clusters fits items) := by
  induction items using List.reverseRecOn generalizing next with
  | nil =>
    refine ⟨.nil, List.forall_mem_nil _, ?_⟩
    intro front cluster back shape
    simp [clusters] at shape
  | append_singleton items item ih =>
    rw [List.pairwise_append] at sorted
    have before : ∀ other ∈ items, key other ≤ key item :=
      fun other listed => sorted.2.2 other listed item (List.mem_singleton_self _)
    -- The items before it have their homes, and their keys are not greater.
    have homes := ih sorted.1
      (fun other listed cluster filled shorter inside =>
        grows other (List.mem_append_left _ listed) cluster filled (by rw [List.length_append]; omega)
          fun member found => ⟨List.mem_append_left _ (inside member found).1, (inside member found).2⟩)
      (fun other listed => alone other (List.mem_append_left _ listed)) before
    rw [clusters_append_singleton]
    have placed : Homes fits key item (place fits item (clusters fits items)) := by
      apply homes.place
      · intro cluster listed fit
        have shorter : cluster.length < (items ++ [item]).length := by
          have most := (clusters_sublist items cluster listed).length_le
          rw [List.length_append, List.length_singleton]
          omega
        apply grows item (by simp) cluster (clusters_grown items cluster listed).nonempty shorter _ fit
        intro other inside
        have given : other ∈ items := (clusters_perm items).subset (List.mem_flatten.mpr ⟨cluster, listed, inside⟩)
        exact ⟨List.mem_append_left _ given, before other given⟩
      · exact alone item (by simp)
    exact placed.next (last item (by simp)) fun cluster same => congr next item cluster same

end Place

end Greedy
