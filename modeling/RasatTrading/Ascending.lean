import Mathlib.Data.List.Nodup
import Mathlib.Data.List.Sort
import Mathlib.Order.Basic
import Mathlib.Algebra.BigOperators.Group.List.Basic
import Mathlib.Algebra.Order.BigOperators.Group.List
import Mathlib.Algebra.Order.Ring.Abs
import Mathlib.Data.Finset.Max
import Mathlib.Tactic.FieldSimp
import Mathlib.Tactic.Linarith

/-! The last elements of lists that ascend strictly by a key. -/

namespace Ascending

variable {α κ : Type*} [LinearOrder κ] {key : α → κ}

/-- The last elements of a list, as many as asked for. -/
def lastOf (count : Nat) (list : List α) : List α := list.drop (list.length - count)

/-- A list whose keys grow from element to element. -/
def Ascends (key : α → κ) (list : List α) : Prop := list.Pairwise fun a b => key a < key b

/-- There are as many last elements as asked for, or as there are. -/
theorem length_lastOf (count : Nat) (list : List α) : (lastOf count list).length = min count list.length := by
  unfold lastOf
  rw [List.length_drop]
  omega

/-- The last elements of numbers counted from zero are the highest ones. -/
theorem mem_lastOf_range {count total index : Nat} :
    index ∈ lastOf count (List.range total) ↔ index < total ∧ total ≤ index + count := by
  unfold lastOf
  rw [List.length_range, List.mem_iff_getElem?]
  constructor
  · rintro ⟨place, found⟩
    rw [List.getElem?_drop] at found
    obtain ⟨inside, same⟩ := List.getElem?_eq_some_iff.mp found
    rw [List.length_range] at inside
    rw [List.getElem_range] at same
    omega
  · rintro ⟨below, near⟩
    refine ⟨index - (total - count), ?_⟩
    rw [List.getElem?_drop, Nat.add_sub_cancel' (by omega)]
    exact List.getElem?_range below

/-- Elements of an ascending list have different keys. -/
theorem Ascends.nodup {list : List α} (ascends : Ascends key list) : list.Nodup :=
  ascends.imp fun less same => (ne_of_lt less) (congrArg key same)

/-- The last elements ascend, too. -/
theorem Ascends.lastOf {list : List α} (ascends : Ascends key list) (count : Nat) :
    Ascends key (lastOf count list) :=
  ascends.sublist (List.drop_sublist _ _)

/-- A list with distinct keys, sorted by them, ascends. -/
theorem ascends_insertionSort {list : List α} (distinct : (list.map key).Nodup) :
    Ascends key (list.insertionSort fun a b => key a ≤ key b) := by
  have total : Std.Total fun a b : α => key a ≤ key b := ⟨fun a b => le_total (key a) (key b)⟩
  have transitive : IsTrans α fun a b => key a ≤ key b := ⟨fun _ _ _ => le_trans⟩
  have sorted := List.pairwise_insertionSort (fun a b : α => key a ≤ key b) list
  have apart : (list.insertionSort fun a b => key a ≤ key b).Pairwise
      fun a b => key a ≠ key b := by
    refine List.pairwise_map.mp ?_
    exact ((List.perm_insertionSort _ list).map key).nodup_iff.mpr distinct
  refine (sorted.and apart).imp ?_
  rintro a b ⟨below, differs⟩
  exact lt_of_le_of_ne below differs

/-- The end of an ascending list is told by its elements: those of the end belong to the list, and
all others stand before a full end. -/
theorem lastOf_eq_iff {list last : List α} {count : Nat} (ascends : Ascends key list)
    (ends : Ascends key last) (fits : last.length ≤ count) :
    lastOf count list = last ↔
      (∀ a ∈ last, a ∈ list) ∧
        ∀ a ∈ list, a ∈ last ∨ (last.length = count ∧ ∀ b ∈ last, key a < key b) := by
  constructor
  · rintro rfl
    have split : list.take (list.length - count) ++ lastOf count list = list :=
      List.take_append_drop _ _
    refine ⟨fun a member => List.mem_of_mem_drop member, ?_⟩
    intro a member
    rw [← split] at member
    rcases List.mem_append.mp member with before | inside
    · -- Where something stands before, the end is full.
      have longer : 0 < list.length - count := by
        by_contra none
        simp [Nat.eq_zero_of_not_pos none] at before
      rw [← split] at ascends
      refine .inr ⟨?_, fun b later => (List.pairwise_append.mp ascends).2.2 a before b later⟩
      rw [length_lastOf]
      omega
    · exact .inl inside
  · classical
    rintro ⟨among, others⟩
    -- The list is what is not in the end, followed by the end.
    have same : list = list.filter (fun a => decide (a ∉ last)) ++ last := by
      refine List.Perm.eq_of_pairwise ?_ ascends ?_ ?_
      · intro a b _ _ less more
        exact absurd (less.trans more) (lt_irrefl _)
      · refine List.pairwise_append.mpr ⟨ascends.sublist List.filter_sublist, ends, ?_⟩
        intro a outside b inside
        obtain ⟨member, missing⟩ := List.mem_filter.mp outside
        rcases others a member with listed | ⟨-, before⟩
        · exact absurd listed (of_decide_eq_true missing)
        · exact before b inside
      · refine (List.perm_ext_iff_of_nodup ascends.nodup ?_).mpr ?_
        · refine List.nodup_append.mpr ⟨ascends.nodup.filter _, ends.nodup, ?_⟩
          rintro a outside b inside rfl
          exact of_decide_eq_true (List.mem_filter.mp outside).2 inside
        · intro a
          rw [List.mem_append, List.mem_filter, decide_eq_true_eq]
          constructor
          · intro member
            by_cases listed : a ∈ last
            · exact .inr listed
            · exact .inl ⟨member, listed⟩
          · rintro (⟨member, -⟩ | listed)
            · exact member
            · exact among a listed
    have full : list.filter (fun a => decide (a ∉ last)) = [] ∨ last.length = count := by
      by_contra neither
      obtain ⟨some_, short⟩ := not_or.mp neither
      obtain ⟨a, outside⟩ := List.exists_mem_of_ne_nil _ some_
      obtain ⟨member, missing⟩ := List.mem_filter.mp outside
      rcases others a member with listed | ⟨equal, -⟩
      · exact of_decide_eq_true missing listed
      · exact short equal
    unfold lastOf
    rw [same]
    rcases full with none | equal
    · rw [none, List.nil_append, Nat.sub_eq_zero_of_le fits, List.drop_zero]
    · rw [List.length_append, equal, Nat.add_sub_cancel, List.drop_left]

end Ascending

/-! Reading the end of a list, its places counted from the newest element. -/

namespace Ascending

variable {α β : Type*}

/-- The last elements from the newest one back are the first ones of the reversed list. -/
theorem reverse_lastOf (count : Nat) (list : List α) : (lastOf count list).reverse = list.reverse.take count := by
  unfold lastOf
  rw [List.take_reverse]

/-- The last elements are an end of the list. -/
theorem lastOf_suffix (count : Nat) (list : List α) : lastOf count list <:+ list := List.drop_suffix _ _

variable {list : List α}

/-- No element of an ordered list is greater than its last one. -/
theorem key_le_last {κ : Type*} [Preorder κ] {key : α → κ} {last : α}
    (ordered : list.Pairwise fun a b => key a ≤ key b) (ends : list.getLast? = some last) :
    ∀ element ∈ list, key element ≤ key last := by
  obtain ⟨front, rfl⟩ := List.getLast?_eq_some_iff.mp ends
  intro element listed
  rw [List.mem_append, List.mem_singleton] at listed
  rcases listed with before | rfl
  · exact (List.pairwise_append.mp ordered).2.2 element before last (List.mem_singleton_self _)
  · exact le_refl _

/-- Places counted from the newest element are the same in an end of a list that reaches so far. -/
theorem reverse_suffix {last : List α} (ending : last <:+ list) {back : Nat} (within : back < last.length) :
    list.reverse[back]? = last.reverse[back]? := by
  obtain ⟨older, rfl⟩ := ending
  rw [List.reverse_append, List.getElem?_append_left (by simpa using within)]

/-- The newest elements are the same in an end of a list that has them. -/
theorem take_reverse_suffix {last : List α} (ending : last <:+ list) {count : Nat} (within : count ≤ last.length) :
    list.reverse.take count = last.reverse.take count := by
  obtain ⟨older, rfl⟩ := ending
  rw [List.reverse_append, List.take_append_of_le_length (by simpa using within)]

/-- A full reading starts with the element that lies as far back as it reaches, and ends with the newest one. -/
theorem lastOf_succ {back : Nat} (enough : back + 1 ≤ list.length) :
    ∃ oldest later, lastOf (back + 1) list = oldest :: later ∧ later.length = back ∧
      list.reverse[back]? = some oldest ∧ (0 < back → later.getLast? = list.reverse[0]?) := by
  have full : (lastOf (back + 1) list).length = back + 1 := by
    rw [length_lastOf]
    omega
  cases read : lastOf (back + 1) list with
  | nil =>
    rw [read] at full
    cases full
  | cons oldest later =>
    rw [read, List.length_cons] at full
    -- Both ends are read off the reversed list, which starts with the newest element.
    have newest := reverse_lastOf (back + 1) list
    rw [read, List.reverse_cons] at newest
    refine ⟨oldest, later, rfl, by omega, ?_, ?_⟩
    · have place := congrArg (fun elements => elements[back]?) newest
      simp only [List.getElem?_take] at place
      rw [if_pos (by omega)] at place
      rw [← place, List.getElem?_append_right (by simp; omega)]
      simp [show back - later.length = 0 by omega]
    · intro some
      have place := congrArg (fun elements => elements[0]?) newest
      simp only [List.getElem?_take] at place
      rw [if_pos (by omega)] at place
      rw [← place, List.getElem?_append_left (by simp; omega), ← List.head?_eq_getElem?, List.head?_reverse]

/-- What holds from some place on is read in full when, and only when, the reading is as long. -/
theorem filter_lastOf_iff {later : α → Bool} (count : Nat)
    (grows : list.Pairwise fun a b => later a = true → later b = true) :
    (lastOf count list).filter later = list.filter later ↔ (list.filter later).length ≤ count := by
  have split : list.take (list.length - count) ++ lastOf count list = list := List.take_append_drop _ _
  have parts : list.filter later =
      (list.take (list.length - count)).filter later ++ (lastOf count list).filter later := by
    rw [← List.filter_append, split]
  have reading := length_lastOf count list
  constructor
  · intro same
    rw [← same]
    have fewer := List.length_filter_le later (lastOf count list)
    omega
  · intro fits
    -- An element before the reading on which it holds would make everything in the reading one, too.
    have none_before : (list.take (list.length - count)).filter later = [] := by
      rw [List.filter_eq_nil_iff]
      intro a before holds
      have some_before : 0 < (list.take (list.length - count)).length := List.length_pos_of_mem before
      rw [List.length_take] at some_before
      rw [← split, List.pairwise_append] at grows
      have all : (lastOf count list).filter later = lastOf count list :=
        List.filter_eq_self.mpr fun b inside => grows.2.2 a before b inside holds
      have one : 0 < ((list.take (list.length - count)).filter later).length :=
        List.length_pos_of_mem (List.mem_filter.mpr ⟨before, holds⟩)
      rw [parts, List.length_append, all] at fits
      omega
    rw [parts, none_before, List.nil_append]

/-- The sum of the last numbers is the sum of the newest ones. -/
theorem sum_lastOf [AddCommMonoid α] (count : Nat) (list : List α) :
    (lastOf count list).sum = (list.reverse.take count).sum := by
  rw [← reverse_lastOf, List.sum_reverse]

/-- The sum of the first numbers of a reading is the sum of those behind the newest ones. -/
theorem sum_take_lastOf [AddCommMonoid α] {recent before : Nat} (enough : recent + before ≤ list.length) :
    ((lastOf (recent + before) list).take before).sum = ((list.reverse.drop recent).take before).sum := by
  -- From the newest one back, the first numbers of a reading are its last ones.
  have reading : lastOf (recent + before) list = (list.reverse.take (recent + before)).reverse := by
    rw [← reverse_lastOf, List.reverse_reverse]
  have full : (list.reverse.take (recent + before)).length = recent + before := by
    rw [List.length_take, List.length_reverse]
    omega
  rw [reading, List.take_reverse, full, Nat.add_sub_cancel, List.sum_reverse, List.drop_take, Nat.add_sub_cancel_left]

/-- Some of many positive amounts are at most as much as all, and as much only when they are all. -/
theorem sum_sublist_positive [AddCommGroup α] [LinearOrder α] [IsOrderedAddMonoid α] {few many : List α}
    (part : few.Sublist many) (positive : ∀ amount ∈ many, 0 < amount) :
    few.sum ≤ many.sum ∧ (few.sum = many.sum ↔ few = many) := by
  induction part with
  | slnil => exact ⟨le_refl _, iff_of_true rfl rfl⟩
  | @cons few many amount part ih =>
    have rest := (ih fun other listed => positive other (List.mem_cons_of_mem _ listed)).1
    -- An amount that is left out makes the sum strictly less.
    have left_out := positive amount List.mem_cons_self
    have less : few.sum < (amount :: many).sum := by
      rw [List.sum_cons]
      exact lt_of_le_of_lt rest (lt_add_of_pos_left _ left_out)
    refine ⟨le_of_lt less, iff_of_false (ne_of_lt less) ?_⟩
    intro same
    rw [same] at less
    exact lt_irrefl _ less
  | @cons_cons few many amount part ih =>
    -- An amount on both sides cancels.
    obtain ⟨most, exact_iff⟩ := ih fun other listed => positive other (List.mem_cons_of_mem _ listed)
    simp only [List.sum_cons, add_le_add_iff_left, add_right_inj, List.cons.injEq, true_and]
    exact ⟨most, exact_iff⟩

/-- A reading is the whole list when it is as long. -/
theorem lastOf_eq_self_iff {count : Nat} : lastOf count list = list ↔ list.length ≤ count := by
  constructor
  · intro same
    have length := length_lastOf count list
    rw [same] at length
    omega
  · intro fits
    unfold lastOf
    rw [Nat.sub_eq_zero_of_le fits, List.drop_zero]

end Ascending

/-! Points on a line, and the gaps between them. -/

namespace Ascending

variable {α : Type*} [LinearOrder α]

/-- Two points without another one between them. -/
structure Adjacent (points : List α) (low high : α) : Prop where
  low_mem : low ∈ points
  high_mem : high ∈ points
  apart : low < high
  empty : ∀ point ∈ points, point ≤ low ∨ high ≤ point

/-- What lies between two points is a point itself, or lies in a gap between them. -/
theorem mem_or_adjacent {points : List α} {first last x : α} (first_mem : first ∈ points)
    (last_mem : last ∈ points) (above : first ≤ x) (below : x ≤ last) :
    x ∈ points ∨ ∃ low high, Adjacent points low high ∧ low < x ∧ x < high ∧ first ≤ low ∧ high ≤ last := by
  -- The gap lies between the greatest point below and the least point above.
  let lower := points.toFinset.filter (· ≤ x)
  let upper := points.toFinset.filter (x ≤ ·)
  obtain ⟨low, low_mem, greatest⟩ := lower.exists_max_image id ⟨first, by simp [lower, first_mem, above]⟩
  obtain ⟨high, high_mem, least⟩ := upper.exists_min_image id ⟨last, by simp [upper, last_mem, below]⟩
  obtain ⟨lowListed, lowBelow⟩ : low ∈ points ∧ low ≤ x := by simpa [lower] using low_mem
  obtain ⟨highListed, highAbove⟩ : high ∈ points ∧ x ≤ high := by simpa [upper] using high_mem
  by_cases listed : x ∈ points
  · exact .inl listed
  · -- A gap's ends are points, so that what is no point lies inside.
    have lowStrict : low < x := lt_of_le_of_ne lowBelow fun same => listed (same ▸ lowListed)
    have highStrict : x < high := lt_of_le_of_ne highAbove fun same => listed (same ▸ highListed)
    refine .inr ⟨low, high, ⟨lowListed, highListed, lowStrict.trans highStrict, ?_⟩, lowStrict, highStrict,
      greatest first (by simp [lower, first_mem, above]), least last (by simp [upper, last_mem, below])⟩
    intro point member
    rcases le_total point x with under | beyond
    · exact .inl (greatest point (by simp [lower, member, under]))
    · exact .inr (least point (by simp [upper, member, beyond]))

end Ascending
