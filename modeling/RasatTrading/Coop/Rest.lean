import Mathlib.Data.Multiset.Filter
import Mathlib.Data.Multiset.Range
import Mathlib.Logic.Hydra
import Mathlib.Order.WellFounded
import RasatTrading.Coop.System

/-! Answers alone bring a system to rest: each of them uses up a part of some task's program. -/

namespace Coop

variable {Q : Type} {R : Q → Type} {ε World Choice Call Out : Type}

/-- An answer turned the second program into the first. -/
inductive Prog.Resumed : Prog Q R ε Out → Prog Q R ε Out → Prop
  | answer (request : Q) (next : Except ε (R request) → Prog Q R ε Out) (reply : Except ε (R request)) :
      Resumed (next reply) (.ask request next)

/-- No program takes answers forever, though there is no bound on how many it takes. -/
theorem Prog.resumed_wellFounded : WellFounded (Resumed : Prog Q R ε Out → Prog Q R ε Out → Prop) := by
  refine ⟨fun program => ?_⟩
  induction program with
  | done value => exact ⟨_, fun _ resumed => nomatch resumed⟩
  | fail error => exact ⟨_, fun _ resumed => nomatch resumed⟩
  | ask request next ih =>
    refine ⟨_, fun rest resumed => ?_⟩
    cases resumed with
    | answer _ _ reply => exact ih reply

/-- The task waits for an answer. -/
def Sys.Waits (s : Sys Q R ε World Call Out) (task : Nat) (request : Q) : Prop :=
  ∃ next, s.tasks task = some (.ask request next)

/-- The programs of all tasks, each as often as tasks have it. -/
def Sys.pool (s : Sys Q R ε World Call Out) : Multiset (Prog Q R ε Out) :=
  (Multiset.range s.fresh).filterMap s.tasks

/-- Two functions that agree on a multiset give the same results over it. -/
theorem filterMap_same {α β : Type} {f g : α → Option β} {items : Multiset α}
    (same : ∀ item ∈ items, f item = g item) : items.filterMap f = items.filterMap g := by
  induction items using Multiset.induction with
  | empty => rfl
  | cons item rest ih =>
    have others := ih fun other member => same other (Multiset.mem_cons_of_mem member)
    rw [Multiset.filterMap_cons, Multiset.filterMap_cons, others,
      same item (Multiset.mem_cons_self item rest)]

namespace Machine

variable (m : Machine Q R ε World Choice Call Out)

/-- One answer reaches one task. -/
def Answers (s after : Sys Q R ε World Call Out) : Prop :=
  ∃ task choice, m.step s (.resume task choice) = some after

/-- The task can take an answer, whichever the environment chooses. -/
def Ready (s : Sys Q R ε World Call Out) (task : Nat) : Prop :=
  ∀ choice, ∃ after, m.step s (.resume task choice) = some after

variable {m} {s after : Sys Q R ε World Call Out}

/-- An answer replaces one waiting program by a part of it. -/
theorem Answers.cuts (orderly : s.Orderly) (answers : m.Answers s after) :
    Relation.CutExpand Prog.Resumed after.pool s.pool := by
  obtain ⟨owner, choice, stepped⟩ := answers
  obtain ⟨call, value, other, -, -⟩ |
    ⟨task, choice', request, next, answer, world, same, running, -, rfl⟩ | ⟨other, -⟩ :=
    step_cases stepped
  · cases other
  · refine ⟨{next answer}, .ask request next, by simpa using .answer request next answer, ?_⟩
    -- The task's number is in range and occurs once there.
    have listed : task ∈ Multiset.range s.fresh := by
      by_contra missing
      have used : s.fresh ≤ task := by simpa using missing
      rw [(orderly.unused task used).1] at running
      cases running
    obtain ⟨others, split⟩ := Multiset.exists_cons_of_mem listed
    have once : task ∉ others := by
      have distinct := Multiset.nodup_range s.fresh
      rw [split] at distinct
      exact (Multiset.nodup_cons.mp distinct).1
    have kept : others.filterMap (Function.update s.tasks task (some (next answer))) =
        others.filterMap s.tasks :=
      filterMap_same fun other member => Function.update_of_ne (ne_of_mem_of_not_mem member once) _ _
    have before : s.pool = .ask request next ::ₘ others.filterMap s.tasks := by
      rw [Sys.pool, split]
      exact Multiset.filterMap_cons_some _ _ _ running
    have behind : (s.answered task request next answer world).pool =
        next answer ::ₘ others.filterMap s.tasks := by
      rw [← kept, Sys.pool]
      show (Multiset.range s.fresh).filterMap _ = _
      rw [split]
      exact Multiset.filterMap_cons_some _ _ _ (Function.update_self ..)
    rw [before, behind]
    simp only [← Multiset.singleton_add]
    rw [add_comm, add_right_comm, add_assoc, add_comm {next answer}, ← add_assoc]
  · cases other

/-- An answer keeps the system orderly. -/
theorem Answers.orderly (orderly : s.Orderly) (answers : m.Answers s after) : after.Orderly := by
  obtain ⟨task, choice, stepped⟩ := answers
  exact step_orderly orderly stepped

/-- Answers alone come to an end from every orderly system, in whatever order tasks take them. -/
theorem answers_end (orderly : s.Orderly) : Acc (fun after before => m.Answers before after) s := by
  -- The induction is on the programs that the tasks have left.
  have descends : WellFounded (Relation.CutExpand (Prog.Resumed : Prog Q R ε Out → Prog Q R ε Out → Prop)) :=
    Prog.resumed_wellFounded.cutExpand
  generalize pooled : s.pool = programs
  induction programs using descends.induction generalizing s with
  | _ programs ih =>
    refine ⟨_, fun after answers => ?_⟩
    exact ih after.pool (pooled ▸ answers.cuts orderly) (answers.orderly orderly) rfl

/-- So no infinite sequence of answers exists. -/
theorem no_endless_answers (orderly : s.Orderly) (run : Nat → Sys Q R ε World Call Out)
    (first : run 0 = s) : ∃ n, ¬m.Answers (run n) (run (n + 1)) := by
  have none := acc_iff_isEmpty_descending_chain.mp (answers_end (m := m) orderly)
  by_contra endless
  exact none.false ⟨run, first, fun n => by_contra fun stop => endless ⟨n, stop⟩⟩

end Machine

end Coop
