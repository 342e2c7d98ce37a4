import Mathlib.Algebra.BigOperators.Group.Finset.Basic
import Mathlib.Algebra.Order.BigOperators.Group.Finset
import Mathlib.Logic.Relation
import OmniPaxosKV.Tokens
import OmniPaxosKV.TransSys

/-!
Tasks that hand messages on through bounded queues.

The task of a queue takes messages out of it and puts them in the next queue, where there has to
be room for them, or consumes them. It starts only when certain queues are empty, such as a buffer
that it has to work off first. Some tasks may fail and throw away all that is in their queue. Where
what a queue waits for is always of a lower rank, no tasks wait for each other: the queues are
worked off whatever the order of the steps, nothing overtakes or comes twice on the way, and what
is lost is what was thrown away.
-/

namespace OmniPaxosKV.Channels

open Function (update update_self update_of_ne)
open Tokens (mem_update)
open TransSys

structure Network (κ : Type*) where
  /-- The queues that messages are put in from outside. -/
  entry : κ → Bool
  /-- Where the task of a queue puts what it takes; it consumes it where there is no next queue. -/
  next : κ → Option κ
  /-- An unbounded queue has none. -/
  capacity : κ → Option ℕ
  /-- The most that the task takes at once. -/
  batch : κ → ℕ
  /-- What has to be empty for the task to take anything. -/
  awaits : κ → List κ
  /-- The task may throw away what is in the queue. -/
  loses : κ → Bool
  rank : κ → ℕ
  next_lt : ∀ {k j}, next k = some j → rank j < rank k
  awaits_lt : ∀ {k j}, j ∈ awaits k → rank j < rank k
  capacity_pos : ∀ {k n}, capacity k = some n → 0 < n
  batch_pos : ∀ k, 0 < batch k

structure State (κ α : Type*) where
  /-- The messages, each with the queue it was put in from outside. -/
  queue : κ → List (κ × α)
  /-- What the task of a queue has consumed. -/
  consumed : κ → List (κ × α)
  /-- What was thrown away. -/
  lost : List (κ × α)

inductive Action (κ α : Type*)
  | put (k : κ) (x : α)
  | take (k : κ) (n : ℕ)
  | lose (k : κ)
  deriving DecidableEq

def Action.ofTask {κ α : Type*} : Action κ α → Bool
  | .put _ _ => false
  | .take _ _ => true
  | .lose _ => true

namespace Network

variable {κ α : Type*} (N : Network κ) (s : State κ α)

def Room (k : κ) (n : ℕ) : Prop := ∀ c ∈ N.capacity k, (s.queue k).length + n ≤ c

/-- The task of `k` can take `n` messages. -/
structure Ready (k : κ) (n : ℕ) : Prop where
  pos : 0 < n
  batch : n ≤ N.batch k
  length : n ≤ (s.queue k).length
  awaits : ∀ j ∈ N.awaits k, s.queue j = []
  room : ∀ j ∈ N.next k, N.Room s j n

instance (k : κ) (n : ℕ) : Decidable (N.Room s k n) := by
  unfold Room
  infer_instance

instance (k : κ) (n : ℕ) : Decidable (N.Ready s k n) :=
  decidable_of_iff (0 < n ∧ n ≤ N.batch k ∧ n ≤ (s.queue k).length ∧
      (∀ j ∈ N.awaits k, s.queue j = []) ∧ ∀ j ∈ N.next k, N.Room s j n)
    ⟨fun ⟨h₁, h₂, h₃, h₄, h₅⟩ => ⟨h₁, h₂, h₃, h₄, h₅⟩,
      fun h => ⟨h.pos, h.batch, h.length, h.awaits, h.room⟩⟩

variable [DecidableEq κ]

def step (s : State κ α) : Action κ α → Option (State κ α)
  | .put k x =>
    if N.entry k ∧ N.Room s k 1 then
      some { s with queue := update s.queue k (s.queue k ++ [(k, x)]) }
    else none
  | .take k n =>
    if N.Ready s k n then
      let taken := (s.queue k).take n
      let queue := update s.queue k ((s.queue k).drop n)
      match N.next k with
      | some j => some { s with queue := update queue j (queue j ++ taken) }
      | none =>
        some { s with
          queue := queue
          consumed := update s.consumed k (s.consumed k ++ taken) }
    else none
  | .lose k =>
    if N.loses k ∧ s.queue k ≠ [] then
      some { s with queue := update s.queue k [], lost := s.lost ++ s.queue k }
    else none

def start : State κ α := ⟨fun _ => [], fun _ => [], []⟩

def system : System (State κ α) (Action κ α) where
  init s := s = start
  step := N.step

variable {N s} {s' : State κ α} {k : κ} {n : ℕ}

/-- What is put in. -/
lemma put_cases {x : α} (hs : N.step s (.put k x) = some s') :
    N.entry k ∧ s'.queue = update s.queue k (s.queue k ++ [(k, x)]) ∧
      s'.consumed = s.consumed ∧ s'.lost = s.lost := by
  simp only [step] at hs
  split at hs
  · rename_i hput
    obtain rfl := Option.some.inj hs
    exact ⟨hput.1, rfl, rfl, rfl⟩
  · cases hs

/-- What a task does. -/
lemma take_cases (hs : N.step s (.take k n) = some s') :
    N.Ready s k n ∧ s'.lost = s.lost ∧
      ((∃ j, N.next k = some j ∧ j ≠ k ∧ s'.consumed = s.consumed ∧
          s'.queue = update (update s.queue k ((s.queue k).drop n)) j
            (s.queue j ++ (s.queue k).take n)) ∨
        N.next k = none ∧ s'.queue = update s.queue k ((s.queue k).drop n) ∧
          s'.consumed = update s.consumed k (s.consumed k ++ (s.queue k).take n)) := by
  simp only [step] at hs
  split at hs
  · rename_i hready
    refine ⟨hready, ?_⟩
    split at hs
    · rename_i j hnext
      have hne : j ≠ k := by
        rintro rfl
        exact absurd (N.next_lt hnext) (lt_irrefl _)
      obtain rfl := Option.some.inj hs
      exact ⟨rfl, .inl ⟨j, hnext, hne, rfl, by rw [update_of_ne hne]⟩⟩
    · rename_i hnext
      obtain rfl := Option.some.inj hs
      exact ⟨rfl, .inr ⟨hnext, rfl, rfl⟩⟩
  · cases hs

/-- What is thrown away. -/
lemma lose_cases (hs : N.step s (.lose k) = some s') :
    s.queue k ≠ [] ∧ s'.queue = update s.queue k [] ∧ s'.consumed = s.consumed ∧
      s'.lost = s.lost ++ s.queue k := by
  simp only [step] at hs
  split at hs
  · rename_i hlose
    obtain rfl := Option.some.inj hs
    exact ⟨hlose.2, rfl, rfl, rfl⟩
  · cases hs

/-! ### Every queue is worked off -/

omit [DecidableEq κ] in
/-- **Progress**: where a message waits, some task can take one. -/
theorem exists_ready (h : s.queue k ≠ []) : ∃ j, N.Ready s j 1 := by
  induction hr : N.rank k using Nat.strong_induction_on generalizing k with
  | _ r ih =>
    by_cases hbelow : ∃ j, N.rank j < N.rank k ∧ s.queue j ≠ []
    · obtain ⟨j, hlt, hj⟩ := hbelow
      exact ih _ (hr ▸ hlt) hj rfl
    · -- all that `k` waits for is empty
      have hempty : ∀ j, N.rank j < N.rank k → s.queue j = [] := by
        intro j hlt
        by_contra hj
        exact hbelow ⟨j, hlt, hj⟩
      refine ⟨k, Nat.one_pos, N.batch_pos k, List.length_pos_iff.mpr h,
        fun j hj => hempty j (N.awaits_lt hj), fun j hj c hc => ?_⟩
      rw [hempty j (N.next_lt hj)]
      exact N.capacity_pos hc

section Load

variable [Fintype κ]

variable (N s) in
/-- How many steps the messages have before them. -/
def load : ℕ := ∑ k, (N.rank k + 1) * (s.queue k).length

lemma sum_update (w : κ → ℕ) (queue : κ → List (κ × α)) (k : κ) (l : List (κ × α)) :
    ∑ i, w i * (update queue k l i).length + w k * (queue k).length =
      ∑ i, w i * (queue i).length + w k * l.length := by
  have hafter := Finset.add_sum_erase Finset.univ (fun i => w i * (update queue k l i).length)
    (Finset.mem_univ k)
  have hbefore := Finset.add_sum_erase Finset.univ (fun i => w i * (queue i).length)
    (Finset.mem_univ k)
  have hrest : ∑ i ∈ Finset.univ.erase k, w i * (update queue k l i).length =
      ∑ i ∈ Finset.univ.erase k, w i * (queue i).length :=
    Finset.sum_congr rfl fun i hi => by rw [update_of_ne (Finset.ne_of_mem_erase hi)]
  simp only [update_self] at hafter
  omega

lemma load_take (hs : N.step s (.take k n) = some s') : N.load s' < N.load s := by
  obtain ⟨hready, -, hcases⟩ := take_cases hs
  have hpos := hready.pos
  have hlength := hready.length
  have hdrop := sum_update (fun i => N.rank i + 1) s.queue k ((s.queue k).drop n)
  have hsplit : (N.rank k + 1) * (s.queue k).length =
      (N.rank k + 1) * ((s.queue k).drop n).length + (N.rank k + 1) * n := by
    rw [List.length_drop, ← Nat.mul_add, Nat.sub_add_cancel hlength]
  rcases hcases with ⟨j, hnext, hne, -, hqueue⟩ | ⟨-, hqueue, -⟩
  · have hput := sum_update (fun i => N.rank i + 1)
      (update s.queue k ((s.queue k).drop n)) j (s.queue j ++ (s.queue k).take n)
    rw [update_of_ne hne, List.length_append, List.length_take, Nat.min_eq_left hlength,
      Nat.mul_add] at hput
    have hlt : (N.rank j + 1) * n < (N.rank k + 1) * n :=
      Nat.mul_lt_mul_of_pos_right (Nat.succ_lt_succ (N.next_lt hnext)) hpos
    rw [load, load, hqueue]
    omega
  · have hlt : 0 < (N.rank k + 1) * n := Nat.mul_pos (Nat.succ_pos _) hpos
    rw [load, load, hqueue]
    omega

lemma load_lose (hs : N.step s (.lose k) = some s') : N.load s' < N.load s := by
  obtain ⟨hne, hqueue, -, -⟩ := lose_cases hs
  have hpos : 0 < (N.rank k + 1) * (s.queue k).length :=
    Nat.mul_pos (Nat.succ_pos _) (List.length_pos_iff.mpr hne)
  have hdrop := sum_update (fun i => N.rank i + 1) s.queue k []
  rw [List.length_nil, Nat.mul_zero] at hdrop
  rw [load, load, hqueue]
  omega

/-- **Termination**: the tasks stop by themselves. -/
theorem length_add_load_le {as : List (Action κ α)} (hr : N.system.run s as = some s')
    (htasks : ∀ a ∈ as, a.ofTask) : as.length + N.load s' ≤ N.load s := by
  induction as generalizing s with
  | nil =>
    cases hr
    simp
  | cons a as ih =>
    simp only [System.run, List.foldlM_cons, Option.bind_eq_bind, Option.bind_eq_some_iff] at hr
    obtain ⟨s₁, hs, hr⟩ := hr
    have hrest := ih hr fun b hb => htasks b (List.mem_cons_of_mem a hb)
    have hlt : N.load s₁ < N.load s := by
      cases a with
      | put k x => cases htasks _ List.mem_cons_self
      | take k n => exact load_take hs
      | lose k => exact load_lose hs
    rw [List.length_cons]
    omega

end Load

/-! ### Nothing overtakes -/

/-- What was put in `e`, of a list of messages. -/
def putIn (e : κ) (l : List (κ × α)) : List α :=
  l.filterMap fun x => if x.1 = e then some x.2 else none

lemma putIn_append (e : κ) (l l' : List (κ × α)) :
    putIn e (l ++ l') = putIn e l ++ putIn e l' :=
  List.filterMap_append

lemma putIn_eq_nil {e : κ} {l : List (κ × α)} (h : ∀ x ∈ l, x.1 ≠ e) : putIn e l = [] :=
  List.filterMap_eq_nil_iff.mpr fun x hx => if_neg (h x hx)

variable (N) in
/-- From a queue to those that its messages get to. -/
def Leads : κ → κ → Prop := Relation.ReflTransGen fun k j => N.next k = some j

omit [DecidableEq κ] in
lemma Leads.rank_le {i : κ} (h : N.Leads i k) : N.rank k ≤ N.rank i := by
  induction h with
  | refl => exact le_rfl
  | tail _ hnext ih => exact (N.next_lt hnext).le.trans ih

omit [DecidableEq κ] in
/-- The messages of a queue end in one place. -/
lemma Leads.last_unique {i j : κ} (h : N.Leads i k) (hk : N.next k = none) (h' : N.Leads i j)
    (hj : N.next j = none) : k = j := by
  induction h using Relation.ReflTransGen.head_induction_on with
  | refl =>
    rcases Relation.ReflTransGen.cases_head h' with rfl | ⟨m, hnext, -⟩
    · rfl
    · cases hk.symm.trans hnext
  | @head i m hnext _ ih =>
    rcases Relation.ReflTransGen.cases_head h' with rfl | ⟨m', hnext', h'⟩
    · cases hj.symm.trans hnext
    · obtain rfl := Option.some.inj (hnext.symm.trans hnext')
      exact ih h'

variable (N s) in
/-- What was put in `e`, of all that has come to `k` or further; what is furthest is first. -/
def arrived (e k : κ) : List α :=
  (match _hnext : N.next k with
    | some j => arrived e j
    | none => putIn e (s.consumed k)) ++ putIn e (s.queue k)
termination_by N.rank k
decreasing_by exact N.next_lt _hnext

variable (N s) in
/-- The same of what has left `k`. -/
def passed (e k : κ) : List α :=
  match N.next k with
  | some j => N.arrived s e j
  | none => putIn e (s.consumed k)

lemma arrived_eq (e k : κ) : N.arrived s e k = N.passed s e k ++ putIn e (s.queue k) := by
  rw [arrived, passed]
  congr 1
  split <;> split <;> simp_all

lemma passed_next {j : κ} (hnext : N.next k = some j) (e : κ) :
    N.passed s e k = N.passed s e j ++ putIn e (s.queue j) := by
  rw [passed, hnext]
  exact arrived_eq e j

lemma passed_last (hnext : N.next k = none) (e : κ) : N.passed s e k = putIn e (s.consumed k) := by
  rw [passed, hnext]

/-- Only the queues below count for what has left one. -/
lemma passed_congr {e : κ}
    (hqueue : ∀ i, N.rank i < N.rank k → putIn e (s'.queue i) = putIn e (s.queue i))
    (hconsumed : ∀ i, N.rank i ≤ N.rank k → putIn e (s'.consumed i) = putIn e (s.consumed i)) :
    N.passed s' e k = N.passed s e k := by
  induction hr : N.rank k using Nat.strong_induction_on generalizing k with
  | _ r ih =>
    cases hnext : N.next k with
    | none =>
      rw [passed_last hnext, passed_last hnext]
      exact hconsumed k le_rfl
    | some j =>
      have hlt := N.next_lt hnext
      have hbelow : N.passed s' e j = N.passed s e j :=
        ih _ (hr ▸ hlt) (fun i hi => hqueue i (hi.trans hlt))
          (fun i hi => hconsumed i (hi.trans hlt.le)) rfl
      rw [passed_next hnext, passed_next hnext, hbelow, hqueue j hlt]

/-- What a task takes has arrived at its queue as before. -/
lemma arrived_take_self (e : κ) (hs : N.step s (.take k n) = some s') :
    N.arrived s' e k = N.arrived s e k := by
  have hsplit : putIn e (s.queue k) =
      putIn e ((s.queue k).take n) ++ putIn e ((s.queue k).drop n) := by
    rw [← putIn_append, List.take_append_drop]
  obtain ⟨-, -, ⟨j, hnext, hne, hconsumed, hqueue⟩ | ⟨hnext, hqueue, hconsumed⟩⟩ := take_cases hs
  · have hlt := N.next_lt hnext
    have hbelow : N.passed s' e j = N.passed s e j := by
      refine passed_congr (fun i hi => ?_) fun i _ => by rw [hconsumed]
      rw [hqueue, update_of_ne (by rintro rfl; exact hi.false),
        update_of_ne (by rintro rfl; exact (hi.trans hlt).false)]
    have hpassed : N.passed s' e k = N.passed s e k ++ putIn e ((s.queue k).take n) := by
      rw [passed_next hnext, passed_next hnext, hbelow, hqueue, update_self, putIn_append,
        List.append_assoc]
    rw [arrived_eq, arrived_eq, hpassed, hqueue, update_of_ne hne.symm, update_self, hsplit,
      List.append_assoc]
  · have hpassed : N.passed s' e k = N.passed s e k ++ putIn e ((s.queue k).take n) := by
      rw [passed_last hnext, passed_last hnext, hconsumed, update_self, putIn_append]
    rw [arrived_eq, arrived_eq, hpassed, hqueue, update_self, hsplit, List.append_assoc]

/-- And so it has at the queues that lead there. -/
lemma arrived_take (e : κ) {i : κ} (hleads : N.Leads i k)
    (hs : N.step s (.take k n) = some s') : N.arrived s' e i = N.arrived s e i := by
  induction hleads using Relation.ReflTransGen.head_induction_on with
  | refl => exact arrived_take_self e hs
  | @head i j hnext hleads ih =>
    have hlt : N.rank k < N.rank i := (Leads.rank_le hleads).trans_lt (N.next_lt hnext)
    have hne : i ≠ k := by
      rintro rfl
      exact hlt.false
    have hqueue : s'.queue i = s.queue i := by
      obtain ⟨-, -, ⟨j, hnext, -, -, hqueue⟩ | ⟨-, hqueue, -⟩⟩ := take_cases hs
      · have hne' : i ≠ j := by
          rintro rfl
          exact (hlt.trans (N.next_lt hnext)).false
        rw [hqueue, update_of_ne hne', update_of_ne hne]
      · rw [hqueue, update_of_ne hne]
    rw [arrived_eq, arrived_eq, passed, passed, hnext, hqueue]
    dsimp only
    rw [ih]

/-- Where nothing that was put in `e` is taken, all is as before. -/
lemma arrived_take_other {e i : κ} (hother : ∀ x ∈ (s.queue k).take n, x.1 ≠ e)
    (hs : N.step s (.take k n) = some s') : N.arrived s' e i = N.arrived s e i := by
  have hnil := putIn_eq_nil hother
  have hdrop : putIn e ((s.queue k).drop n) = putIn e (s.queue k) := by
    conv_rhs => rw [← List.take_append_drop n (s.queue k), putIn_append, hnil, List.nil_append]
  have hdropped : ∀ i, putIn e (update s.queue k ((s.queue k).drop n) i) =
      putIn e (s.queue i) := by
    intro i
    by_cases hi : i = k
    · subst hi
      rw [update_self, hdrop]
    · rw [update_of_ne hi]
  obtain ⟨-, -, ⟨j, hnext, hne, hconsumed, hqueue⟩ | ⟨hnext, hqueue, hconsumed⟩⟩ := take_cases hs
  · have hsame : ∀ i, putIn e (s'.queue i) = putIn e (s.queue i) := by
      intro i
      rw [hqueue]
      by_cases hi : i = j
      · subst hi
        rw [update_self, putIn_append, hnil, List.append_nil]
      · rw [update_of_ne hi, hdropped]
    rw [arrived_eq, arrived_eq, passed_congr (fun i _ => hsame i) fun i _ => by rw [hconsumed],
      hsame]
  · have hsame : ∀ i, putIn e (s'.consumed i) = putIn e (s.consumed i) := by
      intro i
      rw [hconsumed]
      by_cases hi : i = k
      · subst hi
        rw [update_self, putIn_append, hnil, List.append_nil]
      · rw [update_of_ne hi]
    have hqueues : ∀ i, putIn e (s'.queue i) = putIn e (s.queue i) := by
      intro i
      rw [hqueue, hdropped]
    rw [arrived_eq, arrived_eq, passed_congr (fun i _ => hqueues i) fun i _ => hsame i, hqueues]

/-- What is thrown away at a queue is left out, where messages come by the queue. -/
lemma arrived_lose (e : κ) {i : κ} (hleads : N.Leads i k) (hs : N.step s (.lose k) = some s') :
    ∃ A B, N.arrived s e i = A ++ (putIn e (s.queue k) ++ B) ∧ N.arrived s' e i = A ++ B := by
  obtain ⟨-, hqueue, hconsumed, -⟩ := lose_cases hs
  induction hleads using Relation.ReflTransGen.head_induction_on with
  | refl =>
    have hpassed : N.passed s' e k = N.passed s e k := by
      refine passed_congr (fun i hi => ?_) fun i _ => by rw [hconsumed]
      rw [hqueue, update_of_ne (by rintro rfl; exact hi.false)]
    refine ⟨N.passed s e k, [], ?_, ?_⟩
    · rw [arrived_eq, List.append_nil]
    · rw [arrived_eq, hpassed, hqueue, update_self]
      rfl
  | @head i j hnext hleads ih =>
    obtain ⟨A, B, hbefore, hafter⟩ := ih
    have hne : i ≠ k := by
      rintro rfl
      exact ((Leads.rank_le hleads).trans_lt (N.next_lt hnext)).false
    refine ⟨A, B ++ putIn e (s.queue i), ?_, ?_⟩
    · rw [arrived_eq, passed, hnext]
      dsimp only
      rw [hbefore]
      simp only [List.append_assoc]
    · rw [arrived_eq, passed, hnext]
      dsimp only
      rw [hafter, hqueue, update_of_ne hne, List.append_assoc]

/-- Where nothing that was put in `e` is thrown away, all is as before. -/
lemma arrived_lose_other {e i : κ} (hother : ∀ x ∈ s.queue k, x.1 ≠ e)
    (hs : N.step s (.lose k) = some s') : N.arrived s' e i = N.arrived s e i := by
  obtain ⟨-, hqueue, hconsumed, -⟩ := lose_cases hs
  have hsame : ∀ i, putIn e (s'.queue i) = putIn e (s.queue i) := by
    intro i
    rw [hqueue]
    by_cases hi : i = k
    · subst hi
      rw [update_self, putIn_eq_nil hother]
      rfl
    · rw [update_of_ne hi]
  rw [arrived_eq, arrived_eq, passed_congr (fun i _ => hsame i) fun i _ => by rw [hconsumed], hsame]

/-- What an action puts in `e`. -/
def putIn? (e : κ) : Action κ α → Option α
  | .put k x => if k = e then some x else none
  | .take _ _ => none
  | .lose _ => none

variable (N) in
/-- Every message that the actions put in is on its way or consumed, in order, or was thrown
away. -/
structure Accounted (as : List (Action κ α)) (s : State κ α) : Prop where
  queue : ∀ k, ∀ x ∈ s.queue k, N.entry x.1 ∧ N.Leads x.1 k
  consumed : ∀ k, ∀ x ∈ s.consumed k, N.entry x.1 ∧ N.Leads x.1 k ∧ N.next k = none
  order : ∀ e, (N.arrived s e e).Sublist (as.filterMap (putIn? e))
  all : ∀ e, (N.arrived s e e ++ putIn e s.lost).Perm (as.filterMap (putIn? e))

lemma Accounted.put {as : List (Action κ α)} {x : α} (h : N.Accounted as s)
    (hs : N.step s (.put k x) = some s') : N.Accounted (as ++ [.put k x]) s' := by
  obtain ⟨hentry, hqueue, hconsumed, hlost⟩ := put_cases hs
  have hput : ∀ e i, i = k ∧ e = k ∨ putIn e (s'.queue i) = putIn e (s.queue i) := by
    intro e i
    rw [hqueue]
    by_cases hi : i = k
    · subst hi
      by_cases he : e = i
      · exact .inl ⟨rfl, he⟩
      · refine .inr ?_
        rw [update_self, putIn_append, putIn_eq_nil (l := [(i, x)]) (by simpa using Ne.symm he),
          List.append_nil]
    · exact .inr (by rw [update_of_ne hi])
  have harrived : ∀ e, N.arrived s' e e =
      N.arrived s e e ++ [Action.put k x].filterMap (putIn? e) := by
    intro e
    have hpassed : N.passed s' e e = N.passed s e e := by
      refine passed_congr (fun i hi => ?_) fun i _ => by rw [hconsumed]
      rcases hput e i with ⟨rfl, rfl⟩ | heq
      · exact absurd hi (lt_irrefl _)
      · exact heq
    rw [arrived_eq, arrived_eq, hpassed]
    by_cases he : e = k
    · subst he
      rw [hqueue, update_self, putIn_append, List.append_assoc]
      simp [putIn, putIn?]
    · rw [(hput e e).resolve_left fun heq => he heq.2]
      simp [putIn?, Ne.symm he]
  refine ⟨fun i y hy => ?_, ?_, fun e => ?_, fun e => ?_⟩
  · rw [hqueue] at hy
    rcases mem_update hy with ⟨rfl, hy⟩ | hy
    · rcases List.mem_append.mp hy with hy | hy
      · exact h.queue i y hy
      · obtain rfl := List.mem_singleton.mp hy
        exact ⟨hentry, Relation.ReflTransGen.refl⟩
    · exact h.queue i y hy
  · rw [hconsumed]
    exact h.consumed
  · rw [harrived, List.filterMap_append]
    exact (h.order e).append (List.Sublist.refl _)
  · rw [harrived, List.filterMap_append, hlost]
    refine List.Perm.trans ?_ ((h.all e).append_right _)
    rw [List.append_assoc, List.append_assoc]
    exact List.perm_append_comm.append_left _

/-- A message is where it was or in the next queue. -/
lemma mem_queue_take {i : κ} {x : κ × α} (hs : N.step s (.take k n) = some s')
    (hx : x ∈ s'.queue i) : x ∈ s.queue i ∨ N.next k = some i ∧ x ∈ (s.queue k).take n := by
  obtain ⟨-, -, ⟨j, hnext, hne, -, hqueue⟩ | ⟨-, hqueue, -⟩⟩ := take_cases hs
  · rw [hqueue] at hx
    rcases mem_update hx with ⟨rfl, hx⟩ | hx
    · exact (List.mem_append.mp hx).imp_right fun hx => ⟨hnext, hx⟩
    · rcases mem_update hx with ⟨rfl, hx⟩ | hx
      · exact .inl (List.mem_of_mem_drop hx)
      · exact .inl hx
  · rw [hqueue] at hx
    rcases mem_update hx with ⟨rfl, hx⟩ | hx
    · exact .inl (List.mem_of_mem_drop hx)
    · exact .inl hx

lemma Accounted.take {as : List (Action κ α)} (h : N.Accounted as s)
    (hs : N.step s (.take k n) = some s') : N.Accounted (as ++ [.take k n]) s' := by
  have htaken : ∀ x ∈ (s.queue k).take n, N.entry x.1 ∧ N.Leads x.1 k := fun x hx =>
    h.queue k x (List.mem_of_mem_take hx)
  have harrived : ∀ e, N.arrived s' e e = N.arrived s e e := by
    intro e
    by_cases hleads : N.Leads e k
    · exact arrived_take e hleads hs
    · exact arrived_take_other (fun x hx heq => hleads (heq ▸ (htaken x hx).2)) hs
  have hnone : ∀ e, [Action.take k n].filterMap (putIn? e : Action κ α → Option α) = [] :=
    fun _ => rfl
  refine ⟨fun i x hx => ?_, fun i x hx => ?_, fun e => ?_, fun e => ?_⟩
  · rcases mem_queue_take hs hx with hx | ⟨hnext, hx⟩
    · exact h.queue i x hx
    · exact ⟨(htaken x hx).1, (htaken x hx).2.tail hnext⟩
  · obtain ⟨-, -, ⟨-, -, -, hconsumed, -⟩ | ⟨hnext, -, hconsumed⟩⟩ := take_cases hs
    · rw [hconsumed] at hx
      exact h.consumed i x hx
    · rw [hconsumed] at hx
      rcases mem_update hx with ⟨rfl, hx⟩ | hx
      · rcases List.mem_append.mp hx with hx | hx
        · exact h.consumed i x hx
        · exact ⟨(htaken x hx).1, (htaken x hx).2, hnext⟩
      · exact h.consumed i x hx
  · rw [harrived, List.filterMap_append, hnone, List.append_nil]
    exact h.order e
  · rw [harrived, (take_cases hs).2.1, List.filterMap_append, hnone, List.append_nil]
    exact h.all e

lemma Accounted.lose {as : List (Action κ α)} (h : N.Accounted as s)
    (hs : N.step s (.lose k) = some s') : N.Accounted (as ++ [.lose k]) s' := by
  obtain ⟨-, hqueue, hconsumed, hlost⟩ := lose_cases hs
  have hnone : ∀ e, [Action.lose k].filterMap (putIn? e : Action κ α → Option α) = [] :=
    fun _ => rfl
  -- what is left of what has arrived, without what was thrown away
  have harrived : ∀ e, ∃ A B, N.arrived s e e = A ++ (putIn e (s.queue k) ++ B) ∧
      N.arrived s' e e = A ++ B := by
    intro e
    by_cases hleads : N.Leads e k
    · exact arrived_lose e hleads hs
    · have hother : ∀ x ∈ s.queue k, x.1 ≠ e :=
        fun x hx heq => hleads (heq ▸ (h.queue k x hx).2)
      refine ⟨N.arrived s e e, [], ?_, ?_⟩
      · rw [putIn_eq_nil hother, List.append_nil, List.append_nil]
      · rw [arrived_lose_other hother hs, List.append_nil]
  refine ⟨fun i x hx => ?_, ?_, fun e => ?_, fun e => ?_⟩
  · rw [hqueue] at hx
    rcases mem_update hx with ⟨-, hnil⟩ | hmem
    · cases hnil
    · exact h.queue i x hmem
  · rw [hconsumed]
    exact h.consumed
  · obtain ⟨A, B, hbefore, hafter⟩ := harrived e
    have horder := h.order e
    rw [hbefore] at horder
    rw [hafter, List.filterMap_append, hnone, List.append_nil]
    exact ((List.sublist_append_right _ B).append_left A).trans horder
  · obtain ⟨A, B, hbefore, hafter⟩ := harrived e
    have hall := h.all e
    rw [hbefore] at hall
    rw [hafter, hlost, putIn_append, List.filterMap_append, hnone, List.append_nil]
    refine List.Perm.trans ?_ hall
    have hmove : (B ++ (putIn e s.lost ++ putIn e (s.queue k))).Perm
        (putIn e (s.queue k) ++ (B ++ putIn e s.lost)) := by
      rw [← List.append_assoc]
      exact List.perm_append_comm
    simp only [List.append_assoc]
    exact hmove.append_left A

lemma arrived_start (e k : κ) : N.arrived (start : State κ α) e k = [] := by
  induction hr : N.rank k using Nat.strong_induction_on generalizing k with
  | _ r ih =>
    rw [arrived_eq]
    cases hnext : N.next k with
    | none =>
      rw [passed_last hnext]
      rfl
    | some j =>
      rw [passed, hnext]
      dsimp only
      rw [ih _ (hr ▸ N.next_lt hnext) j rfl]
      rfl

/-- **Nothing overtakes or comes twice** on the way of a message, and it gets there unless it is
thrown away. -/
theorem accounted_of_run {as : List (Action κ α)} (hr : N.system.run start as = some s) :
    N.Accounted as s := by
  refine System.run_history (I := N.Accounted) ?_ ?_ hr
  · refine ⟨fun k x hx => ?_, fun k x hx => ?_, fun e => ?_, fun e => ?_⟩
    · cases hx
    · cases hx
    · rw [arrived_start]
      exact List.Sublist.refl _
    · rw [arrived_start]
      exact List.Perm.refl _
  · intro as s a s' _ h hs
    cases a with
    | put k x => exact h.put hs
    | take k n => exact h.take hs
    | lose k => exact h.lose hs

/-- What is consumed was put in, in this order, and is the start of it unless something was thrown
away; once the queues are empty everything put in was consumed or thrown away. -/
theorem consumed_of_run {as : List (Action κ α)} (hr : N.system.run start as = some s) {e : κ}
    (hleads : N.Leads e k) (hnext : N.next k = none) :
    (putIn e (s.consumed k)).Sublist (as.filterMap (putIn? e)) ∧
      (putIn e s.lost = [] → putIn e (s.consumed k) <+: as.filterMap (putIn? e)) ∧
      ((∀ i, s.queue i = []) →
        (putIn e (s.consumed k) ++ putIn e s.lost).Perm (as.filterMap (putIn? e))) := by
  have hrest : ∀ i, N.Leads i k → ∃ rest, N.arrived s e i = putIn e (s.consumed k) ++ rest ∧
      ((∀ i, s.queue i = []) → rest = []) := by
    intro i hleads
    induction hleads using Relation.ReflTransGen.head_induction_on with
    | refl =>
      refine ⟨putIn e (s.queue k), ?_, fun hempty => by rw [hempty k]; rfl⟩
      rw [arrived_eq, passed_last hnext]
    | @head i j hnext _ ih =>
      obtain ⟨rest, harrived, hnil⟩ := ih
      refine ⟨rest ++ putIn e (s.queue i), ?_, fun hempty => ?_⟩
      · rw [arrived_eq, passed, hnext]
        dsimp only
        rw [harrived, List.append_assoc]
      · rw [hnil hempty, hempty i]
        rfl
  obtain ⟨rest, harrived, hnil⟩ := hrest e hleads
  have horder := (accounted_of_run hr).order e
  have hall := (accounted_of_run hr).all e
  rw [harrived] at horder hall
  refine ⟨(List.sublist_append_left _ rest).trans horder, fun hlost => ?_, fun hempty => ?_⟩
  · rw [hlost, List.append_nil] at hall
    rw [← horder.eq_of_length hall.length_eq]
    exact List.prefix_append _ _
  · rwa [hnil hempty, List.append_nil] at hall

end Network

end OmniPaxosKV.Channels
