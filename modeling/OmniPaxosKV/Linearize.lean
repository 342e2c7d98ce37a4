import Mathlib.Data.List.Nodup
import Mathlib.Data.List.Pairwise
import Mathlib.Data.List.TakeWhile
import OmniPaxosKV.Replay

/-!
Concurrent histories and linearizability.

A history says which operations were invoked, what each was given and what each that completed
returned, and which returned before which were invoked. An operation without a result may take
effect at any time after its invocation, or never. A linearization is a sequence of operations,
each with a result, that a sequential machine accepts and that respects the history.
-/

namespace OmniPaxosKV.Linearize

open Replay

variable {ρ σ ι ο : Type*}

structure History (ρ ι ο : Type*) where
  invoked : ρ → Prop
  input : ρ → ι
  result : ρ → Option ο
  before : ρ → ρ → Prop

/-- The machine gives these results from `s`. -/
def Accepts (M : Machine σ ι ο) : σ → List (ι × ο) → Prop
  | _, [] => True
  | s, (i, o) :: l => (M.step s i).2 = o ∧ Accepts M (M.step s i).1 l

/-- The operations of a sequence with what they were given. -/
def History.calls (H : History ρ ι ο) (S : List (ρ × ο)) : List (ι × ο) :=
  S.map fun p => (H.input p.1, p.2)

structure Linearization (M : Machine σ ι ο) (H : History ρ ι ο) (S : List (ρ × ο)) : Prop where
  nodup : (S.map Prod.fst).Nodup
  invoked : ∀ p ∈ S, H.invoked p.1
  complete : ∀ r o, H.invoked r → H.result r = some o → (r, o) ∈ S
  order : S.Pairwise fun a b => ¬ H.before b.1 a.1
  accepts : Accepts M M.start (H.calls S)

def Linearizable (M : Machine σ ι ο) (H : History ρ ι ο) : Prop := ∃ S, Linearization M H S

variable {M : Machine σ ι ο} {H H' : History ρ ι ο}

/-! ### Accepted sequences -/

/-- The state after a sequence of calls. -/
def endState (M : Machine σ ι ο) (s : σ) (l : List (ι × ο)) : σ :=
  M.replayFrom s (l.map Prod.fst)

lemma accepts_append {s : σ} {l l' : List (ι × ο)} :
    Accepts M s (l ++ l') ↔ Accepts M s l ∧ Accepts M (endState M s l) l' := by
  induction l generalizing s with
  | nil => simp [Accepts, endState]
  | cons p l ih =>
    obtain ⟨i, o⟩ := p
    rw [List.cons_append, Accepts, ih, Accepts, and_assoc]
    rfl

/-- An input that never changes the state. -/
def Pure (M : Machine σ ι ο) (i : ι) : Prop := ∀ s, (M.step s i).1 = s

/-- Leaving out calls that do not change the state leaves the rest accepted. -/
lemma accepts_filter {p : ρ × ο → Bool} {S : List (ρ × ο)} {s : σ}
    (hpure : ∀ x ∈ S, p x = false → Pure M (H.input x.1))
    (h : Accepts M s (H.calls S)) : Accepts M s (H.calls (S.filter p)) := by
  induction S generalizing s with
  | nil => exact h
  | cons x S ih =>
    obtain ⟨hx, hS⟩ := h
    have ih' := ih (s := (M.step s (H.input x.1)).1) (fun y hy => hpure y (by simp [hy])) hS
    rcases hp : p x with _ | _
    · rw [List.filter_cons_of_neg (by simp [hp])]
      have := hpure x (by simp) hp s
      rwa [this] at ih'
    · rw [List.filter_cons_of_pos hp]
      exact ⟨hx, ih'⟩

/-- Calls that do not change the state and are answered as in `s` are accepted there. -/
lemma accepts_pure {S : List (ρ × ο)} {s : σ}
    (h : ∀ x ∈ S, Pure M (H.input x.1) ∧ (M.step s (H.input x.1)).2 = x.2) :
    Accepts M s (H.calls S) ∧ endState M s (H.calls S) = s := by
  induction S with
  | nil => exact ⟨trivial, rfl⟩
  | cons x S ih =>
    obtain ⟨hx, hres⟩ := h x (by simp)
    have ih' := ih fun y hy => h y (by simp [hy])
    have hs : (M.step s (H.input x.1)).1 = s := hx s
    refine ⟨⟨hres, ?_⟩, ?_⟩
    · rw [hs]; exact ih'.1
    · have hend : endState M s (H.calls (x :: S)) =
          endState M (M.step s (H.input x.1)).1 (H.calls S) := rfl
      rw [hend, hs]
      exact ih'.2

/-! ### Between histories -/

/-- A linearization of a history is one of every history that asks for less. -/
lemma Linearization.transfer {S : List (ρ × ο)} (h : Linearization M H S)
    (hinput : H'.input = H.input) (hinv : ∀ p ∈ S, H'.invoked p.1)
    (hcomp : ∀ r o, H'.invoked r → H'.result r = some o → H.invoked r ∧ H.result r = some o)
    (hord : S.Pairwise fun a b => ¬ H'.before b.1 a.1) : Linearization M H' S where
  nodup := h.nodup
  invoked := hinv
  complete r o hr ho := by
    obtain ⟨hr', ho'⟩ := hcomp r o hr ho
    exact h.complete r o hr' ho'
  order := hord
  accepts := by
    have hcalls : H'.calls S = H.calls S := by unfold History.calls; rw [hinput]
    rw [hcalls]
    exact h.accepts

/-- The history without some of its operations. -/
def History.without (H : History ρ ι ο) (q : ρ → Prop) : History ρ ι ο :=
  { H with invoked := fun r => H.invoked r ∧ ¬ q r }

/-- Leaving out operations that do not change the state keeps a history linearizable. -/
lemma Linearizable.without {q : ρ → Prop} (hpure : ∀ r, q r → Pure M (H.input r))
    (h : Linearizable M H) : Linearizable M (H.without q) := by
  classical
  obtain ⟨S, hS⟩ := h
  have hsub : (S.filter fun p => ¬ q p.1).Sublist S := List.filter_sublist
  refine ⟨S.filter fun p => ¬ q p.1, ?_, ?_, ?_, ?_, ?_⟩
  · exact hS.nodup.sublist (hsub.map _)
  · intro p hp
    obtain ⟨hp, hq⟩ := List.mem_filter.mp hp
    exact ⟨hS.invoked p hp, by simpa using hq⟩
  · intro r o hr ho
    have hmem := hS.complete r o hr.1 ho
    exact List.mem_filter.mpr ⟨hmem, by simpa using hr.2⟩
  · exact hS.order.sublist hsub
  · refine accepts_filter (H := H) (fun x _ hx => hpure x.1 ?_) hS.accepts
    simpa using hx

/-- Operations that do not change the state and are answered as at the start can be put in
front, if nothing else returned before one of them was invoked. -/
lemma Linearization.cons_pure {q : ρ → Prop} {S R : List (ρ × ο)}
    (h : Linearization M (H.without q) S)
    (hR : ∀ r o, (r, o) ∈ R ↔ H.invoked r ∧ q r ∧ H.result r = some o)
    (hnd : (R.map Prod.fst).Nodup) (hordR : R.Pairwise fun a b => ¬ H.before b.1 a.1)
    (hpure : ∀ x ∈ R, Pure M (H.input x.1) ∧ (M.step M.start (H.input x.1)).2 = x.2)
    (hfirst : ∀ a ∈ R, ∀ b ∈ S, ¬ H.before b.1 a.1) :
    Linearization M H (R ++ S) where
  nodup := by
    rw [List.map_append]
    refine hnd.append h.nodup ?_
    intro r hr hr'
    obtain ⟨⟨r₁, o₁⟩, h₁, rfl⟩ := List.mem_map.mp hr
    obtain ⟨⟨r₂, o₂⟩, h₂, heq⟩ := List.mem_map.mp hr'
    have hq := ((hR r₁ o₁).mp h₁).2.1
    have hnq := (h.invoked _ h₂).2
    simp only at heq
    exact hnq (heq ▸ hq)
  invoked p hp := by
    rcases List.mem_append.mp hp with hp | hp
    · exact ((hR p.1 p.2).mp hp).1
    · exact (h.invoked p hp).1
  complete r o hr ho := by
    by_cases hq : q r
    · exact List.mem_append_left _ ((hR r o).mpr ⟨hr, hq, ho⟩)
    · exact List.mem_append_right _ (h.complete r o ⟨hr, hq⟩ ho)
  order := List.pairwise_append.mpr ⟨hordR, h.order, hfirst⟩
  accepts := by
    obtain ⟨hacc, hend⟩ := accepts_pure (H := H) hpure
    rw [History.calls, List.map_append]
    refine accepts_append.mpr ⟨hacc, ?_⟩
    have hend' : endState M M.start (R.map fun p => (H.input p.1, p.2)) = M.start := hend
    rw [hend']
    exact h.accepts

/-! ### Completing an operation -/

/-- An input whose answer, and the state after it, are the same from every state. -/
def Blind (M : Machine σ ι ο) (i : ι) : Prop := ∀ s t, M.step s i = M.step t i

/-- What starts with a blind input is accepted from every state or from none. -/
lemma accepts_of_blind {l : List (ι × ο)} (hl : ∀ p ∈ l.head?, Blind M p.1) {s t : σ}
    (h : Accepts M s l) : Accepts M t l := by
  cases l with
  | nil => exact h
  | cons p l =>
    obtain ⟨i, o⟩ := p
    have hstep : M.step t i = M.step s i := hl (i, o) rfl t s
    unfold Accepts at h ⊢
    rw [hstep]
    exact h

/-- Two blocks that start blindly can change places, if what follows them starts blindly. -/
lemma accepts_swap {s : σ} {l₁ l₂ l₃ : List (ι × ο)} (h₁ : ∀ p ∈ l₁.head?, Blind M p.1)
    (h₂ : ∀ p ∈ l₂.head?, Blind M p.1) (h₃ : ∀ p ∈ l₃.head?, Blind M p.1)
    (h : Accepts M s (l₁ ++ (l₂ ++ l₃))) : Accepts M s (l₂ ++ (l₁ ++ l₃)) := by
  obtain ⟨hacc₁, h⟩ := accepts_append.mp h
  obtain ⟨hacc₂, hacc₃⟩ := accepts_append.mp h
  refine accepts_append.mpr ⟨accepts_of_blind h₂ hacc₂, ?_⟩
  exact accepts_append.mpr ⟨accepts_of_blind h₁ hacc₁, accepts_of_blind h₃ hacc₃⟩

/-- An operation that is not in a linearization, and that nothing has to follow, can be put at
its end. -/
lemma Linearization.snoc {S : List (ρ × ο)} (h : Linearization M H S) {w : ρ} {o : ο}
    (hw : H.invoked w) (hnew : w ∉ S.map Prod.fst) (hopen : ∀ r, ¬ H.before w r)
    (hout : ∀ s, (M.step s (H.input w)).2 = o) : Linearization M H (S ++ [(w, o)]) where
  nodup := by
    rw [List.map_append]
    exact h.nodup.append (List.nodup_singleton w) (by simpa using hnew)
  invoked p hp := by
    rcases List.mem_append.mp hp with hp | hp
    · exact h.invoked p hp
    · rw [List.mem_singleton.mp hp]
      exact hw
  complete r o' hr ho := List.mem_append_left _ (h.complete r o' hr ho)
  order := by
    refine List.pairwise_append.mpr ⟨h.order, List.pairwise_singleton _ _, ?_⟩
    intro a _ b hb
    rw [List.mem_singleton.mp hb]
    exact hopen a.1
  accepts := by
    rw [History.calls, List.map_append]
    exact accepts_append.mpr ⟨h.accepts, hout _, trivial⟩

/-- A sequence cut at its first late operation, at `w`, and at the first blind one after `w`. -/
lemma exists_blocks {S : List (ρ × ο)} {w : ρ} {o : ο} (hmem : (w, o) ∈ S) (late blind : ρ → Prop) :
    ∃ X Y Z B, S = X ++ (Y ++ ((w, o) :: Z ++ B)) ∧ (∀ x ∈ X, ¬ late x.1) ∧
      (∀ y ∈ Y.head?, late y.1) ∧ (∀ z ∈ Z, ¬ blind z.1) ∧ ∀ b ∈ B.head?, blind b.1 := by
  classical
  have hcut : ∀ (q : ρ → Prop) (l : List (ρ × ο)), (∀ x ∈ l.takeWhile fun x => ¬ q x.1, ¬ q x.1) ∧
      ∀ x ∈ (l.dropWhile fun x => ¬ q x.1).head?, q x.1 := by
    intro q l
    refine ⟨fun x hx => by simpa using List.mem_takeWhile_imp hx, fun x hx => ?_⟩
    have hnot := List.head?_dropWhile_not (fun x : ρ × ο => decide (¬ q x.1)) l
    rw [Option.mem_def.mp hx] at hnot
    simpa using hnot
  obtain ⟨F, R, rfl⟩ := List.append_of_mem hmem
  refine ⟨F.takeWhile fun x => ¬ late x.1, F.dropWhile fun x => ¬ late x.1,
    R.takeWhile fun x => ¬ blind x.1, R.dropWhile fun x => ¬ blind x.1, ?_, (hcut late F).1,
    (hcut late F).2, (hcut blind R).1, (hcut blind R).2⟩
  rw [← List.append_assoc, List.takeWhile_append_dropWhile, List.cons_append,
    List.takeWhile_append_dropWhile]

/-- `H'` is `H` with `w` completed with `o` before the `late` operations were invoked. -/
structure Completes (M : Machine σ ι ο) (H H' : History ρ ι ο) (w : ρ) (o : ο)
    (late : ρ → Prop) : Prop where
  input : H'.input = H.input
  invoked : H'.invoked = H.invoked
  result : ∀ r o', H'.result r = some o' → r = w ∧ o' = o ∨ H.result r = some o'
  before : ∀ a b, H'.before a b → H.before a b ∨ a = w ∧ late b
  invoked_self : H.invoked w
  irrefl : ∀ r, ¬ H.before r r
  -- nothing was known to come after `w`, which is answered with `o` wherever it takes effect
  open_self : ∀ r, ¬ H.before w r
  answer : ∀ s, (M.step s (H.input w)).2 = o
  blind_self : Blind M (H.input w)
  not_late_self : ¬ late w
  blind_late : ∀ r, H.invoked r → late r → Blind M (H.input r)
  -- what was over when an operation that is not late was invoked was over before the late ones
  between : ∀ r z y, H.before r z → ¬ late z → late y → H.before r y

section Completes

variable {w : ρ} {o : ο} {late : ρ → Prop}

/-- A linearization, if there is one, can be had with `w` in it. -/
lemma Completes.exists_mem (h : Completes M H H' w o late) (hlin : Linearizable M H) :
    ∃ S, Linearization M H S ∧ (w, o) ∈ S := by
  obtain ⟨S, hS⟩ := hlin
  by_cases hw : w ∈ S.map Prod.fst
  · obtain ⟨⟨r, o'⟩, hr, rfl⟩ := List.mem_map.mp hw
    obtain ⟨F, R, rfl⟩ := List.append_of_mem hr
    have hacc := hS.accepts
    rw [History.calls, List.map_append, List.map_cons] at hacc
    obtain ⟨-, hout, -⟩ := accepts_append.mp hacc
    have ho : o' = o := hout.symm.trans (h.answer _)
    rw [ho] at hS hr
    exact ⟨_, hS, hr⟩
  · refine ⟨S ++ [(w, o)], hS.snoc h.invoked_self hw h.open_self h.answer, ?_⟩
    exact List.mem_append_right S (List.mem_singleton_self _)

/-- What is not late may come before a block that starts with something late. -/
lemma Completes.not_before (h : Completes M H H' w o late) {Y : List (ρ × ο)}
    (hY : ∀ y ∈ Y.head?, late y.1) (horder : Y.Pairwise fun a b => ¬ H.before b.1 a.1) {z : ρ}
    (hz : ¬ late z) : ∀ y ∈ Y, ¬ H.before y.1 z := by
  cases Y with
  | nil => simp
  | cons y₀ Y =>
    intro y hy hbefore
    have hfirst : H.before y.1 y₀.1 := h.between y.1 z y₀.1 hbefore hz (hY y₀ rfl)
    rcases List.mem_cons.mp hy with rfl | hy
    · exact h.irrefl _ hfirst
    · exact (List.pairwise_cons.mp horder).1 y hy hfirst

/-- The order of the completed history allows what has nothing late in front of `w`. -/
lemma Completes.order (h : Completes M H H' w o late) {X R : List (ρ × ο)}
    (hnodup : ((X ++ (w, o) :: R).map Prod.fst).Nodup) (hX : ∀ x ∈ X, ¬ late x.1)
    (horder : (X ++ (w, o) :: R).Pairwise fun a b => ¬ H.before b.1 a.1) :
    (X ++ (w, o) :: R).Pairwise fun a b => ¬ H'.before b.1 a.1 := by
  have hlate : (X ++ (w, o) :: R).Pairwise fun a b => ¬ (b.1 = w ∧ late a.1) := by
    rw [List.map_append, List.map_cons] at hnodup
    obtain ⟨hXn, hRn, hdisj⟩ := List.nodup_append.mp hnodup
    have hw : ∀ b ∈ R, b.1 ≠ w := by
      rintro b hb rfl
      exact (List.nodup_cons.mp hRn).1 (List.mem_map.mpr ⟨b, hb, rfl⟩)
    have hR : ((w, o) :: R).Pairwise fun a b => ¬ (b.1 = w ∧ late a.1) :=
      List.pairwise_cons.mpr ⟨fun b hb hbad => hw b hb hbad.1,
        List.pairwise_of_forall_mem_list fun a _ b hb hbad => hw b hb hbad.1⟩
    have hXX : X.Pairwise fun a b => ¬ (b.1 = w ∧ late a.1) :=
      List.pairwise_of_forall_mem_list fun a ha b _ hbad => hX a ha hbad.2
    exact List.pairwise_append.mpr ⟨hXX, hR, fun a ha b _ hbad => hX a ha hbad.2⟩
  refine (horder.and hlate).imp ?_
  rintro a b ⟨hnb, hnl⟩ hbefore
  rcases h.before _ _ hbefore with hb | hb
  · exact hnb hb
  · exact hnl hb

/-- **Completing an operation** keeps a history linearizable when what the operation now comes
before does not look at the state: it moves in front of the first of them, with the operations
that look at the state it leaves. -/
theorem Completes.linearizable (h : Completes M H H' w o late) (hlin : Linearizable M H) :
    Linearizable M H' := by
  obtain ⟨S, hS, hmem⟩ := h.exists_mem hlin
  obtain ⟨X, Y, Z, B, hsplit, hX, hY, hZ, hB⟩ :=
    exists_blocks hmem late fun r => Blind M (H.input r)
  have hperm : (X ++ ((w, o) :: Z ++ (Y ++ B))).Perm S := by
    rw [hsplit]
    refine List.Perm.append_left X ?_
    rw [← List.append_assoc, ← List.append_assoc]
    exact List.perm_append_comm.append_right B
  have hnodup : ((X ++ ((w, o) :: Z ++ (Y ++ B))).map Prod.fst).Nodup :=
    (hperm.map Prod.fst).nodup_iff.mpr hS.nodup
  have hinv : ∀ p ∈ X ++ (Y ++ ((w, o) :: Z ++ B)), H.invoked p.1 := hsplit ▸ hS.invoked
  have horder := hsplit ▸ hS.order
  have haccepts := hsplit ▸ hS.accepts
  obtain ⟨hXX, horder, hXR⟩ := List.pairwise_append.mp horder
  obtain ⟨hYY, horder, hYR⟩ := List.pairwise_append.mp horder
  obtain ⟨hWW, hBB, hWB⟩ := List.pairwise_append.mp horder
  have hW : ∀ z ∈ (w, o) :: Z, ¬ late z.1 := by
    intro z hz
    rcases List.mem_cons.mp hz with rfl | hz'
    · exact h.not_late_self
    · exact fun hl => hZ z hz' (h.blind_late z.1 (hinv z (by simp [hz'])) hl)
  have hmoved : (X ++ ((w, o) :: Z ++ (Y ++ B))).Pairwise fun a b => ¬ H.before b.1 a.1 := by
    refine List.pairwise_append.mpr ⟨hXX, List.pairwise_append.mpr ⟨hWW, ?_, ?_⟩, ?_⟩
    · exact List.pairwise_append.mpr
        ⟨hYY, hBB, fun a ha b hb => hYR a ha b (List.mem_append_right _ hb)⟩
    · intro a ha b hb
      rcases List.mem_append.mp hb with hb | hb
      · exact h.not_before hY hYY (hW a ha) b hb
      · exact hWB a ha b hb
    · intro a ha b hb
      refine hXR a ha b ?_
      simp only [List.mem_append] at hb ⊢
      tauto
  refine ⟨X ++ ((w, o) :: Z ++ (Y ++ B)), hnodup, ?_, ?_, h.order hnodup hX hmoved, ?_⟩
  · intro p hp
    rw [h.invoked]
    exact hS.invoked p (hperm.mem_iff.mp hp)
  · intro r o' hr ho
    rw [h.invoked] at hr
    refine hperm.mem_iff.mpr ?_
    rcases h.result r o' ho with ⟨rfl, rfl⟩ | ho
    · exact hmem
    · exact hS.complete r o' hr ho
  · have hcalls : ∀ l, H'.calls l = H.calls l := fun l => by unfold History.calls; rw [h.input]
    have hblind : ∀ l : List (ρ × ο), (∀ p ∈ l.head?, Blind M (H.input p.1)) →
        ∀ p ∈ (H.calls l).head?, Blind M p.1 := by
      intro l hl p hp
      rw [History.calls, List.head?_map] at hp
      obtain ⟨x, hx, rfl⟩ := Option.map_eq_some_iff.mp hp
      exact hl x hx
    rw [hcalls]
    simp only [History.calls, List.map_append] at haccepts ⊢
    obtain ⟨haccX, haccR⟩ := accepts_append.mp haccepts
    refine accepts_append.mpr ⟨haccX, accepts_swap (hblind Y ?_) (hblind _ ?_) (hblind B hB) haccR⟩
    · intro y hy
      have hyY : y ∈ Y := List.mem_of_head? hy
      exact h.blind_late y.1 (hinv y (by simp [hyY])) (hY y hy)
    · rintro p ⟨⟩
      exact h.blind_self

end Completes

/-! ### Histories served in the order of a log -/

/-- The operations of a log with the answers the machine gives them in log order. -/
def inLogOrder (M : Machine σ ι ο) (input : ρ → ι) (s : σ) : List ρ → List (ρ × ο)
  | [] => []
  | r :: l => (r, (M.step s (input r)).2) :: inLogOrder M input (M.step s (input r)).1 l

lemma map_fst_inLogOrder (input : ρ → ι) (s : σ) (l : List ρ) :
    (inLogOrder M input s l).map Prod.fst = l := by
  induction l generalizing s with
  | nil => rfl
  | cons r l ih => rw [inLogOrder, List.map_cons, ih]

lemma accepts_inLogOrder (s : σ) (l : List ρ) :
    Accepts M s (H.calls (inLogOrder M H.input s l)) := by
  induction l generalizing s with
  | nil => trivial
  | cons r l ih => exact ⟨rfl, ih _⟩

lemma mem_inLogOrder {input : ρ → ι} {l : List ρ} {i : ℕ} {r : ρ} (h : l[i]? = some r) (s : σ) :
    (r, (M.step (M.replayFrom s ((l.take i).map input)) (input r)).2) ∈
      inLogOrder M input s l := by
  induction l generalizing s i with
  | nil => simp at h
  | cons a l ih =>
    cases i with
    | zero =>
      obtain rfl : a = r := by simpa using h
      simp [inLogOrder]
    | succ i =>
      have := ih (i := i) (by simpa using h) (M.step s (input a)).1
      rw [inLogOrder]
      exact List.mem_cons_of_mem _ this

/-- **Linearization by a log.** If the operations of a log are distinct, were invoked, include
every completed one with the answer of its place, and are in an order that real time allows,
then the history is linearizable. -/
theorem linearizable_of_log (l : List ρ) (hnd : l.Nodup) (hinv : ∀ r ∈ l, H.invoked r)
    (hcomp : ∀ r o, H.invoked r → H.result r = some o →
      ∃ i, l[i]? = some r ∧ o = M.answer ((l.take i).map H.input) (H.input r))
    (hord : l.Pairwise fun a b => ¬ H.before b a) : Linearizable M H := by
  refine ⟨inLogOrder M H.input M.start l, ?_, ?_, ?_, ?_, accepts_inLogOrder _ _⟩
  · rw [map_fst_inLogOrder]; exact hnd
  · intro p hp
    have : p.1 ∈ (inLogOrder M H.input M.start l).map Prod.fst := List.mem_map_of_mem hp
    rw [map_fst_inLogOrder] at this
    exact hinv p.1 this
  · intro r o hr ho
    obtain ⟨i, hi, rfl⟩ := hcomp r o hr ho
    exact mem_inLogOrder hi M.start
  · have := map_fst_inLogOrder (M := M) H.input M.start l
    rw [← this] at hord
    exact List.pairwise_map.mp hord

/-! ### Part of a history -/

section Part

variable {ρ' σ' ι' ο' : Type*} {N : Machine σ' ι' ο'} {K : History ρ' ι' ο'}
  {part : ρ → Option ρ'} {R : σ → σ' → Prop}

/-- `K` has the operations of `H` that `part` says, and asks for no more. `N` keeps of a state of
`M` what `R` says, which the other operations do not change. -/
structure IsPart (M : Machine σ ι ο) (H : History ρ ι ο) (N : Machine σ' ι' ο')
    (K : History ρ' ι' ο') (part : ρ → Option ρ') (R : σ → σ' → Prop) : Prop where
  one : ∀ r q i, part r = some i → part q = some i → r = q
  start : R M.start N.start
  outside : ∀ r, H.invoked r → part r = none → ∀ s t, R s t → R (M.step s (H.input r)).1 t
  inside : ∀ r i, H.invoked r → part r = some i → K.invoked i ∧
    ∀ s t, R s t → R (M.step s (H.input r)).1 (N.step t (K.input i)).1
  before : ∀ r q i j, part r = some i → part q = some j → K.before i j → H.before r q
  complete : ∀ i o, K.invoked i → K.result i = some o → ∃ r o', part r = some i ∧
    H.invoked r ∧ H.result r = some o' ∧
    ∀ s t, R s t → (M.step s (H.input r)).2 = o' → (N.step t (K.input i)).2 = o

/-- An accepted operation is in the part where the small machine has the state it should. -/
lemma IsPart.mem_inLogOrder (h : IsPart M H N K part R) {S : List (ρ × ο)} {s : σ} {t : σ'}
    (hst : R s t) (hinv : ∀ p ∈ S, H.invoked p.1) (hacc : Accepts M s (H.calls S)) {r : ρ} {o : ο}
    (hmem : (r, o) ∈ S) {i : ρ'} (hi : part r = some i) :
    ∃ s' t', R s' t' ∧ (M.step s' (H.input r)).2 = o ∧ (i, (N.step t' (K.input i)).2) ∈
      inLogOrder N K.input t ((S.map Prod.fst).filterMap part) := by
  induction S generalizing s t with
  | nil => cases hmem
  | cons p S ih =>
    obtain ⟨r₀, o₀⟩ := p
    obtain ⟨ho, hacc⟩ := hacc
    have hr₀ : H.invoked r₀ := hinv (r₀, o₀) List.mem_cons_self
    have hinv' : ∀ p ∈ S, H.invoked p.1 := fun p hp => hinv p (List.mem_cons_of_mem _ hp)
    rcases hpart : part r₀ with _ | j
    · rw [List.map_cons, List.filterMap_cons_none hpart]
      rcases List.mem_cons.mp hmem with heq | hmem
      · obtain ⟨rfl, rfl⟩ := Prod.mk.inj heq
        cases hi.symm.trans hpart
      · exact ih (h.outside r₀ hr₀ hpart s t hst) hinv' hacc hmem
    · rw [List.map_cons, List.filterMap_cons_some hpart, inLogOrder]
      rcases List.mem_cons.mp hmem with heq | hmem
      · obtain ⟨rfl, rfl⟩ := Prod.mk.inj heq
        obtain rfl : i = j := Option.some.inj (hi.symm.trans hpart)
        exact ⟨s, t, hst, ho, List.mem_cons_self⟩
      · obtain ⟨s', t', hst', ho', hin⟩ :=
          ih ((h.inside r₀ j hr₀ hpart).2 s t hst) hinv' hacc hmem
        exact ⟨s', t', hst', ho', List.mem_cons_of_mem _ hin⟩

/-- **Part of a linearizable history** is linearizable. -/
theorem IsPart.linearizable (h : IsPart M H N K part R) (hlin : Linearizable M H) :
    Linearizable N K := by
  obtain ⟨S, hS⟩ := hlin
  set l := (S.map Prod.fst).filterMap part
  have hfst : (inLogOrder N K.input N.start l).map Prod.fst = l := map_fst_inLogOrder _ _ _
  refine ⟨inLogOrder N K.input N.start l, ?_, ?_, ?_, ?_, accepts_inLogOrder _ _⟩
  · rw [hfst]
    exact hS.nodup.filterMap fun r q i hr hq => h.one r q i hr hq
  · intro p hp
    have hmem : p.1 ∈ l := hfst ▸ List.mem_map_of_mem hp
    obtain ⟨r, hr, hi⟩ := List.mem_filterMap.mp hmem
    obtain ⟨x, hx, rfl⟩ := List.mem_map.mp hr
    exact (h.inside x.1 p.1 (hS.invoked x hx) hi).1
  · intro i o hi ho
    obtain ⟨r, o', hpart, hr, ho', hsame⟩ := h.complete i o hi ho
    obtain ⟨s, t, hst, hres, hin⟩ :=
      h.mem_inLogOrder h.start hS.invoked hS.accepts (hS.complete r o' hr ho') hpart
    rwa [hsame s t hst hres] at hin
  · have hord : l.Pairwise fun i j => ¬ K.before j i := by
      have hS' : (S.map Prod.fst).Pairwise fun r q => ¬ H.before q r :=
        List.pairwise_map.mpr hS.order
      refine List.pairwise_filterMap.mpr (hS'.imp ?_)
      intro r q hnot i hi j hj hbefore
      exact hnot (h.before q r j i hj hi hbefore)
    rw [← hfst] at hord
    exact List.pairwise_map.mp hord

end Part

end OmniPaxosKV.Linearize
