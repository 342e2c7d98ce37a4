import Mathlib.Logic.Function.Basic

/-!
Transition systems with a guarded step function: `step s a` is the state after the action `a`,
or nothing where `a` is not enabled.

`Reaches C` follows only the runs whose steps all meet a condition `C` on the state before the
step and its action, so a result about it says what the condition buys over whole runs.
-/

namespace OmniPaxosKV.TransSys

variable {σ α : Type*}

structure System (σ α : Type*) where
  init : σ → Prop
  step : σ → α → Option σ

variable (T : System σ α)

/-- The states of the runs whose steps all meet `C`. -/
inductive System.Reaches (C : σ → α → Prop) : σ → Prop
  | init {s : σ} (h : T.init s) : System.Reaches C s
  | step {s s' : σ} {a : α} (h : System.Reaches C s) (hs : T.step s a = some s') (hc : C s a) :
      System.Reaches C s'

/-- The states of all runs. -/
abbrev System.Reachable : σ → Prop := T.Reaches fun _ _ => True

variable {T} {C : σ → α → Prop}

/-- **The invariant rule.** What holds at the start and is kept by every step of a run
holds in every state of the run. -/
theorem System.Reaches.invariant {I : σ → Prop} (hinit : ∀ s, T.init s → I s)
    (hstep : ∀ s a s', I s → T.step s a = some s' → C s a → I s')
    {s : σ} (h : T.Reaches C s) : I s := by
  induction h with
  | init h => exact hinit _ h
  | step _ hs hc ih => exact hstep _ _ _ ih hs hc

/-! ### Explicit runs -/

variable (T C)

/-- The state after the actions `as`, if they are enabled one after the other. -/
def System.run (s : σ) (as : List α) : Option σ := as.foldlM T.step s

/-- Each action of a run meets `C` in the state it is taken in. -/
def System.Meets : σ → List α → Prop
  | _, [] => True
  | s, a :: as =>
    C s a ∧ match T.step s a with
      | some s' => System.Meets s' as
      | none => True

instance System.decidableMeets [∀ s a, Decidable (C s a)] : ∀ s as, Decidable (T.Meets C s as)
  | _, [] => isTrue trivial
  | s, a :: as =>
    have : Decidable (match T.step s a with
        | some s' => T.Meets C s' as
        | none => True) :=
      match T.step s a with
      | some s' => System.decidableMeets s' as
      | none => isTrue trivial
    instDecidableAnd

variable {T C}

lemma System.meets_of_forall {as : List α} (h : ∀ a ∈ as, ∀ s, C s a) (s : σ) :
    T.Meets C s as := by
  induction as generalizing s with
  | nil => trivial
  | cons a as ih =>
    refine ⟨h a List.mem_cons_self s, ?_⟩
    cases T.step s a with
    | none => trivial
    | some s' => exact ih (fun b hb => h b (List.mem_cons_of_mem a hb)) s'

lemma System.Reaches.run {s : σ} (h : T.Reaches C s) (as : List α) {s' : σ}
    (hr : T.run s as = some s') (hm : T.Meets C s as) : T.Reaches C s' := by
  induction as generalizing s with
  | nil => cases hr; exact h
  | cons a as ih =>
    simp only [System.run, List.foldlM_cons, Option.bind_eq_bind, Option.bind_eq_some_iff] at hr
    obtain ⟨s₁, hs, hr⟩ := hr
    rw [System.Meets, hs] at hm
    exact ih (h.step hs hm.1) hr hm.2

lemma System.Reachable.run {s : σ} (h : T.Reachable s) (as : List α) {s' : σ}
    (hr : T.run s as = some s') : T.Reachable s' := by
  induction as generalizing s with
  | nil => cases hr; exact h
  | cons a as ih =>
    simp only [System.run, List.foldlM_cons, Option.bind_eq_bind, Option.bind_eq_some_iff] at hr
    obtain ⟨s₁, hs, hr⟩ := hr
    exact ih (System.Reaches.step h hs trivial) hr

lemma System.run_append {s s' s'' : σ} {as as' : List α} (hr : T.run s as = some s')
    (hr' : T.run s' as' = some s'') : T.run s (as ++ as') = some s'' := by
  rw [System.run, List.foldlM_append]
  change (T.run s as).bind _ = _
  rw [hr]
  exact hr'

lemma System.run_concat {s s' s'' : σ} {as : List α} {a : α} (hr : T.run s as = some s')
    (hs : T.step s' a = some s'') : T.run s (as ++ [a]) = some s'' :=
  System.run_append hr (by simpa [System.run] using hs)

/-- The last step of a run. -/
lemma System.run_last {s s'' : σ} {as : List α} {a : α} (hr : T.run s (as ++ [a]) = some s'') :
    ∃ s', T.run s as = some s' ∧ T.step s' a = some s'' := by
  rw [System.run, List.foldlM_append] at hr
  obtain ⟨s', hr, hs⟩ := Option.bind_eq_some_iff.mp hr
  exact ⟨s', hr, by simpa using hs⟩

lemma System.run_history_from {I : List α → σ → Prop}
    (hstep : ∀ as s a s', I as s → T.step s a = some s' → I (as ++ [a]) s')
    {s s' : σ} {as₀ as : List α} (h : I as₀ s) (hr : T.run s as = some s') : I (as₀ ++ as) s' := by
  induction as generalizing s as₀ with
  | nil =>
    cases hr
    rwa [List.append_nil]
  | cons a as ih =>
    simp only [System.run, List.foldlM_cons, Option.bind_eq_bind, Option.bind_eq_some_iff] at hr
    obtain ⟨s₁, hs, hr⟩ := hr
    have hrest := ih (hstep as₀ s a s₁ h hs) hr
    rwa [List.append_assoc] at hrest

/-- **The history rule.** What every step of the runs from a state keeps, of the actions so far
and the state they lead to, holds after each of these runs. -/
theorem System.run_history {I : List α → σ → Prop} {s₀ : σ} (hinit : I [] s₀)
    (hstep : ∀ as s a s', T.run s₀ as = some s → I as s → T.step s a = some s' → I (as ++ [a]) s')
    {as : List α} {s : σ} (hr : T.run s₀ as = some s) : I as s := by
  have hstart : T.run s₀ [] = some s₀ ∧ I [] s₀ := ⟨rfl, hinit⟩
  have hfrom := System.run_history_from (I := fun as s => T.run s₀ as = some s ∧ I as s)
    (fun as s a s' h hs => ⟨System.run_concat h.1 hs, hstep as s a s' h.1 h.2 hs⟩) hstart hr
  exact hfrom.2

/-- **The rule for what cannot be made good.** Where a step keeps `P` exactly when it meets `C`,
and nothing brings `P` back, a run keeps `P` exactly when all its steps meet `C`. -/
theorem System.run_iff_meets {I P : σ → Prop}
    (hI : ∀ s a s', I s → T.step s a = some s' → I s')
    (hP : ∀ s a s', I s → T.step s a = some s' → (P s' ↔ P s ∧ C s a)) {s s' : σ} {as : List α}
    (hs : I s) (hr : T.run s as = some s') : I s' ∧ (P s' ↔ P s ∧ T.Meets C s as) := by
  induction as generalizing s with
  | nil =>
    cases hr
    exact ⟨hs, by simp [System.Meets]⟩
  | cons a as ih =>
    simp only [System.run, List.foldlM_cons, Option.bind_eq_bind, Option.bind_eq_some_iff] at hr
    obtain ⟨s₁, hstep, hr⟩ := hr
    obtain ⟨hs', hiff⟩ := ih (hI s a s₁ hs hstep) hr
    refine ⟨hs', ?_⟩
    rw [hiff, hP s a s₁ hs hstep, System.Meets, hstep, and_assoc]

/-- **The simulation rule.** Where every step that meets `C` is matched by a run that meets `D`,
each state of the runs here has a match among the states there. -/
theorem System.Reaches.simulates {τ β : Type*} {U : System τ β} {D : τ → β → Prop}
    {R : σ → τ → Prop} (hinit : ∀ s, T.init s → ∃ u, U.Reaches D u ∧ R s u)
    (hstep : ∀ s a s' u, R s u → T.step s a = some s' → C s a →
      ∃ as u', U.run u as = some u' ∧ U.Meets D u as ∧ R s' u')
    {s : σ} (h : T.Reaches C s) : ∃ u, U.Reaches D u ∧ R s u := by
  induction h with
  | init h => exact hinit _ h
  | step _ hs hc ih =>
    obtain ⟨u, hu, hR⟩ := ih
    obtain ⟨as, u', hr, hmeets, hR'⟩ := hstep _ _ _ u hR hs hc
    exact ⟨u', hu.run as hr hmeets, hR'⟩

/-! ### Systems side by side -/

section SideBySide

variable {ι : Type*} [DecidableEq ι] (S : ι → System σ α)
  (guard : (ι → σ) → ι → α → Prop) [∀ s i a, Decidable (guard s i a)]

/-- An action of one of the systems is taken where the guard, which sees all, allows it. -/
def System.sideBySide : System (ι → σ) (ι × α) where
  init s := ∀ i, (S i).init (s i)
  step s x :=
    if guard s x.1 x.2 then ((S x.1).step (s x.1) x.2).map (Function.update s x.1) else none

variable {S guard}

lemma System.sideBySide_step {s s' : ι → σ} {i : ι} {a : α}
    (hs : (System.sideBySide S guard).step s (i, a) = some s') :
    guard s i a ∧ ∃ t, (S i).step (s i) a = some t ∧ s' = Function.update s i t := by
  dsimp only [System.sideBySide] at hs
  split at hs
  · rename_i hguard
    obtain ⟨t, ht, rfl⟩ := Option.map_eq_some_iff.mp hs
    exact ⟨hguard, t, ht, rfl⟩
  · cases hs

/-- A run of one of the systems, where the guard allows all of it. -/
lemma System.sideBySide_run (hguard : ∀ s i a, guard s i a) {s : ι → σ} {i : ι} {as : List α} {t : σ}
    (hr : (S i).run (s i) as = some t) :
    (System.sideBySide S guard).run s (as.map fun a => (i, a)) =
      some (Function.update s i t) := by
  induction as generalizing s with
  | nil =>
    obtain rfl := Option.some.inj hr
    rw [Function.update_eq_self]
    rfl
  | cons a as ih =>
    simp only [System.run, List.foldlM_cons, Option.bind_eq_bind, Option.bind_eq_some_iff] at hr
    obtain ⟨t', hs, hr⟩ := hr
    have hstep : (System.sideBySide S guard).step s (i, a) = some (Function.update s i t') := by
      simp [System.sideBySide, hguard, hs]
    have hrest := ih (s := Function.update s i t') (by rwa [Function.update_self])
    rw [Function.update_idem] at hrest
    rw [List.map_cons, System.run, List.foldlM_cons, hstep]
    exact hrest

end SideBySide

end OmniPaxosKV.TransSys
