import Mathlib.Data.Set.Basic
import Mathlib.Logic.Function.Basic

/-!
Resources that are held in slots.

A slot holds one resource at most. A resource leaves its slot when the slot is given another
one or emptied, and is then released or left behind. `Tight` says that none was left behind.
-/

namespace OmniPaxosKV.Slots

open Function (update)

@[ext]
structure Table (κ ρ : Type*) where
  held : κ → Option ρ
  /-- What was ever held. -/
  ever : Set ρ
  released : Set ρ

namespace Table

variable {κ ρ : Type*} (t : Table κ ρ)

def Held (r : ρ) : Prop := ∃ k, t.held k = some r

/-- Gives `x` to a slot, after releasing what it held or not. -/
def put [DecidableEq κ] (k : κ) (x : Option ρ) (release : Bool) : Table κ ρ where
  held := update t.held k x
  ever := t.ever ∪ {r | x = some r}
  released := t.released ∪ {r | release = true ∧ t.held k = some r}

/-- Releases what is held and empties every slot. -/
def clear : Table κ ρ where
  held _ := none
  ever := t.ever
  released := t.released ∪ {r | t.Held r}

/-- What was held and no longer is has been released. -/
def Tight : Prop := ∀ r ∈ t.ever, ¬ t.Held r → r ∈ t.released

/-- A resource is in one slot, and is not released while it is there. -/
structure WellFormed : Prop where
  inj : ∀ k k' r, t.held k = some r → t.held k' = some r → k = k'
  ever : ∀ r, t.Held r → r ∈ t.ever
  unreleased : ∀ r, t.Held r → r ∉ t.released
  released : ∀ r ∈ t.released, r ∈ t.ever

variable {t}

lemma WellFormed.clear (h : t.WellFormed) : t.clear.WellFormed := by
  refine ⟨?_, ?_, ?_, ?_⟩
  · rintro k k' r ⟨⟩
  · rintro r ⟨k, ⟨⟩⟩
  · rintro r ⟨k, ⟨⟩⟩
  · rintro r (hrel | hheld)
    · exact h.released r hrel
    · exact h.ever r hheld

/-- Clearing leaves nothing behind. -/
lemma tight_clear_iff : t.clear.Tight ↔ t.Tight := by
  constructor
  · intro ht r hr hnot
    rcases ht r hr (by rintro ⟨k, ⟨⟩⟩) with hrel | hheld
    · exact hrel
    · exact absurd hheld hnot
  · intro ht r hr _
    by_cases hheld : t.Held r
    · exact Or.inr hheld
    · exact Or.inl (ht r hr hheld)

variable [DecidableEq κ] {k : κ} {x : Option ρ} {release : Bool}

/-- What a slot is given was never held before. -/
lemma WellFormed.put (h : t.WellFormed) (hx : ∀ r, x = some r → r ∉ t.ever) :
    (t.put k x release).WellFormed := by
  have hcases : ∀ k' r, (t.put k x release).held k' = some r →
      k' = k ∧ x = some r ∨ k' ≠ k ∧ t.held k' = some r := by
    intro k' r hr
    by_cases hk : k' = k
    · subst hk
      exact Or.inl ⟨rfl, by simpa [Table.put] using hr⟩
    · exact Or.inr ⟨hk, by simpa [Table.put, hk] using hr⟩
  refine ⟨fun k₁ k₂ r h₁ h₂ => ?_, ?_, ?_, ?_⟩
  · rcases hcases k₁ r h₁ with ⟨rfl, hx₁⟩ | ⟨-, hold₁⟩
    · rcases hcases k₂ r h₂ with ⟨rfl, -⟩ | ⟨-, hold₂⟩
      · rfl
      · exact absurd (h.ever r ⟨k₂, hold₂⟩) (hx r hx₁)
    · rcases hcases k₂ r h₂ with ⟨-, hx₂⟩ | ⟨-, hold₂⟩
      · exact absurd (h.ever r ⟨k₁, hold₁⟩) (hx r hx₂)
      · exact h.inj k₁ k₂ r hold₁ hold₂
  · rintro r ⟨k', hr⟩
    rcases hcases k' r hr with ⟨-, hnew⟩ | ⟨-, hold⟩
    · exact Or.inr hnew
    · exact Or.inl (h.ever r ⟨k', hold⟩)
  · rintro r ⟨k', hr⟩ (hrel | ⟨-, hrel⟩)
    · rcases hcases k' r hr with ⟨-, hnew⟩ | ⟨-, hold⟩
      · exact hx r hnew (h.released r hrel)
      · exact h.unreleased r ⟨k', hold⟩ hrel
    · rcases hcases k' r hr with ⟨-, hnew⟩ | ⟨hne, hold⟩
      · exact hx r hnew (h.ever r ⟨k, hrel⟩)
      · exact hne (h.inj k' k r hold hrel)
  · rintro r (hrel | ⟨-, hrel⟩)
    · exact Or.inl (h.released r hrel)
    · exact Or.inl (h.ever r ⟨k, hrel⟩)

/-- **One slot changes**: nothing is left behind exactly where the slot was empty or what it
held is released. What was left behind before stays so. -/
lemma tight_put_iff (h : t.WellFormed) (hx : ∀ r, x = some r → r ∉ t.ever) :
    (t.put k x release).Tight ↔ t.Tight ∧ (t.held k = none ∨ release = true) := by
  constructor
  · intro ht
    -- what is not held, or is in the slot that changes, is not held afterwards
    have hleft : ∀ r ∈ t.ever, (∀ k', t.held k' = some r → k' = k) →
        r ∈ (t.put k x release).released := by
      refine fun r hr hk => ht r (Or.inl hr) ?_
      rintro ⟨k', hk'⟩
      by_cases hkk : k' = k
      · subst hkk
        exact hx r (by simpa [Table.put] using hk') hr
      · exact hkk (hk k' (by simpa [Table.put, hkk] using hk'))
    constructor
    · intro r hr hnot
      rcases hleft r hr fun k' hk' => absurd ⟨k', hk'⟩ hnot with hrel | ⟨-, hrel⟩
      · exact hrel
      · exact absurd ⟨k, hrel⟩ hnot
    · rcases hheld : t.held k with _ | r
      · exact Or.inl rfl
      · have hr : r ∈ t.ever := h.ever r ⟨k, hheld⟩
        rcases hleft r hr fun k' hk' => h.inj k' k r hk' hheld with hrel | ⟨hrelease, -⟩
        · exact absurd hrel (h.unreleased r ⟨k, hheld⟩)
        · exact Or.inr hrelease
  · rintro ⟨ht, hk⟩ r hr hnot
    have hnew : x ≠ some r := fun hxr => hnot ⟨k, by simp [Table.put, hxr]⟩
    have hever : r ∈ t.ever := hr.resolve_right hnew
    by_cases hheld : t.held k = some r
    · exact Or.inr ⟨hk.resolve_left (by simp [hheld]), hheld⟩
    · refine Or.inl (ht r hever ?_)
      rintro ⟨k', hk'⟩
      have hkk : k' ≠ k := fun heq => hheld (heq ▸ hk')
      exact hnot ⟨k', by simpa [Table.put, hkk] using hk'⟩

end Table

end OmniPaxosKV.Slots
