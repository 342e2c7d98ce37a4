import Mathlib.Data.List.Perm.Basic
import Mathlib.Data.List.Nodup
import Mathlib.Logic.Function.Basic

/-!
Tokens that are handed from place to place.

Each place holds a list of tokens. A token is put somewhere once, when it is new; after that it
is taken from one place and put into another, or lost. `Exclusive` says that no token is in two
places, or twice in one.
-/

namespace OmniPaxosKV.Tokens

open Function (update)

variable {κ α : Type*}

structure Exclusive (f : κ → List α) : Prop where
  nodup : ∀ k, (f k).Nodup
  apart : ∀ k k' x, x ∈ f k → x ∈ f k' → k = k'

variable {f g : κ → List α}

/-- Tokens are lost. -/
lemma Exclusive.sublist (h : Exclusive f) (hg : ∀ k, (g k).Sublist (f k)) : Exclusive g where
  nodup k := (h.nodup k).sublist (hg k)
  apart k k' x hx hx' := h.apart k k' x ((hg k).subset hx) ((hg k').subset hx')

variable [DecidableEq κ] {k k' : κ} {x : α} {l : List α}

lemma mem_update (hx : x ∈ update f k l k') : k' = k ∧ x ∈ l ∨ x ∈ f k' := by
  by_cases hk : k' = k
  · subst hk
    exact Or.inl ⟨rfl, by simpa using hx⟩
  · exact Or.inr (by simpa [hk] using hx)

/-- A token that is nowhere is put somewhere. -/
lemma Exclusive.put (h : Exclusive f) (hx : ∀ j, x ∉ f j) :
    Exclusive (update f k (f k ++ [x])) := by
  have hmem : ∀ j y, y ∈ update f k (f k ++ [x]) j → y ∈ f j ∨ j = k ∧ y = x := by
    intro j y hy
    rcases mem_update hy with ⟨rfl, hy⟩ | hy
    · exact (List.mem_append.mp hy).imp_right fun hy => ⟨rfl, List.mem_singleton.mp hy⟩
    · exact Or.inl hy
  refine ⟨fun j => ?_, fun j j' y hy hy' => ?_⟩
  · by_cases hj : j = k
    · subst hj
      rw [Function.update_self]
      refine List.nodup_append.mpr ⟨h.nodup j, List.nodup_singleton x, ?_⟩
      rintro y hy z hz rfl
      exact hx j (List.mem_singleton.mp hz ▸ hy)
    · rw [Function.update_of_ne hj]
      exact h.nodup j
  · rcases hmem j y hy with hold | ⟨rfl, rfl⟩
    · rcases hmem j' y hy' with hold' | ⟨-, rfl⟩
      · exact h.apart j j' y hold hold'
      · exact absurd hold (hx j)
    · rcases hmem j' y hy' with hold' | ⟨rfl, -⟩
      · exact absurd hold' (hx j')
      · rfl

/-- A token that is taken from its place is nowhere. -/
lemma Exclusive.take {i : ℕ} (h : Exclusive f) (hi : (f k)[i]? = some x) :
    Exclusive (update f k ((f k).eraseIdx i)) ∧ ∀ j, x ∉ update f k ((f k).eraseIdx i) j := by
  constructor
  · refine h.sublist fun j => ?_
    by_cases hj : j = k
    · subst hj
      rw [Function.update_self]
      exact List.eraseIdx_sublist _ _
    · rw [Function.update_of_ne hj]
  · intro j hx
    obtain ⟨hlt, rfl⟩ := List.getElem?_eq_some_iff.mp hi
    by_cases hj : j = k
    · subst hj
      rw [Function.update_self] at hx
      have hnd := (List.getElem_cons_eraseIdx_perm hlt).nodup_iff.mpr (h.nodup j)
      exact (List.nodup_cons.mp hnd).1 hx
    · rw [Function.update_of_ne hj] at hx
      exact hj (h.apart j k _ hx (List.getElem_mem hlt))

end OmniPaxosKV.Tokens
