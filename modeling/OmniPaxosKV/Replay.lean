import Mathlib.Data.List.Basic

/-!
Deterministic machines and the replay of a log of commands.

A machine answers every command and moves to a new state. Replaying a log runs its commands
from the start state; the answer a log gives at a position is the machine's answer to the
command there, after everything before it.
-/

namespace OmniPaxosKV.Replay

variable {σ ι ο : Type*}

structure Machine (σ ι ο : Type*) where
  start : σ
  step : σ → ι → σ × ο

namespace Machine

variable (M : Machine σ ι ο)

/-- The state after the commands `l` from `s`. -/
def replayFrom (s : σ) (l : List ι) : σ := l.foldl (fun s i => (M.step s i).1) s

/-- The state after the commands `l` from the start. -/
def replay (l : List ι) : σ := M.replayFrom M.start l

/-- The answer to `i` after the commands `l`. -/
def answer (l : List ι) (i : ι) : ο := (M.step (M.replay l) i).2

@[simp] lemma replayFrom_nil (s : σ) : M.replayFrom s [] = s := rfl
@[simp] lemma replayFrom_cons (s : σ) (i : ι) (l : List ι) :
    M.replayFrom s (i :: l) = M.replayFrom (M.step s i).1 l := rfl
@[simp] lemma replay_nil : M.replay [] = M.start := rfl

lemma replayFrom_append (s : σ) (l l' : List ι) :
    M.replayFrom s (l ++ l') = M.replayFrom (M.replayFrom s l) l' := by
  simp [replayFrom, List.foldl_append]

lemma replay_append (l l' : List ι) :
    M.replay (l ++ l') = M.replayFrom (M.replay l) l' := M.replayFrom_append _ l l'

end Machine

end OmniPaxosKV.Replay
