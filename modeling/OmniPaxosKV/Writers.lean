import Mathlib.Data.List.Basic
import Mathlib.Data.List.Nodup

/-!
The writer task of a connection: it takes messages from its channel in batches, feeds them to
the framed sink one by one and flushes after each batch.

Three connections have such a task. They differ in what a failed feed does: the one of
`ClientConnection` returns from the task, the other two only leave the loop over the batch, so
they go on with the next batch if the flush succeeds. `gapFree_iff` says when what is written
is a prefix of what was handed to the connection.
-/

namespace OmniPaxosKV.Writers

variable {Msg : Type*}

/-- What one `recv_many` takes: each message with whether feeding it would succeed, and whether
the flush after them does. -/
structure Batch (Msg : Type*) where
  items : List (Msg × Bool)
  flushed : Bool

def Batch.messages (b : Batch Msg) : List Msg := b.items.map Prod.fst

/-- The loop over a batch: what was fed, and whether a feed failed. -/
def feedAll : List (Msg × Bool) → List Msg × Bool
  | [] => ([], false)
  | (m, true) :: rest => (m :: (feedAll rest).1, (feedAll rest).2)
  | (_, false) :: _ => ([], true)

/-- A writer task on the batches it takes: the messages it feeds. `returns` says whether a
failed feed returns from the task or only breaks out of the loop over the batch. -/
def writerTask (returns : Bool) : List (Batch Msg) → List Msg
  | [] => []
  | b :: bs =>
    let (fed, failed) := feedAll b.items
    if failed && returns then fed
    else fed ++ (if b.flushed then writerTask returns bs else [])

inductive Connection
  | peerConnection | clientConnection | serverConnection
  deriving DecidableEq

/-- The writer task of each kind of connection. -/
def Connection.writer : Connection → List (Batch Msg) → List Msg
  | .peerConnection => writerTask false
  | .clientConnection => writerTask true
  | .serverConnection => writerTask false

/-- The messages handed to a connection, each with its place, and the batches its writer has
taken of them so far. -/
structure Session (Msg : Type*) where
  handed : List Msg
  batches : List (Batch (Msg × ℕ))
  taken : batches.flatMap Batch.messages <+: handed.zipIdx

/-- What the writer has written is an initial part of what was handed over. -/
def GapFree (c : Connection) (S : Session Msg) : Prop :=
  c.writer S.batches <+: S.handed.zipIdx

/-- A batch with a failed feed is flushed all the same, and a later batch is taken whose first
feed succeeds. -/
def Resumes (bs : List (Batch Msg)) : Prop :=
  ∃ pre b mid c post m rest, bs = pre ++ b :: (mid ++ c :: post) ∧
    (∀ x ∈ pre ++ b :: mid, x.flushed) ∧ (feedAll b.items).2 ∧ c.items = (m, true) :: rest

/-! ### One batch -/

lemma feedAll_isPrefix (l : List (Msg × Bool)) : (feedAll l).1 <+: l.map Prod.fst := by
  induction l with
  | nil => exact List.prefix_rfl
  | cons x l ih =>
    obtain ⟨m, ok⟩ := x
    cases ok with
    | true => exact (List.cons_prefix_cons).mpr ⟨rfl, ih⟩
    | false => exact List.nil_prefix

lemma feedAll_eq_of_not_failed {l : List (Msg × Bool)} (h : (feedAll l).2 = false) :
    (feedAll l).1 = l.map Prod.fst := by
  induction l with
  | nil => rfl
  | cons x l ih =>
    obtain ⟨m, ok⟩ := x
    cases ok with
    | true => rw [feedAll, List.map_cons, ih h]
    | false => cases h

/-- A failed feed leaves a message behind. -/
lemma exists_dropped {l : List (Msg × Bool)} (h : (feedAll l).2 = true) :
    ∃ d rest, l.map Prod.fst = (feedAll l).1 ++ d :: rest := by
  induction l with
  | nil => cases h
  | cons x l ih =>
    obtain ⟨m, ok⟩ := x
    cases ok with
    | true =>
      obtain ⟨d, rest, hl⟩ := ih h
      exact ⟨d, rest, by rw [feedAll, List.map_cons, hl, List.cons_append]⟩
    | false => exact ⟨m, l.map Prod.fst, rfl⟩

lemma feedAll_eq_nil_iff {l : List (Msg × Bool)} :
    (feedAll l).1 = [] ↔ ¬ ∃ m rest, l = (m, true) :: rest := by
  rcases l with _ | ⟨⟨m, ok⟩, l⟩
  · simp [feedAll]
  · cases ok <;> simp [feedAll]

/-! ### All batches -/

lemma writerTask_true_cons (b : Batch Msg) (bs : List (Batch Msg)) :
    writerTask true (b :: bs) =
      if (feedAll b.items).2 then (feedAll b.items).1
      else (feedAll b.items).1 ++ (if b.flushed then writerTask true bs else []) := by
  simp [writerTask]

lemma writerTask_false_cons (b : Batch Msg) (bs : List (Batch Msg)) :
    writerTask false (b :: bs) =
      (feedAll b.items).1 ++ (if b.flushed then writerTask false bs else []) := by
  simp [writerTask]

/-- Nothing is written that was not handed over. -/
lemma writerTask_subset (bs : List (Batch Msg)) :
    writerTask false bs ⊆ bs.flatMap Batch.messages := by
  induction bs with
  | nil => exact List.Subset.refl _
  | cons b bs ih =>
    have hfed : (feedAll b.items).1 ⊆ b.messages := (feedAll_isPrefix b.items).subset
    rw [writerTask_false_cons, List.flatMap_cons]
    intro m hm
    rcases List.mem_append.mp hm with h | h
    · exact List.mem_append_left _ (hfed h)
    · split_ifs at h
      · exact List.mem_append_right _ (ih h)
      · cases h

/-- A task that returns on a failed feed never leaves a gap. -/
lemma writerTask_isPrefix_of_returns (bs : List (Batch Msg)) :
    writerTask true bs <+: bs.flatMap Batch.messages := by
  induction bs with
  | nil => exact List.prefix_rfl
  | cons b bs ih =>
    have hfed := feedAll_isPrefix b.items
    rw [writerTask_true_cons, List.flatMap_cons]
    split_ifs with hfail hflush
    · exact hfed.trans (List.prefix_append _ _)
    · have hall := feedAll_eq_of_not_failed (by simpa using hfail : (feedAll b.items).2 = false)
      rw [hall]
      exact (List.prefix_append_right_inj _).mpr ih
    · rw [List.append_nil]
      exact hfed.trans (List.prefix_append _ _)

/-- Where no reached batch starts with a successful feed, nothing is written. -/
lemma writerTask_eq_nil {bs : List (Batch Msg)}
    (h : ¬ ∃ mid c post m rest, bs = mid ++ c :: post ∧ (∀ x ∈ mid, x.flushed) ∧
      c.items = (m, true) :: rest) : writerTask false bs = [] := by
  induction bs with
  | nil => rfl
  | cons b bs ih =>
    have hfed : (feedAll b.items).1 = [] := by
      rw [feedAll_eq_nil_iff]
      rintro ⟨m, rest, hb⟩
      exact h ⟨[], b, bs, m, rest, rfl, by simp, hb⟩
    rw [writerTask_false_cons, hfed, List.nil_append, ite_eq_right_iff]
    intro hflush
    refine ih ?_
    rintro ⟨mid, c, post, m, rest, rfl, hmid, hc⟩
    exact h ⟨b :: mid, c, post, m, rest, rfl, by simpa [hflush] using hmid, hc⟩

/-- A task that only breaks leaves no gap where it does not resume. -/
lemma writerTask_isPrefix_of_not_resumes {bs : List (Batch Msg)} (h : ¬ Resumes bs) :
    writerTask false bs <+: bs.flatMap Batch.messages := by
  induction bs with
  | nil => exact List.prefix_rfl
  | cons b bs ih =>
    have hfed := feedAll_isPrefix b.items
    rw [writerTask_false_cons, List.flatMap_cons]
    by_cases hflush : b.flushed
    · rw [if_pos hflush]
      rcases hfail : (feedAll b.items).2 with _ | _
      · -- the batch was written whole
        rw [feedAll_eq_of_not_failed hfail]
        refine (List.prefix_append_right_inj _).mpr (ih ?_)
        rintro ⟨pre, b', mid, c, post, m, rest, rfl, hx, hb', hc⟩
        refine h ⟨b :: pre, b', mid, c, post, m, rest, rfl, ?_, hb', hc⟩
        simpa [hflush] using hx
      · -- a message was dropped: nothing later may be written
        have hnil : writerTask false bs = [] := by
          refine writerTask_eq_nil ?_
          rintro ⟨mid, c, post, m, rest, rfl, hmid, hc⟩
          exact h ⟨[], b, mid, c, post, m, rest, rfl, by simpa [hflush] using hmid, hfail, hc⟩
        rw [hnil, List.append_nil]
        exact hfed.trans (List.prefix_append _ _)
    · rw [if_neg hflush, List.append_nil]
      exact hfed.trans (List.prefix_append _ _)

/-- The batches before one that is reached only prepend to what is written. -/
lemma writerTask_append {pre : List (Batch Msg)} (bs : List (Batch Msg))
    (h : ∀ x ∈ pre, x.flushed) :
    writerTask false (pre ++ bs) = writerTask false pre ++ writerTask false bs := by
  induction pre with
  | nil => rfl
  | cons b pre ih =>
    have hb : b.flushed := h b (by simp)
    have htail := ih fun x hx => h x (by simp [hx])
    rw [List.cons_append, writerTask_false_cons, writerTask_false_cons, htail, if_pos hb, if_pos hb,
      List.append_assoc]

/-- What is written before an element of a prefix is in the prefix. -/
lemma mem_of_isPrefix {α : Type*} {P X Y : List α} {m : α} (hnd : (X ++ m :: Y).Nodup)
    (hP : P <+: X ++ m :: Y) (hm : m ∈ P) : X ⊆ P := by
  rcases List.prefix_or_prefix_of_prefix hP (List.prefix_append X (m :: Y)) with h | h
  · have hmX : m ∈ X := h.subset hm
    have hdis := (List.nodup_append.mp hnd).2.2
    exact absurd rfl (hdis m hmX m (by simp))
  · exact h.subset

/-- Where a task resumes after a dropped message, what it writes has a gap. -/
lemma not_isPrefix_of_resumes {bs : List (Batch Msg)} {l : List Msg} (hl : l.Nodup)
    (htaken : bs.flatMap Batch.messages <+: l) (h : Resumes bs) :
    ¬ writerTask false bs <+: l := by
  obtain ⟨pre, b, mid, c, post, m, rest, rfl, hx, hfail, hc⟩ := h
  intro hP
  obtain ⟨d, drest, hd⟩ := exists_dropped hfail
  have hb : b.flushed := hx b (by simp)
  have hmsg : b.messages = (feedAll b.items).1 ++ d :: drest := hd
  have hcm : c.messages = m :: rest.map Prod.fst := by rw [Batch.messages, hc]; rfl
  -- the messages handed over before and after the dropped one
  set A := pre.flatMap Batch.messages ++ (feedAll b.items).1 with hA
  obtain ⟨Y, hY⟩ : ∃ Y, l = A ++ d :: (drest ++ mid.flatMap Batch.messages ++
      (c :: post).flatMap Batch.messages ++ Y) := by
    obtain ⟨t, ht⟩ := htaken
    exact ⟨t, by rw [← ht]; simp [hmsg, hA]⟩
  have hd_notin : d ∉ A ++ (drest ++ mid.flatMap Batch.messages ++
      (c :: post).flatMap Batch.messages ++ Y) := by
    rw [hY, List.nodup_middle] at hl
    exact (List.nodup_cons.mp hl).1
  -- what is written, cut at the same place
  have hw : writerTask false (pre ++ b :: (mid ++ c :: post)) =
      writerTask false pre ++ (feedAll b.items).1 ++
        (writerTask false mid ++ writerTask false (c :: post)) := by
    have hpre := writerTask_append (b :: (mid ++ c :: post))
      fun x hxp => hx x (List.mem_append_left _ hxp)
    have hmid := writerTask_append (c :: post)
      fun x hxm => hx x (List.mem_append_right _ (List.mem_cons_of_mem _ hxm))
    rw [hpre, writerTask_false_cons, if_pos hb, hmid, List.append_assoc]
  have hd_unwritten : d ∉ writerTask false (pre ++ b :: (mid ++ c :: post)) := by
    rw [hw]
    intro hmem
    rcases List.mem_append.mp hmem with h | h
    · refine hd_notin (List.mem_append_left _ ?_)
      rcases List.mem_append.mp h with h | h
      · exact List.mem_append_left _ (writerTask_subset pre h)
      · exact List.mem_append_right _ h
    · refine hd_notin (List.mem_append_right _ ?_)
      simp only [List.append_assoc, List.mem_append]
      rcases List.mem_append.mp h with h | h
      · exact Or.inr (Or.inl (writerTask_subset mid h))
      · exact Or.inr (Or.inr (Or.inl (writerTask_subset (c :: post) h)))
  have hm_written : m ∈ writerTask false (pre ++ b :: (mid ++ c :: post)) := by
    have hm : m ∈ writerTask false (c :: post) := by
      rw [writerTask_false_cons, hc, feedAll]
      simp
    rw [hw]
    simp [hm]
  -- a prefix that has `m` would have `d`, which comes before it
  obtain ⟨X, Z, hXZ, hdX⟩ : ∃ X Z, l = X ++ m :: Z ∧ d ∈ X := by
    refine ⟨A ++ d :: (drest ++ mid.flatMap Batch.messages),
      rest.map Prod.fst ++ post.flatMap Batch.messages ++ Y, ?_, by simp⟩
    rw [hY]
    simp [hcm]
  rw [hXZ] at hl hP
  exact hd_unwritten (mem_of_isPrefix hl hP hm_written hdX)

/-! ### The three connections -/

/-- **When a connection's writer leaves no gap.** The writer of `ClientConnection` never does.
The other two leave none exactly when they do not resume: no batch with a failed feed is
flushed and followed by a batch that starts with a successful feed. -/
theorem gapFree_iff (c : Connection) (S : Session Msg) :
    GapFree c S ↔ c = .clientConnection ∨ ¬ Resumes S.batches := by
  have hnd : S.handed.zipIdx.Nodup := by
    refine List.Nodup.of_map Prod.snd ?_
    rw [List.zipIdx_map_snd]
    exact List.nodup_range'
  have hbreak : writerTask false S.batches <+: S.handed.zipIdx ↔ ¬ Resumes S.batches := by
    refine ⟨fun h hr => not_isPrefix_of_resumes hnd S.taken hr h, fun h => ?_⟩
    exact (writerTask_isPrefix_of_not_resumes h).trans S.taken
  cases c with
  | clientConnection =>
    have h : GapFree .clientConnection S :=
      (writerTask_isPrefix_of_returns S.batches).trans S.taken
    simp [h]
  | peerConnection => simpa [GapFree, Connection.writer] using hbreak
  | serverConnection => simpa [GapFree, Connection.writer] using hbreak

/-- The first message is too large for a frame, the socket is healthy, and the second message
goes out alone. -/
def oversizedFirst : Session String where
  handed := ["oversized", "small"]
  batches := [⟨[(("oversized", 0), false)], true⟩, ⟨[(("small", 1), true)], true⟩]
  taken := by decide

theorem oversizedFirst_gap :
    ¬ GapFree .peerConnection oversizedFirst ∧ ¬ GapFree .serverConnection oversizedFirst := by
  unfold GapFree
  decide

end OmniPaxosKV.Writers
