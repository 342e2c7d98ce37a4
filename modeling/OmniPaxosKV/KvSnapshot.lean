import OmniPaxosKV.Store

/-!
Snapshots of the log: building one from entries, and merging the snapshot of a later segment
into the snapshot of what came before.

Everything is decided key by key, by the writes of a segment to the key. A segment whose last
write to a key is a deletion has to say so in `deletedKeys`; it fails to when every deletion
of the key comes right after a put of it. Merging such a segment leaves the older binding in
place, and `merge_replay_iff` says that this is the only way a merged snapshot goes wrong.
-/

namespace OmniPaxosKV.KvSnapshot

open Common Replay Store

structure KVSnapshot where
  snapshotted : Map
  deletedKeys : List String

/-- The body of the loop of `create`, on the map and the deleted keys so far. -/
def scan (acc : Map × List String) (e : Command) : Map × List String :=
  match e.kvCmd with
  | .Put key value => (acc.1.insert key value, acc.2)
  | .Delete key =>
    -- `remove` answers what was there; only a key that was absent is remembered
    if (acc.1.lookup key).isNone then (acc.1.erase key, acc.2 ++ [key])
    else (acc.1.erase key, acc.2)
  | .Get _ => acc

def KVSnapshot.create (entries : List Command) : KVSnapshot :=
  let acc := entries.foldl scan (∅, [])
  ⟨acc.1, acc.2.filter fun k => (acc.1.lookup k).isNone⟩

/-- Inserting every binding of the delta is a union in which the delta wins. -/
def KVSnapshot.merge (s delta : KVSnapshot) : KVSnapshot :=
  ⟨delta.deletedKeys.foldl (fun m k => m.erase k) (delta.snapshotted ∪ s.snapshotted), []⟩

/-- The snapshot of `a` with the snapshots of the segments `bs` merged into it in order. -/
def mergeAll (a : List Command) (bs : List (List Command)) : KVSnapshot :=
  bs.foldl (fun s b => s.merge (.create b)) (.create a)

@[simp] lemma mergeAll_nil (a : List Command) : mergeAll a [] = .create a := rfl

lemma mergeAll_concat (a : List Command) (bs : List (List Command)) (b : List Command) :
    mergeAll a (bs ++ [b]) = (mergeAll a bs).merge (.create b) := by
  simp [mergeAll]

/-- A split of a list with a last element puts it right at the split or in the rest. -/
lemma concat_eq_append_cons {α : Type*} {l pre post : List α} {b s : α} :
    l ++ [b] = pre ++ s :: post ↔
      (post = [] ∧ l = pre ∧ b = s) ∨ ∃ post', post = post' ++ [b] ∧ l = pre ++ s :: post' := by
  constructor
  · intro h
    rcases List.eq_nil_or_concat post with rfl | ⟨post', w, rfl⟩
    · obtain ⟨h1, h2⟩ := List.append_inj' h rfl
      exact Or.inl ⟨rfl, h1, by simpa using h2⟩
    · have h' : l ++ [b] = (pre ++ s :: post') ++ [w] := by simpa using h
      obtain ⟨h1, h2⟩ := List.append_inj' h' rfl
      obtain rfl : b = w := by simpa using h2
      exact Or.inr ⟨post', by simp, h1⟩
  · rintro (⟨rfl, rfl, rfl⟩ | ⟨post', rfl, rfl⟩) <;> simp

/-! ### The writes of a segment to one key -/

/-- A put of `k` as `some` value, a deletion of it as `none`. -/
def writeOf (k : String) : KVCommand → Option (Option String)
  | .Put key value => if key = k then some (some value) else none
  | .Delete key => if key = k then some none else none
  | .Get _ => none

def writes (k : String) (l : List Command) : List (Option String) :=
  l.filterMap fun e => writeOf k e.kvCmd

@[simp] lemma writes_nil (k : String) : writes k [] = [] := rfl

lemma writes_append (k : String) (l l' : List Command) :
    writes k (l ++ l') = writes k l ++ writes k l' := by
  simp [writes]

lemma writes_concat (k : String) (l : List Command) (e : Command) :
    writes k (l ++ [e]) = writes k l ++ (writeOf k e.kvCmd).toList := by
  rw [writes_append]
  rcases h : writeOf k e.kvCmd with _ | w <;> simp [writes, h]

lemma lookup_step (m : Map) (c : KVCommand) (k : String) :
    (kv.step m c).1.lookup k = (writeOf k c).getD (m.lookup k) := by
  cases c with
  | Put key value =>
    by_cases h : key = k
    · subst h; simp [kv, Database.handleCommand, writeOf]
    · simp [kv, Database.handleCommand, writeOf, h, Finmap.lookup_insert_of_ne _ (Ne.symm h)]
  | Delete key =>
    by_cases h : key = k
    · subst h; simp [kv, Database.handleCommand, writeOf]
    · simp [kv, Database.handleCommand, writeOf, h, Finmap.lookup_erase_ne (Ne.symm h)]
  | Get key => simp [kv, Database.handleCommand, writeOf]

/-- What replaying `l` leaves at `k`: its last write to `k`. -/
lemma lookup_replay (l : List Command) (k : String) :
    (replay l).lookup k = (writes k l).getLast?.join := by
  induction l using List.reverseRecOn with
  | nil => simp
  | append_singleton l e ih =>
    rw [replay_append, writes_concat]
    simp only [List.map_cons, List.map_nil, kv.replayFrom_cons, kv.replayFrom_nil, lookup_step, ih]
    rcases writeOf k e.kvCmd with _ | w <;> simp

lemma lookup_replay_append (l b : List Command) (k : String) :
    (replay (l ++ b)).lookup k = (writes k b).getLast?.getD ((replay l).lookup k) := by
  rw [lookup_replay, lookup_replay, writes_append, List.getLast?_append]
  rcases (writes k b).getLast? with _ | w <;> simp

/-! ### What `create` keeps -/

/-- Some deletion of `k` in `l` does not come right after a put of `k` in `l`. -/
def Marks (k : String) (l : List Command) : Prop :=
  ∃ pre post, writes k l = pre ++ none :: post ∧ pre.getLast?.join = none

/-- The last write of `l` to `k` is a deletion, and every deletion of `k` in `l` comes right
after a put of `k` in `l`. -/
def Forgets (k : String) (l : List Command) : Prop :=
  (writes k l).getLast? = some none ∧ ¬ Marks k l

lemma marks_concat (k : String) (l : List Command) (e : Command) :
    Marks k (l ++ [e]) ↔
      Marks k l ∨ writeOf k e.kvCmd = some none ∧ (writes k l).getLast?.join = none := by
  unfold Marks
  rw [writes_concat]
  constructor
  · rintro ⟨pre, post, h, hp⟩
    rcases hw : writeOf k e.kvCmd with _ | w
    · exact Or.inl ⟨pre, post, by simpa [hw] using h, hp⟩
    · rw [hw, Option.toList_some, concat_eq_append_cons] at h
      rcases h with ⟨-, rfl, rfl⟩ | ⟨post', -, h⟩
      · exact Or.inr ⟨rfl, hp⟩
      · exact Or.inl ⟨pre, post', h, hp⟩
  · rintro (⟨pre, post, h, hp⟩ | ⟨hw, hp⟩)
    · exact ⟨pre, post ++ (writeOf k e.kvCmd).toList, by simp [h], hp⟩
    · exact ⟨writes k l, [], by simp [hw], hp⟩

/-- The loop invariant of `create`. -/
lemma scan_spec (l : List Command) :
    (l.foldl scan (∅, [])).1 = replay l ∧
      ∀ k, k ∈ (l.foldl scan (∅, [])).2 ↔ Marks k l := by
  induction l using List.reverseRecOn with
  | nil => exact ⟨rfl, fun k => by simp [Marks]⟩
  | append_singleton l e ih =>
    obtain ⟨hm, hd⟩ := ih
    rw [List.foldl_append, List.foldl_cons, List.foldl_nil, replay_append]
    set acc := l.foldl scan (∅, [])
    have hstep : (scan acc e).1 = (kv.step (replay l) e.kvCmd).1 := by
      rw [← hm]
      unfold scan kv Database.handleCommand
      cases e.kvCmd with
    | Put key value => rfl
    | Delete key => simp only; split_ifs <;> rfl
    | Get key => rfl
    refine ⟨hstep, fun k => ?_⟩
    rw [marks_concat, ← hd, ← lookup_replay, ← hm]
    unfold scan
    cases e.kvCmd with
    | Put key value => simp only [writeOf]; split_ifs <;> simp
    | Get key => simp [writeOf]
    | Delete key =>
      by_cases hk : key = k
      · subst hk
        rcases hv : acc.1.lookup key with _ | v <;> simp [writeOf, hv]
      · simp only [writeOf, hk, if_false, reduceCtorEq, false_and, or_false]
        split_ifs
        · simp [Ne.symm hk]
        · rfl

lemma create_snapshotted (l : List Command) : (KVSnapshot.create l).snapshotted = replay l :=
  (scan_spec l).1

lemma mem_create_deletedKeys (l : List Command) (k : String) :
    k ∈ (KVSnapshot.create l).deletedKeys ↔ Marks k l ∧ (replay l).lookup k = none := by
  unfold KVSnapshot.create
  simp only [List.mem_filter, (scan_spec l).1, (scan_spec l).2, Option.isNone_iff_eq_none]

/-! ### The snapshot against the live store -/

lemma writeOf_eq_delete {k : String} {c : KVCommand} :
    writeOf k c = some none ↔ c = .Delete k := by
  cases c with
  | Put key value => simp only [writeOf]; split_ifs <;> simp
  | Delete key => simp [writeOf]
  | Get key => simp [writeOf]

/-- The last write of a log to a key is followed by commands that do not write the key. -/
lemma exists_lastWrite {k : String} {l : List Command} {w : Option String}
    (h : (writes k l).getLast? = some w) :
    ∃ pre e post, l = pre ++ e :: post ∧ writeOf k e.kvCmd = some w ∧
      ∀ e' ∈ post, writeOf k e'.kvCmd = none := by
  induction l using List.reverseRecOn with
  | nil => cases h
  | append_singleton l e ih =>
    rw [writes_concat] at h
    rcases hw : writeOf k e.kvCmd with _ | w'
    · rw [hw, Option.toList_none, List.append_nil] at h
      obtain ⟨pre, e', post, rfl, he', hpost⟩ := ih h
      refine ⟨pre, e', post ++ [e], by simp, he', fun e'' hmem => ?_⟩
      rcases List.mem_append.mp hmem with hmem | hmem
      · exact hpost e'' hmem
      · rw [List.mem_singleton.mp hmem, hw]
    · obtain rfl : w' = w := by simpa [hw] using h
      exact ⟨l, e, [], rfl, hw, by simp⟩

/-- **A snapshot agrees with the live store** that handled the same commands. -/
theorem create_agrees (entries : List Command) (path : Option String) :
    (∀ k, (KVSnapshot.create entries).snapshotted.lookup k =
      ((Database.mk ∅ path).handleCommands entries).db.lookup k) ∧
    (∀ k ∈ (KVSnapshot.create entries).deletedKeys, k ∉ (KVSnapshot.create entries).snapshotted) ∧
    ∀ k ∈ (KVSnapshot.create entries).deletedKeys, ∃ pre e post, entries = pre ++ e :: post ∧
      e.kvCmd = .Delete k ∧ ∀ e' ∈ post, writeOf k e'.kvCmd = none := by
  refine ⟨fun k => ?_, fun k hk => ?_, fun k hk => ?_⟩
  · rw [create_snapshotted, Database.handleCommands_db]
    rfl
  · -- inside the loop a deleted key may have been put back; the filter after it leaves that out
    obtain ⟨-, hnone⟩ := (mem_create_deletedKeys entries k).mp hk
    rw [create_snapshotted]
    exact Finmap.lookup_eq_none.mp hnone
  · obtain ⟨⟨pre, post, hwrites, -⟩, hnone⟩ := (mem_create_deletedKeys entries k).mp hk
    -- a key that some deletion was remembered for has a last write, and it is not a put
    have hlast : (writes k entries).getLast? = some none := by
      rw [lookup_replay] at hnone
      rcases hl : (writes k entries).getLast? with _ | _ | v
      · simp [hwrites] at hl
      · rfl
      · simp [hl] at hnone
    obtain ⟨pre, e, post, rfl, he, hpost⟩ := exists_lastWrite hlast
    exact ⟨pre, e, post, rfl, writeOf_eq_delete.mp he, hpost⟩

/-! ### What `merge` does -/

lemma lookup_foldl_erase (ks : List String) (m : Map) (k : String) :
    (ks.foldl (fun m k => m.erase k) m).lookup k = if k ∈ ks then none else m.lookup k := by
  induction ks generalizing m with
  | nil => simp
  | cons a ks ih =>
    rw [List.foldl_cons, ih]
    by_cases ha : k = a
    · subst ha; simp
    · simp [ha, Finmap.lookup_erase_ne ha]

lemma lookup_merge (s d : KVSnapshot) (k : String) :
    (s.merge d).snapshotted.lookup k =
      if k ∈ d.deletedKeys then none else (d.snapshotted.lookup k).or (s.snapshotted.lookup k) := by
  unfold KVSnapshot.merge
  rw [lookup_foldl_erase]
  by_cases hk : k ∈ d.snapshotted
  · obtain ⟨v, hv⟩ := Finmap.mem_iff.mp hk
    rw [Finmap.lookup_union_left hk, hv]; rfl
  · rw [Finmap.lookup_union_right hk, Finmap.lookup_eq_none.mpr hk]; rfl

/-- **One merge, at one key.** The last write of the segment decides, except that a forgotten
deletion lets the older binding through. -/
lemma lookup_merge_create (s : KVSnapshot) (b : List Command) (k : String) :
    ((s.merge (.create b)).snapshotted.lookup k = s.snapshotted.lookup k ∧
        (writes k b = [] ∨ Forgets k b)) ∨
      ((s.merge (.create b)).snapshotted.lookup k = (writes k b).getLast?.join ∧
        writes k b ≠ [] ∧ ¬ Forgets k b) := by
  have hd := mem_create_deletedKeys b k
  rw [lookup_replay] at hd
  rw [lookup_merge, create_snapshotted, lookup_replay]
  rcases hl : (writes k b).getLast? with _ | w
  · have hnil : writes k b = [] := by simpa using hl
    have hm : ¬ Marks k b := by rintro ⟨pre, post, h, -⟩; simp [hnil] at h
    exact Or.inl ⟨by simp [hd, hm], Or.inl hnil⟩
  have hne : writes k b ≠ [] := by rintro h; simp [h] at hl
  rcases w with _ | v
  · by_cases hm : Marks k b
    · exact Or.inr ⟨by simp [hd, hm, hl], hne, fun h => h.2 hm⟩
    · exact Or.inl ⟨by simp [hd, hm], Or.inr ⟨hl, hm⟩⟩
  · exact Or.inr ⟨by simp [hd, hl], hne, fun h => by simp [h.1] at hl⟩

/-! ### Where merging goes wrong -/

/-- `k` was put back by a segment, and every later segment that writes `k` forgets that it
deleted it. -/
def Present (k : String) (segs : List (List Command)) : Prop :=
  ∃ pre s post v, segs = pre ++ s :: post ∧ (writes k s).getLast? = some (some v) ∧
    ∀ b ∈ post, writes k b = [] ∨ Forgets k b

/-- The deletion of `k` is lost: after the last segment that ends with a put of `k`, each
segment that writes `k` forgets that it deleted it, and one does write it. -/
def Resurrects (k : String) (segs : List (List Command)) : Prop :=
  ∃ pre s post v, segs = pre ++ s :: post ∧ (writes k s).getLast? = some (some v) ∧
    (∀ b ∈ post, writes k b = [] ∨ Forgets k b) ∧ ∃ b ∈ post, Forgets k b

lemma present_concat_of_quiet {k : String} {segs : List (List Command)} {b : List Command}
    (hb : writes k b = [] ∨ Forgets k b) : Present k (segs ++ [b]) ↔ Present k segs := by
  constructor
  · rintro ⟨pre, s, post, v, h, hv, hq⟩
    rcases concat_eq_append_cons.mp h with ⟨-, -, rfl⟩ | ⟨post', rfl, rfl⟩
    · rcases hb with hb | hb
      · simp [hb] at hv
      · simp [hb.1] at hv
    · exact ⟨pre, s, post', v, rfl, hv, fun b hb => hq b (by simp [hb])⟩
  · rintro ⟨pre, s, post, v, rfl, hv, hq⟩
    refine ⟨pre, s, post ++ [b], v, by simp, hv, fun c hc => ?_⟩
    rcases List.mem_append.mp hc with hc | hc
    · exact hq c hc
    · rwa [List.mem_singleton.mp hc]

lemma present_concat_of_loud {k : String} {segs : List (List Command)} {b : List Command}
    (hne : writes k b ≠ []) (hf : ¬ Forgets k b) :
    Present k (segs ++ [b]) ↔ ∃ v, (writes k b).getLast? = some (some v) := by
  constructor
  · rintro ⟨pre, s, post, v, h, hv, hq⟩
    rcases concat_eq_append_cons.mp h with ⟨-, -, rfl⟩ | ⟨post', rfl, -⟩
    · exact ⟨v, hv⟩
    · exact absurd (hq b (by simp)) (not_or.mpr ⟨hne, hf⟩)
  · rintro ⟨v, hv⟩
    exact ⟨segs, b, [], v, rfl, hv, by simp⟩

lemma resurrects_concat {k : String} {segs : List (List Command)} {b : List Command} :
    Resurrects k (segs ++ [b]) ↔
      writes k b = [] ∧ Resurrects k segs ∨ Forgets k b ∧ Present k segs := by
  constructor
  · rintro ⟨pre, s, post, v, h, hv, hq, c, hc, hcf⟩
    rcases concat_eq_append_cons.mp h with ⟨rfl, -, -⟩ | ⟨post', rfl, rfl⟩
    · simp at hc
    · have hq' : ∀ c ∈ post', writes k c = [] ∨ Forgets k c := fun c hc => hq c (by simp [hc])
      rcases hq b (by simp) with hb | hb
      · have hcp : c ∈ post' := by
          rcases List.mem_append.mp hc with hc | hc
          · exact hc
          · rw [List.mem_singleton.mp hc] at hcf
            simp [Forgets, hb] at hcf
        exact Or.inl ⟨hb, pre, s, post', v, rfl, hv, hq', c, hcp, hcf⟩
      · exact Or.inr ⟨hb, pre, s, post', v, rfl, hv, hq'⟩
  · rintro (⟨hb, pre, s, post, v, rfl, hv, hq, c, hc, hcf⟩ | ⟨hb, pre, s, post, v, rfl, hv, hq⟩)
    · refine ⟨pre, s, post ++ [b], v, by simp, hv, fun d hd => ?_, c, by simp [hc], hcf⟩
      rcases List.mem_append.mp hd with hd | hd
      · exact hq d hd
      · exact Or.inl (by rw [List.mem_singleton.mp hd, hb])
    · refine ⟨pre, s, post ++ [b], v, by simp, hv, fun d hd => ?_, b, by simp, hb⟩
      rcases List.mem_append.mp hd with hd | hd
      · exact hq d hd
      · exact Or.inr (by rwa [List.mem_singleton.mp hd])

lemma present_singleton {k : String} {a : List Command} :
    Present k [a] ↔ ∃ v, (writes k a).getLast? = some (some v) := by
  constructor
  · rintro ⟨pre, s, post, v, h, hv, -⟩
    rcases (concat_eq_append_cons (l := [])).mp h with ⟨-, -, rfl⟩ | ⟨post', -, h'⟩
    · exact ⟨v, hv⟩
    · simp at h'
  · rintro ⟨v, hv⟩
    exact ⟨[], a, [], v, rfl, hv, by simp⟩

lemma not_resurrects_singleton {k : String} {a : List Command} : ¬ Resurrects k [a] := by
  rintro ⟨pre, s, post, v, h, -, -, c, hc, -⟩
  rcases (concat_eq_append_cons (l := [])).mp h with ⟨rfl, -, -⟩ | ⟨post', -, h'⟩
  · simp at hc
  · simp at h'

/-- A merged snapshot binds `k` exactly when `k` is present in the segments. -/
lemma mergeAll_isSome (k : String) (a : List Command) (bs : List (List Command)) :
    (∃ v, (mergeAll a bs).snapshotted.lookup k = some v) ↔ Present k (a :: bs) := by
  induction bs using List.reverseRecOn with
  | nil =>
    rw [mergeAll_nil, create_snapshotted, lookup_replay, present_singleton]
    simp [Option.join_eq_some_iff]
  | append_singleton bs b ih =>
    rw [mergeAll_concat, ← List.cons_append]
    rcases lookup_merge_create (mergeAll a bs) b k with ⟨h, hq⟩ | ⟨h, hne, hf⟩
    · rw [h, ih, present_concat_of_quiet hq]
    · rw [h, present_concat_of_loud hne hf]
      simp [Option.join_eq_some_iff]

lemma lookup_mergeAll_iff (k : String) (a : List Command) (bs : List (List Command)) :
    (mergeAll a bs).snapshotted.lookup k = (replay (a ++ bs.flatten)).lookup k ↔
      ¬ Resurrects k (a :: bs) := by
  induction bs using List.reverseRecOn with
  | nil => simp [create_snapshotted, not_resurrects_singleton]
  | append_singleton bs b ih =>
    rw [mergeAll_concat, ← List.cons_append, resurrects_concat, List.flatten_append,
      List.flatten_singleton, ← List.append_assoc, lookup_replay_append]
    rcases lookup_merge_create (mergeAll a bs) b k with ⟨h, hb | hb⟩ | ⟨h, hne, hf⟩
    · -- the segment does not write `k`
      have hnf : ¬ Forgets k b := by simp [Forgets, hb]
      rw [h, hb]
      simpa [hnf] using ih
    · -- the segment forgets that it deleted `k`
      have hne : writes k b ≠ [] := by rintro he; simp [Forgets, he] at hb
      rw [h, hb.1, Option.getD_some]
      simp only [hne, false_and, false_or, hb, true_and, ← mergeAll_isSome]
      rcases (mergeAll a bs).snapshotted.lookup k with _ | v <;> simp
    · -- the last write of the segment counts
      obtain ⟨w, hw⟩ : ∃ w, (writes k b).getLast? = some w :=
        Option.isSome_iff_exists.mp (by simpa using hne)
      rw [h, hw]
      simp [hne, hf]

/-- **Merging snapshots of consecutive segments** gives the replay of their concatenation,
which is also the snapshot of the concatenation, exactly when no key is resurrected. -/
theorem merge_replay_iff (a : List Command) (bs : List (List Command)) :
    ((mergeAll a bs).snapshotted = replay (a ++ bs.flatten) ∧
      (mergeAll a bs).snapshotted = (KVSnapshot.create (a ++ bs.flatten)).snapshotted) ↔
      ∀ k, ¬ Resurrects k (a :: bs) := by
  rw [create_snapshotted, and_self]
  constructor
  · intro h k
    rw [← lookup_mergeAll_iff, h]
  · intro h
    exact Finmap.ext_lookup fun k => (lookup_mergeAll_iff k a bs).mpr (h k)

/-- A key put before the segment, then put and deleted inside it, comes back with its old
value. -/
theorem merge_resurrects :
    ¬ ∀ (a : List Command) (bs : List (List Command)),
      (mergeAll a bs).snapshotted = replay (a ++ bs.flatten) := by
  intro h
  have := congrArg (Finmap.lookup "x")
    (h [⟨1, 1, 0, .Put "x" "1"⟩] [[⟨1, 1, 1, .Put "x" "2"⟩, ⟨1, 1, 2, .Delete "x"⟩]])
  revert this
  decide

end OmniPaxosKV.KvSnapshot
