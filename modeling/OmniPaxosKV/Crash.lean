import OmniPaxosKV.Server
import OmniPaxosKV.TransSys

/-!
One server with its disk, step by step, crashing anywhere.

A call of `handleDecidedEntries` is cut into the steps a crash can fall between: reading the
suffix, each entry of the loop, the decision to save, and each file operation of the save.
`step_good` says what every step keeps: the map in memory and the snapshot on disk are replays
of the log, each up to the index kept with it.
-/

namespace OmniPaxosKV.Crash

open Common Replay Store Server TransSys

variable {Text : Type}

/-- Where the server is in `handleDecidedEntries`. -/
inductive Pc (Text : Type)
  | idle
  /-- In the loop, past the first `pos` entries of the log, with `rest` still to come. -/
  | applying (pos : ℕ) (rest : List Command) (newEntriesApplied : ℕ)
  /-- In `save_snapshot`, about to take the step `stage`. -/
  | saving (path : String) (stage : SaveStage) (json : Text)

/-- A server process, if it is up, with its disk and the decided index OmniPaxos knows. -/
structure Node (Text : Type) where
  files : Files Text
  decidedIdx : ℕ
  proc : Option (OmniPaxosServer × Pc Text)

/-- How many entries of the log a server that is up has passed. -/
def Node.handled (n : Node Text) : ℕ :=
  match n.proc with
  | some (s, .idle) => max s.currentDecidedIdx s.snapshotDecidedIdx
  | some (s, .applying pos _ _) => max pos s.snapshotDecidedIdx
  | some (s, .saving _ _ _) => max s.currentDecidedIdx s.snapshotDecidedIdx
  | none => 0

inductive NodeAction (Text : Type)
  | decide (d : ℕ)
  | handle
  | entry
  | finish
  | save
  /-- The current step of the save fails, leaving `left` in the temporary file. -/
  | saveErr (left : Option Text)
  | crash (left : Option Text)
  | loseSnapshot
  | restart (d : ℕ) (readable : Bool)

def NodeAction.isCrash : NodeAction Text → Bool
  | .crash _ => true
  | .decide _ => false
  | .handle => false
  | .entry => false
  | .finish => false
  | .save => false
  | .saveErr _ => false
  | .loseSnapshot => false
  | .restart _ _ => false

/-- The step of the save after this one. -/
def nextStage : SaveStage → Option SaveStage
  | .create => some .write
  | .write => some .flush
  | .flush => some .syncAll
  | .syncAll => some .rename
  | .rename => none

section Node

variable (serde : SerdeJson Text) (interval : ℕ) (id : NodeId) (L : List Command)

/-- The server after the loop: it starts to save a snapshot, or the call is over. -/
def finishCall (s : OmniPaxosServer) (newEntriesApplied : ℕ) : OmniPaxosServer × Pc Text :=
  match s.afterEntries interval newEntriesApplied, s.database.snapshotPath with
  | (s', some snap), some path => (s', .saving path .create (serde.toString snap))
  | (s', _), _ => (s', .idle)

/-- What an action does, and what it sends to clients. -/
def Node.step (n : Node Text) : NodeAction Text → Option (Node Text × List Send)
  | .decide d =>
    if n.proc.isSome ∧ n.decidedIdx ≤ d ∧ d ≤ L.length then
      some ({ n with decidedIdx := d }, [])
    else none
  | .handle =>
    match n.proc with
    | some (s, .idle) =>
      if s.currentDecidedIdx < n.decidedIdx then
        some ({ n with proc := some ({ s with currentDecidedIdx := n.decidedIdx },
          .applying s.currentDecidedIdx
            (readDecidedSuffix L n.decidedIdx s.currentDecidedIdx) 0) }, [])
      else none
    | _ => none
  | .entry =>
    match n.proc with
    | some (s, .applying pos (command :: rest) k) =>
      let (s', m, sent) := s.applyEntry (pos + 1) command
      some ({ n with proc := some (s', .applying (pos + 1) rest (k + m)) }, sent)
    | _ => none
  | .finish =>
    match n.proc with
    | some (s, .applying _ [] k) =>
      some ({ n with proc := some (finishCall serde interval s k) }, [])
    | _ => none
  | .save =>
    match n.proc with
    | some (s, .saving path stage json) =>
      some ({ n with
        files := stage.effect serde path json n.files
        proc := some (s, match nextStage stage with
          | some stage' => .saving path stage' json
          | none => .idle) }, [])
    | _ => none
  | .saveErr left =>
    match n.proc with
    | some (s, .saving path _ _) =>
      some ({ n with
        files := Function.update n.files (tmpPath path) left
        proc := some (s, .idle) }, [])
    | _ => none
  | .crash left =>
    if n.proc.isSome then
      some ({ n with
        files := Function.update n.files (tmpPath (snapshotPath id)) left
        proc := none }, [])
    else none
  | .loseSnapshot =>
    if n.proc.isNone then
      some ({ n with files := Function.update n.files (snapshotPath id) none }, [])
    else none
  | .restart d readable =>
    if n.proc.isNone ∧ d ≤ L.length then
      some ({ n with
        decidedIdx := d
        proc := some (OmniPaxosServer.new serde n.files readable id, .idle) }, [])
    else none

end Node

/-- What each action finds, and what it leaves and sends. -/
lemma Node.step_cases {serde : SerdeJson Text} {interval : ℕ} {id : NodeId} {L : List Command}
    {n n' : Node Text} {a : NodeAction Text} {sent : List Send}
    (h : n.step serde interval id L a = some (n', sent)) :
    match a with
    | .decide d =>
      n.proc.isSome ∧ n.decidedIdx ≤ d ∧ d ≤ L.length ∧ n' = { n with decidedIdx := d } ∧ sent = []
    | .handle => ∃ s, n.proc = some (s, .idle) ∧ s.currentDecidedIdx < n.decidedIdx ∧
      n' = { n with proc := some ({ s with currentDecidedIdx := n.decidedIdx },
        .applying s.currentDecidedIdx
          (readDecidedSuffix L n.decidedIdx s.currentDecidedIdx) 0) } ∧ sent = []
    | .entry => ∃ s pos c rest k, n.proc = some (s, .applying pos (c :: rest) k) ∧
      n' = { n with proc := some ((s.applyEntry (pos + 1) c).1,
        .applying (pos + 1) rest (k + (s.applyEntry (pos + 1) c).2.1)) } ∧
      sent = (s.applyEntry (pos + 1) c).2.2
    | .finish => ∃ s pos k, n.proc = some (s, .applying pos [] k) ∧
      n' = { n with proc := some (finishCall serde interval s k) } ∧ sent = []
    | .save => ∃ s path stage json, n.proc = some (s, .saving path stage json) ∧
      n' = { n with
        files := stage.effect serde path json n.files
        proc := some (s, match nextStage stage with
          | some stage' => .saving path stage' json
          | none => .idle) } ∧ sent = []
    | .saveErr left => ∃ s path stage json, n.proc = some (s, .saving path stage json) ∧
      n' = { n with
        files := Function.update n.files (tmpPath path) left
        proc := some (s, .idle) } ∧ sent = []
    | .crash left => n.proc.isSome ∧
      n' = { n with
        files := Function.update n.files (tmpPath (snapshotPath id)) left
        proc := none } ∧ sent = []
    | .loseSnapshot => n.proc = none ∧
      n' = { n with files := Function.update n.files (snapshotPath id) none } ∧ sent = []
    | .restart d readable => n.proc = none ∧ d ≤ L.length ∧
      n' = { n with
        decidedIdx := d
        proc := some (OmniPaxosServer.new serde n.files readable id, .idle) } ∧ sent = [] := by
  cases a with
  | decide d =>
    simp only [Node.step] at h
    split_ifs at h with hc
    obtain ⟨rfl, rfl⟩ := Prod.mk.inj (Option.some.inj h)
    exact ⟨hc.1, hc.2.1, hc.2.2, rfl, rfl⟩
  | handle =>
    simp only [Node.step] at h
    split at h
    · rename_i s hp
      split_ifs at h with hlt
      obtain ⟨rfl, rfl⟩ := Prod.mk.inj (Option.some.inj h)
      exact ⟨s, hp, hlt, rfl, rfl⟩
    · cases h
  | entry =>
    simp only [Node.step] at h
    split at h
    · rename_i s pos c rest k hp
      obtain ⟨rfl, rfl⟩ := Prod.mk.inj (Option.some.inj h)
      exact ⟨s, pos, c, rest, k, hp, rfl, rfl⟩
    · cases h
  | finish =>
    simp only [Node.step] at h
    split at h
    · rename_i s pos k hp
      obtain ⟨rfl, rfl⟩ := Prod.mk.inj (Option.some.inj h)
      exact ⟨s, pos, k, hp, rfl, rfl⟩
    · cases h
  | save =>
    simp only [Node.step] at h
    split at h
    · rename_i s path stage json hp
      obtain ⟨rfl, rfl⟩ := Prod.mk.inj (Option.some.inj h)
      exact ⟨s, path, stage, json, hp, rfl, rfl⟩
    · cases h
  | saveErr left =>
    simp only [Node.step] at h
    split at h
    · rename_i s path stage json hp
      obtain ⟨rfl, rfl⟩ := Prod.mk.inj (Option.some.inj h)
      exact ⟨s, path, stage, json, hp, rfl, rfl⟩
    · cases h
  | crash left =>
    simp only [Node.step] at h
    split_ifs at h with hup
    obtain ⟨rfl, rfl⟩ := Prod.mk.inj (Option.some.inj h)
    exact ⟨hup, rfl, rfl⟩
  | loseSnapshot =>
    simp only [Node.step] at h
    split_ifs at h with hdown
    obtain ⟨rfl, rfl⟩ := Prod.mk.inj (Option.some.inj h)
    exact ⟨Option.isNone_iff_eq_none.mp hdown, rfl, rfl⟩
  | restart d readable =>
    simp only [Node.step] at h
    split_ifs at h with hc
    obtain ⟨rfl, rfl⟩ := Prod.mk.inj (Option.some.inj h)
    exact ⟨Option.isNone_iff_eq_none.mp hc.1, hc.2, rfl, rfl⟩

/-! ### The invariant -/

section Good

variable (serde : SerdeJson Text) (interval : ℕ) (id : NodeId) (L : List Command)

/-- The snapshot on disk, if it can be read, is the replay of as many entries as it says. -/
def DiskOk (files : Files Text) : Prop :=
  ∀ json snap, files (snapshotPath id) = some json → serde.fromStr json = some snap →
    snap.db = replay (L.take snap.decidedIdx) ∧ snap.decidedIdx ≤ L.length

/-- What holds of the server at each point of a call. -/
def PcOk (files : Files Text) (s : OmniPaxosServer) : Pc Text → Prop
  | .idle => UpTo L s s.currentDecidedIdx
  | .applying pos rest k =>
    UpTo L s pos ∧ pos ≤ s.currentDecidedIdx ∧ rest = (L.take s.currentDecidedIdx).drop pos ∧
      (0 < k → s.snapshotDecidedIdx ≤ pos)
  | .saving path stage json =>
    UpTo L s s.currentDecidedIdx ∧ path = snapshotPath id ∧
      s.snapshotDecidedIdx ≤ s.currentDecidedIdx ∧
      json = serde.toString ⟨s.database.db, s.currentDecidedIdx⟩ ∧
      (stage ≠ .create → stage ≠ .write → files (tmpPath path) = some json)

structure ProcOk (files : Files Text) (decidedIdx : ℕ) (s : OmniPaxosServer) (pc : Pc Text) :
    Prop where
  ident : s.id = id
  path : s.database.snapshotPath = some (snapshotPath id)
  cur : s.currentDecidedIdx ≤ decidedIdx
  snap : s.snapshotDecidedIdx ≤ L.length
  at_pc : PcOk serde id L files s pc

structure Good (n : Node Text) : Prop where
  disk : DiskOk serde id L n.files
  decided : n.decidedIdx ≤ L.length
  proc : ∀ s pc, n.proc = some (s, pc) → ProcOk serde id L n.files n.decidedIdx s pc

variable {serde interval id L}

lemma good_down {n : Node Text} (hd : DiskOk serde id L n.files) (hi : n.decidedIdx ≤ L.length)
    (hp : n.proc = none) : Good serde id L n :=
  ⟨hd, hi, fun s pc h => by simp [hp] at h⟩

/-- Recovery brings back a replay: the snapshot's, or the empty one. -/
lemma new_upTo {files : Files Text} (hd : DiskOk serde id L files) (readable : Bool) :
    let s := OmniPaxosServer.new serde files readable id
    UpTo L s s.currentDecidedIdx ∧ s.snapshotDecidedIdx ≤ L.length := by
  unfold OmniPaxosServer.new UpTo
  rcases Database.recover_cases serde files readable (snapshotPath id) with
    h | ⟨json, snap, hf, hs, h⟩
  · simp [h, Database.setSnapshotPath, Database.new]
  · obtain ⟨hdb, hle⟩ := hd json snap hf hs
    simpa [h, Database.setSnapshotPath] using ⟨hdb, hle⟩

lemma DiskOk.of_path_eq {files files' : Files Text} (hd : DiskOk serde id L files)
    (h : files' (snapshotPath id) = files (snapshotPath id)) : DiskOk serde id L files' := by
  intro json snap hf
  exact hd json snap (h ▸ hf)

lemma DiskOk.update_tmp {files : Files Text} (hd : DiskOk serde id L files) (left : Option Text) :
    DiskOk serde id L (Function.update files (tmpPath (snapshotPath id)) left) :=
  hd.of_path_eq (Function.update_of_ne (tmpPath_ne _).symm _ _)

/-- The loop ends with the server caught up, so what is saved is a replay up to the index
saved with it. -/
lemma finishCall_ok {files : Files Text} {d : ℕ} {s : OmniPaxosServer} {pos k : ℕ}
    (h : ProcOk serde id L files d s (.applying pos [] k)) (hlen : s.currentDecidedIdx ≤ L.length) :
    ProcOk serde id L files d (finishCall serde interval s k).1
      (finishCall serde interval s k).2 := by
  obtain ⟨hid, hpath, hcur, hsnap, hup, hpos, hrest, hk⟩ := h
  have hpos' : pos = s.currentDecidedIdx := by
    have := congrArg List.length hrest
    simp at this
    omega
  subst hpos'
  unfold finishCall OmniPaxosServer.afterEntries
  rw [hpath]
  split_ifs with h0 hint
  · exact ⟨hid, hpath, hcur, hsnap, hup, rfl, hk h0, rfl, fun h => absurd rfl h⟩
  · exact ⟨hid, hpath, hcur, hsnap, hup⟩
  · exact ⟨hid, hpath, hcur, hsnap, hup⟩

lemma finishCall_fields (serde : SerdeJson Text) (interval : ℕ) (s : OmniPaxosServer) (k : ℕ) :
    (finishCall serde interval s k).1.currentDecidedIdx = s.currentDecidedIdx ∧
      (finishCall serde interval s k).1.snapshotDecidedIdx = s.snapshotDecidedIdx ∧
      ((finishCall serde interval s k).2 = .idle ∨
        ∃ path stage json, (finishCall serde interval s k).2 = .saving path stage json) := by
  obtain ⟨-, -, hcur, hsnap⟩ := afterEntries_fields interval s k
  unfold finishCall
  split
  · rename_i s' snap path hafter _
    rw [hafter] at hcur hsnap
    exact ⟨hcur, hsnap, Or.inr ⟨_, _, _, rfl⟩⟩
  · rename_i s' _ _ hafter _
    rw [hafter] at hcur hsnap
    exact ⟨hcur, hsnap, Or.inl rfl⟩

/-- The save keeps the disk readable: only the renaming touches the snapshot, and what it
puts there is the replay up to its index. -/
lemma save_ok {n : Node Text} {s : OmniPaxosServer} {path : String} {stage : SaveStage}
    {json : Text} (hg : Good serde id L n)
    (h : ProcOk serde id L n.files n.decidedIdx s (.saving path stage json))
    (hlen : s.currentDecidedIdx ≤ L.length) :
    DiskOk serde id L (stage.effect serde path json n.files) ∧
      PcOk serde id L (stage.effect serde path json n.files) s
        (match nextStage stage with
          | some stage' => .saving path stage' json
          | none => .idle) := by
  obtain ⟨-, -, -, -, hup, rfl, hle, hjson, htmp⟩ := h
  have hdisk : ∀ st : SaveStage, st ≠ .rename →
      DiskOk serde id L (st.effect serde (snapshotPath id) json n.files) := fun st hst =>
    hg.disk.of_path_eq (SaveStage.effect_path serde hst)
  cases stage with
  | create => exact ⟨hdisk _ (by simp), hup, rfl, hle, hjson, fun _ h => absurd rfl h⟩
  | write =>
    exact ⟨hdisk _ (by simp), hup, rfl, hle, hjson, fun _ _ => by simp [SaveStage.effect]⟩
  | flush =>
    exact ⟨hdisk _ (by simp), hup, rfl, hle, hjson, fun _ _ => htmp (by simp) (by simp)⟩
  | syncAll =>
    exact ⟨hdisk _ (by simp), hup, rfl, hle, hjson, fun _ _ => htmp (by simp) (by simp)⟩
  | rename =>
    refine ⟨?_, hup⟩
    intro text snap hf hs
    rw [SaveStage.effect_rename_path serde (htmp (by simp) (by simp))] at hf
    obtain rfl : json = text := by simpa using hf
    rw [hjson, serde.round_trip] at hs
    obtain rfl := Option.some.inj hs
    have hup' : s.database.db = replay (L.take (max s.currentDecidedIdx s.snapshotDecidedIdx)) :=
      hup
    rw [max_eq_left hle] at hup'
    exact ⟨hup', hlen⟩

/-- **One step** of the server, crashes included. What it sends is the response to the entry
it is at. -/
theorem step_good {n n' : Node Text} {a : NodeAction Text} {sent : List Send}
    (hg : Good serde id L n) (h : n.step serde interval id L a = some (n', sent)) :
    Good serde id L n' ∧
      ∀ x ∈ sent, n.handled < L.length ∧ response id L n.handled = some x := by
  obtain ⟨hdisk, hdec, hproc⟩ := hg
  have hcurLen : ∀ {s pc}, n.proc = some (s, pc) → s.currentDecidedIdx ≤ L.length :=
    fun hp => (hproc _ _ hp).cur.trans hdec
  cases a with
  | decide d =>
    obtain ⟨-, hle, hd, rfl, rfl⟩ := Node.step_cases h
    refine ⟨⟨hdisk, hd, fun s pc hp => ?_⟩, by simp⟩
    obtain ⟨hid, hpath, hcur, hsnap, hpc⟩ := hproc s pc hp
    exact ⟨hid, hpath, hcur.trans hle, hsnap, hpc⟩
  | handle =>
    obtain ⟨s, hp, hlt, rfl, rfl⟩ := Node.step_cases h
    obtain ⟨hid, hpath, hcur, hsnap, hpc⟩ := hproc _ _ hp
    refine ⟨⟨hdisk, hdec, ?_⟩, by simp⟩
    rintro _ _ ⟨⟩
    exact ⟨hid, hpath, le_rfl, hsnap, hpc, hlt.le, rfl, fun h => absurd h (lt_irrefl 0)⟩
  | entry =>
    obtain ⟨s, pos, c, rest, k, hp, rfl, rfl⟩ := Node.step_cases h
    obtain ⟨hid, hpath, hcur, hsnap, hup, hpos, hrest, hk⟩ := hproc _ _ hp
    have hlen := hcurLen hp
    obtain ⟨hget, hrest'⟩ := drop_cons hrest.symm
    have hlt : pos < s.currentDecidedIdx := by
      by_contra hc
      simp [hc] at hget
    have hc : L[pos]? = some c := by rwa [List.getElem?_take_of_lt hlt] at hget
    obtain ⟨⟨hid', hcur', hsince', hsnap', hpath'⟩, hup', hm, hsent⟩ := applyEntry_spec hc hup
    refine ⟨⟨hdisk, hdec, ?_⟩, ?_⟩
    · rintro _ _ ⟨⟩
      refine ⟨hid'.trans hid, hpath'.trans hpath, hcur' ▸ hcur, hsnap' ▸ hsnap, hup', ?_, ?_, ?_⟩
      · rw [hcur']; omega
      · rw [hcur']; exact hrest'.symm
      · rw [hsnap', hm]
        intro hpos0
        split_ifs at hpos0 with hs
        · have := hk (by omega)
          omega
        · omega
    · intro x hx
      rw [hsent] at hx
      split_ifs at hx with hsk
      · simp at hx
      · rw [responses_succ, hid, Option.mem_toList] at hx
        have hhandled : n.handled = pos := by
          simp only [Node.handled, hp]
          omega
        rw [hhandled]
        exact ⟨by omega, hx⟩
  | finish =>
    obtain ⟨s, pos, k, hp, rfl, rfl⟩ := Node.step_cases h
    refine ⟨⟨hdisk, hdec, fun s' pc' heq => ?_⟩, by simp⟩
    obtain ⟨rfl, rfl⟩ := Prod.ext_iff.mp (Option.some.inj heq)
    exact finishCall_ok (hproc _ _ hp) (hcurLen hp)
  | save =>
    obtain ⟨s, path, stage, json, hp, rfl, rfl⟩ := Node.step_cases h
    have hok := hproc _ _ hp
    obtain ⟨hdisk', hpc'⟩ := save_ok ⟨hdisk, hdec, hproc⟩ hok (hcurLen hp)
    refine ⟨⟨hdisk', hdec, ?_⟩, by simp⟩
    rintro _ _ ⟨⟩
    exact ⟨hok.ident, hok.path, hok.cur, hok.snap, hpc'⟩
  | saveErr left =>
    obtain ⟨s, path, stage, json, hp, rfl, rfl⟩ := Node.step_cases h
    obtain ⟨hid, hpath, hcur, hsnap, hup, rfl, -⟩ := hproc _ _ hp
    refine ⟨⟨hdisk.update_tmp left, hdec, ?_⟩, by simp⟩
    rintro _ _ ⟨⟩
    exact ⟨hid, hpath, hcur, hsnap, hup⟩
  | crash left =>
    obtain ⟨-, rfl, rfl⟩ := Node.step_cases h
    exact ⟨good_down (hdisk.update_tmp left) hdec rfl, by simp⟩
  | loseSnapshot =>
    obtain ⟨hdown, rfl, rfl⟩ := Node.step_cases h
    refine ⟨good_down ?_ hdec hdown, by simp⟩
    intro json snap hf
    simp at hf
  | restart d readable =>
    obtain ⟨-, hd, rfl, rfl⟩ := Node.step_cases h
    obtain ⟨hup, hle⟩ := new_upTo hdisk readable
    refine ⟨⟨hdisk, hd, ?_⟩, by simp⟩
    rintro _ _ ⟨⟩
    exact ⟨rfl, rfl, Nat.zero_le _, hle, hup⟩

/-- Until it crashes, a server never goes back in the log. -/
lemma step_handled {n n' : Node Text} {a : NodeAction Text} {sent : List Send}
    (hg : Good serde id L n) (h : n.step serde interval id L a = some (n', sent))
    (hup : n.proc.isSome) (hcrash : a.isCrash = false) :
    n'.proc.isSome ∧ n.handled ≤ n'.handled := by
  cases a with
  | decide d =>
    obtain ⟨-, -, -, rfl, -⟩ := Node.step_cases h
    exact ⟨hup, le_rfl⟩
  | handle =>
    obtain ⟨s, hp, -, rfl, -⟩ := Node.step_cases h
    exact ⟨rfl, by simp only [Node.handled, hp]; exact le_rfl⟩
  | entry =>
    obtain ⟨s, pos, c, rest, k, hp, rfl, -⟩ := Node.step_cases h
    have hsnap : (s.applyEntry (pos + 1) c).1.snapshotDecidedIdx = s.snapshotDecidedIdx := by
      unfold OmniPaxosServer.applyEntry
      split_ifs <;> rfl
    refine ⟨rfl, ?_⟩
    simp only [Node.handled, hp, hsnap]
    omega
  | finish =>
    obtain ⟨s, pos, k, hp, rfl, -⟩ := Node.step_cases h
    obtain ⟨-, -, -, -, -, hpos, -⟩ := hg.proc _ _ hp
    refine ⟨rfl, ?_⟩
    obtain ⟨hcur, hsnap, hpc⟩ := finishCall_fields serde interval s k
    rcases hfin : finishCall serde interval s k with ⟨s', pc⟩
    simp only [hfin] at hcur hsnap hpc
    rcases hpc with rfl | ⟨path, stage, json, rfl⟩
    · simp only [Node.handled, hp, hcur, hsnap]
      omega
    · simp only [Node.handled, hp, hcur, hsnap]
      omega
  | save =>
    obtain ⟨s, path, stage, json, hp, rfl, -⟩ := Node.step_cases h
    refine ⟨rfl, ?_⟩
    simp only [Node.handled, hp]
    cases stage <;> exact le_rfl
  | saveErr left =>
    obtain ⟨s, path, stage, json, hp, rfl, -⟩ := Node.step_cases h
    exact ⟨rfl, by simp only [Node.handled, hp]; exact le_rfl⟩
  | crash left => cases hcrash
  | loseSnapshot =>
    obtain ⟨hdown, -, -⟩ := Node.step_cases h
    rw [hdown] at hup
    cases hup
  | restart d readable =>
    obtain ⟨hdown, -, -, -⟩ := Node.step_cases h
    rw [hdown] at hup
    cases hup

/-! ### A log that grows -/

lemma take_of_isPrefix {α : Type*} {l l' : List α} (h : l <+: l') {i : ℕ} (hi : i ≤ l.length) :
    l'.take i = l.take i := by
  obtain ⟨t, rfl⟩ := h
  exact List.take_append_of_le_length hi

variable {L' : List Command}

lemma UpTo.mono {s : OmniPaxosServer} {pos : ℕ} (h : UpTo L s pos) (hL : L <+: L')
    (hpos : pos ≤ L.length) (hsnap : s.snapshotDecidedIdx ≤ L.length) : UpTo L' s pos := by
  unfold UpTo at h ⊢
  rw [take_of_isPrefix hL (max_le hpos hsnap), h]

/-- What holds of a server over the decided sequence holds when more is decided. -/
lemma Good.mono {n : Node Text} (hg : Good serde id L n) (hL : L <+: L') :
    Good serde id L' n := by
  have hlen : L.length ≤ L'.length := hL.length_le
  refine ⟨fun json snap hf hs => ?_, hg.decided.trans hlen, fun s pc hp => ?_⟩
  · obtain ⟨hdb, hle⟩ := hg.disk json snap hf hs
    exact ⟨by rw [hdb, take_of_isPrefix hL hle], hle.trans hlen⟩
  · obtain ⟨hid, hpath, hcur, hsnap, hpc⟩ := hg.proc s pc hp
    have hcurLen : s.currentDecidedIdx ≤ L.length := hcur.trans hg.decided
    refine ⟨hid, hpath, hcur, hsnap.trans hlen, ?_⟩
    cases pc with
    | idle => exact UpTo.mono hpc hL hcurLen hsnap
    | applying pos rest k =>
      obtain ⟨hup, hpos, hrest, hk⟩ := hpc
      refine ⟨UpTo.mono hup hL (hpos.trans hcurLen) hsnap, hpos, ?_, hk⟩
      rw [hrest, take_of_isPrefix hL hcurLen]
    | saving path stage json =>
      obtain ⟨hup, hrest⟩ := hpc
      exact ⟨UpTo.mono hup hL hcurLen hsnap, hrest⟩

/-- A response is settled once its entry is decided. -/
lemma response_mono {i : ℕ} {x : Send} (h : response id L i = some x) (hL : L <+: L') :
    response id L' i = some x := by
  obtain ⟨t, rfl⟩ := hL
  obtain ⟨c, hc, hx⟩ := Option.bind_eq_some_iff.mp h
  have hi : i < L.length := (List.getElem?_eq_some_iff.mp hc).1
  unfold response
  rw [List.getElem?_append_left hi, hc, List.take_append_of_le_length hi.le]
  exact hx

end Good

end OmniPaxosKV.Crash
