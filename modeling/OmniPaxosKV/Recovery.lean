import OmniPaxosKV.Crash

/-!
Crash recovery refines plain replay of the log.

In every run of one server over a decided sequence `L`, with any number of crashes, failed
saves and restarts, the map in memory is the replay of the entries passed so far, the readable
snapshot on disk is the replay of as many entries as it says, and every response is the one
plain replay gives. The steps of a call that does not crash add up to `handleDecidedEntries`.
-/

namespace OmniPaxosKV.Recovery

open Common Replay Store Server Crash TransSys

variable {Text : Type}

structure State (Text : Type) where
  node : Node Text
  /-- Everything sent to clients so far, over all incarnations. -/
  sent : List Send

section System

variable (serde : SerdeJson Text) (interval : ℕ) (id : NodeId) (L : List Command)

/-- One server over the decided sequence `L`; before its first boot there is no snapshot it
could read. -/
def system : System (State Text) (NodeAction Text) where
  init s :=
    s.node.proc = none ∧ s.node.decidedIdx = 0 ∧ s.sent = [] ∧
      ∀ json, s.node.files (snapshotPath id) = some json → serde.fromStr json = none
  step s a := (s.node.step serde interval id L a).map fun r => ⟨r.1, s.sent ++ r.2⟩

/-- The server, its disk and its answers are those of a plain replay of `L`. -/
structure RefinesReplay (s : State Text) : Prop where
  idle : ∀ srv, s.node.proc = some (srv, .idle) →
    srv.database.db = replay (L.take (max srv.currentDecidedIdx srv.snapshotDecidedIdx))
  applying : ∀ srv pos rest k, s.node.proc = some (srv, .applying pos rest k) →
    srv.database.db = replay (L.take (max pos srv.snapshotDecidedIdx)) ∧
      rest = (L.take srv.currentDecidedIdx).drop pos
  saving : ∀ srv path stage json, s.node.proc = some (srv, .saving path stage json) →
    srv.database.db = replay (L.take srv.currentDecidedIdx) ∧
      serde.fromStr json = some ⟨replay (L.take srv.currentDecidedIdx), srv.currentDecidedIdx⟩
  indices : s.node.decidedIdx ≤ L.length ∧ ∀ srv pc, s.node.proc = some (srv, pc) →
    srv.currentDecidedIdx ≤ s.node.decidedIdx ∧ srv.snapshotDecidedIdx ≤ L.length
  disk : ∀ json snap, s.node.files (snapshotPath id) = some json →
    serde.fromStr json = some snap →
      snap.db = replay (L.take snap.decidedIdx) ∧ snap.decidedIdx ≤ L.length
  answers : ∀ x ∈ s.sent, ∃ i < L.length, response id L i = some x

variable {serde interval id L}

lemma refines_of_good {s : State Text} (hg : Good serde id L s.node)
    (ha : ∀ x ∈ s.sent, ∃ i < L.length, response id L i = some x) :
    RefinesReplay serde id L s where
  idle srv hp := (hg.proc _ _ hp).at_pc
  applying srv pos rest k hp := by
    obtain ⟨hup, -, hrest, -⟩ := (hg.proc _ _ hp).at_pc
    exact ⟨hup, hrest⟩
  saving srv path stage json hp := by
    obtain ⟨hup, -, hle, hjson, -⟩ := (hg.proc _ _ hp).at_pc
    have hdb : srv.database.db = replay (L.take srv.currentDecidedIdx) := by
      unfold UpTo at hup
      rwa [max_eq_left hle] at hup
    exact ⟨hdb, by rw [hjson, serde.round_trip, hdb]⟩
  indices := ⟨hg.decided, fun srv pc hp => ⟨(hg.proc _ _ hp).cur, (hg.proc _ _ hp).snap⟩⟩
  disk := hg.disk
  answers := ha

/-- **Crash recovery refines plain replay.** -/
theorem recovery_refines_replay {s : State Text}
    (h : (system serde interval id L).Reachable s) : RefinesReplay serde id L s := by
  have key : Good serde id L s.node ∧
      ∀ x ∈ s.sent, ∃ i < L.length, response id L i = some x := by
    refine h.invariant (I := fun s => Good serde id L s.node ∧
      ∀ x ∈ s.sent, ∃ i < L.length, response id L i = some x) ?_ ?_
    · rintro s ⟨hp, hd, hs, hf⟩
      refine ⟨good_down ?_ (by omega) hp, by simp [hs]⟩
      intro json snap hj hsnap
      rw [hf json hj] at hsnap
      cases hsnap
    · rintro s a s' ⟨hg, ha⟩ hs -
      simp only [system, Option.map_eq_some_iff] at hs
      obtain ⟨⟨n', sent⟩, hn, rfl⟩ := hs
      obtain ⟨hg', hsent⟩ := step_good hg hn
      refine ⟨hg', fun x hx => ?_⟩
      rcases List.mem_append.mp hx with hx | hx
      · exact ha x hx
      · exact ⟨_, hsent x hx⟩
  exact refines_of_good key.1 key.2

end System

/-- Snapshots kept as they are; `none` is a file that does not parse. -/
def plainSerde : SerdeJson (Option DatabaseSnapshot) where
  empty := none
  toString := some
  fromStr := fun text => text
  round_trip _ := rfl

def sampleLog : List Command := [⟨7, 1, 0, .Put "x" "1"⟩, ⟨7, 1, 1, .Get "x"⟩]

/-- A put is decided, applied and saved; the server crashes in the next save, after the read
was answered, and comes back with a decided index below its snapshot. -/
def sampleRun : List (NodeAction (Option DatabaseSnapshot)) :=
  [.restart 0 true, .decide 1, .handle, .entry, .finish, .save, .save, .save, .save, .save,
    .decide 2, .handle, .entry, .finish, .save, .crash none, .restart 0 true, .decide 2,
    .handle, .entry, .entry]

theorem recovery_refines_replay_run :
    ∃ s, (system plainSerde 1 1 sampleLog).run ⟨⟨fun _ => none, 0, none⟩, []⟩ sampleRun = some s ∧
      s.sent = [(7, .Write 0), (7, .Read 1 (some "1")), (7, .Read 1 (some "1"))] ∧
      RefinesReplay plainSerde 1 sampleLog s := by
  have hinit : (system plainSerde 1 1 sampleLog).init ⟨⟨fun _ => none, 0, none⟩, []⟩ :=
    ⟨rfl, rfl, rfl, fun json h => by cases h⟩
  refine ⟨_, rfl, by decide, ?_⟩
  exact recovery_refines_replay (System.Reachable.run (.init hinit) sampleRun rfl)

/-! ### The steps of a call -/

section Call

variable (serde : SerdeJson Text) (interval : ℕ) (id : NodeId) (L : List Command)

/-- The steps of the loop add up to `applyEntries`. -/
lemma run_entries (l : List Command) :
    ∀ (n : Node Text) (sent : List Send) (s : OmniPaxosServer) (pos k : ℕ),
      n.proc = some (s, .applying pos l k) →
      (system serde interval id L).run ⟨n, sent⟩ (List.replicate l.length .entry) =
        some ⟨{ n with proc := some ((s.applyEntries pos l).1,
            .applying (pos + l.length) [] (k + (s.applyEntries pos l).2.1)) },
          sent ++ (s.applyEntries pos l).2.2⟩ := by
  induction l with
  | nil =>
    intro n sent s pos k hp
    simp [System.run, OmniPaxosServer.applyEntries, ← hp]
  | cons c l ih =>
    intro n sent s pos k hp
    have hstep : (system serde interval id L).step ⟨n, sent⟩ .entry =
        some ⟨{ n with proc := some ((s.applyEntry (pos + 1) c).1,
            .applying (pos + 1) l (k + (s.applyEntry (pos + 1) c).2.1)) },
          sent ++ (s.applyEntry (pos + 1) c).2.2⟩ := by
      simp [system, Node.step, hp]
    have hrest := ih { n with proc := some ((s.applyEntry (pos + 1) c).1,
        .applying (pos + 1) l (k + (s.applyEntry (pos + 1) c).2.1)) }
      (sent ++ (s.applyEntry (pos + 1) c).2.2) _ _ _ rfl
    rw [List.length_cons, List.replicate_succ, System.run, List.foldlM_cons, hstep]
    refine hrest.trans ?_
    simp only [OmniPaxosServer.applyEntries, List.append_assoc, Nat.add_assoc, Nat.add_comm 1]

/-- **A call that does not crash** reads the suffix, runs the loop and decides about the save
exactly as `handleDecidedEntries` does. -/
theorem call_eq_handle (n : Node Text) (sent : List Send) (s : OmniPaxosServer)
    (hp : n.proc = some (s, .idle)) (hlt : s.currentDecidedIdx < n.decidedIdx) :
    ∃ pc, (system serde interval id L).run ⟨n, sent⟩
        (.handle :: (List.replicate
          (readDecidedSuffix L n.decidedIdx s.currentDecidedIdx).length .entry ++ [.finish])) =
      some ⟨{ n with
          proc := some ((s.handleDecidedEntries interval L n.decidedIdx).1, pc) },
        sent ++ (s.handleDecidedEntries interval L n.decidedIdx).2.1⟩ := by
  set decided := readDecidedSuffix L n.decidedIdx s.currentDecidedIdx with hdec
  set s₀ : OmniPaxosServer := { s with currentDecidedIdx := n.decidedIdx } with hs₀
  set r := s₀.applyEntries s.currentDecidedIdx decided with hr
  have hcall : s.handleDecidedEntries interval L n.decidedIdx =
      ((r.1.afterEntries interval r.2.1).1, r.2.2, (r.1.afterEntries interval r.2.1).2) := by
    simp only [OmniPaxosServer.handleDecidedEntries, hlt, if_true, ← hdec, ← hs₀, ← hr]
  have hhandle : (system serde interval id L).step ⟨n, sent⟩ .handle =
      some ⟨{ n with proc := some (s₀, .applying s.currentDecidedIdx decided 0) }, sent⟩ := by
    simp [system, Node.step, hp, hlt, ← hdec, ← hs₀]
  have hloop := run_entries serde interval id L decided
    { n with proc := some (s₀, .applying s.currentDecidedIdx decided 0) } sent s₀ _ 0 rfl
  have hfin : (finishCall serde interval r.1 (0 + r.2.1)).1 =
      (r.1.afterEntries interval r.2.1).1 := by
    unfold finishCall
    rw [Nat.zero_add]
    split <;> rename_i h _ <;> rw [h]
  refine ⟨(finishCall serde interval r.1 (0 + r.2.1)).2, ?_⟩
  rw [hcall]
  simp only [System.run, List.foldlM_cons, List.foldlM_append, hhandle, Option.bind_eq_bind,
    Option.bind_some]
  rw [System.run] at hloop
  rw [hloop, ← hr]
  simp [system, Node.step, ← hfin]

end Call

end OmniPaxosKV.Recovery
