import OmniPaxosKV.Recovery
import OmniPaxosKV.ServerLoop

/-!
The loops of the server refine the server of the crash model.

There a call of `handle_decided_entries` is cut into the steps that a crash can fall between, and
nothing is said of what makes the server call it. `refines_node` matches every run of the loops
in which OmniPaxos decides along one sequence with a run of these steps, in which no save fails:
with the same responses in the same order, the same server and the snapshots saved. So what is
proved of any run there is true of the loops.
-/

namespace OmniPaxosKV.ServerLoop

open Common Store Server Crash ServerNetwork TransSys

section Save

variable {Text : Type} (serde : SerdeJson Text)

/-- The files after a save that succeeds. -/
def saveSnapshot (path : Option String) (files : Files Text) (snapshot : DatabaseSnapshot) :
    Files Text :=
  match path with
  | some path =>
    SaveStage.all.foldl (SaveStage.effect serde path (serde.toString snapshot)) files
  | none => files

end Save

section Node

variable {Text : Type} (serde : SerdeJson Text) (interval : ℕ) (id : NodeId) (L : List Command)

lemma run_save {n : Node Text} {server : OmniPaxosServer} {path : String}
    {snapshot : DatabaseSnapshot} (sent : List Send)
    (hp : n.proc = some (server, .saving path .create (serde.toString snapshot))) :
    (Recovery.system serde interval id L).run ⟨n, sent⟩ (List.replicate 5 .save) =
      some ⟨{ n with
        files := saveSnapshot serde (some path) n.files snapshot
        proc := some (server, .idle) }, sent⟩ := by
  simp [System.run, List.replicate, Recovery.system, Node.step, hp, nextStage, saveSnapshot,
    SaveStage.all]

/-- The end of a call, and the save if there is one. -/
lemma run_finish {n : Node Text} {server : OmniPaxosServer} {pos k : ℕ} (sent : List Send)
    (hp : n.proc = some (server, .applying pos [] k)) :
    ∃ as, (Recovery.system serde interval id L).run ⟨n, sent⟩ as =
      some ⟨{ n with
        files := (server.afterEntries interval k).2.toList.foldl
          (saveSnapshot serde server.database.snapshotPath) n.files
        proc := some ((server.afterEntries interval k).1, .idle) }, sent⟩ := by
  have hfinish : (Recovery.system serde interval id L).run ⟨n, sent⟩ [.finish] =
      some ⟨{ n with proc := some (finishCall serde interval server k) }, sent⟩ := by
    simp [System.run, Recovery.system, Node.step, hp]
  obtain ⟨⟨server', saved⟩, hafter⟩ :
      ∃ x, server.afterEntries interval k = x := ⟨_, rfl⟩
  rcases saved with _ | snapshot
  · refine ⟨[.finish], hfinish.trans ?_⟩
    simp [finishCall, hafter]
  · cases hpath : server.database.snapshotPath with
    | none =>
      refine ⟨[.finish], hfinish.trans ?_⟩
      simp [finishCall, hafter, hpath, saveSnapshot]
    | some path =>
      have hsaving : finishCall serde interval server k =
          (server', .saving path .create (serde.toString snapshot)) := by
        simp [finishCall, hafter, hpath]
      rw [hsaving] at hfinish
      refine ⟨[.finish] ++ List.replicate 5 .save, System.run_append hfinish ?_⟩
      rw [run_save serde interval id L sent rfl, hafter]
      rfl

omit serde interval id L in
/-- The entries of a batch leave the decided index and the path of the snapshot alone. -/
lemma applyEntries_fields (l : List Command) : ∀ (server : OmniPaxosServer) (idx : ℕ),
    (server.applyEntries idx l).1.currentDecidedIdx = server.currentDecidedIdx ∧
      (server.applyEntries idx l).1.database.snapshotPath = server.database.snapshotPath := by
  induction l with
  | nil => exact fun _ _ => ⟨rfl, rfl⟩
  | cons command l ih =>
    intro server idx
    obtain ⟨hcur, hpath⟩ := ih (server.applyEntry (idx + 1) command).1 (idx + 1)
    have hentry : (server.applyEntry (idx + 1) command).1.currentDecidedIdx =
          server.currentDecidedIdx ∧
        (server.applyEntry (idx + 1) command).1.database.snapshotPath =
          server.database.snapshotPath := by
      by_cases hle : idx + 1 ≤ server.snapshotDecidedIdx
      · rw [OmniPaxosServer.applyEntry, if_pos hle]
        exact ⟨rfl, rfl⟩
      · rw [OmniPaxosServer.applyEntry, if_neg hle, Database.handleCommand_eq]
        exact ⟨rfl, rfl⟩
    exact ⟨hcur.trans hentry.1, hpath.trans hentry.2⟩

omit serde id in
lemma handleDecidedEntries_fields (server : OmniPaxosServer) (d : ℕ) :
    (server.handleDecidedEntries interval L d).1.database.snapshotPath =
        server.database.snapshotPath ∧
      ∀ x ∈ (server.handleDecidedEntries interval L d).2.1, x.2.commandId.isSome := by
  by_cases hlt : server.currentDecidedIdx < d
  · simp only [OmniPaxosServer.handleDecidedEntries, hlt, if_true]
    have hdatabase := (afterEntries_fields interval
      (OmniPaxosServer.applyEntries { server with currentDecidedIdx := d }
        server.currentDecidedIdx (readDecidedSuffix L d server.currentDecidedIdx)).1
      (OmniPaxosServer.applyEntries { server with currentDecidedIdx := d }
        server.currentDecidedIdx (readDecidedSuffix L d server.currentDecidedIdx)).2.1).2.1
    refine ⟨?_, (applyEntries_sent _ _ _).2⟩
    rw [hdatabase]
    exact (applyEntries_fields _ _ _).2
  · simp only [OmniPaxosServer.handleDecidedEntries, hlt, if_false]
    exact ⟨trivial, fun x hx => by cases hx⟩

/-- **A call with its save**, step by step. -/
lemma run_call {n : Node Text} {server : OmniPaxosServer} {d : ℕ} (sent : List Send)
    (hp : n.proc = some (server, .idle)) (hn : n.decidedIdx = server.currentDecidedIdx)
    (hd : d ≤ L.length) :
    ∃ as, (Recovery.system serde interval id L).run ⟨n, sent⟩ as =
      some ⟨{ n with
        files := (server.handleDecidedEntries interval L d).2.2.toList.foldl
          (saveSnapshot serde server.database.snapshotPath) n.files
        decidedIdx := (server.handleDecidedEntries interval L d).1.currentDecidedIdx
        proc := some ((server.handleDecidedEntries interval L d).1, .idle) },
        sent ++ (server.handleDecidedEntries interval L d).2.1⟩ := by
  by_cases hlt : server.currentDecidedIdx < d
  · set decided := readDecidedSuffix L d server.currentDecidedIdx with hdecided
    set server₀ : OmniPaxosServer := { server with currentDecidedIdx := d } with hserver₀
    set r := server₀.applyEntries server.currentDecidedIdx decided with hr
    have hcall : server.handleDecidedEntries interval L d =
        ((r.1.afterEntries interval r.2.1).1, r.2.2, (r.1.afterEntries interval r.2.1).2) := by
      simp only [OmniPaxosServer.handleDecidedEntries, hlt, if_true, ← hdecided, ← hserver₀, ← hr]
    have hhandle : (Recovery.system serde interval id L).run ⟨n, sent⟩ [.decide d, .handle] =
        some ⟨{ n with
          decidedIdx := d
          proc := some (server₀, .applying server.currentDecidedIdx decided 0) }, sent⟩ := by
      simp [System.run, Recovery.system, Node.step, hp, hn, hlt, hlt.le, hd, ← hdecided,
        ← hserver₀]
    have hentries := Recovery.run_entries serde interval id L decided
      { n with
        decidedIdx := d
        proc := some (server₀, .applying server.currentDecidedIdx decided 0) } sent server₀ _ 0 rfl
    rw [← hr, Nat.zero_add] at hentries
    obtain ⟨as, hfinish⟩ := run_finish serde interval id L (sent ++ r.2.2)
      (n := { n with
        decidedIdx := d
        proc := some (r.1, .applying (server.currentDecidedIdx + decided.length) [] r.2.1) }) rfl
    obtain ⟨hcur, hpath⟩ := applyEntries_fields decided server₀ server.currentDecidedIdx
    have hidx : (r.1.afterEntries interval r.2.1).1.currentDecidedIdx = d :=
      (afterEntries_fields interval r.1 r.2.1).2.2.1.trans hcur
    have hpath : r.1.database.snapshotPath = server.database.snapshotPath := hpath
    refine ⟨_, (System.run_append (System.run_append hhandle hentries) hfinish).trans ?_⟩
    rw [hcall, hidx, hpath]
  · refine ⟨[], ?_⟩
    have hcall : server.handleDecidedEntries interval L d = (server, [], none) := by
      simp only [OmniPaxosServer.handleDecidedEntries, hlt, if_false]
    rw [hcall]
    simp [System.run, ← hn, ← hp]

end Node

variable {Ω Msg : Type*} {Text : Type} {op : OmniPaxos Ω Msg} {cfg : OmniPaxosKVConfig}
  {L : List Command} {S : ℕ} {path : Option String} {ω : Ω} {c c' : Core Ω Msg} {s : State Ω Msg}
  {serde : SerdeJson Text} {files : Files Text}

/-- The snapshot that a call saves. -/
def Call.saved? : Call Msg → Option DatabaseSnapshot
  | .saveSnapshot snapshot => some snapshot
  | .append _ => none
  | .applyConnection _ => none
  | .sendToCluster _ _ => none
  | .sendToClient _ _ => none

/-- The server as the crash model sees it: between two calls, with its disk and what it has
sent. -/
def Core.node (serde : SerdeJson Text) (files : Files Text) (path : Option String)
    (c : Core Ω Msg) : Recovery.State Text :=
  ⟨⟨(c.calls.filterMap Call.saved?).foldl (saveSnapshot serde path) files,
    c.server.currentDecidedIdx, some (c.server, .idle)⟩, c.calls.filterMap Call.response?⟩

/-- The crash model has a run to the server. -/
structure Refines (cfg : OmniPaxosKVConfig) (L : List Command) (S : ℕ) (path : Option String)
    (serde : SerdeJson Text) (files : Files Text) (c : Core Ω Msg) : Prop where
  snapshotPath : c.server.database.snapshotPath = path
  run : ∃ as, (Recovery.system serde cfg.snapshotInterval cfg.serverId L).run
    ⟨⟨files, 0, some (started cfg.serverId L S path, .idle)⟩, []⟩ as =
      some (c.node serde files path)

lemma node_call (c : Core Ω Msg) (calls : List (Call Msg)) :
    (c.call calls).node serde files path =
      ⟨⟨(calls.filterMap Call.saved?).foldl (saveSnapshot serde path)
          (c.node serde files path).node.files, c.server.currentDecidedIdx,
        some (c.server, .idle)⟩,
        (c.node serde files path).sent ++ calls.filterMap Call.response?⟩ := by
  simp only [Core.node, Core.call, List.filterMap_append, List.foldl_append]

lemma Refines.call (h : Refines cfg L S path serde files c) {calls : List (Call Msg)}
    (hsaved : calls.filterMap Call.saved? = []) (hsent : calls.filterMap Call.response? = []) :
    Refines cfg L S path serde files (c.call calls) := by
  refine ⟨h.snapshotPath, ?_⟩
  have heq : (c.call calls).node serde files path = c.node serde files path := by
    rw [node_call, hsaved, hsent, List.append_nil]
    rfl
  rw [heq]
  exact h.run

/-- What OmniPaxos does of itself is no matter. -/
lemma Refines.omnipaxos (h : Refines cfg L S path serde files c) (ω : Ω) :
    Refines cfg L S path serde files { c with omnipaxos := ω } :=
  ⟨h.snapshotPath, h.run⟩

lemma filterMap_saved (sent : List Send) (saved : Option DatabaseSnapshot) :
    (sent.map Call.respond ++ (saved.map Call.saveSnapshot).toList : List (Call Msg)).filterMap
      Call.saved? = saved.toList := by
  have hsent : (sent.map Call.respond : List (Call Msg)).filterMap Call.saved? = [] :=
    List.filterMap_eq_nil_iff.mpr fun call hcall => by
      obtain ⟨x, -, rfl⟩ := List.mem_map.mp hcall
      rfl
  rw [List.filterMap_append, hsent, List.nil_append]
  cases saved <;> rfl

lemma filterMap_response {sent : List Send} (hsent : ∀ x ∈ sent, x.2.commandId.isSome)
    (saved : Option DatabaseSnapshot) :
    (sent.map Call.respond ++ (saved.map Call.saveSnapshot).toList : List (Call Msg)).filterMap
      Call.response? = sent := by
  rw [List.filterMap_append, filterMap_map_respond hsent]
  cases saved <;> simp [Call.response?]

/-- **The call** for what is decided, as a run. -/
lemma Refines.handleDecidedEntries (h : Refines cfg L S path serde files c)
    (hd : op.Decides L c.omnipaxos) :
    Refines cfg L S path serde files (c.handleDecidedEntries op cfg) := by
  obtain ⟨as, hrun⟩ := h.run
  obtain ⟨as', hcall⟩ := run_call serde cfg.snapshotInterval cfg.serverId L
    (n := (c.node serde files path).node) (c.calls.filterMap Call.response?) rfl rfl hd.1
  obtain ⟨hpath, hsent⟩ := handleDecidedEntries_fields cfg.snapshotInterval L c.server
    (op.getDecidedIdx c.omnipaxos)
  rw [hd.handleDecidedEntries_eq]
  refine ⟨?_, as ++ as', ?_⟩
  · exact hpath.trans h.snapshotPath
  · refine (System.run_append hrun hcall).trans ?_
    rw [node_call, filterMap_saved, filterMap_response hsent, h.snapshotPath]
    rfl

lemma Refines.part {ins : List (Input Msg)} (h : Refines cfg L S path serde files c)
    (hp : Part op cfg (op.Decides L) c ins c') : Refines cfg L S path serde files c' := by
  have hsignals : ∀ {c : Core Ω Msg} startTime, Refines cfg L S path serde files c →
      Refines cfg L S path serde files (c.sendClientStartSignals cfg startTime) := by
    intro c startTime h
    refine h.call ?_ ?_
    · simp [List.filterMap_map, Function.comp_def, Call.saved?]
    · simp [List.filterMap_map, Function.comp_def, Call.response?, ServerMessage.commandId]
  cases hp with
  | tick => exact h.omnipaxos _
  | tryBecomeLeader => exact h.omnipaxos _
  | handleIncoming m => exact h.omnipaxos _
  | append command ω =>
    exact (h.omnipaxos ω).call (by simp [Call.saved?]) (by simp [Call.response?])
  | flush =>
    refine (h.omnipaxos _).call ?_ ?_
    · simp [List.filterMap_map, Function.comp_def, Call.saved?]
    · simp [List.filterMap_map, Function.comp_def, Call.response?]
  | applyConnection connection =>
    exact h.call (by simp [Call.saved?]) (by simp [Call.response?])
  | announce startTime =>
    refine hsignals startTime (h.call ?_ ?_)
    · simp [List.filterMap_map, Function.comp_def, Call.saved?]
    · simp [List.filterMap_map, Function.comp_def, Call.response?]
  | relay startTime => exact hsignals startTime h
  | decided hd => exact h.handleDecidedEntries hd

/-- **Refinement**: for every run of the loops in which what the server reads as decided is the
start of `L`, there is a run of the server of the crash model, from the same start to the same
server, with the same responses in the same order and with the snapshots on disk that were
saved. -/
theorem refines_node (serde : SerdeJson Text) (files : Files Text)
    (h : (system op cfg L S path ω).Reaches (ReadsWhere op (op.Decides L)) s) :
    ∃ as, (Recovery.system serde cfg.snapshotInterval cfg.serverId L).run
      ⟨⟨files, 0, some (started cfg.serverId L S path, .idle)⟩, []⟩ as =
        some (s.core.node serde files path) := by
  have hinv : Refines cfg L S path serde files s.core := by
    refine System.Reaches.invariant
      (I := fun s : State Ω Msg => Refines cfg L S path serde files s.core) ?_ ?_ h
    · rintro s rfl
      exact ⟨rfl, [], rfl⟩
    · intro s a s' hinv hs hreads
      obtain ⟨ins, hiter⟩ := parts_of_step hs hreads
      exact hiter.parts.keeps Refines.part hinv
  exact hinv.run

theorem refines_takesOver : ∃ s,
    (system (paxos 2) pair putThenGet 0 (some "snapshot.json") fresh).run
      (start pair putThenGet 0 (some "snapshot.json") fresh) takesOver = some s ∧
    (s.core.calls.filterMap Call.saved?).map DatabaseSnapshot.decidedIdx = [1, 2] ∧
    ∃ as, (Recovery.system Recovery.plainSerde pair.snapshotInterval pair.serverId putThenGet).run
      ⟨⟨fun _ => none, 0,
        some (started pair.serverId putThenGet 0 (some "snapshot.json"), .idle)⟩, []⟩ as =
        some (s.core.node Recovery.plainSerde (fun _ => none) (some "snapshot.json")) := by
  have hinit : (system (paxos 2) pair putThenGet 0 (some "snapshot.json") fresh).init
      (start pair putThenGet 0 (some "snapshot.json") fresh) := rfl
  obtain ⟨s, hr, hsaved⟩ : ∃ s,
      (system (paxos 2) pair putThenGet 0 (some "snapshot.json") fresh).run
        (start pair putThenGet 0 (some "snapshot.json") fresh) takesOver = some s ∧
      (s.core.calls.filterMap Call.saved?).map DatabaseSnapshot.decidedIdx = [1, 2] :=
    ⟨_, rfl, by decide⟩
  exact ⟨s, hr, hsaved, refines_node Recovery.plainSerde (fun _ => none)
    (System.Reaches.run (.init hinit) takesOver hr (by decide))⟩

end OmniPaxosKV.ServerLoop
