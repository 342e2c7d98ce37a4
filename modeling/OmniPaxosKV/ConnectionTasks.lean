import OmniPaxosKV.ServerNetwork
import OmniPaxosKV.Slots
import OmniPaxosKV.TransSys

/-!
The tasks behind the server's connection tables.

Each connection comes with a reader task and a writer task, whose handles are in the table with
it. Closing a connection aborts both; a connection that is merely dropped leaves its reader
running, which goes on putting messages into the server's channels. `tables_of_run` says which
runs close every connection that has left the tables.
-/

namespace OmniPaxosKV.ConnectionTasks

open Common ServerNetwork Slots TransSys

open Function (update)

/-- The tasks of a connection. Whether its writer still takes messages is kept in the table. -/
structure Tasks where
  readerEnded : Bool
  readerAborted : Bool
  writerAborted : Bool
  deriving DecidableEq

namespace Tasks

def spawned : Tasks := ⟨false, false, false⟩

def close (t : Tasks) : Tasks := { t with readerAborted := true, writerAborted := true }

def Closed (t : Tasks) : Prop := t.readerAborted = true ∧ t.writerAborted = true

def readerRuns (t : Tasks) : Bool := !t.readerEnded && !t.readerAborted

end Tasks

def link : NewConnection → LinkId
  | .ToPeer connection => connection.link
  | .ToClient connection => connection.link

structure Server where
  net : Network
  /-- Connections on their way to `apply_connection`, in no particular order. -/
  arriving : List NewConnection
  /-- How many connections there have been. -/
  made : ℕ
  tasks : LinkId → Tasks
  /-- The connections that were ever in a table. -/
  stored : List LinkId
  /-- The connections whose readers put a message into a channel of the server, in order. -/
  fed : List LinkId

inductive Action
  | connectPeer (peerId : NodeId)
  /-- The server numbers its clients; here a client may come under any id. -/
  | connectClient (clientId : ClientId)
  | applyConnection (i : ℕ)
  | sendToCluster (peer : NodeId)
  | sendToClient (client : ClientId)
  | shutdown
  | readerFeeds (link : LinkId)
  | readerEnds (link : LinkId)
  | peerWriterEnds (idx : ℕ)
  | clientWriterEnds (client : ClientId)

namespace Server

def start (peers : List NodeId) : Server := ⟨.new peers, [], 0, fun _ => .spawned, [], []⟩

variable (s : Server)

/-- A connection is made, and its tasks are spawned. -/
def connect (c : LinkId → NewConnection) : Server :=
  { s with arriving := s.arriving ++ [c s.made], made := s.made + 1 }

/-- Closes connections. -/
def close (links : List LinkId) : Server :=
  { s with tasks := fun l => if l ∈ links then (s.tasks l).close else s.tasks l }

/-- Whether a connection finds a place. -/
def accepts : NewConnection → Bool
  | .ToPeer connection => (s.net.clusterIdToIdx connection.peerId).isSome
  | .ToClient _ => true

def step (s : Server) : Action → Option Server
  | .connectPeer peerId => some (s.connect fun l => .ToPeer ⟨peerId, l, true⟩)
  | .connectClient clientId => some (s.connect fun l => .ToClient ⟨clientId, l, true⟩)
  | .applyConnection i =>
    match s.arriving[i]? with
    | some c =>
      let (net, closed) := s.net.applyConnection c
      some { s.close closed.toList with
        net := net
        arriving := s.arriving.eraseIdx i
        stored := if s.accepts c then s.stored ++ [link c] else s.stored }
    | none => none
  -- a send that fails drops the connection
  | .sendToCluster peer => some { s with net := (s.net.sendToCluster peer).1 }
  | .sendToClient client => some { s with net := (s.net.sendToClient client).1 }
  | .shutdown =>
    let (net, closed) := s.net.shutdown
    some { s.close closed with net := net }
  | .readerFeeds l =>
    if l < s.made ∧ (s.tasks l).readerRuns then some { s with fed := s.fed ++ [l] } else none
  | .readerEnds l =>
    if l < s.made then
      some { s with tasks := update s.tasks l { s.tasks l with readerEnded := true } }
    else none
  | .peerWriterEnds idx => some { s with net := s.net.peerWriterEnded idx }
  | .clientWriterEnds client => some { s with net := s.net.clientWriterEnded client }

end Server

def system : System Server Action where
  init s := ∃ peers, s = Server.start peers
  step := Server.step

/-- A connection that was in a table and no longer is. -/
def Gone (s : Server) (l : LinkId) : Prop := l ∈ s.stored ∧ ∀ place, s.net.linkAt place ≠ some l

/-- Every connection that has left the tables has been closed. -/
def NoLeak (s : Server) : Prop := ∀ l, Gone s l → (s.tasks l).Closed

/-- The step does not drop a connection without closing it: the writer that a message is handed
to takes it, and a client's connection comes under a free id. -/
def Closes (s : Server) : Action → Prop
  | .sendToCluster peer => ∀ c, s.net.peerConnection peer = some c → c.writerTask = true
  | .sendToClient client => ∀ c, s.net.clientConnections.lookup client = some c →
      c.writerTask = true
  | .applyConnection i => ∀ c, s.arriving[i]? = some (.ToClient c) →
      s.net.clientConnections.lookup c.clientId = none
  | _ => True

/-! ### The tables as slots -/

/-- Connections are held in places, and released when both tasks are aborted. -/
def Server.table (s : Server) : Table Network.Place LinkId :=
  ⟨s.net.linkAt, {l | l ∈ s.stored}, {l | (s.tasks l).Closed}⟩

/-- A connection arrives once, and is not stored before. -/
structure Fresh (s : Server) : Prop where
  arriving : ∀ c ∈ s.arriving, link c < s.made ∧ link c ∉ s.stored
  distinct : (s.arriving.map link).Nodup
  stored : ∀ l ∈ s.stored, l < s.made

structure Inv (s : Server) : Prop where
  aligned : s.net.Aligned
  fresh : Fresh s
  table : s.table.WellFormed

variable {s s' : Server}

lemma tight_iff : s.table.Tight ↔ NoLeak s := by
  refine forall_congr' fun l => ?_
  simp only [Gone, Table.Held, not_exists]
  exact and_imp.symm

lemma closed_close (links : List LinkId) (l : LinkId) :
    ((s.close links).tasks l).Closed ↔ (s.tasks l).Closed ∨ l ∈ links := by
  by_cases hl : l ∈ links
  · simp [Server.close, hl, Tasks.Closed, Tasks.close]
  · simp [Server.close, hl]

/-- A connection is stored in a place, and what was there is closed or not. -/
lemma table_store {net : Network} {place : Network.Place} {l : LinkId} {closed : List LinkId}
    {release : Bool} (arriving : List NewConnection)
    (hnet : net.linkAt = update s.net.linkAt place (some l))
    (hclosed : ∀ l', l' ∈ closed ↔ release = true ∧ s.net.linkAt place = some l') :
    Server.table { s.close closed with
      net := net, arriving := arriving, stored := s.stored ++ [l] } =
        s.table.put place (some l) release := by
  refine Table.ext hnet ?_ ?_
  · ext l'
    simp [Server.table, Table.put, eq_comm, or_comm]
  · ext l'
    exact (closed_close closed l').trans (or_congr_right (hclosed l'))

/-- A connection is dropped, which closes nothing. -/
lemma table_drop {net : Network} {place : Network.Place}
    (hnet : net.linkAt = update s.net.linkAt place none) :
    Server.table { s with net := net } = s.table.put place none false := by
  refine Table.ext hnet ?_ ?_
  · simp [Server.table, Table.put]
  · simp [Server.table, Table.put]

/-- What a step does to the slots, and whether it closes what it removes. -/
lemma step_table {a : Action} (h : Inv s) (hs : s.step a = some s') :
    (s'.table = s.table ∧ Closes s a) ∨ (s'.table = s.table.clear ∧ Closes s a) ∨
    ∃ k x release, s'.table = s.table.put k x release ∧ (∀ l, x = some l → l ∉ s.table.ever) ∧
      (Closes s a ↔ s.table.held k = none ∨ release = true) := by
  cases a with
  | connectPeer peerId =>
    obtain rfl := Option.some.inj hs
    exact Or.inl ⟨rfl, trivial⟩
  | connectClient clientId =>
    obtain rfl := Option.some.inj hs
    exact Or.inl ⟨rfl, trivial⟩
  | applyConnection i =>
    simp only [Server.step] at hs
    split at hs
    · rename_i c hget
      obtain rfl := Option.some.inj hs
      have hfresh : ∀ l, some (link c) = some l → l ∉ s.stored := by
        rintro l ⟨⟩
        exact (h.fresh.arriving c (List.mem_of_getElem? hget)).2
      cases c with
      | ToPeer connection =>
        have hcloses : Closes s (.applyConnection i) := by
          intro c hc
          rw [hget] at hc
          cases hc
        rcases hidx : s.net.clusterIdToIdx connection.peerId with _ | idx
        · -- a peer that is not known
          left
          refine ⟨?_, hcloses⟩
          simp [Server.table, Network.applyConnection, Server.accepts, Server.close, hidx]
        · right; right
          refine ⟨.peer idx, _, true, ?_, hfresh, by simp [hcloses]⟩
          simp only [Network.applyConnection, Server.accepts, hidx, Option.isSome_some, if_true]
          refine table_store _ (Network.linkAt_setSlot (h.aligned.idx_lt hidx) _) fun l => ?_
          simp [Network.linkAt]
      | ToClient connection =>
        right; right
        refine ⟨.client connection.clientId, _, false, ?_, hfresh, ?_⟩
        · exact table_store _ (Network.linkAt_insert connection) fun l => by
            simp [Network.applyConnection]
        · simp [Closes, hget, Server.table, Network.linkAt]
    · cases hs
  | sendToCluster peer =>
    obtain rfl := Option.some.inj hs
    rcases s.net.sendToCluster_cases peer with ⟨hnone, heq⟩ | ⟨c, hc, hw, heq⟩ |
      ⟨c, idx, hc, hw, hidx, hslot, heq⟩
    · left
      refine ⟨by rw [heq], fun c hc => ?_⟩
      rw [hnone] at hc
      cases hc
    · left
      refine ⟨by rw [heq], fun c' hc' => ?_⟩
      obtain rfl := Option.some.inj (hc.symm.trans hc')
      exact hw
    · right; right
      refine ⟨.peer idx, none, false, table_drop ?_, by simp, ?_⟩
      · rw [heq]
        exact Network.linkAt_setSlot (h.aligned.idx_lt hidx) none
      · simp [Closes, hc, hw, Server.table, Network.linkAt, hslot]
  | sendToClient client =>
    obtain rfl := Option.some.inj hs
    rcases s.net.sendToClient_cases client with ⟨heq, hw⟩ | ⟨c, hc, hw, heq⟩
    · exact Or.inl ⟨by rw [heq], hw⟩
    · right; right
      refine ⟨.client client, none, false, table_drop ?_, by simp, ?_⟩
      · rw [heq]
        exact Network.linkAt_erase
      · simp [Closes, hc, hw, Server.table, Network.linkAt]
  | shutdown =>
    obtain rfl := Option.some.inj hs
    right; left
    refine ⟨Table.ext (Network.empty_shutdown s.net).linkAt rfl ?_, trivial⟩
    ext l
    exact (closed_close _ l).trans (or_congr_right Network.mem_shutdown)
  | readerFeeds l =>
    simp only [Server.step] at hs
    split_ifs at hs
    obtain rfl := Option.some.inj hs
    exact Or.inl ⟨rfl, trivial⟩
  | readerEnds l =>
    simp only [Server.step] at hs
    split_ifs at hs
    obtain rfl := Option.some.inj hs
    left
    refine ⟨Table.ext rfl rfl ?_, trivial⟩
    ext l'
    by_cases hl : l' = l
    · subst hl
      simp [Server.table, Tasks.Closed]
    · simp [Server.table, hl]
  | peerWriterEnds idx =>
    obtain rfl := Option.some.inj hs
    have hsame := (Network.peerWriterEnded_spec h.aligned idx).2
    exact Or.inl ⟨Table.ext hsame rfl rfl, trivial⟩
  | clientWriterEnds client =>
    obtain rfl := Option.some.inj hs
    have hsame := (Network.clientWriterEnded_spec h.aligned client).2
    exact Or.inl ⟨Table.ext hsame rfl rfl, trivial⟩

lemma step_aligned {a : Action} (h : s.net.Aligned) (hs : s.step a = some s') : s'.net.Aligned := by
  cases a with
  | connectPeer peerId =>
    obtain rfl := Option.some.inj hs
    exact h
  | connectClient clientId =>
    obtain rfl := Option.some.inj hs
    exact h
  | applyConnection i =>
    simp only [Server.step] at hs
    split at hs
    · rename_i c hget
      obtain rfl := Option.some.inj hs
      exact h.applyConnection c
    · cases hs
  | sendToCluster peer =>
    obtain rfl := Option.some.inj hs
    exact h.sendToCluster peer
  | sendToClient client =>
    obtain rfl := Option.some.inj hs
    exact h.sendToClient client
  | shutdown =>
    obtain rfl := Option.some.inj hs
    exact (Network.empty_shutdown s.net).aligned
  | readerFeeds l =>
    simp only [Server.step] at hs
    split_ifs at hs
    obtain rfl := Option.some.inj hs
    exact h
  | readerEnds l =>
    simp only [Server.step] at hs
    split_ifs at hs
    obtain rfl := Option.some.inj hs
    exact h
  | peerWriterEnds idx =>
    obtain rfl := Option.some.inj hs
    exact (Network.peerWriterEnded_spec h idx).1
  | clientWriterEnds client =>
    obtain rfl := Option.some.inj hs
    exact (Network.clientWriterEnded_spec h client).1

lemma Fresh.connect (h : Fresh s) {c : LinkId → NewConnection} (hc : ∀ l, link (c l) = l) :
    Fresh (s.connect c) := by
  refine ⟨fun d hd => ?_, ?_, fun l hl => Nat.lt_succ_of_lt (h.stored l hl)⟩
  · rcases List.mem_append.mp hd with hold | hnew
    · obtain ⟨hlt, hnot⟩ := h.arriving d hold
      exact ⟨Nat.lt_succ_of_lt hlt, hnot⟩
    · obtain rfl := List.mem_singleton.mp hnew
      rw [hc]
      exact ⟨Nat.lt_succ_self _, fun hl => Nat.lt_irrefl _ (h.stored _ hl)⟩
  · change ((s.arriving ++ [c s.made]).map link).Nodup
    rw [List.map_append, List.map_singleton, hc]
    refine List.Nodup.append h.distinct (List.nodup_singleton _) ?_
    intro l hl hlm
    obtain ⟨d, hd, rfl⟩ := List.mem_map.mp hl
    exact Nat.ne_of_lt (h.arriving d hd).1 (List.mem_singleton.mp hlm)

/-- A connection is applied, and stored or not. -/
lemma Fresh.apply (h : Fresh s) {i : ℕ} {c : NewConnection} (hget : s.arriving[i]? = some c)
    {net : Network} {tasks : LinkId → Tasks} {stored : List LinkId}
    (hstored : ∀ l ∈ stored, l ∈ s.stored ∨ l = link c) :
    Fresh { s with net := net, tasks := tasks, arriving := s.arriving.eraseIdx i,
                   stored := stored } := by
  have hperm : s.arriving.Perm (c :: s.arriving.eraseIdx i) := by
    obtain ⟨hlt, rfl⟩ := List.getElem?_eq_some_iff.mp hget
    exact (List.getElem_cons_eraseIdx_perm hlt).symm
  have hnd : (link c :: (s.arriving.eraseIdx i).map link).Nodup :=
    (hperm.map link).nodup_iff.mp h.distinct
  obtain ⟨hnot, hrest⟩ := List.nodup_cons.mp hnd
  have hlt : link c < s.made := (h.arriving c (List.mem_of_getElem? hget)).1
  refine ⟨fun d hd => ?_, hrest, fun l hl => ?_⟩
  · obtain ⟨hdlt, hdnot⟩ := h.arriving d ((List.eraseIdx_sublist _ _).subset hd)
    refine ⟨hdlt, fun hmem => ?_⟩
    rcases hstored _ hmem with hold | heq
    · exact hdnot hold
    · exact hnot (heq ▸ List.mem_map_of_mem hd)
  · rcases hstored l hl with hold | rfl
    · exact h.stored l hold
    · exact hlt

lemma step_fresh {a : Action} (h : Fresh s) (hs : s.step a = some s') : Fresh s' := by
  cases a with
  | connectPeer peerId =>
    obtain rfl := Option.some.inj hs
    exact h.connect fun l => rfl
  | connectClient clientId =>
    obtain rfl := Option.some.inj hs
    exact h.connect fun l => rfl
  | applyConnection i =>
    simp only [Server.step] at hs
    split at hs
    · rename_i c hget
      obtain rfl := Option.some.inj hs
      refine h.apply hget fun l hl => ?_
      split_ifs at hl
      · simpa using hl
      · exact Or.inl hl
    · cases hs
  | sendToCluster peer =>
    obtain rfl := Option.some.inj hs
    exact ⟨h.arriving, h.distinct, h.stored⟩
  | sendToClient client =>
    obtain rfl := Option.some.inj hs
    exact ⟨h.arriving, h.distinct, h.stored⟩
  | shutdown =>
    obtain rfl := Option.some.inj hs
    exact ⟨h.arriving, h.distinct, h.stored⟩
  | readerFeeds l =>
    simp only [Server.step] at hs
    split_ifs at hs
    obtain rfl := Option.some.inj hs
    exact ⟨h.arriving, h.distinct, h.stored⟩
  | readerEnds l =>
    simp only [Server.step] at hs
    split_ifs at hs
    obtain rfl := Option.some.inj hs
    exact ⟨h.arriving, h.distinct, h.stored⟩
  | peerWriterEnds idx =>
    obtain rfl := Option.some.inj hs
    exact ⟨h.arriving, h.distinct, h.stored⟩
  | clientWriterEnds client =>
    obtain rfl := Option.some.inj hs
    exact ⟨h.arriving, h.distinct, h.stored⟩

lemma inv_start (peers : List NodeId) : Inv (.start peers) := by
  have hempty : (Network.new peers).Empty := Network.empty_new peers
  have hnone : ∀ place, (Network.new peers).linkAt place = none := congrFun hempty.linkAt
  refine ⟨hempty.aligned, ⟨by simp [Server.start], by simp [Server.start],
    by simp [Server.start]⟩, ⟨?_, ?_, ?_, ?_⟩⟩
  · intro k k' l hk
    exact absurd ((hnone k).symm.trans hk) (by simp)
  · rintro l ⟨k, hk⟩
    exact absurd ((hnone k).symm.trans hk) (by simp)
  · rintro l ⟨k, hk⟩
    exact absurd ((hnone k).symm.trans hk) (by simp)
  · rintro l ⟨⟨⟩, -⟩

theorem step_inv {a : Action} (h : Inv s) (hs : s.step a = some s') : Inv s' := by
  refine ⟨step_aligned h.aligned hs, step_fresh h.fresh hs, ?_⟩
  rcases step_table h hs with ⟨heq, -⟩ | ⟨heq, -⟩ | ⟨k, x, release, heq, hx, -⟩
  · rw [heq]
    exact h.table
  · rw [heq]
    exact h.table.clear
  · rw [heq]
    exact h.table.put hx

/-- **One step** leaves nothing behind exactly where it closes what it removes, and makes good
nothing that was left behind before. -/
theorem step_noLeak {a : Action} (h : Inv s) (hs : s.step a = some s') :
    NoLeak s' ↔ NoLeak s ∧ Closes s a := by
  rw [← tight_iff, ← tight_iff]
  rcases step_table h hs with ⟨heq, hc⟩ | ⟨heq, hc⟩ | ⟨k, x, release, heq, hx, hc⟩
  · rw [heq, and_iff_left hc]
  · rw [heq, Table.tight_clear_iff, and_iff_left hc]
  · rw [heq, Table.tight_put_iff h.table hx, hc]

/-- **The tables of the server** after any run: they are aligned, a message for a peer goes to a
connection registered for it and moves nothing else, and every connection that has left them is
closed, so that its reader is silent, exactly where each step closed what it removed. -/
theorem tables_of_run {peers : List NodeId} {as : List Action}
    (h : system.run (.start peers) as = some s) :
    s.net.Aligned ∧
    (∀ peer, (∀ l, (s.net.sendToCluster peer).2 = some l →
        ∃ (idx : ℕ) (c : PeerConnection), s.net.peerConnections[idx]? = some (some c) ∧
          c.peerId = peer ∧ c.link = l) ∧
      ∀ idx, s.net.clusterIdToIdx peer ≠ some idx →
        (s.net.sendToCluster peer).1.peerConnections[idx]? = s.net.peerConnections[idx]?) ∧
    (NoLeak s ↔ system.Meets Closes (.start peers) as) ∧
    (NoLeak s → ∀ l, Gone s l → s.step (.readerFeeds l) = none) := by
  have hstart : NoLeak (.start peers) := by
    rintro l ⟨⟨⟩, -⟩
  obtain ⟨hinv, hiff⟩ := System.run_iff_meets (I := Inv) (P := NoLeak)
    (fun s a s' hi hs => step_inv hi hs) (fun s a s' hi hs => step_noLeak hi hs)
    (inv_start peers) h
  refine ⟨hinv.aligned, Network.sendToCluster_own hinv.aligned, ?_, fun hnl l hl => ?_⟩
  · rw [hiff, and_iff_right hstart]
  · have haborted : (s.tasks l).readerAborted = true := (hnl l hl).1
    simp [Server.step, Tasks.readerRuns, haborted]

instance decidableFree (o : Option NewConnection) (n : Network) :
    Decidable (∀ c, o = some (.ToClient c) → n.clientConnections.lookup c.clientId = none) :=
  match o with
  | some (.ToClient c) =>
    decidable_of_iff (n.clientConnections.lookup c.clientId = none) (by simp)
  | some (.ToPeer _) => isTrue (by simp)
  | none => isTrue (by simp)

instance : ∀ (s : Server) (a : Action), Decidable (Closes s a)
  | s, .sendToCluster peer =>
    inferInstanceAs (Decidable (∀ c ∈ s.net.peerConnection peer, c.writerTask = true))
  | s, .sendToClient client =>
    inferInstanceAs (Decidable (∀ c ∈ s.net.clientConnections.lookup client, c.writerTask = true))
  | s, .applyConnection i => decidableFree s.arriving[i]? s.net
  | _, .connectPeer _ => isTrue trivial
  | _, .connectClient _ => isTrue trivial
  | _, .shutdown => isTrue trivial
  | _, .readerFeeds _ => isTrue trivial
  | _, .readerEnds _ => isTrue trivial
  | _, .peerWriterEnds _ => isTrue trivial
  | _, .clientWriterEnds _ => isTrue trivial

/-- A peer and a client connect and are sent to, the peer connects again, one connects that is
not known, and the server shuts down. -/
def closingRun : List Action :=
  [.connectPeer 3, .applyConnection 0, .sendToCluster 3, .sendToCluster 2, .connectClient 1,
    .applyConnection 0, .sendToClient 1, .readerFeeds 0, .connectPeer 3, .applyConnection 0,
    .readerFeeds 2, .connectPeer 7, .applyConnection 0, .shutdown]

theorem tables_of_run_closing :
    ∃ s, system.run (.start [2, 3]) closingRun = some s ∧ s.stored = [0, 1, 2] ∧
      s.fed = [0, 2] ∧ s.net.Aligned ∧ NoLeak s := by
  obtain ⟨s, hrun, hstored, hfed⟩ : ∃ s, system.run (.start [2, 3]) closingRun = some s ∧
      s.stored = [0, 1, 2] ∧ s.fed = [0, 2] := ⟨_, rfl, by decide, by decide⟩
  obtain ⟨haligned, -, hiff, -⟩ := tables_of_run hrun
  exact ⟨s, hrun, hstored, hfed, haligned, hiff.mpr (by decide)⟩

/-- The writer of a peer's connection ends; the next send drops the connection, the peer connects
again, and the reader of the old connection goes on beside the new one. -/
def staleRun : List Action :=
  [.connectPeer 2, .applyConnection 0, .peerWriterEnds 0, .sendToCluster 2, .connectPeer 2,
    .applyConnection 0, .readerFeeds 1, .readerFeeds 0]

theorem staleReader_leaks :
    ¬ ∀ peers as s, system.run (.start peers) as = some s → NoLeak s := by
  intro hall
  obtain ⟨s, hrun, hstored, hslots, hclients, hfed, hopen⟩ :
      ∃ s, system.run (.start [2]) staleRun = some s ∧ s.stored = [0, 1] ∧
        s.net.peerConnections = [some ⟨2, 1, true⟩] ∧ s.net.clientConnections = ∅ ∧
        s.fed = [1, 0] ∧ (s.tasks 0).readerAborted = false :=
    ⟨_, rfl, by decide, by decide, rfl, by decide, by decide⟩
  have hgone : Gone s 0 := by
    refine ⟨by simp [hstored], ?_⟩
    rintro (idx | id)
    · cases idx with
      | zero => simp [Network.linkAt, hslots]
      | succ idx => simp [Network.linkAt, hslots]
    · simp [Network.linkAt, hclients]
  have haborted : (s.tasks 0).readerAborted = true := (hall [2] staleRun s hrun 0 hgone).1
  rw [hopen] at haborted
  cases haborted

end OmniPaxosKV.ConnectionTasks
