import OmniPaxosKV.Server
import OmniPaxosKV.ServerNetwork
import OmniPaxosKV.TransSys

/-!
The loops of the server.

First `establish_initial_leader`, then the main loop: each takes a tick, a batch of messages of
peers or of clients, or a connection, and hands what OmniPaxos has to send to the network.
OmniPaxos is a parameter.

`parts_of_step` says once what an iteration does. `responses_of_reachable` is the refinement of
the loops by the calls of `handleDecidedEntries` alone, in the runs in which what OmniPaxos has
decided, where the server reads it, is the start of one sequence.
-/

namespace OmniPaxosKV.ServerLoop

open Common Store Server ServerNetwork TransSys

/-- What the server uses of OmniPaxos. -/
structure OmniPaxos (Ω Msg : Type*) where
  tick : Ω → Ω
  tryBecomeLeader : Ω → Ω
  handleIncoming : Ω → Msg → Ω
  /-- Nothing where the command is not taken, which ends the server. -/
  append : Ω → Command → Option Ω
  takeOutgoingMessages : Ω → Ω × List Msg
  getCurrentLeader : Ω → Option (NodeId × Bool)
  getDecidedIdx : Ω → ℕ
  readDecidedSuffix : Ω → ℕ → List Command
  getReceiver : Msg → NodeId

structure OmniPaxosKVConfig where
  serverId : NodeId
  peers : List NodeId
  numClients : ℕ
  initialLeader : NodeId
  snapshotInterval : ℕ

inductive Phase
  /-- In `establish_initial_leader`. -/
  | establishing
  /-- In the main loop of `run`. -/
  | running
  deriving DecidableEq

/-- A call of OmniPaxos's `append`, of the network or of the database's `save_snapshot`. -/
inductive Call (Msg : Type*)
  | append (command : Command)
  | applyConnection (connection : NewConnection)
  | sendToCluster (peer : NodeId) (msg : ClusterMessage Msg)
  | sendToClient (client : ClientId) (msg : ServerMessage)
  | saveSnapshot (snapshot : DatabaseSnapshot)

def Call.respond {Msg : Type*} (x : Send) : Call Msg := .sendToClient x.1 x.2

/-- The server but for its channels, with the calls it has made. -/
structure Core (Ω Msg : Type*) where
  server : OmniPaxosServer
  omnipaxos : Ω
  calls : List (Call Msg)

structure State (Ω Msg : Type*) where
  core : Core Ω Msg
  phase : Phase
  electionTickCounter : ℕ
  /-- What the reader tasks have put into the channels. -/
  clusterMessages : List (NodeId × ClusterMessage Msg)
  clientMessages : List (ClientId × ClientMessage)
  recoveryReceiver : List NewConnection

inductive Action (Msg : Type*)
  | clusterArrives (source : NodeId) (msg : ClusterMessage Msg)
  | clientArrives (client : ClientId) (msg : ClientMessage)
  | connectionArrives (connection : NewConnection)
  | electionTick
  | leaderTick (now : Timestamp)
  | clusterMessages (k : ℕ)
  | clientMessages (k : ℕ)
  | recovery (now : Timestamp)

def networkBatchSize : ℕ := 100

section Loop

variable {Ω Msg : Type*} (op : OmniPaxos Ω Msg) (cfg : OmniPaxosKVConfig)

namespace Core

variable (c : Core Ω Msg)

def call (calls : List (Call Msg)) : Core Ω Msg := { c with calls := c.calls ++ calls }

def sendClusterStartSignals (startTime : Timestamp) : Core Ω Msg :=
  c.call (cfg.peers.map fun peer => .sendToCluster peer (.LeaderStartSignal startTime))

def sendClientStartSignals (startTime : Timestamp) : Core Ω Msg :=
  c.call ((List.range' 1 cfg.numClients).map fun client =>
    .sendToClient client (.StartSignal startTime))

def sendOutgoingMsgs : Core Ω Msg :=
  let (omnipaxos, msgs) := op.takeOutgoingMessages c.omnipaxos
  { c with omnipaxos := omnipaxos }.call
    (msgs.map fun msg => .sendToCluster (op.getReceiver msg) (.OmniPaxosMessage msg))

def appendToLog (client : ClientId) : ClientMessage → Option (Core Ω Msg)
  | .Append commandId kvCommand =>
    let command : Command := ⟨client, c.server.id, commandId, kvCommand⟩
    (op.append c.omnipaxos command).map fun omnipaxos =>
      { c with omnipaxos := omnipaxos }.call [.append command]

def handleClientMessages (messages : List (ClientId × ClientMessage)) : Option (Core Ω Msg) :=
  (messages.foldlM (fun c m => appendToLog op c m.1 m.2) c).map (sendOutgoingMsgs op)

def handleDecidedEntries : Core Ω Msg :=
  let newDecidedIdx := op.getDecidedIdx c.omnipaxos
  if c.server.currentDecidedIdx < newDecidedIdx then
    let decided := op.readDecidedSuffix c.omnipaxos c.server.currentDecidedIdx
    let (server, newEntriesApplied, sent) :=
      { c.server with currentDecidedIdx := newDecidedIdx }.applyEntries
        c.server.currentDecidedIdx decided
    let (server', saved) := server.afterEntries cfg.snapshotInterval newEntriesApplied
    { c with server := server' }.call
      (sent.map Call.respond ++ (saved.map Call.saveSnapshot).toList)
  else c

def handleClusterMessage : ClusterMessage Msg → Core Ω Msg
  | .OmniPaxosMessage m =>
    handleDecidedEntries op cfg { c with omnipaxos := op.handleIncoming c.omnipaxos m }
  | .LeaderStartSignal startTime => c.sendClientStartSignals cfg startTime

/-- The server after a batch of messages, and whether a start signal was among them. -/
def handleClusterMessages (messages : List (NodeId × ClusterMessage Msg)) : Core Ω Msg × Bool :=
  (sendOutgoingMsgs op (messages.foldl (fun c m => c.handleClusterMessage op cfg m.2) c),
    messages.any fun m => m.2.isStart)

/-- The server is the leader, as far as it knows. -/
def Leads : Prop := ∃ isAccept, op.getCurrentLeader c.omnipaxos = some (c.server.id, isAccept)

instance : Decidable (c.Leads op) :=
  decidable_of_iff ((op.getCurrentLeader c.omnipaxos).map Prod.fst = some c.server.id) (by
    simp [Leads])

/-- Announces the start to the peers and to the clients. -/
def announce (startTime : Timestamp) : Core Ω Msg :=
  (c.sendClusterStartSignals cfg startTime).sendClientStartSignals cfg startTime

/-- The arm of both loops that takes a connection. -/
def recoveryArm (now : Timestamp) (connection : NewConnection) : Core Ω Msg :=
  let c' := c.call [.applyConnection connection]
  sendOutgoingMsgs op (if c'.Leads op then c'.announce cfg now else c')

/-- The tick of the initial leader: it announces the start two seconds ahead and is done, or
tries to become the leader. -/
def leaderTick (now : Timestamp) : Core Ω Msg × Bool :=
  if op.getCurrentLeader c.omnipaxos = some (c.server.id, true) then
    (c.announce cfg (now + 2000), true)
  else (sendOutgoingMsgs op { c with omnipaxos := op.tryBecomeLeader c.omnipaxos }, false)

def electionTick : Core Ω Msg :=
  sendOutgoingMsgs op { c with omnipaxos := op.tick c.omnipaxos }

end Core

/-- A batch that `recv_many` may return. -/
def Batch (k length : ℕ) : Prop := 0 < k ∧ k ≤ networkBatchSize ∧ k ≤ length

instance (k length : ℕ) : Decidable (Batch k length) := by
  unfold Batch
  infer_instance

def step (s : State Ω Msg) : Action Msg → Option (State Ω Msg)
  | .clusterArrives source msg =>
    some { s with clusterMessages := s.clusterMessages ++ [(source, msg)] }
  | .clientArrives client msg =>
    some { s with clientMessages := s.clientMessages ++ [(client, msg)] }
  | .connectionArrives connection =>
    some { s with recoveryReceiver := s.recoveryReceiver ++ [connection] }
  | .electionTick =>
    if s.phase = .running then
      some { s with
        core := s.core.electionTick op
        electionTickCounter :=
          if 10 ≤ s.electionTickCounter then 0 else s.electionTickCounter + 1 }
    else none
  | .leaderTick now =>
    if s.phase = .establishing ∧ cfg.initialLeader = s.core.server.id then
      let (core, done) := s.core.leaderTick op cfg now
      some { s with core := core, phase := if done then .running else s.phase }
    else none
  | .clusterMessages k =>
    if Batch k s.clusterMessages.length then
      let (core, recvStart) := s.core.handleClusterMessages op cfg (s.clusterMessages.take k)
      some { s with
        core := core
        clusterMessages := s.clusterMessages.drop k
        phase := if recvStart then .running else s.phase }
    else none
  | .clientMessages k =>
    if Batch k s.clientMessages.length then
      (s.core.handleClientMessages op (s.clientMessages.take k)).map fun core =>
        { s with core := core, clientMessages := s.clientMessages.drop k }
    else none
  | .recovery now =>
    match s.recoveryReceiver with
    | connection :: rest =>
      some { s with core := s.core.recoveryArm op cfg now connection, recoveryReceiver := rest }
    | [] => none

/-- A server that has started with a snapshot of the first `S` entries of `L`. -/
def start (L : List Command) (S : ℕ) (path : Option String) (omnipaxos : Ω) : State Ω Msg where
  core := ⟨started cfg.serverId L S path, omnipaxos, []⟩
  phase := .establishing
  electionTickCounter := 0
  clusterMessages := []
  clientMessages := []
  recoveryReceiver := []

def system (L : List Command) (S : ℕ) (path : Option String) (omnipaxos : Ω) :
    System (State Ω Msg) (Action Msg) where
  init s := s = start cfg L S path omnipaxos
  step := step op cfg

end Loop

variable {Ω Msg : Type*} {op : OmniPaxos Ω Msg} {cfg : OmniPaxosKVConfig} {L : List Command}
  {S : ℕ} {path : Option String} {ω ω' : Ω} {c c' : Core Ω Msg} {s s' : State Ω Msg}

/-! ### What an iteration is made of -/

/-- A call of OmniPaxos by the loops. -/
inductive Input (Msg : Type*)
  | tick
  | tryBecomeLeader
  | handleIncoming (m : Msg)
  | append (command : Command)
  | takeOutgoingMessages

def Input.incoming? : Input Msg → Option Msg
  | .handleIncoming m => some m
  | .tick => none
  | .tryBecomeLeader => none
  | .append _ => none
  | .takeOutgoingMessages => none

/-- The batch that an action takes from the channel of the peers. -/
def State.batch (s : State Ω Msg) : Action Msg → List (NodeId × ClusterMessage Msg)
  | .clusterMessages k => s.clusterMessages.take k
  | .clusterArrives _ _ => []
  | .clientArrives _ _ => []
  | .connectionArrives _ => []
  | .electionTick => []
  | .leaderTick _ => []
  | .clientMessages _ => []
  | .recovery _ => []

/-- The messages of OmniPaxos among those of the peers. -/
def omniPaxosMessages (messages : List (NodeId × ClusterMessage Msg)) : List Msg :=
  messages.filterMap fun m => m.2.omniPaxosMessage?

/-- The states of OmniPaxos after each of the messages. -/
def OmniPaxos.incoming (op : OmniPaxos Ω Msg) (ω : Ω) : List Msg → List Ω
  | [] => []
  | m :: l => op.handleIncoming ω m :: OmniPaxos.incoming op (op.handleIncoming ω m) l

/-- Where the server reads in this iteration what is decided, `P` holds of OmniPaxos. -/
def ReadsWhere (op : OmniPaxos Ω Msg) (P : Ω → Prop) (s : State Ω Msg) (a : Action Msg) : Prop :=
  ∀ ω ∈ op.incoming s.core.omnipaxos (omniPaxosMessages (s.batch a)), P ω

instance (op : OmniPaxos Ω Msg) (P : Ω → Prop) [DecidablePred P] (s : State Ω Msg)
    (a : Action Msg) : Decidable (ReadsWhere op P s a) := by
  unfold ReadsWhere
  infer_instance

/-- A part of an iteration, with the calls of OmniPaxos in it. -/
inductive Part (op : OmniPaxos Ω Msg) (cfg : OmniPaxosKVConfig) (P : Ω → Prop) (c : Core Ω Msg) :
    List (Input Msg) → Core Ω Msg → Prop
  | tick : Part op cfg P c [.tick] { c with omnipaxos := op.tick c.omnipaxos }
  | tryBecomeLeader :
    Part op cfg P c [.tryBecomeLeader] { c with omnipaxos := op.tryBecomeLeader c.omnipaxos }
  | handleIncoming (m : Msg) :
    Part op cfg P c [.handleIncoming m] { c with omnipaxos := op.handleIncoming c.omnipaxos m }
  | append (command : Command) (ω : Ω) (h : op.append c.omnipaxos command = some ω) :
    Part op cfg P c [.append command] ({ c with omnipaxos := ω }.call [.append command])
  | flush : Part op cfg P c [.takeOutgoingMessages] (c.sendOutgoingMsgs op)
  | applyConnection (connection : NewConnection) :
    Part op cfg P c [] (c.call [.applyConnection connection])
  | announce (startTime : Timestamp) : Part op cfg P c [] (c.announce cfg startTime)
  | relay (startTime : Timestamp) : Part op cfg P c [] (c.sendClientStartSignals cfg startTime)
  | decided (h : P c.omnipaxos) : Part op cfg P c [] (c.handleDecidedEntries op cfg)

inductive Parts (op : OmniPaxos Ω Msg) (cfg : OmniPaxosKVConfig) (P : Ω → Prop) (c : Core Ω Msg) :
    List (Input Msg) → Core Ω Msg → Prop
  | refl : Parts op cfg P c [] c
  | tail {ins ins' : List (Input Msg)} {c' c'' : Core Ω Msg} (h : Parts op cfg P c ins c')
    (hp : Part op cfg P c' ins' c'') : Parts op cfg P c (ins ++ ins') c''

section Parts

variable {P : Ω → Prop} {c'' : Core Ω Msg} {ins ins' : List (Input Msg)}

lemma Part.parts (h : Part op cfg P c ins c') : Parts op cfg P c ins c' :=
  Parts.refl.tail h

lemma Parts.trans (h : Parts op cfg P c ins c') (h' : Parts op cfg P c' ins' c'') :
    Parts op cfg P c (ins ++ ins') c'' := by
  induction h' with
  | refl =>
    rw [List.append_nil]
    exact h
  | tail _ hp ih =>
    rw [← List.append_assoc]
    exact ih.tail hp

/-- **The rule for parts.** What every part of an iteration keeps, the iteration keeps. -/
lemma Parts.keeps {I : Core Ω Msg → Prop}
    (hI : ∀ {c c' : Core Ω Msg} {ins}, I c → Part op cfg P c ins c' → I c')
    (h : Parts op cfg P c ins c') (hc : I c) : I c' := by
  induction h with
  | refl => exact hc
  | tail _ hp ih => exact hI ih hp

lemma handleDecidedEntries_omnipaxos (c : Core Ω Msg) :
    (c.handleDecidedEntries op cfg).omnipaxos = c.omnipaxos := by
  by_cases hlt : c.server.currentDecidedIdx < op.getDecidedIdx c.omnipaxos
  · simp only [Core.handleDecidedEntries, hlt, if_true]
    rfl
  · simp only [Core.handleDecidedEntries, hlt, if_false]

/-- The messages of a batch are handled in order, and what is decided is read after each. -/
lemma parts_foldl (messages : List (NodeId × ClusterMessage Msg)) (c : Core Ω Msg)
    (hP : ∀ ω ∈ op.incoming c.omnipaxos (omniPaxosMessages messages), P ω) :
    Parts op cfg P c ((omniPaxosMessages messages).map .handleIncoming)
      (messages.foldl (fun c m => c.handleClusterMessage op cfg m.2) c) := by
  induction messages generalizing c with
  | nil => exact .refl
  | cons m messages ih =>
    obtain ⟨source, m | startTime⟩ := m
    · have homnipaxos : (c.handleClusterMessage op cfg (.OmniPaxosMessage m)).omnipaxos =
          op.handleIncoming c.omnipaxos m := handleDecidedEntries_omnipaxos _
      have hmessages : omniPaxosMessages ((source, .OmniPaxosMessage m) :: messages) =
          m :: omniPaxosMessages messages := rfl
      rw [hmessages, OmniPaxos.incoming, List.forall_mem_cons] at hP
      rw [hmessages, List.map_cons]
      have hpart : Parts op cfg P c ([.handleIncoming m] ++ [])
          (c.handleClusterMessage op cfg (.OmniPaxosMessage m)) :=
        (Part.parts (.handleIncoming m)).tail (.decided hP.1)
      exact hpart.trans (ih _ (by rw [homnipaxos]; exact hP.2))
    · have hpart : Parts op cfg P c [] (c.sendClientStartSignals cfg startTime) :=
        Part.parts (.relay startTime)
      exact hpart.trans (ih _ hP)

lemma parts_foldlM (messages : List (ClientId × ClientMessage))
    (h : messages.foldlM (fun c m => c.appendToLog op m.1 m.2) c = some c') :
    ∃ ins, Parts op cfg P c ins c' ∧ ins.filterMap Input.incoming? = [] := by
  induction messages generalizing c with
  | nil =>
    cases h
    exact ⟨[], .refl, rfl⟩
  | cons m messages ih =>
    rw [List.foldlM_cons] at h
    obtain ⟨c₁, hc₁, h⟩ := Option.bind_eq_some_iff.mp h
    obtain ⟨client, id, cmd⟩ := m
    obtain ⟨ω, happend, rfl⟩ := Option.map_eq_some_iff.mp hc₁
    obtain ⟨ins, hins, hincoming⟩ := ih h
    have hpart : Parts op cfg P c [.append ⟨client, c.server.id, id, cmd⟩] _ :=
      Part.parts (.append _ ω happend)
    exact ⟨_, hpart.trans hins, hincoming⟩

/-- What an iteration does: its parts in order, with the messages of the batch handed to
OmniPaxos, and last what OmniPaxos has to send is taken, unless OmniPaxos is left alone. -/
structure Iteration (op : OmniPaxos Ω Msg) (cfg : OmniPaxosKVConfig) (P : Ω → Prop)
    (s : State Ω Msg) (a : Action Msg) (s' : State Ω Msg) (ins : List (Input Msg)) : Prop where
  parts : Parts op cfg P s.core ins s'.core
  incoming : ins.filterMap Input.incoming? = omniPaxosMessages (s.batch a)
  flushed : ins = [] ∨ ∃ ins', ins = ins' ++ [.takeOutgoingMessages]

/-- An iteration that leaves OmniPaxos alone. -/
lemma Iteration.quiet {a : Action Msg} (hparts : Parts op cfg P s.core [] s'.core)
    (hbatch : s.batch a = []) : Iteration op cfg P s a s' [] := by
  refine ⟨hparts, ?_, .inl rfl⟩
  rw [hbatch]
  rfl

/-- An iteration that ends with what OmniPaxos has to send. -/
lemma Iteration.flush {a : Action Msg} (hparts : Parts op cfg P s.core ins c)
    (hcore : s'.core = c.sendOutgoingMsgs op)
    (hincoming : ins.filterMap Input.incoming? = omniPaxosMessages (s.batch a)) :
    Iteration op cfg P s a s' (ins ++ [.takeOutgoingMessages]) := by
  refine ⟨?_, ?_, .inr ⟨ins, rfl⟩⟩
  · rw [hcore]
    exact hparts.tail .flush
  · rw [List.filterMap_append, hincoming]
    exact List.append_nil _

/-- **What an iteration does**, part after part. -/
lemma parts_of_step {a : Action Msg} (hs : step op cfg s a = some s')
    (hP : ReadsWhere op P s a) : ∃ ins, Iteration op cfg P s a s' ins := by
  cases a with
  | clusterArrives source msg =>
    obtain rfl := Option.some.inj hs
    exact ⟨[], .quiet .refl rfl⟩
  | clientArrives client msg =>
    obtain rfl := Option.some.inj hs
    exact ⟨[], .quiet .refl rfl⟩
  | connectionArrives connection =>
    obtain rfl := Option.some.inj hs
    exact ⟨[], .quiet .refl rfl⟩
  | electionTick =>
    simp only [step] at hs
    split at hs
    · obtain rfl := Option.some.inj hs
      exact ⟨_, .flush (Part.parts .tick) rfl rfl⟩
    · cases hs
  | leaderTick now =>
    simp only [step] at hs
    split at hs
    · obtain rfl := Option.some.inj hs
      by_cases hleads : op.getCurrentLeader s.core.omnipaxos = some (s.core.server.id, true)
      · refine ⟨[], .quiet ?_ rfl⟩
        have heq : (s.core.leaderTick op cfg now).1 = s.core.announce cfg (now + 2000) := by
          rw [Core.leaderTick, if_pos hleads]
        simp only [heq]
        exact Part.parts (.announce _)
      · refine ⟨_, .flush (Part.parts .tryBecomeLeader) ?_ rfl⟩
        rw [Core.leaderTick, if_neg hleads]
    · cases hs
  | clusterMessages k =>
    simp only [step] at hs
    split at hs
    · obtain rfl := Option.some.inj hs
      refine ⟨_, .flush (parts_foldl (s.clusterMessages.take k) s.core hP) rfl ?_⟩
      rw [List.filterMap_map]
      exact List.filterMap_some
    · cases hs
  | clientMessages k =>
    simp only [step] at hs
    split at hs
    · obtain ⟨core, hcore, rfl⟩ := Option.map_eq_some_iff.mp hs
      obtain ⟨c₁, hc₁, rfl⟩ := Option.map_eq_some_iff.mp hcore
      obtain ⟨ins, hins, hincoming⟩ := parts_foldlM _ hc₁
      exact ⟨_, .flush hins rfl hincoming⟩
    · cases hs
  | recovery now =>
    simp only [step] at hs
    split at hs
    · rename_i connection rest _
      obtain rfl := Option.some.inj hs
      have hcall : Parts op cfg P s.core [] (s.core.call [.applyConnection connection]) :=
        Part.parts (.applyConnection connection)
      refine ⟨[] ++ [.takeOutgoingMessages], .flush ?_ rfl rfl⟩
      split_ifs
      · exact hcall.tail (.announce now)
      · exact hcall
    · cases hs

end Parts

/-- What the entries of a batch send are responses, by a server of the same id. -/
lemma applyEntries_sent (l : List Command) : ∀ (server : OmniPaxosServer) (idx : ℕ),
    (server.applyEntries idx l).1.id = server.id ∧
      ∀ x ∈ (server.applyEntries idx l).2.2, x.2.commandId.isSome := by
  induction l with
  | nil =>
    intro server idx
    exact ⟨rfl, fun x hx => by cases hx⟩
  | cons command l ih =>
    intro server idx
    have hentry : (server.applyEntry (idx + 1) command).1.id = server.id ∧
        ∀ x ∈ (server.applyEntry (idx + 1) command).2.2, x.2.commandId.isSome := by
      by_cases hle : idx + 1 ≤ server.snapshotDecidedIdx
      · rw [OmniPaxosServer.applyEntry, if_pos hle]
        exact ⟨rfl, fun x hx => by cases hx⟩
      · rw [OmniPaxosServer.applyEntry, if_neg hle]
        refine ⟨rfl, fun x hx => ?_⟩
        dsimp only at hx
        split_ifs at hx with hid
        · obtain rfl := List.mem_singleton.mp hx
          rcases server.database.handleCommand command.kvCmd with ⟨database, _ | read⟩ <;> rfl
        · cases hx
    obtain ⟨hid, hsent⟩ := ih (server.applyEntry (idx + 1) command).1 (idx + 1)
    refine ⟨hid.trans hentry.1, fun x hx => ?_⟩
    rcases List.mem_append.mp hx with hx | hx
    · exact hentry.2 x hx
    · exact hsent x hx

/-- What the decided entries have the server call. -/
lemma handleDecidedEntries_calls (op : OmniPaxos Ω Msg) (cfg : OmniPaxosKVConfig)
    (c : Core Ω Msg) :
    ∃ (server : OmniPaxosServer) (sent : List Send) (saved : Option DatabaseSnapshot),
      server.id = c.server.id ∧ (∀ x ∈ sent, x.2.commandId.isSome) ∧
      c.handleDecidedEntries op cfg = { c with server := server }.call
        (sent.map Call.respond ++ (saved.map Call.saveSnapshot).toList) := by
  by_cases hlt : c.server.currentDecidedIdx < op.getDecidedIdx c.omnipaxos
  · have hbatch := applyEntries_sent
      (op.readDecidedSuffix c.omnipaxos c.server.currentDecidedIdx)
      { c.server with currentDecidedIdx := op.getDecidedIdx c.omnipaxos }
      c.server.currentDecidedIdx
    obtain ⟨⟨server, n, sent⟩, hentries⟩ : ∃ x, OmniPaxosServer.applyEntries
        { c.server with currentDecidedIdx := op.getDecidedIdx c.omnipaxos }
        c.server.currentDecidedIdx
        (op.readDecidedSuffix c.omnipaxos c.server.currentDecidedIdx) = x := ⟨_, rfl⟩
    obtain ⟨⟨server', saved⟩, hafter⟩ :
        ∃ x, server.afterEntries cfg.snapshotInterval n = x := ⟨_, rfl⟩
    have hid := (afterEntries_fields cfg.snapshotInterval server n).1
    rw [hentries] at hbatch
    rw [hafter] at hid
    refine ⟨server', sent, saved, hid.trans hbatch.1, hbatch.2, ?_⟩
    simp only [Core.handleDecidedEntries, hlt, if_true, hentries, hafter]
  · refine ⟨c.server, [], none, rfl, (fun x hx => by cases hx), ?_⟩
    simp only [Core.handleDecidedEntries, hlt, if_false]
    simp [Core.call]

/-- A call for the decided entries is for a response or for a snapshot. -/
lemma filterMap_respond {α : Type*} {f : Call Msg → Option α} {sent : List Send}
    (hsent : ∀ x ∈ sent, f (Call.respond x) = none)
    (hsave : ∀ snapshot, f (.saveSnapshot snapshot) = none) (saved : Option DatabaseSnapshot) :
    (sent.map Call.respond ++ (saved.map Call.saveSnapshot).toList).filterMap f = [] := by
  refine List.filterMap_eq_nil_iff.mpr fun call hcall => ?_
  rcases List.mem_append.mp hcall with hcall | hcall
  · obtain ⟨x, hx, rfl⟩ := List.mem_map.mp hcall
    exact hsent x hx
  · obtain ⟨snapshot, -, rfl⟩ := Option.mem_map.mp (Option.mem_toList.mp hcall)
    exact hsave snapshot

/-! ### The responses -/

/-- What is decided is the start of `L`. -/
def OmniPaxos.Decides (op : OmniPaxos Ω Msg) (L : List Command) (ω : Ω) : Prop :=
  op.getDecidedIdx ω ≤ L.length ∧ ∀ i < op.getDecidedIdx ω,
    op.readDecidedSuffix ω i = Server.readDecidedSuffix L (op.getDecidedIdx ω) i

instance (op : OmniPaxos Ω Msg) (L : List Command) : DecidablePred (op.Decides L) := by
  intro ω
  unfold OmniPaxos.Decides
  infer_instance

/-- The response that a call sends. -/
def Call.response? : Call Msg → Option Send
  | .sendToClient client msg => if msg.commandId.isSome then some (client, msg) else none
  | .append _ => none
  | .applyConnection _ => none
  | .sendToCluster _ _ => none
  | .saveSnapshot _ => none

/-- The server is at the replay of what it has passed, and has sent the responses due. -/
structure Replays (cfg : OmniPaxosKVConfig) (L : List Command) (S : ℕ) (c : Core Ω Msg) :
    Prop where
  settled : Settled L c.server
  id : c.server.id = cfg.serverId
  snapshot : c.server.snapshotDecidedIdx = S
  responses : c.calls.filterMap Call.response? =
    responses cfg.serverId L S c.server.currentDecidedIdx

lemma responses_extend (id : NodeId) (L : List Command) (S c d : ℕ) :
    responses id L S c ++ responses id L (max c S) d = responses id L S (max c d) := by
  rcases le_total d c with hdc | hcd
  · rw [responses_self id L (hdc.trans (le_max_left c S)), List.append_nil, max_eq_left hdc]
  · rw [max_eq_right hcd]
    rcases le_total S c with hSc | hcS
    · rw [max_eq_left hSc]
      exact responses_append id L hSc hcd
    · rw [max_eq_right hcS, responses_self id L hcS, List.nil_append]

lemma Replays.call (h : Replays cfg L S c) {calls : List (Call Msg)}
    (hcalls : calls.filterMap Call.response? = []) : Replays cfg L S (c.call calls) := by
  refine ⟨h.settled, h.id, h.snapshot, ?_⟩
  rw [Core.call, List.filterMap_append, hcalls, List.append_nil]
  exact h.responses

/-- What OmniPaxos does of itself is no matter. -/
lemma Replays.omnipaxos (h : Replays cfg L S c) (ω : Ω) :
    Replays cfg L S { c with omnipaxos := ω } :=
  ⟨h.settled, h.id, h.snapshot, h.responses⟩

/-- The calls for responses send these. -/
lemma filterMap_map_respond {sent : List Send} (h : ∀ x ∈ sent, x.2.commandId.isSome) :
    (sent.map Call.respond : List (Call Msg)).filterMap Call.response? = sent := by
  rw [List.filterMap_map]
  refine (List.filterMap_congr fun x hx => ?_).trans List.filterMap_some
  simp [Call.respond, Call.response?, h x hx]

lemma isSome_of_mem_responses {id : NodeId} {L : List Command} {S d : ℕ} {x : Send}
    (h : x ∈ responses id L S d) : x.2.commandId.isSome := by
  obtain ⟨i, -, hi⟩ := List.mem_filterMap.mp h
  obtain ⟨command, -, -, -, hid⟩ := response_spec hi
  rw [hid]
  rfl

/-- What the call reads is decided in `L`. -/
lemma OmniPaxos.Decides.handleDecidedEntries_eq (h : op.Decides L c.omnipaxos) :
    c.handleDecidedEntries op cfg =
      { c with server := (c.server.handleDecidedEntries cfg.snapshotInterval L
          (op.getDecidedIdx c.omnipaxos)).1 }.call
        ((c.server.handleDecidedEntries cfg.snapshotInterval L
            (op.getDecidedIdx c.omnipaxos)).2.1.map Call.respond ++
          ((c.server.handleDecidedEntries cfg.snapshotInterval L
            (op.getDecidedIdx c.omnipaxos)).2.2.map Call.saveSnapshot).toList) := by
  obtain ⟨-, hread⟩ := h
  by_cases hlt : c.server.currentDecidedIdx < op.getDecidedIdx c.omnipaxos
  · simp only [Core.handleDecidedEntries, OmniPaxosServer.handleDecidedEntries, hread _ hlt, hlt,
      if_true]
  · simp only [Core.handleDecidedEntries, OmniPaxosServer.handleDecidedEntries, hlt, if_false]
    simp [Core.call]

lemma Replays.handleDecidedEntries (h : Replays cfg L S c) (hd : op.Decides L c.omnipaxos) :
    Replays cfg L S (c.handleDecidedEntries op cfg) := by
  obtain ⟨hsettled, hid, hsnap, hcur, hsent⟩ :=
    handle_spec cfg.snapshotInterval h.settled hd.1
  rw [hd.handleDecidedEntries_eq]
  refine ⟨hsettled, hid.trans h.id, hsnap.trans h.snapshot, ?_⟩
  have hsaved : ∀ saved : Option DatabaseSnapshot,
      ((saved.map Call.saveSnapshot).toList : List (Call Msg)).filterMap Call.response? = [] := by
    intro saved
    cases saved <;> simp [Call.response?]
  simp only [Core.call, List.filterMap_append, hsaved, List.append_nil]
  rw [h.responses, hsent, filterMap_map_respond fun _ => isSome_of_mem_responses, hcur, h.id,
    h.snapshot]
  exact responses_extend _ _ _ _ _

lemma Replays.part {ins : List (Input Msg)} (h : Replays cfg L S c)
    (hp : Part op cfg (op.Decides L) c ins c') : Replays cfg L S c' := by
  have hsignals : ∀ {c : Core Ω Msg} startTime, Replays cfg L S c →
      Replays cfg L S (c.sendClientStartSignals cfg startTime) := fun startTime h =>
    h.call (by
      simp [List.filterMap_map, Function.comp_def, Call.response?, ServerMessage.commandId])
  cases hp with
  | tick => exact h.omnipaxos _
  | tryBecomeLeader => exact h.omnipaxos _
  | handleIncoming m => exact h.omnipaxos _
  | append command ω => exact (h.omnipaxos ω).call (by simp [Call.response?])
  | flush =>
    refine (h.omnipaxos _).call ?_
    simp [List.filterMap_map, Function.comp_def, Call.response?]
  | applyConnection connection => exact h.call (by simp [Call.response?])
  | announce startTime =>
    refine hsignals startTime (h.call ?_)
    simp [List.filterMap_map, Function.comp_def, Call.response?]
  | relay startTime => exact hsignals startTime h
  | decided hd => exact h.handleDecidedEntries hd

lemma replays_of_reachable
    (h : (system op cfg L S path ω).Reaches (ReadsWhere op (op.Decides L)) s) :
    Replays cfg L S s.core := by
  refine System.Reaches.invariant (I := fun s => Replays cfg L S s.core) ?_ ?_ h
  · rintro s rfl
    exact ⟨started_settled _ L S path, rfl, rfl, (responses_self _ L (Nat.zero_le S)).symm⟩
  · intro s a s' hinv hs hreads
    obtain ⟨ins, hiter⟩ := parts_of_step hs hreads
    exact hiter.parts.keeps Replays.part hinv

/-- **Responses**: in every state of the loops, what was sent to clients is what is due for the
entries passed so far, in their order, and the database is their replay, if what OmniPaxos had
decided where the server read it was the start of `L`. -/
theorem responses_of_reachable
    (h : (system op cfg L S path ω).Reaches (ReadsWhere op (op.Decides L)) s) :
    s.core.calls.filterMap Call.response? =
        responses cfg.serverId L S s.core.server.currentDecidedIdx ∧
      s.core.server.database.db = replay (L.take (max s.core.server.currentDecidedIdx S)) ∧
      s.core.server.currentDecidedIdx ≤ L.length := by
  have hinv := replays_of_reachable h
  have hup := hinv.settled.upTo
  unfold UpTo at hup
  rw [hinv.snapshot] at hup
  exact ⟨hinv.responses, hup, hinv.settled.le⟩

/-- An OmniPaxos with one peer that leads once it has tried to. It has one message for the peer
that says how long its log is, and decides what the peer says it has. -/
structure Paxos where
  log : List Command
  decided : ℕ
  outgoing : List ℕ
  leader : Bool

def paxos (peer : NodeId) : OmniPaxos Paxos ℕ where
  tick ω := ω
  tryBecomeLeader ω := { ω with leader := true, outgoing := ω.outgoing ++ [0] }
  handleIncoming ω m := { ω with decided := max ω.decided (min m ω.log.length) }
  append ω command := some { ω with
    log := ω.log ++ [command]
    outgoing := ω.outgoing.filter (· = 0) ++ [ω.log.length + 1] }
  takeOutgoingMessages ω := ({ ω with outgoing := [] }, ω.outgoing)
  getCurrentLeader ω := if ω.leader then some (1, true) else none
  getDecidedIdx ω := ω.decided
  readDecidedSuffix ω i := (ω.log.take ω.decided).drop i
  getReceiver _ := peer

def putThenGet : List Command := [⟨7, 1, 0, .Put "k" "v"⟩, ⟨7, 1, 1, .Get "k"⟩]

def pair : OmniPaxosKVConfig where
  serverId := 1
  peers := [2]
  numClients := 1
  initialLeader := 1
  snapshotInterval := 1

/-- The server takes over, appends two commands, and is told that the peer has them one after the
other. -/
def takesOver : List (Action ℕ) :=
  [.leaderTick 5, .leaderTick 1005, .clientArrives 7 (.Append 0 (.Put "k" "v")),
    .clientArrives 7 (.Append 1 (.Get "k")), .clientMessages 2,
    .clusterArrives 2 (.OmniPaxosMessage 1), .clusterArrives 2 (.LeaderStartSignal 9),
    .clusterArrives 2 (.OmniPaxosMessage 2), .clusterMessages 2, .clusterMessages 1, .electionTick]

def fresh : Paxos := ⟨[], 0, [], false⟩

theorem responses_takesOver : ∃ s,
    (system (paxos 2) pair putThenGet 0 none fresh).run
      (start pair putThenGet 0 none fresh) takesOver = some s ∧
    s.core.calls.filterMap Call.response? = [(7, .Write 0), (7, .Read 1 (some "v"))] ∧
    s.core.calls.filterMap Call.response? =
        responses pair.serverId putThenGet 0 s.core.server.currentDecidedIdx ∧
      s.core.server.database.db =
        replay (putThenGet.take (max s.core.server.currentDecidedIdx 0)) ∧
      s.core.server.currentDecidedIdx ≤ putThenGet.length := by
  have hinit : (system (paxos 2) pair putThenGet 0 none fresh).init
      (start pair putThenGet 0 none fresh) := rfl
  obtain ⟨s, hr, hsent⟩ : ∃ s, (system (paxos 2) pair putThenGet 0 none fresh).run
      (start pair putThenGet 0 none fresh) takesOver = some s ∧
      s.core.calls.filterMap Call.response? = [(7, .Write 0), (7, .Read 1 (some "v"))] :=
    ⟨_, rfl, by decide⟩
  exact ⟨s, hr, hsent,
    responses_of_reachable (System.Reaches.run (.init hinit) takesOver hr (by decide))⟩

end OmniPaxosKV.ServerLoop
