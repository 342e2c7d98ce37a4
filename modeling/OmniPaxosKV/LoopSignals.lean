import OmniPaxosKV.ServerLoop
import OmniPaxosKV.StartSignals

/-!
The server's loops with the connection tables that their calls work on.

`StartSignals` keeps of the loops only what concerns the start signals. Here everything that an
iteration calls for is carried out on the tables: responses and messages of OmniPaxos, too, which
find out that a writer task has ended and drop the entry. `signals_of_reachable` says that nothing
is lost by leaving them out: the loops send the start signals that `StartSignals` sends, and so
`loops_started_of_announced` holds of the loops.
-/

namespace OmniPaxosKV.LoopSignals

open Common Server ServerNetwork ServerLoop TransSys

/-- The connections of a server, and the start signals handed to those of clients so far. -/
structure Tables where
  net : Network
  sent : List (LinkId × Timestamp)

/-- The start signal, if the message is one and goes out. -/
def startSignal (link : Option LinkId) : ServerMessage → List (LinkId × Timestamp)
  | .StartSignal startTime => (link.map fun l => (l, startTime)).toList
  | .Write _ => []
  | .Read _ _ => []

namespace Tables

variable {Msg : Type*} (t : Tables)

def call : Call Msg → Tables
  | .append _ => t
  | .applyConnection connection => { t with net := (t.net.applyConnection connection).1 }
  | .sendToCluster peer _ => { t with net := (t.net.sendToCluster peer).1 }
  | .sendToClient client msg =>
    let (net, link) := t.net.sendToClient client
    ⟨net, t.sent ++ startSignal link msg⟩
  | .saveSnapshot _ => t

def run (calls : List (Call Msg)) : Tables := calls.foldl Tables.call t

end Tables

structure State (Ω Msg : Type*) where
  loop : ServerLoop.State Ω Msg
  tables : Tables
  /-- The server is still in `Network::new`. -/
  connecting : Bool
  /-- Registered connections on their way to the loop, in no particular order. -/
  registering : List NewConnection
  /-- The client process each link belongs to. -/
  owners : List ProcId
  openLinks : List LinkId
  exited : List ProcId

inductive Action (Msg : Type*)
  /-- A message arrives, or an iteration of a loop. -/
  | loop (a : ServerLoop.Action Msg)
  | connect (p : ProcId)
  | peerConnects (peer : NodeId)
  | arrives (i : ℕ)
  | disconnect (link : LinkId)
  | exit (p : ProcId)
  | clientWriterEnds (client : ClientId)
  | peerWriterEnds (idx : ℕ)
  /-- An iteration of the loop in `initialize_connections`. -/
  | accept

/-- Connections come by way of `arrives`, and the loops run when there is a connection. -/
def Enabled {Msg : Type*} (connecting : Bool) : ServerLoop.Action Msg → Prop
  | .clusterArrives _ _ => True
  | .clientArrives _ _ => True
  | .connectionArrives _ => False
  | .electionTick => connecting = false
  | .leaderTick _ => connecting = false
  | .clusterMessages _ => connecting = false
  | .clientMessages _ => connecting = false
  | .recovery _ => connecting = false

instance {Msg : Type*} (connecting : Bool) :
    ∀ a : ServerLoop.Action Msg, Decidable (Enabled connecting a)
  | .clusterArrives _ _ => isTrue trivial
  | .clientArrives _ _ => isTrue trivial
  | .connectionArrives _ => isFalse id
  | .electionTick => inferInstanceAs (Decidable (_ = _))
  | .leaderTick _ => inferInstanceAs (Decidable (_ = _))
  | .clusterMessages _ => inferInstanceAs (Decidable (_ = _))
  | .clientMessages _ => inferInstanceAs (Decidable (_ = _))
  | .recovery _ => inferInstanceAs (Decidable (_ = _))

/-- The state after an iteration: its calls are carried out on the tables. -/
def State.iterate {Ω Msg : Type*} (s : State Ω Msg) (loop : ServerLoop.State Ω Msg) :
    State Ω Msg :=
  { s with
    loop := loop
    tables := s.tables.run (loop.core.calls.drop s.loop.core.calls.length) }

section System

variable {Ω Msg : Type*} (op : OmniPaxos Ω Msg) (cfg : OmniPaxosKVConfig)

def step (s : State Ω Msg) : Action Msg → Option (State Ω Msg)
  | .loop a =>
    if Enabled s.connecting a then
      (ServerLoop.step op cfg s.loop a).map s.iterate
    else none
  | .connect p =>
    if p ∈ s.exited then none
    else
      let (net, client) := s.tables.net.nextClientId
      let link := s.owners.length
      some { s with
        tables := { s.tables with net := net }
        registering := s.registering ++ [.ToClient ⟨client, link, true⟩]
        owners := s.owners ++ [p]
        openLinks := s.openLinks ++ [link] }
  | .peerConnects peer =>
    some { s with registering := s.registering ++ [.ToPeer ⟨peer, 0, true⟩] }
  | .arrives i =>
    match s.registering[i]? with
    | some new => some { s with
        registering := s.registering.eraseIdx i
        loop := { s.loop with recoveryReceiver := s.loop.recoveryReceiver ++ [new] } }
    | none => none
  | .disconnect link => some { s with openLinks := s.openLinks.filter (· ≠ link) }
  | .exit p =>
    some { s with
      exited := s.exited ++ [p]
      openLinks := s.openLinks.filter fun link => s.owners[link]? ≠ some p }
  | .clientWriterEnds client =>
    some { s with tables := { s.tables with net := s.tables.net.clientWriterEnded client } }
  | .peerWriterEnds idx =>
    some { s with tables := { s.tables with net := s.tables.net.peerWriterEnded idx } }
  | .accept =>
    match s.connecting, s.loop.recoveryReceiver with
    | true, new :: rest =>
      let net := (s.tables.net.applyConnection new).1
      some { s with
        loop := { s.loop with recoveryReceiver := rest }
        tables := { s.tables with net := net }
        connecting := !net.anyPeer }
    | _, _ => none

def start (L : List Command) (S : ℕ) (path : Option String) (ω : Ω) : State Ω Msg where
  loop := ServerLoop.start cfg L S path ω
  tables := ⟨.new cfg.peers, []⟩
  connecting := true
  registering := []
  owners := []
  openLinks := []
  exited := []

def system (L : List Command) (S : ℕ) (path : Option String) (ω : Ω) :
    System (State Ω Msg) (Action Msg) where
  init s := s = start cfg L S path ω
  step := step op cfg

end System

/-! ### Tables that are alike -/

def alive (connection : Option ClientConnection) : Option ClientConnection :=
  connection.filter ClientConnection.writerTask

@[simp] lemma alive_none : alive none = none := rfl

@[simp] lemma alive_some (connection : ClientConnection) :
    alive (some connection) = if connection.writerTask then some connection else none := by
  simp [alive, Option.filter]

@[simp] lemma alive_alive (connection : Option ClientConnection) :
    alive (alive connection) = alive connection := by
  rcases connection with _ | connection
  · rfl
  · rcases hw : connection.writerTask with _ | _ <;> simp [hw]

lemma eq_some_of_alive {connection : ClientConnection} {entry : Option ClientConnection}
    (h : alive entry = some connection) : entry = some connection := by
  rcases entry with _ | connection'
  · cases h
  · rw [alive_some] at h
    split_ifs at h
    exact h

/-- A send drops the entry of its client if the writer task has ended, -/
lemma sendToClient_lookups (n : Network) (c c' : ClientId) :
    (n.sendToClient c).1.clientConnections.lookup c' =
      if c' = c then alive (n.clientConnections.lookup c)
      else n.clientConnections.lookup c' := by
  unfold Network.sendToClient
  rcases hc : n.clientConnections.lookup c with _ | connection
  · by_cases heq : c' = c
    · subst heq
      simp [hc]
    · simp [heq]
  · by_cases heq : c' = c
    · subst heq
      rcases hw : connection.writerTask with _ | _ <;> simp [hc, hw]
    · rcases hw : connection.writerTask with _ | _ <;> simp [heq, hw]

/-- and goes out on its link if not. -/
lemma sendToClient_snd (n : Network) (c : ClientId) :
    (n.sendToClient c).2 =
      (alive (n.clientConnections.lookup c)).map ClientConnection.link := by
  unfold Network.sendToClient
  rcases hc : n.clientConnections.lookup c with _ | connection
  · rfl
  · rcases hw : connection.writerTask with _ | _ <;> simp [hw]

def ended (connection : ClientConnection) : ClientConnection :=
  { connection with writerTask := false }

lemma clientWriterEnded_lookups (n : Network) (c c' : ClientId) :
    (n.clientWriterEnded c).clientConnections.lookup c' =
      if c' = c then (n.clientConnections.lookup c).map ended
      else n.clientConnections.lookup c' := by
  unfold Network.clientWriterEnded
  rcases hc : n.clientConnections.lookup c with _ | connection
  · by_cases heq : c' = c
    · subst heq
      simp [hc]
    · simp [heq]
  · by_cases heq : c' = c
    · subst heq
      simp [ended]
    · simp [heq]

/-- The tables of clients have the same entries, but for some in `m` whose writer task has ended,
and the next client gets the same id. Nothing is said of the slots of peers. -/
structure Alike (n m : Network) : Prop where
  entry : ∀ c, n.clientConnections.lookup c = m.clientConnections.lookup c ∨
    n.clientConnections.lookup c = alive (m.clientConnections.lookup c)
  maxClientId : n.maxClientId = m.maxClientId

namespace Alike

variable {n m : Network}

lemma refl (n : Network) : Alike n n := ⟨fun _ => .inl rfl, rfl⟩

lemma alive_eq (h : Alike n m) (c : ClientId) :
    alive (n.clientConnections.lookup c) = alive (m.clientConnections.lookup c) := by
  rcases h.entry c with heq | heq <;> rw [heq]
  exact alive_alive _

lemma lookup (h : Alike n m) {c : ClientId} {connection : ClientConnection}
    (hc : n.clientConnections.lookup c = some connection) :
    m.clientConnections.lookup c = some connection := by
  rcases h.entry c with heq | heq
  · rw [← heq, hc]
  · exact eq_some_of_alive (heq.symm.trans hc)

/-- Only what is in the table of clients counts. -/
lemma congr (h : Alike n m) {n' m' : Network} (hn : n'.clientConnections = n.clientConnections)
    (hm : m'.clientConnections = m.clientConnections) (hn' : n'.maxClientId = n.maxClientId)
    (hm' : m'.maxClientId = m.maxClientId) : Alike n' m' := by
  refine ⟨fun c => ?_, by rw [hn', hm', h.maxClientId]⟩
  rw [hn, hm]
  exact h.entry c

/-- A send that only one side makes. -/
lemma sendToClient_left (h : Alike n m) (c : ClientId) : Alike (n.sendToClient c).1 m := by
  refine ⟨fun c' => ?_, by simpa using h.maxClientId⟩
  rw [sendToClient_lookups]
  split_ifs with hc
  · subst hc
    exact .inr (h.alive_eq c')
  · exact h.entry c'

lemma sendToClient (h : Alike n m) (c : ClientId) :
    Alike (n.sendToClient c).1 (m.sendToClient c).1 := by
  refine ⟨fun c' => ?_, by simpa using h.maxClientId⟩
  rw [sendToClient_lookups, sendToClient_lookups]
  split_ifs with hc
  · exact .inl (h.alive_eq c)
  · exact h.entry c'

lemma sendToClient_link (h : Alike n m) (c : ClientId) :
    (n.sendToClient c).2 = (m.sendToClient c).2 := by
  rw [sendToClient_snd, sendToClient_snd, h.alive_eq]

lemma nextClientId (h : Alike n m) : Alike n.nextClientId.1 m.nextClientId.1 :=
  ⟨h.entry, by simp [Network.nextClientId, h.maxClientId]⟩

lemma applyConnection (h : Alike n m) (new : NewConnection) :
    Alike (n.applyConnection new).1 (m.applyConnection new).1 := by
  cases new with
  | ToPeer connection =>
    have hpeer : ∀ n : Network, (n.applyConnection (.ToPeer connection)).1.clientConnections =
        n.clientConnections ∧
        (n.applyConnection (.ToPeer connection)).1.maxClientId = n.maxClientId := by
      intro n
      simp only [Network.applyConnection]
      split <;> exact ⟨rfl, rfl⟩
    exact h.congr (hpeer n).1 (hpeer m).1 (hpeer n).2 (hpeer m).2
  | ToClient connection =>
    refine ⟨fun c => ?_, h.maxClientId⟩
    by_cases hc : c = connection.clientId
    · subst hc
      left
      simp [Network.applyConnection]
    · simpa [Network.applyConnection, hc] using h.entry c

lemma clientWriterEnded (h : Alike n m) (c : ClientId) :
    Alike (n.clientWriterEnded c) (m.clientWriterEnded c) := by
  refine ⟨fun c' => ?_, by simpa using h.maxClientId⟩
  rw [clientWriterEnded_lookups, clientWriterEnded_lookups]
  split_ifs with hc
  · rcases h.entry c with heq | heq
    · exact .inl (by rw [heq])
    · rw [heq]
      rcases m.clientConnections.lookup c with _ | connection
      · exact .inl rfl
      · rcases hw : connection.writerTask with _ | _
        · exact .inr (by simp [hw, ended])
        · exact .inl (by simp [hw])
  · exact h.entry c'

end Alike

/-- The tables are alike, and the same start signals were sent. -/
structure Agrees (t : Tables) (u : StartSignals.State) : Prop where
  net : Alike t.net u.net
  sent : t.sent = u.sent

variable {Ω Msg : Type*} {op : OmniPaxos Ω Msg} {cfg : OmniPaxosKVConfig} {t : Tables}
  {u u' : StartSignals.State} {c c' c'' : Core Ω Msg}

/-! ### What the calls do to the tables -/

@[simp] lemma Tables.run_append (calls calls' : List (Call Msg)) :
    t.run (calls ++ calls') = (t.run calls).run calls' := List.foldl_append

/-- A call that leaves the start signals alone, and the table but for a dead entry. -/
def IsQuiet : Call Msg → Prop
  | .append _ => True
  | .applyConnection _ => False
  | .sendToCluster _ _ => True
  | .sendToClient _ msg => msg.commandId.isSome
  | .saveSnapshot _ => True

lemma Agrees.quiet (h : Agrees t u) {call : Call Msg} (hcall : IsQuiet call) :
    Agrees (t.call call) u := by
  cases call with
  | append command => exact h
  | applyConnection connection => exact hcall.elim
  | sendToCluster peer msg =>
    exact ⟨h.net.congr (by simp [Tables.call]) rfl (by simp [Tables.call]) rfl, h.sent⟩
  | sendToClient client msg =>
    refine ⟨h.net.sendToClient_left client, ?_⟩
    cases msg with
    | Write id => simpa [Tables.call, startSignal] using h.sent
    | Read id value => simpa [Tables.call, startSignal] using h.sent
    | StartSignal startTime => cases hcall
  | saveSnapshot snapshot => exact h

lemma Agrees.run_quiet {calls : List (Call Msg)} (h : Agrees t u)
    (hcalls : ∀ call ∈ calls, IsQuiet call) : Agrees (t.run calls) u := by
  induction calls generalizing t with
  | nil => exact h
  | cons call calls ih =>
    exact ih (h.quiet (hcalls call List.mem_cons_self))
      fun call' hcall' => hcalls call' (List.mem_cons_of_mem call hcall')

lemma Agrees.run_signals {clients : List ClientId} (h : Agrees t u) (startTime : Timestamp) :
    Agrees (t.run (clients.map fun client =>
        (.sendToClient client (.StartSignal startTime) : Call Msg)))
      (clients.foldl (StartSignals.State.signal startTime) u) := by
  induction clients generalizing t u with
  | nil => exact h
  | cons client clients ih =>
    refine ih ⟨h.net.sendToClient client, ?_⟩
    simp [Tables.call, StartSignals.State.signal, startSignal, h.sent, h.net.sendToClient_link]

def signalsConfig (cfg : OmniPaxosKVConfig) : StartSignals.Config :=
  ⟨cfg.serverId, cfg.peers, cfg.numClients, cfg.initialLeader⟩

lemma Agrees.signalCluster (h : Agrees t u) (scfg : StartSignals.Config) :
    Agrees t (StartSignals.sendClusterStartSignals scfg u) := by
  unfold StartSignals.sendClusterStartSignals
  induction scfg.peers generalizing u with
  | nil => exact h
  | cons peer peers ih =>
    exact ih ⟨h.net.congr rfl (by simp) rfl (by simp), h.sent⟩

/-- From `c` to `c'` a server makes calls that do to the tables what `f` does. -/
structure Follows (c c' : Core Ω Msg) (f : StartSignals.State → StartSignals.State) : Prop where
  serverId : c'.server.id = c.server.id
  calls : ∃ new, c'.calls = c.calls ++ new ∧ ∀ t u, Agrees t u → Agrees (t.run new) (f u)

namespace Follows

variable {f g : StartSignals.State → StartSignals.State}

lemma trans (h : Follows c c' f) (h' : Follows c' c'' g) : Follows c c'' (g ∘ f) := by
  obtain ⟨new, heq, hnew⟩ := h.calls
  obtain ⟨new', heq', hnew'⟩ := h'.calls
  refine ⟨h'.serverId.trans h.serverId, new ++ new', by rw [heq', heq, List.append_assoc], ?_⟩
  intro t u hagrees
  rw [Tables.run_append]
  exact hnew' _ _ (hnew t u hagrees)

lemma quiet (hid : c'.server.id = c.server.id) {calls : List (Call Msg)}
    (heq : c'.calls = c.calls ++ calls) (hcalls : ∀ call ∈ calls, IsQuiet call) :
    Follows c c' id :=
  ⟨hid, calls, heq, fun _ _ hagrees => hagrees.run_quiet hcalls⟩

lemma refl (c : Core Ω Msg) : Follows c c id :=
  quiet rfl (List.append_nil _).symm (fun call hcall => by cases hcall)

lemma sendOutgoingMsgs (c : Core Ω Msg) : Follows c (c.sendOutgoingMsgs op) id := by
  refine quiet rfl rfl fun call hcall => ?_
  obtain ⟨msg, -, rfl⟩ := List.mem_map.mp hcall
  trivial

/-- An iteration ends with the messages that OmniPaxos has to send. -/
lemma flush (h : Follows c c' f) : Follows c (c'.sendOutgoingMsgs op) f :=
  h.trans (sendOutgoingMsgs c')

lemma appendToLog {client : ClientId} {msg : ClientMessage}
    (h : c.appendToLog op client msg = some c') : Follows c c' id := by
  obtain ⟨id, cmd⟩ := msg
  obtain ⟨ω, -, rfl⟩ := Option.map_eq_some_iff.mp h
  refine quiet rfl rfl fun call hcall => ?_
  obtain rfl := List.mem_singleton.mp hcall
  trivial

lemma appendToLogs {messages : List (ClientId × ClientMessage)}
    (h : messages.foldlM (fun c m => c.appendToLog op m.1 m.2) c = some c') :
    Follows c c' id := by
  induction messages generalizing c with
  | nil =>
    cases h
    exact refl _
  | cons m messages ih =>
    rw [List.foldlM_cons] at h
    obtain ⟨c₁, hc₁, h⟩ := Option.bind_eq_some_iff.mp h
    exact (appendToLog hc₁).trans (ih h)

lemma handleDecidedEntries (c : Core Ω Msg) :
    Follows c (c.handleDecidedEntries op cfg) id := by
  obtain ⟨server, sent, saved, hid, hsent, heq⟩ := handleDecidedEntries_calls op cfg c
  rw [heq]
  refine quiet hid rfl fun call hcall => ?_
  rcases List.mem_append.mp hcall with hcall | hcall
  · obtain ⟨x, hx, rfl⟩ := List.mem_map.mp hcall
    exact hsent x hx
  · obtain ⟨snapshot, -, rfl⟩ := Option.mem_map.mp (Option.mem_toList.mp hcall)
    trivial

lemma sendClientStartSignals (c : Core Ω Msg) (startTime : Timestamp) :
    Follows c (c.sendClientStartSignals cfg startTime)
      fun u => StartSignals.sendClientStartSignals (signalsConfig cfg) u startTime :=
  ⟨rfl, _, rfl, fun _ _ hagrees => hagrees.run_signals startTime⟩

lemma announce (c : Core Ω Msg) (startTime : Timestamp) :
    Follows c (c.announce cfg startTime) fun u =>
      StartSignals.sendClientStartSignals (signalsConfig cfg)
        (StartSignals.sendClusterStartSignals (signalsConfig cfg) u) startTime := by
  have hcluster : Follows c (c.sendClusterStartSignals cfg startTime)
      (StartSignals.sendClusterStartSignals (signalsConfig cfg)) := by
    refine ⟨rfl, _, rfl, fun t u hagrees => ?_⟩
    refine (hagrees.signalCluster _).run_quiet fun call hcall => ?_
    obtain ⟨peer, -, rfl⟩ := List.mem_map.mp hcall
    trivial
  exact hcluster.trans (sendClientStartSignals _ startTime)

end Follows

/-- What `StartSignals` keeps of a message of a peer. -/
def forSignals : ClusterMessage Msg → ClusterMessage Unit
  | .OmniPaxosMessage _ => .OmniPaxosMessage ()
  | .LeaderStartSignal startTime => .LeaderStartSignal startTime

@[simp] lemma forSignals_isStart (msg : ClusterMessage Msg) :
    (forSignals msg).isStart = msg.isStart := by
  cases msg <;> rfl

lemma Follows.handleClusterMessage (c : Core Ω Msg) (msg : ClusterMessage Msg) :
    Follows c (c.handleClusterMessage op cfg msg) fun u =>
      StartSignals.handleClusterMessage (signalsConfig cfg) u (forSignals msg) := by
  cases msg with
  | OmniPaxosMessage m =>
    have hincoming : Follows c { c with omnipaxos := op.handleIncoming c.omnipaxos m } id :=
      ⟨rfl, (Follows.refl c).calls⟩
    exact hincoming.trans (Follows.handleDecidedEntries _)
  | LeaderStartSignal startTime => exact Follows.sendClientStartSignals c startTime

lemma Follows.handleClusterMessages (messages : List (NodeId × ClusterMessage Msg))
    (c : Core Ω Msg) :
    Follows c (c.handleClusterMessages op cfg messages).1 fun u =>
      (messages.map fun m => forSignals m.2).foldl
        (StartSignals.handleClusterMessage (signalsConfig cfg)) u := by
  refine Follows.flush ?_
  induction messages generalizing c with
  | nil => exact Follows.refl c
  | cons m messages ih => exact (Follows.handleClusterMessage c m.2).trans (ih _)

/-! ### The loops send what `StartSignals` sends -/

def signalsPhase : ServerLoop.Phase → StartSignals.Phase
  | .establishing => .establishing
  | .running => .running

lemma signalsPhase_ne (phase : ServerLoop.Phase) : signalsPhase phase ≠ .connecting := by
  cases phase <;> simp [signalsPhase]

/-- What `StartSignals` keeps of a state, with `n` for the tables. -/
def State.signals (op : OmniPaxos Ω Msg) (s : State Ω Msg) (n : Network) : StartSignals.State where
  net := n
  phase := if s.connecting then .connecting else signalsPhase s.loop.phase
  leader := op.getCurrentLeader s.loop.core.omnipaxos
  registering := s.registering
  connections := s.loop.recoveryReceiver
  clusterMessages := s.loop.clusterMessages.map fun m => forSignals m.2
  owners := s.owners
  openLinks := s.openLinks
  exited := s.exited
  sent := s.tables.sent

lemma signals_phase (op : OmniPaxos Ω Msg) (s : State Ω Msg) (n : Network)
    (hconn : s.connecting = false) : (s.signals op n).phase = signalsPhase s.loop.phase := by
  simp [State.signals, hconn]

/-- What an action is there, but for what it does to OmniPaxos. -/
def Action.signals : Action Msg → Option StartSignals.Action
  | .loop (.clusterArrives _ msg) => some (.clusterArrives (forSignals msg))
  | .loop (.clientArrives _ _) => none
  | .loop (.connectionArrives _) => none
  | .loop .electionTick => none
  | .loop (.leaderTick now) => some (.leaderTick now)
  | .loop (.clusterMessages k) => some (.clusterMessages k)
  | .loop (.clientMessages _) => none
  | .loop (.recovery now) => some (.recovery now)
  | .connect p => some (.connect p)
  | .peerConnects peer => some (.peerConnects peer)
  | .arrives i => some (.arrives i)
  | .disconnect link => some (.disconnect link)
  | .exit p => some (.exit p)
  | .clientWriterEnds client => some (.clientWriterEnds client)
  | .peerWriterEnds idx => some (.peerWriterEnds idx)
  | .accept => some .accept

/-- Client connections are taken only when awaited. -/
def Announced (op : OmniPaxos Ω Msg) (cfg : OmniPaxosKVConfig) (s : State Ω Msg)
    (a : Action Msg) : Prop :=
  ∀ a' ∈ a.signals,
    StartSignals.Announced (signalsConfig cfg) (s.signals op s.tables.net) a'

/-- The tables that `StartSignals` has in a matching run. -/
structure Matches (cfg : OmniPaxosKVConfig) (s : State Ω Msg) (n : Network) : Prop where
  alike : Alike s.tables.net n
  serverId : s.loop.core.server.id = cfg.serverId
  connecting : s.connecting = true → s.tables.net = n ∧ s.loop.phase = .establishing

variable {s s' : State Ω Msg} {n : Network}

/-- The step of an action there, where it is one. -/
def signalsStep (cfg : OmniPaxosKVConfig) (u : StartSignals.State) :
    Option StartSignals.Action → Option StartSignals.State
  | some a => StartSignals.step (signalsConfig cfg) u a
  | none => some u

/-- The action is matched, with `n'` for the tables after it. -/
def Moves (op : OmniPaxos Ω Msg) (cfg : OmniPaxosKVConfig) (s s' : State Ω Msg) (n : Network)
    (a : Option StartSignals.Action) : Prop :=
  ∃ n', Matches cfg s' n' ∧ signalsStep cfg (s.signals op n) a =
    some { s'.signals op n' with leader := op.getCurrentLeader s.loop.core.omnipaxos }

lemma Matches.agrees (op : OmniPaxos Ω Msg) (h : Matches cfg s n) :
    Agrees s.tables (s.signals op n) :=
  ⟨h.alike, rfl⟩

lemma Matches.iteration (h : Matches cfg s n) {f : StartSignals.State → StartSignals.State}
    {loop : ServerLoop.State Ω Msg} {a : Option StartSignals.Action}
    (hconn : s.connecting = false) (hf : Follows s.loop.core loop.core f)
    (hstep : signalsStep cfg (s.signals op n) a = some { s.signals op n with
      net := (f (s.signals op n)).net
      sent := (f (s.signals op n)).sent
      phase := signalsPhase loop.phase
      connections := loop.recoveryReceiver
      clusterMessages := loop.clusterMessages.map fun m => forSignals m.2 }) :
    Moves op cfg s (s.iterate loop) n a := by
  obtain ⟨new, heq, hnew⟩ := hf.calls
  have hagrees := hnew _ _ (h.agrees op)
  have hrun : (s.iterate loop).tables = s.tables.run new := by
    rw [State.iterate, heq, List.drop_left]
  refine ⟨_, ⟨hrun ▸ hagrees.net, hf.serverId.trans h.serverId, fun hc => ?_⟩, ?_⟩
  · cases hconn.symm.trans hc
  · have hsent : (s.iterate loop).tables.sent = (f (s.signals op n)).sent := by
      rw [hrun, hagrees.sent]
    have hconn' : (s.iterate loop).connecting = false := hconn
    refine hstep.trans (congrArg some ?_)
    rw [← hsent]
    simp only [State.signals, hconn']
    rfl

/-- An iteration that sends no start signal. -/
lemma Matches.quiet (h : Matches cfg s n) {loop : ServerLoop.State Ω Msg}
    (hconn : s.connecting = false) (hf : Follows s.loop.core loop.core id)
    (hphase : loop.phase = s.loop.phase)
    (hconnections : loop.recoveryReceiver = s.loop.recoveryReceiver)
    (hclusterMessages : loop.clusterMessages = s.loop.clusterMessages) :
    Moves op cfg s (s.iterate loop) n none := by
  refine h.iteration hconn hf ?_
  simp [signalsStep, State.signals, hconn, hphase, hconnections, hclusterMessages]

lemma announce_same (scfg : StartSignals.Config) (u : StartSignals.State)
    (startTime : Timestamp) :
    ∃ net sent, StartSignals.sendClientStartSignals scfg
      (StartSignals.sendClusterStartSignals scfg u) startTime =
        { u with net := net, sent := sent } := by
  obtain ⟨net, heq, -⟩ := StartSignals.sendClusterStartSignals_eq scfg u
  rw [heq]
  exact ⟨_, _, (StartSignals.sends_clients scfg _ startTime).same⟩

lemma Matches.leaderTick (h : Matches cfg s n) {now : Timestamp} {loop : ServerLoop.State Ω Msg}
    (hconn : s.connecting = false)
    (hs : ServerLoop.step op cfg s.loop (.leaderTick now) = some loop) :
    Moves op cfg s (s.iterate loop) n (some (.leaderTick now)) := by
  simp only [ServerLoop.step] at hs
  split at hs
  case isFalse => cases hs
  case isTrue hguard =>
  obtain ⟨hphase, hinitial⟩ := hguard
  obtain rfl := Option.some.inj hs
  have henabled : (s.signals op n).phase = .establishing ∧
      (signalsConfig cfg).initialLeader = (signalsConfig cfg).id :=
    ⟨by rw [signals_phase op s n hconn, hphase]; rfl, hinitial.trans h.serverId⟩
  have hleader : (s.signals op n).leader = some ((signalsConfig cfg).id, true) ↔
      op.getCurrentLeader s.loop.core.omnipaxos = some (s.loop.core.server.id, true) := by
    rw [h.serverId]
    rfl
  by_cases hleads : op.getCurrentLeader s.loop.core.omnipaxos = some (s.loop.core.server.id, true)
  · have htick : s.loop.core.leaderTick op cfg now =
        (s.loop.core.announce cfg (now + 2000), true) := if_pos hleads
    obtain ⟨net, sent, hsame⟩ := announce_same (signalsConfig cfg) (s.signals op n) (now + 2000)
    simp only [htick]
    refine h.iteration hconn (Follows.announce s.loop.core (now + 2000)) ?_
    refine ((if_pos henabled).trans (if_pos (hleader.mpr hleads))).trans ?_
    rw [hsame]
    rfl
  · have htick : s.loop.core.leaderTick op cfg now = (Core.sendOutgoingMsgs op
        { s.loop.core with omnipaxos := op.tryBecomeLeader s.loop.core.omnipaxos }, false) :=
      if_neg hleads
    have hf : Follows s.loop.core (Core.sendOutgoingMsgs op
        { s.loop.core with omnipaxos := op.tryBecomeLeader s.loop.core.omnipaxos }) id :=
      Follows.flush ⟨rfl, (Follows.refl s.loop.core).calls⟩
    simp only [htick]
    refine h.iteration hconn hf ?_
    refine ((if_pos henabled).trans (if_neg fun hl => hleads (hleader.mp hl))).trans ?_
    simp [State.signals, hconn]

lemma Matches.clusterMessages (h : Matches cfg s n) {k : ℕ} {loop : ServerLoop.State Ω Msg}
    (hconn : s.connecting = false)
    (hs : ServerLoop.step op cfg s.loop (.clusterMessages k) = some loop) :
    Moves op cfg s (s.iterate loop) n (some (.clusterMessages k)) := by
  simp only [ServerLoop.step] at hs
  split at hs
  case isFalse => cases hs
  case isTrue hbatch =>
  obtain rfl := Option.some.inj hs
  have henabled : (s.signals op n).phase ≠ .connecting ∧ 0 < k ∧
      k ≤ (s.signals op n).clusterMessages.length := by
    refine ⟨?_, hbatch.1, by simpa [State.signals] using hbatch.2.2⟩
    rw [signals_phase op s n hconn]
    exact signalsPhase_ne s.loop.phase
  have htake : (s.signals op n).clusterMessages.take k =
      (s.loop.clusterMessages.take k).map fun m => forSignals m.2 := List.map_take.symm
  have hsame := (StartSignals.sends_messages (signalsConfig cfg) (s.signals op n)
    ((s.loop.clusterMessages.take k).map fun m => forSignals m.2)).same
  refine h.iteration hconn
    (Follows.handleClusterMessages (s.loop.clusterMessages.take k) s.loop.core) ?_
  refine (if_pos henabled).trans ?_
  have hstart : ((s.loop.clusterMessages.take k).map fun m => forSignals m.2).any
      ClusterMessage.isStart =
        (s.loop.clusterMessages.take k).any fun m => m.2.isStart := by
    simp only [List.any_map, Function.comp_def, forSignals_isStart]
  have hdrop : (s.signals op n).clusterMessages.drop k =
      (s.loop.clusterMessages.drop k).map fun m => forSignals m.2 := List.map_drop.symm
  have hrunning : ∀ recvStart : Bool,
      (if recvStart then StartSignals.Phase.running else (s.signals op n).phase) =
        signalsPhase (if recvStart then .running else s.loop.phase) := by
    intro recvStart
    rw [signals_phase op s n hconn]
    cases recvStart <;> rfl
  simp only [htake, hdrop, hstart, hrunning]
  rw [hsame]
  rfl

lemma Matches.recovery (h : Matches cfg s n) {now : Timestamp} {loop : ServerLoop.State Ω Msg}
    (hconn : s.connecting = false)
    (hs : ServerLoop.step op cfg s.loop (.recovery now) = some loop) :
    Moves op cfg s (s.iterate loop) n (some (.recovery now)) := by
  simp only [ServerLoop.step] at hs
  split at hs
  case h_2 => cases hs
  case h_1 new rest hrest =>
  obtain rfl := Option.some.inj hs
  have hphase := signals_phase op s n hconn
  have henabled : (s.signals op n).phase ≠ .connecting := by
    rw [hphase]
    exact signalsPhase_ne s.loop.phase
  have hstep : signalsStep cfg (s.signals op n) (some (.recovery now)) =
      some (StartSignals.recoveryArm (signalsConfig cfg) (s.signals op n) now new rest) := by
    have hconnections : (s.signals op n).connections = new :: rest := hrest
    simp only [signalsStep, StartSignals.step, hconnections]
    exact if_pos henabled
  rw [StartSignals.recoveryArm_eq] at hstep
  have happly : Follows s.loop.core (s.loop.core.call [.applyConnection new])
      fun u => StartSignals.applyConnection u new rest :=
    ⟨rfl, _, rfl, fun t u hagrees => ⟨hagrees.net.applyConnection new, hagrees.sent⟩⟩
  have hleader : (s.signals op n).leader.map Prod.fst = some (signalsConfig cfg).id ↔
      (s.loop.core.call [.applyConnection new]).Leads op := by
    have hid : (signalsConfig cfg).id = s.loop.core.server.id := h.serverId.symm
    simp [State.signals, Core.Leads, Core.call, hid]
  by_cases hleads : (s.loop.core.call [.applyConnection new]).Leads op
  · rw [if_pos (hleader.mpr hleads)] at hstep
    have harm : s.loop.core.recoveryArm op cfg now new = Core.sendOutgoingMsgs op
        ((s.loop.core.call [.applyConnection new]).announce cfg now) := by
      simp only [Core.recoveryArm, hleads, if_true]
    simp only [harm]
    refine h.iteration hconn (happly.trans (Follows.announce _ now)).flush (hstep.trans ?_)
    obtain ⟨net, sent, hsame⟩ := announce_same (signalsConfig cfg)
      (StartSignals.applyConnection (s.signals op n) new rest) now
    simp only [Function.comp_apply, hsame, ← hphase]
    rfl
  · rw [if_neg fun hl => hleads (hleader.mp hl)] at hstep
    have harm : s.loop.core.recoveryArm op cfg now new = Core.sendOutgoingMsgs op
        (s.loop.core.call [.applyConnection new]) := by
      simp only [Core.recoveryArm, hleads, if_false]
    simp only [harm]
    refine h.iteration hconn happly.flush (hstep.trans ?_)
    simp only [← hphase]
    rfl

/-- A message or a command arrives. -/
lemma Matches.arrival (h : Matches cfg s n) {loop : ServerLoop.State Ω Msg}
    (hcore : loop.core = s.loop.core) (hphase : loop.phase = s.loop.phase) :
    Matches cfg (s.iterate loop) n := by
  have htables : (s.iterate loop).tables = s.tables := by
    simp [State.iterate, hcore, Tables.run]
  refine ⟨?_, ?_, fun hc => ?_⟩
  · rw [htables]
    exact h.alike
  · rw [State.iterate, hcore]
    exact h.serverId
  · obtain ⟨hnet, hestablishing⟩ := h.connecting hc
    rw [htables]
    exact ⟨hnet, hphase.trans hestablishing⟩

lemma Matches.loop (h : Matches cfg s n) {a : ServerLoop.Action Msg}
    (hs : step op cfg s (.loop a) = some s') :
    Moves op cfg s s' n (Action.loop a).signals := by
  simp only [step] at hs
  split at hs
  case isFalse => cases hs
  case isTrue henabled =>
  obtain ⟨loop, hloop, rfl⟩ := Option.map_eq_some_iff.mp hs
  cases a with
  | clusterArrives source msg =>
    obtain rfl := Option.some.inj hloop
    refine ⟨n, h.arrival rfl rfl, ?_⟩
    simp [signalsStep, Action.signals, StartSignals.step, State.signals, State.iterate, Tables.run]
  | clientArrives client msg =>
    obtain rfl := Option.some.inj hloop
    refine ⟨n, h.arrival rfl rfl, ?_⟩
    simp [signalsStep, Action.signals, State.signals, State.iterate, Tables.run]
  | connectionArrives connection => exact henabled.elim
  | electionTick =>
    simp only [ServerLoop.step] at hloop
    split at hloop
    · obtain rfl := Option.some.inj hloop
      exact h.quiet henabled (Follows.flush ⟨rfl, (Follows.refl s.loop.core).calls⟩) rfl rfl rfl
    · cases hloop
  | leaderTick now => exact h.leaderTick henabled hloop
  | clusterMessages k => exact h.clusterMessages henabled hloop
  | clientMessages k =>
    simp only [ServerLoop.step] at hloop
    split at hloop
    · obtain ⟨core, hcore, rfl⟩ := Option.map_eq_some_iff.mp hloop
      obtain ⟨c₁, hc₁, rfl⟩ := Option.map_eq_some_iff.mp hcore
      exact h.quiet henabled (Follows.appendToLogs hc₁).flush rfl rfl rfl
    · cases hloop
  | recovery now => exact h.recovery henabled hloop

/-- **One step** is matched. -/
lemma Matches.step (h : Matches cfg s n) {a : Action Msg} (hs : step op cfg s a = some s') :
    Moves op cfg s s' n a.signals := by
  cases a with
  | loop a => exact h.loop hs
  | connect p =>
    simp only [LoopSignals.step] at hs
    split at hs
    case isTrue => cases hs
    case isFalse hp =>
    obtain rfl := Option.some.inj hs
    refine ⟨n.nextClientId.1, ⟨h.alike.nextClientId, h.serverId, fun hc => ?_⟩, ?_⟩
    · obtain ⟨hnet, hphase⟩ := h.connecting hc
      exact ⟨by rw [← hnet], hphase⟩
    · have hmax := h.alike.maxClientId
      simp [signalsStep, Action.signals, StartSignals.step, State.signals, hp,
        Network.nextClientId, hmax]
  | peerConnects peer =>
    obtain rfl := Option.some.inj hs
    exact ⟨n, ⟨h.alike, h.serverId, h.connecting⟩, rfl⟩
  | arrives i =>
    simp only [LoopSignals.step] at hs
    split at hs
    case h_2 => cases hs
    case h_1 new hnew =>
    obtain rfl := Option.some.inj hs
    refine ⟨n, ⟨h.alike, h.serverId, h.connecting⟩, ?_⟩
    simp [signalsStep, Action.signals, StartSignals.step, State.signals, hnew]
  | disconnect link =>
    obtain rfl := Option.some.inj hs
    exact ⟨n, ⟨h.alike, h.serverId, h.connecting⟩, rfl⟩
  | exit p =>
    obtain rfl := Option.some.inj hs
    exact ⟨n, ⟨h.alike, h.serverId, h.connecting⟩, rfl⟩
  | clientWriterEnds client =>
    obtain rfl := Option.some.inj hs
    refine ⟨n.clientWriterEnded client,
      ⟨h.alike.clientWriterEnded client, h.serverId, fun hc => ?_⟩, rfl⟩
    obtain ⟨hnet, hphase⟩ := h.connecting hc
    exact ⟨by rw [← hnet], hphase⟩
  | peerWriterEnds idx =>
    obtain rfl := Option.some.inj hs
    refine ⟨n.peerWriterEnded idx,
      ⟨h.alike.congr (by simp) (by simp) (by simp) (by simp), h.serverId, fun hc => ?_⟩, rfl⟩
    obtain ⟨hnet, hphase⟩ := h.connecting hc
    exact ⟨by rw [← hnet], hphase⟩
  | accept =>
    simp only [LoopSignals.step] at hs
    split at hs
    case h_2 => cases hs
    case h_1 new rest hconn hrest =>
    obtain rfl := Option.some.inj hs
    obtain ⟨hnet, hphase⟩ := h.connecting hconn
    subst hnet
    refine ⟨(s.tables.net.applyConnection new).1,
      ⟨Alike.refl _, h.serverId, fun _ => ⟨rfl, hphase⟩⟩, ?_⟩
    rcases hany : (s.tables.net.applyConnection new).1.anyPeer with _ | _ <;>
      simp [signalsStep, Action.signals, StartSignals.step, State.signals, hconn, hrest, hphase,
        StartSignals.applyConnection, signalsPhase, hany]

/-- The action there, and what has become of the leader. -/
def matching (op : OmniPaxos Ω Msg) (s' : State Ω Msg) (a : Option StartSignals.Action) :
    List StartSignals.Action :=
  a.toList ++ [.leaderChanges (op.getCurrentLeader s'.loop.core.omnipaxos)]

lemma Moves.run {a : Option StartSignals.Action} (h : Moves op cfg s s' n a) :
    ∃ n', Matches cfg s' n' ∧ (StartSignals.system (signalsConfig cfg)).run (s.signals op n)
      (matching op s' a) = some (s'.signals op n') := by
  obtain ⟨n', hmatches, hstep⟩ := h
  refine ⟨n', hmatches, ?_⟩
  cases a with
  | none =>
    have heq := Option.some.inj hstep
    rw [heq]
    rfl
  | some a =>
    have hrun : (StartSignals.system (signalsConfig cfg)).run (s.signals op n) [a] =
        some { s'.signals op n' with leader := op.getCurrentLeader s.loop.core.omnipaxos } := by
      rw [System.run, List.foldlM_cons]
      exact Option.bind_eq_some_iff.mpr ⟨_, hstep, rfl⟩
    exact System.run_append hrun rfl

/-- What is announced does not depend on the tables. -/
lemma matching_meets {a : Action Msg} (ha : Announced op cfg s a) :
    (StartSignals.system (signalsConfig cfg)).Meets (StartSignals.Announced (signalsConfig cfg))
      (s.signals op n) (matching op s' a.signals) := by
  have hann : ∀ a' ∈ a.signals,
      StartSignals.Announced (signalsConfig cfg) (s.signals op n) a' := by
    intro a' ha'
    have hhere := ha a' ha'
    cases a' <;> exact hhere
  unfold matching
  generalize a.signals = a' at hann
  cases a' with
  | none => exact ⟨trivial, trivial⟩
  | some a' =>
    refine ⟨hann a' rfl, ?_⟩
    split
    · exact ⟨trivial, trivial⟩
    · trivial

section Runs

variable {L : List Command} {S : ℕ} {path : Option String} {ω : Ω}

/-- The states that match. -/
def Simulates (op : OmniPaxos Ω Msg) (cfg : OmniPaxosKVConfig) (s : State Ω Msg)
    (u : StartSignals.State) : Prop :=
  ∃ n, u = s.signals op n ∧ Matches cfg s n

lemma simulates_start {C : StartSignals.State → StartSignals.Action → Prop}
    (hC : ∀ u leader, C u (.leaderChanges leader)) :
    ∃ u, (StartSignals.system (signalsConfig cfg)).Reaches C u ∧
      Simulates op cfg (start cfg L S path ω) u := by
  refine ⟨_, .step (.init rfl) (a := .leaderChanges (op.getCurrentLeader ω)) rfl (hC _ _),
    .new cfg.peers, rfl, ⟨Alike.refl _, rfl, fun _ => ⟨rfl, rfl⟩⟩⟩

lemma Simulates.step {u : StartSignals.State} {a : Action Msg} (h : Simulates op cfg s u)
    (hs : step op cfg s a = some s') :
    ∃ u', (StartSignals.system (signalsConfig cfg)).run u (matching op s' a.signals) = some u' ∧
      Simulates op cfg s' u' := by
  obtain ⟨n, rfl, hmatches⟩ := h
  obtain ⟨n', hmatches', hrun⟩ := (hmatches.step hs).run
  exact ⟨_, hrun, n', rfl, hmatches'⟩

/-- **The loops refine `StartSignals`**: in every state they reach they have sent the start signals
that it sends in some run to the same state, but for the tables, of which those of clients are
alike. -/
theorem signals_of_reachable (h : (system op cfg L S path ω).Reachable s) :
    ∃ n, (StartSignals.system (signalsConfig cfg)).Reachable (s.signals op n) ∧
      Alike s.tables.net n := by
  obtain ⟨u, hreach, n, rfl, hmatches⟩ := h.simulates (R := Simulates op cfg)
    (U := StartSignals.system (signalsConfig cfg)) (D := fun _ _ => True)
    (by rintro s rfl; exact simulates_start fun _ _ => trivial)
    (by
      intro s a s' u hsim hs _
      obtain ⟨u', hrun, hsim'⟩ := hsim.step hs
      exact ⟨_, u', hrun, System.meets_of_forall (fun _ _ _ => trivial) u, hsim'⟩)
  exact ⟨n, hreach, hmatches.alike⟩

lemma signals_inv {scfg : StartSignals.Config} {u : StartSignals.State}
    (h : (StartSignals.system scfg).Reaches (StartSignals.Announced scfg) u) :
    StartSignals.Inv scfg u := by
  refine h.invariant (I := StartSignals.Inv scfg) ?_
    fun _ _ _ hi hs ha => StartSignals.step_inv hi hs ha
  rintro u rfl
  refine ⟨fun c connection hc => ?_, by simp [StartSignals.start], fun c connection p hc => ?_⟩
  · cases hc
  · cases hc

/-- **No started server leaves a client waiting**, whatever its loops were doing besides, in every
run in which client connections are taken when awaited. -/
theorem loops_started_of_announced
    (h : (system op cfg L S path ω).Reaches (Announced op cfg) s) :
    StartSignals.Started (s.signals op s.tables.net) := by
  obtain ⟨u, hreach, n, rfl, hmatches⟩ := h.simulates (R := Simulates op cfg)
    (U := StartSignals.system (signalsConfig cfg))
    (D := StartSignals.Announced (signalsConfig cfg))
    (by rintro s rfl; exact simulates_start fun _ _ => trivial)
    (by
      rintro s a s' u hsim hs ha
      obtain ⟨u', hrun, hsim'⟩ := hsim.step hs
      obtain ⟨n, rfl, -⟩ := hsim
      exact ⟨_, u', hrun, matching_meets ha, hsim'⟩)
  have hstarted := (signals_inv hreach).started
  intro hphase hconnections hmessages c connection p hlookup hopen howner
  exact hstarted hphase hconnections hmessages c connection p (hmatches.alike.lookup hlookup)
    hopen howner

end Runs

instance (op : OmniPaxos Ω Msg) (cfg : OmniPaxosKVConfig) (s : State Ω Msg) (a : Action Msg) :
    Decidable (Announced op cfg s a) :=
  inferInstanceAs (Decidable (∀ a' ∈ a.signals, _))

def onePut : List Command := [⟨1, 1, 0, .Put "k" "v"⟩]

/-- A client connects before the server leads, and has its first command appended. -/
def served : List (Action ℕ) :=
  [.peerConnects 2, .arrives 0, .accept, .connect 7, .arrives 0, .loop (.recovery 3),
    .loop (.leaderTick 5), .loop (.leaderTick 1005),
    .loop (.clientArrives 1 (.Append 0 (.Put "k" "v"))), .loop (.clientMessages 1)]

/-- The client's writer task ends, and the response to its command finds out. -/
def unserved : List (Action ℕ) :=
  served ++ [.clientWriterEnds 1, .loop (.clusterArrives 2 (.OmniPaxosMessage 3)),
    .loop (.clusterMessages 1)]

theorem signals_unserved : ∃ s,
    (system (paxos 2) pair onePut 0 none fresh).run
      (start pair onePut 0 none fresh) unserved = some s ∧
    s.tables.sent = [(0, 3005)] ∧ s.tables.net.clientConnections.lookup 1 = none ∧
    ∃ n, (StartSignals.system (signalsConfig pair)).Reachable (s.signals (paxos 2) n) ∧
      Alike s.tables.net n := by
  have hinit : (system (paxos 2) pair onePut 0 none fresh).init
      (start pair onePut 0 none fresh) := rfl
  obtain ⟨s, hr, hsent⟩ : ∃ s, (system (paxos 2) pair onePut 0 none fresh).run
      (start pair onePut 0 none fresh) unserved = some s ∧ s.tables.sent = [(0, 3005)] ∧
      s.tables.net.clientConnections.lookup 1 = none :=
    ⟨_, rfl, by decide⟩
  exact ⟨s, hr, hsent.1, hsent.2,
    signals_of_reachable (System.Reachable.run (.init hinit) unserved hr)⟩

theorem loops_started_served : ∃ s,
    (system (paxos 2) pair onePut 0 none fresh).run
      (start pair onePut 0 none fresh) served = some s ∧
    s.loop.phase = .running ∧ s.tables.net.clientConnections.lookup 1 = some ⟨1, 0, true⟩ ∧
    StartSignals.Started (s.signals (paxos 2) s.tables.net) := by
  have hinit : (system (paxos 2) pair onePut 0 none fresh).init
      (start pair onePut 0 none fresh) := rfl
  obtain ⟨s, hr, hrunning⟩ : ∃ s, (system (paxos 2) pair onePut 0 none fresh).run
      (start pair onePut 0 none fresh) served = some s ∧ s.loop.phase = .running ∧
      s.tables.net.clientConnections.lookup 1 = some ⟨1, 0, true⟩ :=
    ⟨_, rfl, by decide⟩
  exact ⟨s, hr, hrunning.1, hrunning.2,
    loops_started_of_announced (System.Reaches.run (.init hinit) served hr (by decide))⟩

end OmniPaxosKV.LoopSignals
