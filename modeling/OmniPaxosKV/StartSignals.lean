import OmniPaxosKV.ServerNetwork
import OmniPaxosKV.TransSys

/-!
The start of a server, and the signal its clients wait for.

The server connects to a peer, waits for a leader, and then serves. It sends a start signal to
the client ids `1..=num_clients` when it takes over as the initial leader, when a peer's signal
arrives, and, if it is the leader, when a connection arrives. `started_of_announced` says when
this reaches every client process: when each client connection arrives with an id the signal is
sent to, and before the server has started, or at the leader, or with a peer's signal still to
be handled.
-/

namespace OmniPaxosKV.StartSignals

open Common ServerNetwork TransSys

structure Config where
  id : NodeId
  peers : List NodeId
  numClients : ℕ
  initialLeader : NodeId

inductive Phase
  /-- In `Network::new`, until a peer is connected. -/
  | connecting
  /-- In `establish_initial_leader`. -/
  | establishing
  /-- In the main loop. -/
  | running
  deriving DecidableEq

structure State where
  net : Network
  phase : Phase
  /-- What OmniPaxos says: the current leader, and whether it is in the accept phase. -/
  leader : Option (NodeId × Bool)
  /-- Registered connections on their way to the loop, in no particular order. -/
  registering : List NewConnection
  /-- The connections delivered to the loop. -/
  connections : List NewConnection
  /-- The messages of the peers delivered to the loop. What those of OmniPaxos say, and what
  they do to the leader, is left open. -/
  clusterMessages : List (ClusterMessage Unit)
  /-- The client process each link belongs to. -/
  owners : List ProcId
  /-- The links open at the client's end. -/
  openLinks : List LinkId
  exited : List ProcId
  /-- The start signals handed to client connections so far. -/
  sent : List (LinkId × Timestamp)
  deriving DecidableEq

inductive Action
  | connect (p : ProcId)
  | peerConnects (peer : NodeId)
  | arrives (i : ℕ)
  | disconnect (link : LinkId)
  | exit (p : ProcId)
  | clientWriterEnds (client : ClientId)
  | peerWriterEnds (idx : ℕ)
  | leaderChanges (leader : Option (NodeId × Bool))
  | clusterArrives (msg : ClusterMessage Unit)
  /-- An iteration of the loop in `initialize_connections`. -/
  | accept
  | leaderTick (now : Timestamp)
  | clusterMessages (k : ℕ)
  | recovery (now : Timestamp)
  deriving DecidableEq

/-- One start signal to the client `c`. -/
def State.signal (startTime : Timestamp) (s : State) (c : ClientId) : State :=
  let (net, link) := s.net.sendToClient c
  { s with net := net, sent := s.sent ++ (link.map fun l => (l, startTime)).toList }

def sendClientStartSignals (cfg : Config) (s : State) (startTime : Timestamp) : State :=
  (List.range' 1 cfg.numClients).foldl (State.signal startTime) s

def sendClusterStartSignals (cfg : Config) (s : State) : State :=
  cfg.peers.foldl (fun s peer => { s with net := (s.net.sendToCluster peer).1 }) s

def handleClusterMessage (cfg : Config) (s : State) : ClusterMessage Unit → State
  | .OmniPaxosMessage _ => s
  | .LeaderStartSignal startTime => sendClientStartSignals cfg s startTime

/-- The server after a batch of messages, and whether a start signal was among them. -/
def handleClusterMessages (cfg : Config) (s : State) (messages : List (ClusterMessage Unit)) :
    State × Bool :=
  (messages.foldl (handleClusterMessage cfg) s, messages.any ClusterMessage.isStart)

def applyConnection (s : State) (new : NewConnection) (rest : List NewConnection) : State :=
  { s with net := (s.net.applyConnection new).1, connections := rest }

/-- The arm of the loops that takes a connection. -/
def recoveryArm (cfg : Config) (s : State) (now : Timestamp) (new : NewConnection)
    (rest : List NewConnection) : State :=
  let s' := applyConnection s new rest
  match s'.leader with
  | some (leaderId, _) =>
    if leaderId = cfg.id then sendClientStartSignals cfg (sendClusterStartSignals cfg s') now
    else s'
  | none => s'

def step (cfg : Config) (s : State) : Action → Option State
  | .connect p =>
    if p ∈ s.exited then none
    else
      let (net, client) := s.net.nextClientId
      let link := s.owners.length
      some { s with
        net := net
        registering := s.registering ++ [.ToClient ⟨client, link, true⟩]
        owners := s.owners ++ [p]
        openLinks := s.openLinks ++ [link] }
  | .peerConnects peer =>
    some { s with registering := s.registering ++ [.ToPeer ⟨peer, 0, true⟩] }
  | .arrives i =>
    match s.registering[i]? with
    | some new => some { s with
        registering := s.registering.eraseIdx i
        connections := s.connections ++ [new] }
    | none => none
  | .disconnect link => some { s with openLinks := s.openLinks.filter (· ≠ link) }
  | .exit p =>
    some { s with
      exited := s.exited ++ [p]
      openLinks := s.openLinks.filter fun link => s.owners[link]? ≠ some p }
  | .clientWriterEnds client => some { s with net := s.net.clientWriterEnded client }
  | .peerWriterEnds idx => some { s with net := s.net.peerWriterEnded idx }
  | .leaderChanges leader => some { s with leader := leader }
  | .clusterArrives msg => some { s with clusterMessages := s.clusterMessages ++ [msg] }
  | .accept =>
    match s.phase, s.connections with
    | .connecting, new :: rest =>
      let s' := applyConnection s new rest
      some { s' with phase := if s'.net.anyPeer then .establishing else .connecting }
    | _, _ => none
  | .leaderTick now =>
    if s.phase = .establishing ∧ cfg.initialLeader = cfg.id then
      if s.leader = some (cfg.id, true) then
        -- the synchronization point is two seconds ahead
        let s' := sendClientStartSignals cfg (sendClusterStartSignals cfg s) (now + 2000)
        some { s' with phase := .running }
      else some s
    else none
  | .clusterMessages k =>
    if s.phase ≠ .connecting ∧ 0 < k ∧ k ≤ s.clusterMessages.length then
      let (s', recvStart) := handleClusterMessages cfg s (s.clusterMessages.take k)
      some { s' with
        clusterMessages := s.clusterMessages.drop k
        phase := if recvStart then .running else s.phase }
    else none
  | .recovery now =>
    match s.connections with
    | new :: rest =>
      if s.phase ≠ .connecting then some (recoveryArm cfg s now new rest) else none
    | [] => none

def start (cfg : Config) : State :=
  ⟨.new cfg.peers, .connecting, none, [], [], [], [], [], [], []⟩

def system (cfg : Config) : System State Action where
  init s := s = start cfg
  step := step cfg

/-- Process `p` was sent a start signal on one of its connections. -/
def Signaled (s : State) (p : ProcId) : Prop := ∃ x ∈ s.sent, s.owners[x.1]? = some p

/-- No client process that is connected waits for its start signal at a server that has started
and has nothing left to handle. -/
def Started (s : State) : Prop :=
  s.phase = .running → s.connections = [] → s.clusterMessages = [] →
    ∀ c connection p, s.net.clientConnections.lookup c = some connection →
      connection.link ∈ s.openLinks → s.owners[connection.link]? = some p → Signaled s p

/-- A peer's start signal is delivered and not yet handled. -/
def StartPending (s : State) : Prop := ∃ msg ∈ s.clusterMessages, msg.isStart = true

/-- The process of a connection needs no signal, or will get one: the id is one the signal is
sent to, and the server has not started yet, or is the leader, or has a peer's signal to
handle. -/
def Awaited (cfg : Config) (s : State) (connection : ClientConnection) : Prop :=
  connection.link ∉ s.openLinks ∨ (∃ p ∈ s.owners[connection.link]?, Signaled s p) ∨
    connection.clientId ≤ cfg.numClients ∧
      (s.phase ≠ .running ∨ s.leader.map Prod.fst = some cfg.id ∨ StartPending s)

/-- The connection the loop takes next, if it is a client's. -/
def State.nextClient (s : State) : Option ClientConnection :=
  match s.connections with
  | .ToClient connection :: _ => some connection
  | _ => none

/-- Client connections are taken only when awaited. -/
def Announced (cfg : Config) (s : State) : Action → Prop
  | .accept => ∀ connection ∈ s.nextClient, Awaited cfg s connection
  | .recovery _ => ∀ connection ∈ s.nextClient, Awaited cfg s connection
  | _ => True

/-! ### Sending the signals -/

lemma sendClusterStartSignals_eq (cfg : Config) (s : State) :
    ∃ net, sendClusterStartSignals cfg s = { s with net := net } ∧
      net.clientConnections = s.net.clientConnections := by
  unfold sendClusterStartSignals
  induction cfg.peers generalizing s with
  | nil => exact ⟨s.net, rfl, rfl⟩
  | cons peer peers ih =>
    obtain ⟨net, heq, hclients⟩ := ih { s with net := (s.net.sendToCluster peer).1 }
    exact ⟨net, heq, by simpa using hclients⟩

/-- What sending signals to some ids does: entries only go, and those left got a signal. -/
structure Sends (s s' : State) (ids : List ClientId) : Prop where
  same : s' = { s with net := s'.net, sent := s'.sent }
  grows : s.sent ⊆ s'.sent
  lookup : ∀ c connection, s'.net.clientConnections.lookup c = some connection →
    s.net.clientConnections.lookup c = some connection
  signaled : ∀ c ∈ ids, ∀ connection, s'.net.clientConnections.lookup c = some connection →
    ∃ startTime, (connection.link, startTime) ∈ s'.sent

lemma sends_foldl (startTime : Timestamp) (ids : List ClientId) (s : State) :
    Sends s (ids.foldl (State.signal startTime) s) ids := by
  induction ids generalizing s with
  | nil => exact ⟨rfl, List.Subset.refl _, fun _ _ h => h, by simp⟩
  | cons c ids ih =>
    obtain ⟨hsame, hgrows, hlookup, hsignaled⟩ := ih (s.signal startTime c)
    refine ⟨?_, ?_, ?_, ?_⟩
    · rw [List.foldl_cons, hsame]
      rfl
    · exact List.Subset.trans (List.subset_append_left _ _) hgrows
    · exact fun c' connection h => Network.sendToClient_lookup (hlookup c' connection h)
    · intro c' hc' connection h
      rcases List.mem_cons.mp hc' with rfl | hc'
      · have hlink := Network.sendToClient_link (hlookup c' connection h)
        refine ⟨startTime, hgrows ?_⟩
        have hmem : (connection.link, startTime) ∈ (s.signal startTime c').sent := by
          simp [State.signal, hlink]
        exact hmem
      · exact hsignaled c' hc' connection h

lemma Sends.owners {s s' : State} {ids : List ClientId} (h : Sends s s' ids) :
    s'.owners = s.owners := by rw [h.same]

lemma Sends.signaled_mono {s s' : State} {ids : List ClientId} (h : Sends s s' ids) {p : ProcId}
    (hp : Signaled s p) : Signaled s' p := by
  obtain ⟨x, hx, howner⟩ := hp
  exact ⟨x, h.grows hx, by rw [h.owners]; exact howner⟩

lemma Sends.trans {s s' s'' : State} {ids ids' : List ClientId} (h : Sends s s' ids)
    (h' : Sends s' s'' ids') : Sends s s'' (ids ++ ids') where
  same := by rw [h'.same, h.same]
  grows := List.Subset.trans h.grows h'.grows
  lookup c connection hc := h.lookup c connection (h'.lookup c connection hc)
  signaled c hc connection hlookup := by
    rcases List.mem_append.mp hc with hc | hc
    · obtain ⟨startTime, hsent⟩ := h.signaled c hc connection (h'.lookup c connection hlookup)
      exact ⟨startTime, h'.grows hsent⟩
    · exact h'.signaled c hc connection hlookup

/-- The ids a message makes the server signal. -/
def signaledBy (cfg : Config) (msg : ClusterMessage Unit) : List ClientId :=
  if msg.isStart then List.range' 1 cfg.numClients else []

lemma sends_clients (cfg : Config) (s : State) (startTime : Timestamp) :
    Sends s (sendClientStartSignals cfg s startTime) (List.range' 1 cfg.numClients) :=
  sends_foldl _ _ s

lemma sends_message (cfg : Config) (s : State) (msg : ClusterMessage Unit) :
    Sends s (handleClusterMessage cfg s msg) (signaledBy cfg msg) := by
  cases msg with
  | OmniPaxosMessage _ =>
    refine ⟨rfl, List.Subset.refl _, fun _ _ h => h, ?_⟩
    simp [signaledBy, ClusterMessage.isStart]
  | LeaderStartSignal startTime => exact sends_clients cfg s startTime

lemma sends_messages (cfg : Config) (s : State) (msgs : List (ClusterMessage Unit)) :
    Sends s (msgs.foldl (handleClusterMessage cfg) s) (msgs.flatMap (signaledBy cfg)) := by
  induction msgs generalizing s with
  | nil => exact sends_foldl 0 [] s
  | cons msg msgs ih => exact (sends_message cfg s msg).trans (ih _)

/-! ### The invariant -/

/-- Every connected process that waits is one the signal will be sent to, by the takeover or a
peer's signal still to come. -/
def Served (cfg : Config) (s : State) : Prop :=
  ∀ c connection p, s.net.clientConnections.lookup c = some connection →
    connection.link ∈ s.openLinks → s.owners[connection.link]? = some p → ¬ Signaled s p →
    c ≤ cfg.numClients ∧ (s.phase ≠ .running ∨ StartPending s)

structure Inv (cfg : Config) (s : State) : Prop where
  table : ∀ c connection, s.net.clientConnections.lookup c = some connection →
    1 ≤ c ∧ connection.link < s.owners.length
  queued : ∀ connection, .ToClient connection ∈ s.registering ++ s.connections →
    1 ≤ connection.clientId ∧ connection.link < s.owners.length
  served : Served cfg s

variable {cfg : Config} {s s' : State}

lemma Inv.started (h : Inv cfg s) : Started s := by
  intro hphase _ hmsgs c connection p hlookup hopen howner
  by_contra hnot
  rcases (h.served c connection p hlookup hopen howner hnot).2 with hne | ⟨msg, hmsg, -⟩
  · exact hne hphase
  · rw [hmsgs] at hmsg
    cases hmsg

/-- A step that adds no entry to the table and takes no signal back. -/
lemma Inv.mono (h : Inv cfg s)
    (hlookup : ∀ c connection, s'.net.clientConnections.lookup c = some connection →
      ∃ connection', s.net.clientConnections.lookup c = some connection' ∧
        connection'.link = connection.link)
    (hopen : ∀ link < s.owners.length, link ∈ s'.openLinks → link ∈ s.openLinks)
    (howner : ∀ link < s.owners.length, s'.owners[link]? = s.owners[link]?)
    (hsent : s.sent ⊆ s'.sent)
    (hlinks : ∀ (x : LinkId) (p : ProcId), s.owners[x]? = some p → s'.owners[x]? = some p)
    (hphase : s.phase ≠ .running ∨ StartPending s → s'.phase ≠ .running ∨ StartPending s') :
    Served cfg s' := by
  intro c connection p hc hmem hp hnot
  obtain ⟨connection', hc', hlink⟩ := hlookup c connection hc
  have hlt : connection.link < s.owners.length := hlink ▸ (h.table c connection' hc').2
  have hnot' : ¬ Signaled s p := by
    rintro ⟨x, hx, hxp⟩
    exact hnot ⟨x, hsent hx, hlinks _ _ hxp⟩
  rw [howner _ hlt, ← hlink] at hp
  have hmem' := hopen _ hlt hmem
  rw [← hlink] at hmem'
  obtain ⟨hle, hpend⟩ := h.served c connection' p hc' hmem' hp hnot'
  exact ⟨hle, hphase hpend⟩

/-- Sending to `1..=num_clients` leaves nobody waiting, if nobody waits under another id. -/
lemma Sends.all_signaled (cfg : Config) {ids : List ClientId} (h : Sends s s' ids)
    (hids : ∀ c, 1 ≤ c → c ≤ cfg.numClients → c ∈ ids)
    (htable : ∀ c connection, s.net.clientConnections.lookup c = some connection → 1 ≤ c)
    (hle : ∀ c connection p, s.net.clientConnections.lookup c = some connection →
      connection.link ∈ s.openLinks → s.owners[connection.link]? = some p → ¬ Signaled s p →
      c ≤ cfg.numClients) {c : ClientId} {connection : ClientConnection} {p : ProcId}
    (hc : s'.net.clientConnections.lookup c = some connection)
    (hopen : connection.link ∈ s'.openLinks) (hp : s'.owners[connection.link]? = some p) :
    Signaled s' p := by
  by_contra hnot
  have hc' := h.lookup c connection hc
  have hopen' : connection.link ∈ s.openLinks := by
    rw [h.same] at hopen
    exact hopen
  have hp' : s.owners[connection.link]? = some p := by rw [← h.owners]; exact hp
  have hcle := hle c connection p hc' hopen' hp' fun hs => hnot (h.signaled_mono hs)
  obtain ⟨startTime, hsent⟩ := h.signaled c (hids c (htable c connection hc') hcle) connection hc
  exact hnot ⟨(connection.link, startTime), hsent, hp⟩

lemma mem_range_one {c n : ℕ} (h1 : 1 ≤ c) (hn : c ≤ n) : c ∈ List.range' 1 n := by
  rw [List.mem_range'_1]
  omega

/-- The table after a connection was stored. -/
lemma lookup_applyConnection {s : State} {new : NewConnection} {rest : List NewConnection}
    {c : ClientId} {connection : ClientConnection}
    (h : (applyConnection s new rest).net.clientConnections.lookup c = some connection) :
    s.net.clientConnections.lookup c = some connection ∨
      new = .ToClient connection ∧ c = connection.clientId := by
  cases new with
  | ToPeer peer =>
    left
    simp only [applyConnection, Network.applyConnection] at h
    split at h
    · exact h
    · exact h
  | ToClient connection' =>
    simp only [applyConnection, Network.applyConnection] at h
    by_cases hc : c = connection'.clientId
    · subst hc
      rw [AList.lookup_insert] at h
      obtain rfl := Option.some.inj h
      exact Or.inr ⟨rfl, rfl⟩
    · rw [AList.lookup_insert_ne hc] at h
      exact Or.inl h

/-- The table and the queues after the next connection was stored. -/
lemma Inv.applied (h : Inv cfg s) {new : NewConnection} {rest : List NewConnection}
    (hq : s.connections = new :: rest) :
    (∀ c connection, (applyConnection s new rest).net.clientConnections.lookup c = some connection →
      1 ≤ c ∧ connection.link < s.owners.length) ∧
    ∀ connection, .ToClient connection ∈ s.registering ++ rest →
      1 ≤ connection.clientId ∧ connection.link < s.owners.length := by
  refine ⟨fun c connection hc => ?_, fun connection hc => h.queued connection ?_⟩
  · rcases lookup_applyConnection hc with hold | ⟨rfl, rfl⟩
    · exact h.table c connection hold
    · exact h.queued connection (by simp [hq])
  · rw [hq]
    rcases List.mem_append.mp hc with hc | hc
    · exact List.mem_append_left _ hc
    · exact List.mem_append_right _ (List.mem_cons_of_mem _ hc)

/-- Whoever waits after an announced connection was stored waits under an id the signal goes
to, before the start, or at the leader, or with a peer's signal to come. -/
lemma Inv.applied_served (h : Inv cfg s) {new : NewConnection} {rest : List NewConnection}
    (hq : s.connections = new :: rest)
    (hann : ∀ connection ∈ s.nextClient, Awaited cfg s connection)
    {c : ClientId} {connection : ClientConnection} {p : ProcId}
    (hc : (applyConnection s new rest).net.clientConnections.lookup c = some connection)
    (hopen : connection.link ∈ s.openLinks) (hp : s.owners[connection.link]? = some p)
    (hnot : ¬ Signaled s p) :
    c ≤ cfg.numClients ∧
      (s.phase ≠ .running ∨ s.leader.map Prod.fst = some cfg.id ∨ StartPending s) := by
  rcases lookup_applyConnection hc with hold | ⟨rfl, rfl⟩
  · obtain ⟨hle, hpend⟩ := h.served c connection p hold hopen hp hnot
    exact ⟨hle, hpend.imp_right Or.inr⟩
  · have hnext : connection ∈ s.nextClient := by simp [State.nextClient, hq]
    rcases hann connection hnext with hclosed | ⟨p', hp', hsig⟩ | hok
    · exact absurd hopen hclosed
    · rw [hp] at hp'
      obtain rfl := Option.some.inj hp'
      exact absurd hsig hnot
    · exact hok

/-- **The signals of the leader** leave nobody waiting, if nobody waits under a high id. -/
lemma inv_of_signals
    (htable : ∀ c connection, s.net.clientConnections.lookup c = some connection →
      1 ≤ c ∧ connection.link < s.owners.length)
    (hqueued : ∀ connection, .ToClient connection ∈ s.registering ++ s.connections →
      1 ≤ connection.clientId ∧ connection.link < s.owners.length)
    (hle : ∀ c connection p, s.net.clientConnections.lookup c = some connection →
      connection.link ∈ s.openLinks → s.owners[connection.link]? = some p → ¬ Signaled s p →
      c ≤ cfg.numClients) (startTime : Timestamp) (phase : Phase) :
    Inv cfg { sendClientStartSignals cfg (sendClusterStartSignals cfg s) startTime with
      phase := phase } := by
  obtain ⟨net, heq, hclients⟩ := sendClusterStartSignals_eq cfg s
  rw [heq]
  have hsends := sends_clients cfg { s with net := net } startTime
  set s₁ := sendClientStartSignals cfg { s with net := net } startTime
  have howners : s₁.owners = s.owners := hsends.owners
  refine ⟨fun c connection hc => ?_, fun connection hc => ?_, ?_⟩
  · change 1 ≤ c ∧ connection.link < s₁.owners.length
    rw [howners]
    exact htable c connection (hclients ▸ hsends.lookup c connection hc)
  · change 1 ≤ connection.clientId ∧ connection.link < s₁.owners.length
    rw [howners]
    refine hqueued connection ?_
    change NewConnection.ToClient connection ∈ s₁.registering ++ s₁.connections at hc
    rw [hsends.same] at hc
    exact hc
  · intro c connection p hc hopen hp hnot
    refine absurd (hsends.all_signaled cfg (fun c => mem_range_one)
      (fun c connection hc => (htable c connection (hclients ▸ hc)).1) ?_ hc hopen hp) hnot
    exact fun c connection p hc => hle c connection p (hclients ▸ hc)

/-! ### One step -/

lemma Inv.connect (h : Inv cfg s) {p : ProcId} (hs : step cfg s (.connect p) = some s') :
    Inv cfg s' := by
  simp only [step] at hs
  split_ifs at hs
  obtain rfl := Option.some.inj hs
  have hlen : (s.owners ++ [p]).length = s.owners.length + 1 := by simp
  refine ⟨fun c connection hc => ?_, fun connection hc => ?_,
    h.mono (fun _ connection hc => ⟨connection, hc, rfl⟩) (fun link hlt hmem => ?_)
      (fun link hlt => ?_) (List.Subset.refl _) (fun x p' hx => getElem?_append_some hx)
      fun hph => hph⟩
  · obtain ⟨h1, hlt⟩ := h.table c connection hc
    exact ⟨h1, hlen ▸ Nat.lt_succ_of_lt hlt⟩
  · rw [List.mem_append, List.mem_append] at hc
    rcases hc with (hc | hc) | hc
    · obtain ⟨h1, hlt⟩ := h.queued connection (List.mem_append_left _ hc)
      exact ⟨h1, hlen ▸ Nat.lt_succ_of_lt hlt⟩
    · have heq : connection = ⟨s.net.maxClientId + 1, s.owners.length, true⟩ := by
        simpa [Network.nextClientId] using hc
      subst heq
      exact ⟨Nat.le_add_left _ _, by rw [hlen]; exact Nat.lt_succ_self _⟩
    · obtain ⟨h1, hlt⟩ := h.queued connection (List.mem_append_right _ hc)
      exact ⟨h1, hlen ▸ Nat.lt_succ_of_lt hlt⟩
  · rcases List.mem_append.mp hmem with hmem | hmem
    · exact hmem
    · obtain rfl := List.mem_singleton.mp hmem
      exact absurd hlt (lt_irrefl _)
  · exact List.getElem?_append_left hlt

/-- Links are closed at the client's end. -/
lemma Inv.closed (h : Inv cfg s) (open' : LinkId → Bool) (exited : List ProcId) :
    Inv cfg { s with openLinks := s.openLinks.filter open', exited := exited } :=
  ⟨h.table, h.queued, h.mono (fun _ connection hc => ⟨connection, hc, rfl⟩)
    (fun _ _ hmem => (List.mem_filter.mp hmem).1) (fun _ _ => rfl) (List.Subset.refl _)
    (fun _ _ hx => hx) fun hph => hph⟩

lemma Inv.accept (h : Inv cfg s) (hs : step cfg s .accept = some s')
    (hann : ∀ connection ∈ s.nextClient, Awaited cfg s connection) : Inv cfg s' := by
  simp only [step] at hs
  split at hs
  case h_2 => cases hs
  case h_1 _ _ new rest hphase hq =>
  obtain rfl := Option.some.inj hs
  obtain ⟨htable, hqueued⟩ := h.applied hq
  refine ⟨htable, hqueued, ?_⟩
  intro c connection p hc hopen hp hnot
  obtain ⟨hle, -⟩ := h.applied_served hq hann hc hopen hp hnot
  refine ⟨hle, Or.inl ?_⟩
  change (if _ then Phase.establishing else Phase.connecting) ≠ Phase.running
  split_ifs <;> simp

lemma Inv.leaderTick (h : Inv cfg s) {now : Timestamp}
    (hs : step cfg s (.leaderTick now) = some s') : Inv cfg s' := by
  simp only [step] at hs
  split_ifs at hs
  · obtain rfl := Option.some.inj hs
    exact inv_of_signals h.table h.queued
      (fun c connection p hc hopen hp hnot => (h.served c connection p hc hopen hp hnot).1) _ _
  · obtain rfl := Option.some.inj hs
    exact h

lemma Inv.clusterMessages (h : Inv cfg s) {k : ℕ}
    (hs : step cfg s (.clusterMessages k) = some s') : Inv cfg s' := by
  simp only [step] at hs
  by_cases hk : s.phase ≠ .connecting ∧ 0 < k ∧ k ≤ s.clusterMessages.length
  case neg =>
    rw [if_neg hk] at hs
    cases hs
  rw [if_pos hk] at hs
  obtain rfl := Option.some.inj hs
  have hsends := sends_messages cfg s (s.clusterMessages.take k)
  set s₁ := (s.clusterMessages.take k).foldl (handleClusterMessage cfg) s with hs₁
  refine ⟨fun c connection hc => ?_, ?_, ?_⟩
  · obtain ⟨h1, hlt⟩ := h.table c connection (hsends.lookup c connection hc)
    refine ⟨h1, ?_⟩
    change connection.link < s₁.owners.length
    rw [hsends.owners]
    exact hlt
  · intro connection hc
    change 1 ≤ connection.clientId ∧ connection.link < s₁.owners.length
    rw [hsends.owners]
    refine h.queued connection ?_
    have hsame := hsends.same
    change NewConnection.ToClient connection ∈ s₁.registering ++ s₁.connections at hc
    rw [hsame] at hc
    exact hc
  · intro c connection p hc hopen hp hnot
    cases hstart : (s.clusterMessages.take k).any ClusterMessage.isStart with
    | true =>
      -- a signal was handled: nobody waits
      obtain ⟨msg, hmsg, hmsgStart⟩ := List.any_eq_true.mp hstart
      have hids : ∀ c, 1 ≤ c → c ≤ cfg.numClients →
          c ∈ (s.clusterMessages.take k).flatMap (signaledBy cfg) := by
        intro c h1 hle
        refine List.mem_flatMap.mpr ⟨msg, hmsg, ?_⟩
        rw [signaledBy, if_pos hmsgStart]
        exact mem_range_one h1 hle
      refine absurd (hsends.all_signaled cfg hids
        (fun c connection hc => (h.table c connection hc).1) ?_ hc hopen hp) hnot
      intro c connection p hc hopen hp hnot
      exact (h.served c connection p hc hopen hp hnot).1
    | false =>
      have hc' := hsends.lookup c connection hc
      have hopen' : connection.link ∈ s.openLinks := by
        change connection.link ∈ s₁.openLinks at hopen
        rw [hsends.same] at hopen
        exact hopen
      have hp' : s.owners[connection.link]? = some p := by
        rw [← hsends.owners]
        exact hp
      have hnot' : ¬ Signaled s p := fun hsig => hnot (hsends.signaled_mono hsig)
      obtain ⟨hle, hpend⟩ := h.served c connection p hc' hopen' hp' hnot'
      refine ⟨hle, ?_⟩
      rcases hpend with hph | ⟨msg, hmsg, hmsgStart⟩
      · left
        simpa [handleClusterMessages, hstart] using hph
      · right
        have hdrop : msg ∈ s.clusterMessages.take k ++ s.clusterMessages.drop k := by
          rw [List.take_append_drop]
          exact hmsg
        rcases List.mem_append.mp hdrop with hmem | hmem
        · have hnone := List.any_eq_false.mp hstart msg hmem
          exact absurd hmsgStart hnone
        · exact ⟨msg, hmem, hmsgStart⟩

/-- The arm that takes a connection sends signals only at the leader. -/
lemma recoveryArm_eq (cfg : Config) (s : State) (now : Timestamp) (new : NewConnection)
    (rest : List NewConnection) :
    recoveryArm cfg s now new rest =
      if s.leader.map Prod.fst = some cfg.id then
        sendClientStartSignals cfg (sendClusterStartSignals cfg (applyConnection s new rest)) now
      else applyConnection s new rest := by
  have hleader : (applyConnection s new rest).leader = s.leader := rfl
  simp only [recoveryArm, hleader]
  rcases s.leader with _ | ⟨leaderId, accept⟩
  · simp
  · simp

lemma Inv.recovery (h : Inv cfg s) {now : Timestamp}
    (hs : step cfg s (.recovery now) = some s')
    (hann : ∀ connection ∈ s.nextClient, Awaited cfg s connection) : Inv cfg s' := by
  simp only [step] at hs
  split at hs
  case h_2 => cases hs
  case h_1 _ new rest hq =>
  split_ifs at hs with hphase
  obtain rfl := Option.some.inj hs
  obtain ⟨htable, hqueued⟩ := h.applied hq
  rw [recoveryArm_eq]
  split_ifs with hlead
  · exact inv_of_signals htable hqueued
      (fun c connection p hc hopen hp hnot =>
        (h.applied_served hq hann hc hopen hp hnot).1) now _
  · refine ⟨htable, hqueued, ?_⟩
    intro c connection p hc hopen hp hnot
    obtain ⟨hle, hwhen⟩ := h.applied_served hq hann hc hopen hp hnot
    refine ⟨hle, ?_⟩
    rcases hwhen with hph | hl | hpend
    · exact Or.inl hph
    · exact absurd hl hlead
    · exact Or.inr hpend

/-- **One step.** -/
theorem step_inv {a : Action} (h : Inv cfg s) (hs : step cfg s a = some s')
    (ha : Announced cfg s a) : Inv cfg s' := by
  cases a with
  | connect p => exact h.connect hs
  | peerConnects peer =>
    obtain rfl := Option.some.inj hs
    refine ⟨h.table, fun connection hc => h.queued connection ?_, h.served⟩
    simpa using hc
  | arrives i =>
    simp only [step] at hs
    split at hs
    case h_2 => cases hs
    case h_1 new hnew =>
    obtain rfl := Option.some.inj hs
    refine ⟨h.table, fun connection hc => h.queued connection ?_, h.served⟩
    simp only [List.mem_append, List.mem_singleton] at hc ⊢
    rcases hc with hc | hc | rfl
    · exact Or.inl ((List.eraseIdx_sublist _ _).subset hc)
    · exact Or.inr hc
    · exact Or.inl (List.mem_of_getElem? hnew)
  | disconnect link =>
    obtain rfl := Option.some.inj hs
    exact h.closed _ s.exited
  | exit p =>
    obtain rfl := Option.some.inj hs
    exact h.closed _ _
  | clientWriterEnds client =>
    obtain rfl := Option.some.inj hs
    refine ⟨fun c connection hc => ?_, h.queued, h.mono
      (fun _ _ hc => Network.clientWriterEnded_lookup hc) (fun _ _ hmem => hmem) (fun _ _ => rfl)
      (List.Subset.refl _) (fun _ _ hx => hx) fun hph => hph⟩
    obtain ⟨connection', hc', hlink⟩ := Network.clientWriterEnded_lookup hc
    rw [← hlink]
    exact h.table c connection' hc'
  | peerWriterEnds idx =>
    obtain rfl := Option.some.inj hs
    have hsame := Network.peerWriterEnded_clientConnections (n := s.net) idx
    refine ⟨fun c connection hc => h.table c connection (hsame ▸ hc), h.queued, h.mono
      (fun c connection hc => ⟨connection, hsame ▸ hc, rfl⟩) (fun _ _ hmem => hmem)
      (fun _ _ => rfl) (List.Subset.refl _) (fun _ _ hx => hx) fun hph => hph⟩
  | leaderChanges leader =>
    obtain rfl := Option.some.inj hs
    exact ⟨h.table, h.queued, h.served⟩
  | clusterArrives msg =>
    obtain rfl := Option.some.inj hs
    refine ⟨h.table, h.queued, h.mono (fun _ connection hc => ⟨connection, hc, rfl⟩)
      (fun _ _ hmem => hmem) (fun _ _ => rfl) (List.Subset.refl _) (fun _ _ hx => hx) ?_⟩
    rintro (hph | ⟨m, hm, hstart⟩)
    · exact Or.inl hph
    · exact Or.inr ⟨m, List.mem_append_left _ hm, hstart⟩
  | accept => exact h.accept hs ha
  | leaderTick now => exact h.leaderTick hs
  | clusterMessages k => exact h.clusterMessages hs
  | recovery now => exact h.recovery hs ha

/-- **No started server leaves a client waiting**, in every run in which client connections
arrive announced. -/
theorem started_of_announced (h : (system cfg).Reaches (Announced cfg) s) : Started s := by
  have hinv : Inv cfg s := by
    refine h.invariant (I := Inv cfg) ?_ fun s a s' hi hs ha => step_inv hi hs ha
    rintro s rfl
    refine ⟨fun c connection hc => ?_, by simp [start], fun c connection p hc => ?_⟩
    · cases hc
    · cases hc
  exact hinv.started

instance (s : State) (p : ProcId) : Decidable (Signaled s p) :=
  inferInstanceAs (Decidable (∃ x ∈ s.sent, _))

instance (s : State) : Decidable (StartPending s) :=
  inferInstanceAs (Decidable (∃ msg ∈ s.clusterMessages, _))

instance (cfg : Config) (s : State) (connection : ClientConnection) :
    Decidable (Awaited cfg s connection) :=
  inferInstanceAs (Decidable (_ ∨ _))

instance (cfg : Config) : ∀ (s : State) (a : Action), Decidable (Announced cfg s a)
  | s, .accept => inferInstanceAs (Decidable (∀ connection ∈ s.nextClient, _))
  | s, .recovery _ => inferInstanceAs (Decidable (∀ connection ∈ s.nextClient, _))
  | _, .connect _ => isTrue trivial
  | _, .peerConnects _ => isTrue trivial
  | _, .arrives _ => isTrue trivial
  | _, .disconnect _ => isTrue trivial
  | _, .exit _ => isTrue trivial
  | _, .clientWriterEnds _ => isTrue trivial
  | _, .peerWriterEnds _ => isTrue trivial
  | _, .leaderChanges _ => isTrue trivial
  | _, .clusterArrives _ => isTrue trivial
  | _, .leaderTick _ => isTrue trivial
  | _, .clusterMessages _ => isTrue trivial

def leader : Config := ⟨1, [2], 1, 1⟩
def follower : Config := ⟨2, [1], 1, 1⟩

/-- A client connects to the leader before it takes over. -/
def announcedRun : List Action :=
  [.peerConnects 2, .arrives 0, .accept, .connect 7, .arrives 0, .recovery 3,
    .leaderChanges (some (1, true)), .leaderTick 10]

theorem started_of_announced_run :
    ∃ s, (system leader).run (start leader) announcedRun = some s ∧ s.phase = .running ∧
      s.sent = [(0, 2010)] ∧ Started s := by
  refine ⟨_, rfl, by decide, by decide, ?_⟩
  have hinit : (system leader).init (start leader) := rfl
  exact started_of_announced (System.Reaches.run (.init hinit) announcedRun rfl (by decide))

/-- The client connects to a follower that has started. -/
def lateAtFollower : List Action :=
  [.peerConnects 1, .arrives 0, .accept, .clusterArrives (.LeaderStartSignal 5),
    .clusterMessages 1, .connect 7, .arrives 0, .recovery 9]

/-- The only client of the leader is restarted, and its new process gets the next id. -/
def restartedAtLeader : List Action :=
  announcedRun ++ [.exit 7, .connect 8, .arrives 0, .recovery 20]

theorem clients_left_waiting : (¬ ∀ s, (system follower).Reachable s → Started s) ∧
    ¬ ∀ s, (system leader).Reachable s → Started s := by
  refine ⟨fun hall => ?_, fun hall => ?_⟩
  · have hinit : (system follower).init (start follower) := rfl
    have hstarted := hall _ (System.Reachable.run (.init hinit) lateAtFollower rfl)
    have hsig := hstarted rfl rfl rfl 1 ⟨1, 0, true⟩ 7 rfl (by decide) rfl
    revert hsig
    decide
  · have hinit : (system leader).init (start leader) := rfl
    have hstarted := hall _ (System.Reachable.run (.init hinit) restartedAtLeader rfl)
    have hsig := hstarted rfl rfl rfl 2 ⟨2, 1, true⟩ 8 rfl (by decide) rfl
    revert hsig
    decide

end OmniPaxosKV.StartSignals
