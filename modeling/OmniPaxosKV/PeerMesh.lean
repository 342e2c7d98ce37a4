import OmniPaxosKV.ServerNetwork
import OmniPaxosKV.TransSys

/-!
The connections between servers.

A server dials its peers with lower ids and is dialed by those with higher ones. The task that
dials a peer hands each connection it makes to the server's loop, waits until the connection is
dropped there, and dials again. Nothing of the kind is done at the other end.

`delivered_of_reachable` says what the servers can rely on, whatever crashes, is lost or is
dialed again: what arrives from a peer was sent by it to this server, arrives once, and on each
connection in the order it was sent.
-/

namespace OmniPaxosKV.PeerMesh

open Common ServerNetwork TransSys

open Function (update)

/-- The ids of a cluster, each with an address. -/
structure ClusterConfig where
  nodes : List NodeId
  nodup : nodes.Nodup

def ClusterConfig.getPeers (cfg : ClusterConfig) (node : NodeId) : List NodeId :=
  cfg.nodes.filter (· ≠ node)

/-- A TCP connection, with the server that dialed and the one that listened. -/
structure Link where
  dialer : NodeId
  listener : NodeId
  deriving DecidableEq

/-- The server at the other end. -/
def Link.other (l : Link) (n : NodeId) : NodeId := if n = l.dialer then l.listener else l.dialer

/-- The task that dials a peer. -/
inductive Connector
  | connecting
  /-- With a connection whose handshake is sent, on the way into the channel. -/
  | sending (link : LinkId)
  /-- Until the connection is dropped. -/
  | waiting (link : LinkId)
  deriving DecidableEq

structure Server where
  net : Network
  /-- The sockets whose registration is still to be read. -/
  accepted : List LinkId
  /-- The connections in the channel to the loop. -/
  connections : List PeerConnection
  connectors : NodeId → Connector
  /-- The connections that the server has dropped, which ends the wait for their close signal. -/
  dropped : List LinkId

/-- A message on a connection, with its number among all messages sent. -/
structure Packet (Msg : Type*) where
  index : ℕ
  msg : Msg
  deriving DecidableEq

/-- A message that `send_to_cluster` handed to a connection. -/
structure Sent (Msg : Type*) where
  source : NodeId
  target : NodeId
  link : LinkId
  msg : Msg
  deriving DecidableEq

/-- A message that a reader task put into the server's channel, with the id it put beside it. -/
structure Received (Msg : Type*) where
  node : NodeId
  peerId : NodeId
  link : LinkId
  packet : Packet Msg
  deriving DecidableEq

structure State (Msg : Type*) where
  servers : NodeId → Option Server
  links : List Link
  /-- What a server wrote to a connection and the other end has not read. -/
  wire : LinkId → NodeId → List (Packet Msg)
  /-- The reader task at a server's end of a connection, with its peer's id, while it runs. -/
  readers : LinkId → NodeId → Option NodeId
  sent : List (Sent Msg)
  received : List (Received Msg)

inductive Action (Msg : Type*)
  | start (n : NodeId)
  | crash (n : NodeId)
  /-- A dial that succeeds, with the handshake; one that fails changes nothing. -/
  | dial (n peer : NodeId)
  | sendConnection (n peer : NodeId)
  /-- The registration on an accepted socket is read. -/
  | register (n : NodeId) (i : ℕ)
  | registrationFails (n : NodeId) (i : ℕ)
  | applyConnection (n : NodeId)
  | sendToCluster (n peer : NodeId) (msg : Msg)
  | peerWriterEnds (n : NodeId) (idx : ℕ)
  /-- The close signal of the connection a task waits for. -/
  | closeSignal (n peer : NodeId)
  | read (link : LinkId) (n : NodeId)
  | readerEnds (link : LinkId) (n : NodeId)
  | lose (link : LinkId) (n : NodeId) (i : ℕ)

namespace Server

def new (cfg : ClusterConfig) (n : NodeId) : Server where
  net := .new (cfg.getPeers n)
  accepted := []
  connections := []
  connectors _ := .connecting
  dropped := []

variable (a : Server)

def setConnector (peer : NodeId) (c : Connector) : Server :=
  { a with connectors := update a.connectors peer c }

def push (c : PeerConnection) : Server := { a with connections := a.connections ++ [c] }

/-- Takes a connection from the channel; the link that is closed for it, if one is. -/
def apply (c : PeerConnection) (rest : List PeerConnection) : Server × Option LinkId :=
  let (net, closed) := a.net.applyConnection (.ToPeer c)
  -- a connection to a server that is not a peer goes no further
  let gone := if (a.net.clusterIdToIdx c.peerId).isSome then closed.toList else [c.link]
  ({ a with net := net, connections := rest, dropped := a.dropped ++ gone }, closed)

/-- Sends to a peer: the link the message goes out on, if it does. A connection that does not
take it is dropped. -/
def send (peer : NodeId) : Server × Option LinkId :=
  match a.net.sendToCluster peer with
  | (net, some link) => ({ a with net := net }, some link)
  | (net, none) =>
    ({ a with
      net := net
      dropped := a.dropped ++ ((a.net.peerConnection peer).map PeerConnection.link).toList }, none)

end Server

namespace State

variable {Msg : Type*} (s : State Msg)

def setServer (n : NodeId) (a : Server) : State Msg :=
  { s with servers := update s.servers n (some a) }

/-- Aborts or ends a reader. -/
def stopReader (link : LinkId) (n : NodeId) : State Msg :=
  { s with readers := update s.readers link (update (s.readers link) n none) }

def startReader (link : LinkId) (n peerId : NodeId) : State Msg :=
  { s with readers := update s.readers link (update (s.readers link) n (some peerId)) }

def setWire (link : LinkId) (n : NodeId) (packets : List (Packet Msg)) : State Msg :=
  { s with wire := update s.wire link (update (s.wire link) n packets) }

end State

section System

variable {Msg : Type*} (cfg : ClusterConfig)

def step (s : State Msg) : Action Msg → Option (State Msg)
  | .start n =>
    if n ∈ cfg.nodes ∧ s.servers n = none then some (s.setServer n (.new cfg n)) else none
  | .crash n =>
    some { s with
      servers := update s.servers n none
      readers := fun link m => if m = n then none else s.readers link m }
  | .dial n peer =>
    match s.servers n, s.servers peer with
    | some a, some b =>
      if peer ∈ a.net.peers ∧ peer < n ∧ a.connectors peer = .connecting then
        let link := s.links.length
        let s' := (s.setServer n (a.setConnector peer (.sending link))).setServer peer
          { b with accepted := b.accepted ++ [link] }
        some { s'.startReader link n peer with links := s.links ++ [⟨n, peer⟩] }
      else none
    | _, _ => none
  | .sendConnection n peer =>
    match s.servers n with
    | some a =>
      match a.connectors peer with
      | .sending link =>
        some (s.setServer n ((a.push ⟨peer, link, true⟩).setConnector peer (.waiting link)))
      | .connecting => none
      | .waiting _ => none
    | none => none
  | .register n i =>
    (s.servers n).bind fun a =>
      (a.accepted[i]?).bind fun link =>
        (s.links[link]?).map fun l =>
          (s.setServer n { a.push ⟨l.dialer, link, true⟩ with
            accepted := a.accepted.eraseIdx i }).startReader link n l.dialer
  | .registrationFails n i =>
    (s.servers n).map fun a => s.setServer n { a with accepted := a.accepted.eraseIdx i }
  | .applyConnection n =>
    match s.servers n with
    | some a =>
      match a.connections with
      | c :: rest =>
        match a.apply c rest with
        | (a', some link) => some ((s.setServer n a').stopReader link n)
        | (a', none) => some (s.setServer n a')
      | [] => none
    | none => none
  | .sendToCluster n peer msg =>
    match s.servers n with
    | some a =>
      match a.send peer with
      | (a', some link) =>
        some { (s.setServer n a').setWire link n (s.wire link n ++ [⟨s.sent.length, msg⟩]) with
          sent := s.sent ++ [⟨n, peer, link, msg⟩] }
      | (a', none) => some (s.setServer n a')
    | none => none
  | .peerWriterEnds n idx =>
    (s.servers n).map fun a => s.setServer n { a with net := a.net.peerWriterEnded idx }
  | .closeSignal n peer =>
    match s.servers n with
    | some a =>
      match a.connectors peer with
      | .waiting link =>
        if link ∈ a.dropped then some (s.setServer n (a.setConnector peer .connecting)) else none
      | .connecting => none
      | .sending _ => none
    | none => none
  | .read link n =>
    match s.links[link]?, s.readers link n with
    | some l, some peerId =>
      match s.wire link (l.other n) with
      | p :: rest => some { s.setWire link (l.other n) rest with
          received := s.received ++ [⟨n, peerId, link, p⟩] }
      | [] => none
    | _, _ => none
  | .readerEnds link n => some (s.stopReader link n)
  | .lose link n i => some (s.setWire link n ((s.wire link n).eraseIdx i))

def start : State Msg where
  servers _ := none
  links := []
  wire _ _ := []
  readers _ _ := none
  sent := []
  received := []

def system : System (State Msg) (Action Msg) where
  init s := s = start
  step := step cfg

end System

/-! ### What a step does -/

section Steps

variable {Msg : Type*} (cfg : ClusterConfig)

/-- The steps of the system, with what enables each. -/
inductive Steps (s : State Msg) : Action Msg → State Msg → Prop
  | start (n : NodeId) (hn : n ∈ cfg.nodes) (hdown : s.servers n = none) :
    Steps s (.start n) (s.setServer n (.new cfg n))
  | crash (n : NodeId) :
    Steps s (.crash n) { s with
      servers := update s.servers n none
      readers := fun link m => if m = n then none else s.readers link m }
  | dial (n peer : NodeId) (a b : Server) (ha : s.servers n = some a)
    (hb : s.servers peer = some b) (hpeer : peer ∈ a.net.peers) (hlt : peer < n)
    (hconn : a.connectors peer = .connecting) :
    Steps s (.dial n peer)
      { ((s.setServer n (a.setConnector peer (.sending s.links.length))).setServer peer
          { b with accepted := b.accepted ++ [s.links.length] }).startReader
            s.links.length n peer with
        links := s.links ++ [⟨n, peer⟩] }
  | sendConnection (n peer : NodeId) (a : Server) (link : LinkId) (ha : s.servers n = some a)
    (hconn : a.connectors peer = .sending link) :
    Steps s (.sendConnection n peer)
      (s.setServer n ((a.push ⟨peer, link, true⟩).setConnector peer (.waiting link)))
  | register (n : NodeId) (i : ℕ) (a : Server) (link : LinkId) (l : Link)
    (ha : s.servers n = some a) (hi : a.accepted[i]? = some link)
    (hl : s.links[link]? = some l) :
    Steps s (.register n i)
      ((s.setServer n { a.push ⟨l.dialer, link, true⟩ with
        accepted := a.accepted.eraseIdx i }).startReader link n l.dialer)
  | registrationFails (n : NodeId) (i : ℕ) (a : Server) (ha : s.servers n = some a) :
    Steps s (.registrationFails n i)
      (s.setServer n { a with accepted := a.accepted.eraseIdx i })
  /-- A connection is stored, and the one before it closed. -/
  | replace (n : NodeId) (a a' : Server) (c : PeerConnection) (rest : List PeerConnection)
    (link : LinkId) (ha : s.servers n = some a) (hq : a.connections = c :: rest)
    (happly : a.apply c rest = (a', some link)) :
    Steps s (.applyConnection n) ((s.setServer n a').stopReader link n)
  | store (n : NodeId) (a a' : Server) (c : PeerConnection) (rest : List PeerConnection)
    (ha : s.servers n = some a) (hq : a.connections = c :: rest)
    (happly : a.apply c rest = (a', none)) :
    Steps s (.applyConnection n) (s.setServer n a')
  /-- A message goes out. -/
  | hand (n peer : NodeId) (msg : Msg) (a a' : Server) (link : LinkId)
    (ha : s.servers n = some a) (hsend : a.send peer = (a', some link)) :
    Steps s (.sendToCluster n peer msg)
      { (s.setServer n a').setWire link n (s.wire link n ++ [⟨s.sent.length, msg⟩]) with
        sent := s.sent ++ [⟨n, peer, link, msg⟩] }
  /-- A message goes nowhere. -/
  | keep (n peer : NodeId) (msg : Msg) (a a' : Server) (ha : s.servers n = some a)
    (hsend : a.send peer = (a', none)) :
    Steps s (.sendToCluster n peer msg) (s.setServer n a')
  | peerWriterEnds (n : NodeId) (idx : ℕ) (a : Server) (ha : s.servers n = some a) :
    Steps s (.peerWriterEnds n idx) (s.setServer n { a with net := a.net.peerWriterEnded idx })
  | closeSignal (n peer : NodeId) (a : Server) (link : LinkId) (ha : s.servers n = some a)
    (hconn : a.connectors peer = .waiting link) (hdropped : link ∈ a.dropped) :
    Steps s (.closeSignal n peer) (s.setServer n (a.setConnector peer .connecting))
  | read (link : LinkId) (n peerId : NodeId) (l : Link) (p : Packet Msg)
    (rest : List (Packet Msg)) (hl : s.links[link]? = some l)
    (hr : s.readers link n = some peerId) (hwire : s.wire link (l.other n) = p :: rest) :
    Steps s (.read link n)
      { s.setWire link (l.other n) rest with
        received := s.received ++ [⟨n, peerId, link, p⟩] }
  | readerEnds (link : LinkId) (n : NodeId) :
    Steps s (.readerEnds link n) (s.stopReader link n)
  | lose (link : LinkId) (n : NodeId) (i : ℕ) :
    Steps s (.lose link n i) (s.setWire link n ((s.wire link n).eraseIdx i))

variable {cfg}

lemma steps_of_step {s s' : State Msg} {act : Action Msg} (hs : step cfg s act = some s') :
    Steps cfg s act s' := by
  cases act with
  | start n =>
    simp only [step] at hs
    split_ifs at hs with hn
    obtain rfl := Option.some.inj hs
    exact .start n hn.1 hn.2
  | crash n =>
    obtain rfl := Option.some.inj hs
    exact .crash n
  | dial n peer =>
    simp only [step] at hs
    split at hs
    · rename_i a b ha hb
      split_ifs at hs with hc
      obtain rfl := Option.some.inj hs
      exact .dial n peer a b ha hb hc.1 hc.2.1 hc.2.2
    · cases hs
  | sendConnection n peer =>
    simp only [step] at hs
    split at hs
    · rename_i a ha
      split at hs
      · rename_i link hconn
        obtain rfl := Option.some.inj hs
        exact .sendConnection n peer a link ha hconn
      · cases hs
      · cases hs
    · cases hs
  | register n i =>
    simp only [step, Option.bind_eq_some_iff, Option.map_eq_some_iff] at hs
    obtain ⟨a, ha, link, hi, l, hl, rfl⟩ := hs
    exact .register n i a link l ha hi hl
  | registrationFails n i =>
    obtain ⟨a, ha, rfl⟩ := Option.map_eq_some_iff.mp hs
    exact .registrationFails n i a ha
  | applyConnection n =>
    simp only [step] at hs
    split at hs
    · rename_i a ha
      split at hs
      · rename_i c rest hq
        split at hs
        · rename_i a' link happly
          obtain rfl := Option.some.inj hs
          exact .replace n a a' c rest link ha hq happly
        · rename_i a' happly
          obtain rfl := Option.some.inj hs
          exact .store n a a' c rest ha hq happly
      · cases hs
    · cases hs
  | sendToCluster n peer msg =>
    simp only [step] at hs
    split at hs
    · rename_i a ha
      split at hs
      · rename_i a' link hsend
        obtain rfl := Option.some.inj hs
        exact .hand n peer msg a a' link ha hsend
      · rename_i a' hsend
        obtain rfl := Option.some.inj hs
        exact .keep n peer msg a a' ha hsend
    · cases hs
  | peerWriterEnds n idx =>
    obtain ⟨a, ha, rfl⟩ := Option.map_eq_some_iff.mp hs
    exact .peerWriterEnds n idx a ha
  | closeSignal n peer =>
    simp only [step] at hs
    split at hs
    · rename_i a ha
      split at hs
      · rename_i link hconn
        split_ifs at hs with hdropped
        obtain rfl := Option.some.inj hs
        exact .closeSignal n peer a link ha hconn hdropped
      · cases hs
      · cases hs
    · cases hs
  | read link n =>
    simp only [step] at hs
    split at hs
    · rename_i l peerId hl hr
      split at hs
      · rename_i p rest hwire
        obtain rfl := Option.some.inj hs
        exact .read link n peerId l p rest hl hr hwire
      · cases hs
    · cases hs
  | readerEnds link n =>
    obtain rfl := Option.some.inj hs
    exact .readerEnds link n
  | lose link n i =>
    obtain rfl := Option.some.inj hs
    exact .lose link n i

end Steps

/-- The connection is between the two servers. -/
def Joins (links : List Link) (link : LinkId) (n m : NodeId) : Prop :=
  links[link]? = some ⟨n, m⟩ ∨ links[link]? = some ⟨m, n⟩

/-! ### What the operations of a server do -/

variable {Msg : Type*} {cfg : ClusterConfig} {a : Server} {n m : NodeId} {link : LinkId}
  {links : List Link}

/-- What holds of a running server. -/
structure ServerOk (cfg : ClusterConfig) (links : List Link) (n : NodeId) (a : Server) : Prop where
  peers : a.net.peers = cfg.getPeers n
  aligned : a.net.Aligned
  stored : ∀ peer c, a.net.peerConnection peer = some c → Joins links c.link n peer
  queued : ∀ c ∈ a.connections, c.peerId ∈ a.net.peers ∧ Joins links c.link n c.peerId
  /-- A writer task that was handed nothing yet runs. -/
  fresh : ∀ c ∈ a.connections, c.writerTask = true
  accepted : ∀ link ∈ a.accepted, ∃ m, links[link]? = some ⟨m, n⟩
  connectors : ∀ peer link, a.connectors peer = .sending link ∨ a.connectors peer = .waiting link →
    peer ∈ a.net.peers ∧ links[link]? = some ⟨n, peer⟩

/-- Sending hands the message to the peer's connection, drops that, or finds none. -/
lemma ServerOk.send_cases (h : ServerOk cfg links n a) (peer : NodeId) :
    (a.net.peerConnection peer = none ∧ a.send peer = (a, none)) ∨
    (∃ c, a.net.peerConnection peer = some c ∧ c.writerTask = true ∧
      a.send peer = (a, some c.link)) ∨
    ∃ c net, a.net.peerConnection peer = some c ∧ c.writerTask = false ∧
      net.peers = a.net.peers ∧ net.Aligned ∧
      net.peerConnection = update a.net.peerConnection peer none ∧
      a.send peer = ({ a with net := net, dropped := a.dropped ++ [c.link] }, none) := by
  rcases h.aligned.sendToCluster_peer peer with ⟨hnone, hsend⟩ | ⟨c, hc, hw, hsend⟩ |
    ⟨c, net, hc, hw, hsend, hpeers, hnet⟩
  · exact Or.inl ⟨hnone, by simp [Server.send, hsend, hnone]⟩
  · exact Or.inr (Or.inl ⟨c, hc, hw, by simp [Server.send, hsend]⟩)
  · have haligned : net.Aligned := by
      have hal := h.aligned.sendToCluster peer
      rwa [hsend] at hal
    exact Or.inr (Or.inr ⟨c, net, hc, hw, hpeers, haligned, hnet, by
      simp [Server.send, hsend, hc]⟩)

lemma ServerOk.peerConnection_of_send (h : ServerOk cfg links n a) {peer : NodeId} {a' : Server}
    (hsend : a.send peer = (a', some link)) :
    ∃ c, a.net.peerConnection peer = some c ∧ c.link = link := by
  rcases h.send_cases peer with ⟨-, hnone⟩ | ⟨c, hc, -, hsome⟩ | ⟨c, net, -, -, -, -, -, hnone⟩
  · cases hnone.symm.trans hsend
  · cases hsome.symm.trans hsend
    exact ⟨c, hc, rfl⟩
  · cases hnone.symm.trans hsend

/-- A connection taken from the channel is stored, and the one before it closed. -/
lemma ServerOk.apply_spec (h : ServerOk cfg links n a) (rest : List PeerConnection)
    {c : PeerConnection} (hc : c.peerId ∈ a.net.peers) :
    ∃ net, net.peers = a.net.peers ∧ net.Aligned ∧
      net.peerConnection = update a.net.peerConnection c.peerId (some c) ∧
      a.apply c rest =
        ({ a with
            net := net
            connections := rest
            dropped := a.dropped ++
              ((a.net.peerConnection c.peerId).map PeerConnection.link).toList },
          (a.net.peerConnection c.peerId).map PeerConnection.link) := by
  obtain ⟨net, happly, hpeers, hnet⟩ := h.aligned.applyConnection_peer hc
  have haligned : net.Aligned := by
    have hal := h.aligned.applyConnection (.ToPeer c)
    rwa [happly] at hal
  have hknown : (a.net.clusterIdToIdx c.peerId).isSome = true :=
    List.findIdx?_isSome.trans (List.any_eq_true.mpr ⟨c.peerId, hc, by simp⟩)
  exact ⟨net, hpeers, haligned, hnet, by simp [Server.apply, happly, hknown]⟩

lemma Joins.append (h : Joins links link n m) (l : Link) : Joins (links ++ [l]) link n m :=
  h.imp getElem?_append_some getElem?_append_some

lemma ServerOk.append (h : ServerOk cfg links n a) (l : Link) :
    ServerOk cfg (links ++ [l]) n a where
  peers := h.peers
  aligned := h.aligned
  stored peer c hc := (h.stored peer c hc).append l
  queued c hc := (h.queued c hc).imp_right fun hj => hj.append l
  fresh := h.fresh
  accepted link hlink := by
    obtain ⟨m, hm⟩ := h.accepted link hlink
    exact ⟨m, getElem?_append_some hm⟩
  connectors peer link hc := (h.connectors peer link hc).imp_right getElem?_append_some

/-! ### The invariant -/

/-- The numbers of what a server read from a connection, in order. -/
def State.arrivals (s : State Msg) (link : LinkId) (n : NodeId) : List ℕ :=
  (s.received.filter fun r => r.link = link ∧ r.node = n).map fun r => r.packet.index

structure Inv (cfg : ClusterConfig) (s : State Msg) : Prop where
  links : ∀ l ∈ s.links, l.listener < l.dialer ∧ l.dialer ∈ cfg.nodes
  nodes : ∀ n a, s.servers n = some a → n ∈ cfg.nodes
  server : ∀ n a, s.servers n = some a → ServerOk cfg s.links n a
  readers : ∀ link n m, s.readers link n = some m → Joins s.links link n m
  wire : ∀ link n, ∀ p ∈ s.wire link n, ∃ m, Joins s.links link n m ∧
    s.sent[p.index]? = some ⟨n, m, link, p.msg⟩
  received : ∀ r ∈ s.received, Joins s.links r.link r.node r.peerId ∧
    s.sent[r.packet.index]? = some ⟨r.peerId, r.node, r.link, r.packet.msg⟩
  /-- What has arrived on a connection was sent before what is still on it. -/
  order : ∀ link n m, Joins s.links link n m →
    (s.arrivals link n ++ (s.wire link m).map Packet.index).Pairwise (· < ·)

variable {s s' : State Msg}

lemma Joins.lt (h : Joins links link n m) : link < links.length := by
  rcases h with h | h
  · exact (List.getElem?_eq_some_iff.mp h).1
  · exact (List.getElem?_eq_some_iff.mp h).1

lemma Joins.symm (h : Joins links link n m) : Joins links link m n := Or.symm h

lemma Joins.of_append {l : Link} (h : Joins (links ++ [l]) link n m) (hlt : link < links.length) :
    Joins links link n m := by
  unfold Joins at h
  rwa [List.getElem?_append_left hlt] at h

lemma Inv.ne (h : Inv cfg s) (hj : Joins s.links link n m) : n ≠ m := by
  rintro rfl
  have hmem : (⟨n, n⟩ : Link) ∈ s.links := List.mem_of_getElem? (hj.elim id id)
  exact absurd (h.links _ hmem).1 (lt_irrefl n)

/-- A connection has one other end. -/
lemma Inv.joins_unique (h : Inv cfg s) {m' : NodeId} (hj : Joins s.links link n m)
    (hj' : Joins s.links link n m') : m = m' := by
  have hne := h.ne hj
  rcases hj with hl | hl
  · rcases hj' with hl' | hl'
    · cases hl.symm.trans hl'
      rfl
    · cases hl.symm.trans hl'
      exact absurd rfl hne
  · rcases hj' with hl' | hl'
    · cases hl.symm.trans hl'
      exact absurd rfl hne
    · cases hl.symm.trans hl'
      rfl

lemma Inv.other_eq (h : Inv cfg s) {l : Link} (hl : s.links[link]? = some l)
    (hj : Joins s.links link n m) : l.other n = m := by
  have hne := h.ne hj
  rcases hj with hj | hj
  · obtain rfl := Option.some.inj (hl.symm.trans hj)
    simp [Link.other]
  · obtain rfl := Option.some.inj (hl.symm.trans hj)
    simp [Link.other, hne]

/-! ### Parts of a step -/

lemma Inv.setServer (h : Inv cfg s) (hn : n ∈ cfg.nodes) (ha : ServerOk cfg s.links n a) :
    Inv cfg (s.setServer n a) := by
  have hcases : ∀ k b, (s.setServer n a).servers k = some b →
      k = n ∧ b = a ∨ s.servers k = some b := by
    intro k b hb
    by_cases hk : k = n
    · subst hk
      exact Or.inl ⟨rfl, by simpa [State.setServer] using hb.symm⟩
    · exact Or.inr (by simpa [State.setServer, hk] using hb)
  refine ⟨h.links, fun k b hb => ?_, fun k b hb => ?_, h.readers, h.wire, h.received, h.order⟩
  · rcases hcases k b hb with ⟨rfl, -⟩ | hold
    · exact hn
    · exact h.nodes k b hold
  · rcases hcases k b hb with ⟨rfl, rfl⟩ | hold
    · exact ha
    · exact h.server k b hold

lemma Inv.startReader (h : Inv cfg s) (hj : Joins s.links link n m) :
    Inv cfg (s.startReader link n m) := by
  refine ⟨h.links, h.nodes, h.server, fun link' k k' hr => ?_, h.wire, h.received, h.order⟩
  by_cases hlink : link' = link
  · subst hlink
    by_cases hk : k = n
    · subst hk
      obtain rfl : m = k' := by simpa [State.startReader] using hr
      exact hj
    · exact h.readers link' k k' (by simpa [State.startReader, hk] using hr)
  · exact h.readers link' k k' (by simpa [State.startReader, hlink] using hr)

/-- Readers only end. -/
lemma Inv.endReaders (h : Inv cfg s) (readers : LinkId → NodeId → Option NodeId)
    (hr : ∀ link n m, readers link n = some m → s.readers link n = some m) :
    Inv cfg { s with readers := readers } :=
  ⟨h.links, h.nodes, h.server, fun link n m hm => h.readers link n m (hr link n m hm), h.wire,
    h.received, h.order⟩

lemma Inv.stopReader (h : Inv cfg s) (link : LinkId) (n : NodeId) :
    Inv cfg (s.stopReader link n) := by
  refine h.endReaders _ fun link' k m hm => ?_
  by_cases hlink : link' = link
  · subst hlink
    by_cases hk : k = n
    · subst hk
      simp at hm
    · simpa [hk] using hm
  · simpa [hlink] using hm

/-- A new connection carries nothing yet. -/
lemma Inv.addLink (h : Inv cfg s) {l : Link} (hlt : l.listener < l.dialer)
    (hd : l.dialer ∈ cfg.nodes) : Inv cfg { s with links := s.links ++ [l] } := by
  refine ⟨fun k hk => ?_, h.nodes, fun n a ha => (h.server n a ha).append l,
    fun link n m hm => (h.readers link n m hm).append l, fun link n p hp => ?_, fun r hr => ?_,
    fun link n m hj => ?_⟩
  · rcases List.mem_append.mp hk with hold | hnew
    · exact h.links k hold
    · obtain rfl := List.mem_singleton.mp hnew
      exact ⟨hlt, hd⟩
  · obtain ⟨m, hj, hsent⟩ := h.wire link n p hp
    exact ⟨m, hj.append l, hsent⟩
  · obtain ⟨hj, hsent⟩ := h.received r hr
    exact ⟨hj.append l, hsent⟩
  · by_cases hold : link < s.links.length
    · exact h.order link n m (hj.of_append hold)
    · have harr : s.arrivals link n = [] := by
        refine List.map_eq_nil_iff.mpr (List.filter_eq_nil_iff.mpr fun r hr hrl => ?_)
        have hlink : r.link = link := by simpa using (of_decide_eq_true hrl).1
        exact hold (hlink ▸ (h.received r hr).1.lt)
      have hwire : s.wire link m = [] := by
        refine List.eq_nil_iff_forall_not_mem.mpr fun p hp => ?_
        obtain ⟨k, hk, -⟩ := h.wire link m p hp
        exact hold hk.lt
      change (s.arrivals link n ++ (s.wire link m).map Packet.index).Pairwise (· < ·)
      simp [harr, hwire]

lemma Inv.wire_lt (h : Inv cfg s) {p : Packet Msg} (hp : p ∈ s.wire link n) :
    p.index < s.sent.length := by
  obtain ⟨m, -, hsent⟩ := h.wire link n p hp
  exact (List.getElem?_eq_some_iff.mp hsent).1

lemma Inv.arrivals_lt (h : Inv cfg s) {i : ℕ} (hi : i ∈ s.arrivals link n) :
    i < s.sent.length := by
  obtain ⟨r, hr, rfl⟩ := List.mem_map.mp hi
  exact (List.getElem?_eq_some_iff.mp (h.received r (List.mem_filter.mp hr).1).2).1

lemma wire_setWire (s : State Msg) (link : LinkId) (n : NodeId) (packets : List (Packet Msg))
    (link' : LinkId) (m : NodeId) : (s.setWire link n packets).wire link' m =
      if link' = link ∧ m = n then packets else s.wire link' m := by
  by_cases hlink : link' = link
  · subst hlink
    by_cases hm : m = n
    · subst hm
      simp [State.setWire]
    · simp [State.setWire, hm]
  · simp [State.setWire, hlink]

/-- Packets are lost. -/
lemma Inv.lose (h : Inv cfg s) {packets : List (Packet Msg)}
    (hsub : packets.Sublist (s.wire link n)) : Inv cfg (s.setWire link n packets) := by
  have hwire : ∀ link' m, ((s.setWire link n packets).wire link' m).Sublist (s.wire link' m) := by
    intro link' m
    rw [wire_setWire]
    split_ifs with heq
    · obtain ⟨rfl, rfl⟩ := heq
      exact hsub
    · exact List.Sublist.refl _
  refine ⟨h.links, h.nodes, h.server, h.readers, fun link' m p hp => ?_, h.received,
    fun link' k m hj => ?_⟩
  · exact h.wire link' m p ((hwire link' m).subset hp)
  · exact (h.order link' k m hj).sublist (((hwire link' m).map _).append_left _)

/-- A message goes out on the connection to its target. -/
lemma Inv.send (h : Inv cfg s) (hj : Joins s.links link n m) (msg : Msg) :
    Inv cfg { s.setWire link n (s.wire link n ++ [⟨s.sent.length, msg⟩]) with
      sent := s.sent ++ [⟨n, m, link, msg⟩] } := by
  refine ⟨h.links, h.nodes, h.server, h.readers, fun link' k p hp => ?_, fun r hr => ?_,
    fun link' k k' hj' => ?_⟩
  · simp only [wire_setWire] at hp
    have hold : ∀ q ∈ s.wire link' k, ∃ k', Joins s.links link' k k' ∧
        (s.sent ++ [⟨n, m, link, msg⟩])[q.index]? = some ⟨k, k', link', q.msg⟩ := by
      intro q hq
      obtain ⟨k', hk', hsent⟩ := h.wire link' k q hq
      exact ⟨k', hk', getElem?_append_some hsent⟩
    split_ifs at hp with heq
    · obtain ⟨rfl, rfl⟩ := heq
      rcases List.mem_append.mp hp with hp | hp
      · exact hold p hp
      · obtain rfl := List.mem_singleton.mp hp
        exact ⟨m, hj, by simp⟩
    · exact hold p hp
  · obtain ⟨hjr, hsent⟩ := h.received r hr
    exact ⟨hjr, getElem?_append_some hsent⟩
  · simp only [wire_setWire]
    split_ifs with heq
    · obtain ⟨rfl, rfl⟩ := heq
      rw [List.map_append, ← List.append_assoc]
      refine List.pairwise_append.mpr ⟨h.order link' k k' hj', List.pairwise_singleton _ _, ?_⟩
      intro i hi j hjmem
      obtain rfl : j = s.sent.length := by simpa using hjmem
      rcases List.mem_append.mp hi with hi | hi
      · exact h.arrivals_lt hi
      · obtain ⟨p, hp, rfl⟩ := List.mem_map.mp hi
        exact h.wire_lt hp
    · exact h.order link' k k' hj'

/-- A reader takes the first packet of its connection. -/
lemma Inv.read (h : Inv cfg s) {p : Packet Msg} {rest : List (Packet Msg)}
    (hj : Joins s.links link n m) (hwire : s.wire link m = p :: rest) :
    Inv cfg { s.setWire link m rest with
      received := s.received ++ [⟨n, m, link, p⟩] } := by
  obtain ⟨k, hk, hsent⟩ := h.wire link m p (by simp [hwire])
  obtain rfl := h.joins_unique hj.symm hk
  have hlost : Inv cfg (s.setWire link m rest) := h.lose (by simp [hwire])
  refine ⟨h.links, h.nodes, h.server, h.readers, hlost.wire, fun r hr => ?_,
    fun link' k k' hj' => ?_⟩
  · rcases List.mem_append.mp hr with hold | hnew
    · exact h.received r hold
    · obtain rfl := List.mem_singleton.mp hnew
      exact ⟨hj, hsent⟩
  · simp only [State.arrivals, List.filter_append, List.map_append, wire_setWire]
    by_cases hlink : link' = link ∧ k = n
    · -- the end that has read: its packet is moved over
      obtain ⟨rfl, rfl⟩ := hlink
      obtain rfl := h.joins_unique hj hj'
      have hord := h.order link' k m hj'
      rw [hwire, List.map_cons] at hord
      simpa [State.arrivals] using hord
    · have hord := hlost.order link' k k' hj'
      simp only [wire_setWire] at hord
      have hnone : ([⟨n, m, link, p⟩] : List (Received Msg)).filter
          (fun r => r.link = link' ∧ r.node = k) = [] := by
        have hne : ¬ (link = link' ∧ n = k) := fun ⟨hl, hn⟩ => hlink ⟨hl.symm, hn.symm⟩
        simpa using hne
      rw [hnone, List.map_nil, List.append_nil]
      exact hord

/-! ### One step -/

lemma ServerOk.new (cfg : ClusterConfig) (links : List Link) (n : NodeId) :
    ServerOk cfg links n (.new cfg n) := by
  have hempty : (Network.new (cfg.getPeers n)).Empty := Network.empty_new _
  refine ⟨rfl, hempty.aligned, fun peer c hc => ?_, ?_, ?_, ?_, ?_⟩
  · obtain ⟨idx, -, hslot⟩ := Network.peerConnection_spec hc
    cases hempty.slot hslot
  · simp [Server.new]
  · simp [Server.new]
  · simp [Server.new]
  · simp [Server.new]

/-- A server puts a connection into its channel. -/
lemma ServerOk.push (h : ServerOk cfg links n a) {c : PeerConnection}
    (hc : c.peerId ∈ a.net.peers) (hj : Joins links c.link n c.peerId)
    (hw : c.writerTask = true) : ServerOk cfg links n (a.push c) := by
  have hcases : ∀ d ∈ (a.push c).connections, d ∈ a.connections ∨ d = c := fun d hd =>
    (List.mem_append.mp hd).imp_right List.mem_singleton.mp
  refine ⟨h.peers, h.aligned, h.stored, fun d hd => ?_, fun d hd => ?_, h.accepted, h.connectors⟩
  · rcases hcases d hd with hold | rfl
    · exact h.queued d hold
    · exact ⟨hc, hj⟩
  · rcases hcases d hd with hold | rfl
    · exact h.fresh d hold
    · exact hw

lemma ServerOk.setAccepted (h : ServerOk cfg links n a) (accepted : List LinkId)
    (hacc : ∀ link ∈ accepted, ∃ m, links[link]? = some ⟨m, n⟩) :
    ServerOk cfg links n { a with accepted := accepted } :=
  ⟨h.peers, h.aligned, h.stored, h.queued, h.fresh, hacc, h.connectors⟩

lemma ServerOk.setConnector (h : ServerOk cfg links n a) {peer : NodeId} (conn : Connector)
    (hconn : ∀ link, conn = .sending link ∨ conn = .waiting link →
      peer ∈ a.net.peers ∧ links[link]? = some ⟨n, peer⟩) :
    ServerOk cfg links n (a.setConnector peer conn) := by
  refine ⟨h.peers, h.aligned, h.stored, h.queued, h.fresh, h.accepted, fun q link hq => ?_⟩
  by_cases hqp : q = peer
  · subst hqp
    exact hconn link (by simpa [Server.setConnector] using hq)
  · exact h.connectors q link (by simpa [Server.setConnector, hqp] using hq)

lemma ServerOk.apply (h : ServerOk cfg links n a) {c : PeerConnection}
    {rest : List PeerConnection} (hq : a.connections = c :: rest) :
    ServerOk cfg links n (a.apply c rest).1 := by
  obtain ⟨hc, hj⟩ := h.queued c (by simp [hq])
  obtain ⟨net, hpeers, haligned, hnet, happly⟩ := h.apply_spec rest hc
  rw [happly]
  have hrest : ∀ d ∈ rest, d ∈ a.connections := by
    rw [hq]
    exact fun d hd => List.mem_cons_of_mem c hd
  refine ⟨hpeers.trans h.peers, haligned, fun peer d hd => ?_, fun d hd => ?_,
    fun d hd => h.fresh d (hrest d hd), h.accepted,
    fun peer link hconn => hpeers ▸ h.connectors peer link hconn⟩
  · by_cases hp : peer = c.peerId
    · subst hp
      obtain rfl : c = d := by simpa [hnet] using hd
      exact hj
    · exact h.stored peer d (by simpa [hnet, hp] using hd)
  · obtain ⟨hknown, hjd⟩ := h.queued d (hrest d hd)
    exact ⟨hpeers ▸ hknown, hjd⟩

lemma ServerOk.send (h : ServerOk cfg links n a) (peer : NodeId) :
    ServerOk cfg links n (a.send peer).1 := by
  rcases h.send_cases peer with ⟨-, hsend⟩ | ⟨c, -, -, hsend⟩ |
    ⟨c, net, -, -, hpeers, haligned, hnet, hsend⟩
  · rw [hsend]
    exact h
  · rw [hsend]
    exact h
  · rw [hsend]
    refine ⟨hpeers.trans h.peers, haligned, fun q d hd => ?_, fun d hd => ?_, h.fresh, h.accepted,
      fun q link hconn => hpeers ▸ h.connectors q link hconn⟩
    · by_cases hq : q = peer
      · subst hq
        simp [hnet] at hd
      · exact h.stored q d (by simpa [hnet, hq] using hd)
    · obtain ⟨hknown, hjd⟩ := h.queued d hd
      exact ⟨hpeers ▸ hknown, hjd⟩

lemma ServerOk.peerWriterEnds (h : ServerOk cfg links n a) (idx : ℕ) :
    ServerOk cfg links n { a with net := a.net.peerWriterEnded idx } := by
  have hpeers : (a.net.peerWriterEnded idx).peers = a.net.peers := by
    unfold Network.peerWriterEnded
    split <;> rfl
  refine ⟨hpeers.trans h.peers, (Network.peerWriterEnded_spec h.aligned idx).1, fun q d hd => ?_,
    fun d hd => ?_, h.fresh, h.accepted, fun q link hconn => hpeers ▸ h.connectors q link hconn⟩
  · have hlink := (Network.peerWriterEnded_peer (n := a.net) idx q).1
    rw [hd] at hlink
    obtain ⟨d', hd', heq⟩ := Option.map_eq_some_iff.mp hlink.symm
    exact heq ▸ h.stored q d' hd'
  · obtain ⟨hknown, hjd⟩ := h.queued d hd
    exact ⟨hpeers ▸ hknown, hjd⟩

/-- **One step** keeps connections and messages where they belong. -/
theorem step_inv {act : Action Msg} (h : Inv cfg s) (hs : step cfg s act = some s') :
    Inv cfg s' := by
  cases steps_of_step hs with
  | start n hn hdown => exact h.setServer hn (ServerOk.new cfg s.links n)
  | crash n =>
    have hdown : ∀ k a, update s.servers n none k = some a → s.servers k = some a := by
      intro k a ha
      by_cases hk : k = n
      · subst hk
        simp at ha
      · simpa [hk] using ha
    have hends := h.endReaders (fun link m => if m = n then none else s.readers link m)
      fun link k m hm => by
        split_ifs at hm
        exact hm
    exact ⟨h.links, fun k a ha => h.nodes k a (hdown k a ha),
      fun k a ha => h.server k a (hdown k a ha), hends.readers, h.wire, h.received, h.order⟩
  | dial n peer a b ha hb hpeer hlt hconn =>
    have hlink : (s.links ++ [⟨n, peer⟩])[s.links.length]? = some ⟨n, peer⟩ := by simp
    have h₁ := h.addLink (l := ⟨n, peer⟩) hlt (h.nodes n a ha)
    have h₂ := h₁.setServer (h.nodes n a ha)
      ((h₁.server n a ha).setConnector (.sending s.links.length) fun link hsl => by
        obtain rfl : s.links.length = link := by simpa using hsl
        exact ⟨hpeer, hlink⟩)
    have h₃ := h₂.setServer (h.nodes peer b hb)
      ((h₁.server peer b hb).setAccepted (b.accepted ++ [s.links.length])
        (fun link hmem => by
          rcases List.mem_append.mp hmem with hold | hnew
          · exact (h₁.server peer b hb).accepted link hold
          · obtain rfl := List.mem_singleton.mp hnew
            exact ⟨n, hlink⟩))
    exact h₃.startReader (Or.inl hlink)
  | sendConnection n peer a link ha hconn =>
    have hok := h.server n a ha
    obtain ⟨hpeer, hlink⟩ := hok.connectors peer link (Or.inl hconn)
    refine h.setServer (h.nodes n a ha) ((hok.push (c := ⟨peer, link, true⟩) hpeer
      (Or.inl hlink) rfl).setConnector _ fun link' hsl => ?_)
    obtain rfl : link = link' := by simpa using hsl
    exact ⟨hpeer, hlink⟩
  | register n i a link l ha hi hl =>
    obtain ⟨m, hm⟩ := (h.server n a ha).accepted link (List.mem_of_getElem? hi)
    obtain rfl := Option.some.inj (hl.symm.trans hm)
    have hd := h.links _ (List.mem_of_getElem? hl)
    have hpeer : m ∈ a.net.peers := by
      rw [(h.server n a ha).peers]
      exact List.mem_filter.mpr ⟨hd.2, by simpa using (ne_of_gt hd.1)⟩
    have hpush := (h.server n a ha).push (c := ⟨m, link, true⟩) hpeer (Or.inr hm) rfl
    refine (h.setServer (h.nodes n a ha)
      (hpush.setAccepted _ fun link' hmem => ?_)).startReader (Or.inr hm)
    exact hpush.accepted link' ((List.eraseIdx_sublist _ _).subset hmem)
  | registrationFails n i a ha =>
    refine h.setServer (h.nodes n a ha) ((h.server n a ha).setAccepted _ fun link hmem => ?_)
    exact (h.server n a ha).accepted link ((List.eraseIdx_sublist _ _).subset hmem)
  | replace n a a' c rest link ha hq happly =>
    have hok := (h.server n a ha).apply hq
    rw [happly] at hok
    exact (h.setServer (h.nodes n a ha) hok).stopReader link n
  | store n a a' c rest ha hq happly =>
    have hok := (h.server n a ha).apply hq
    rw [happly] at hok
    exact h.setServer (h.nodes n a ha) hok
  | hand n peer msg a a' link ha hsend =>
    have hok := (h.server n a ha).send peer
    rw [hsend] at hok
    have hj : Joins s.links link n peer := by
      obtain ⟨c, hc, rfl⟩ := (h.server n a ha).peerConnection_of_send hsend
      exact (h.server n a ha).stored peer c hc
    exact (h.setServer (h.nodes n a ha) hok).send hj msg
  | keep n peer msg a a' ha hsend =>
    have hok := (h.server n a ha).send peer
    rw [hsend] at hok
    exact h.setServer (h.nodes n a ha) hok
  | peerWriterEnds n idx a ha =>
    exact h.setServer (h.nodes n a ha) ((h.server n a ha).peerWriterEnds idx)
  | closeSignal n peer a link ha hconn hdropped =>
    exact h.setServer (h.nodes n a ha)
      ((h.server n a ha).setConnector .connecting fun link hsl => by simp at hsl)
  | read link n peerId l p rest hl hr hwire =>
    have hj := h.readers link n peerId hr
    rw [h.other_eq hl hj] at hwire ⊢
    exact h.read hj hwire
  | readerEnds link n => exact h.stopReader link n
  | lose link n i => exact h.lose (List.eraseIdx_sublist _ _)

lemma inv_start : Inv cfg (start : State Msg) := by
  refine ⟨?_, ?_, ?_, ?_, ?_, ?_, ?_⟩ <;> simp [start, Joins]

lemma inv_of_reachable (h : (system cfg).Reachable s) : Inv cfg s := by
  refine System.Reaches.invariant ?_ ?_ h
  · rintro s rfl
    exact inv_start
  · intro s act s' hinv hs _
    exact step_inv hinv hs

lemma reachable_step {act : Action Msg} (h : (system cfg).Reachable s)
    (hs : step cfg s act = some s') : (system cfg).Reachable s' :=
  System.Reaches.step (a := act) h hs trivial

/-! ### What arrives -/

/-- **Delivery**: what arrives from a peer was sent by it to this server on the connection it
arrives on, arrives once, and on each connection in the order it was sent. -/
theorem delivered_of_reachable (h : (system cfg).Reachable s) :
    (∀ r ∈ s.received,
      s.sent[r.packet.index]? = some ⟨r.peerId, r.node, r.link, r.packet.msg⟩) ∧
    (s.received.map fun r => r.packet.index).Nodup ∧
    ∀ r r', List.Sublist [r, r'] s.received → r.node = r'.node → r.link = r'.link →
      r.packet.index < r'.packet.index := by
  have hinv := inv_of_reachable h
  have horder : ∀ r r', List.Sublist [r, r'] s.received → r.node = r'.node →
      r.link = r'.link → r.packet.index < r'.packet.index := by
    intro r r' hsub hnode hlink
    have hr : r ∈ s.received := hsub.subset (by simp)
    have hpair : List.Sublist [r.packet.index, r'.packet.index] (s.arrivals r.link r.node) := by
      have hfilter := (hsub.filter fun x => x.link = r.link ∧ x.node = r.node).map
        fun x => x.packet.index
      simpa [State.arrivals, hnode, hlink] using hfilter
    have hord := hinv.order r.link r.node r.peerId (hinv.received r hr).1
    exact List.pairwise_iff_forall_sublist.mp (List.pairwise_append.mp hord).1 hpair
  refine ⟨fun r hr => (hinv.received r hr).2, ?_, horder⟩
  refine List.pairwise_map.mpr (List.pairwise_iff_forall_sublist.mpr fun {r r'} hsub heq => ?_)
  -- two arrivals of one message would be on one connection, at one server
  have hsent := (hinv.received r (hsub.subset (by simp))).2
  have hsent' := (hinv.received r' (hsub.subset (by simp))).2
  rw [heq, hsent', Option.some.injEq, Sent.mk.injEq] at hsent
  have hlt := horder r r' hsub hsent.2.1.symm hsent.2.2.1.symm
  omega

def twoNodes : ClusterConfig := ⟨[1, 2], by decide⟩

/-- The second message is lost with the first connection, and the third goes over the next. -/
def redialed : List (Action ℕ) :=
  [.start 1, .start 2, .dial 2 1, .sendConnection 2 1, .applyConnection 2,
    .sendToCluster 2 1 7, .sendToCluster 2 1 8, .register 1 0, .read 0 1, .peerWriterEnds 2 0,
    .sendToCluster 2 1 9, .closeSignal 2 1, .dial 2 1, .sendConnection 2 1, .applyConnection 2,
    .lose 0 2 0, .sendToCluster 2 1 10, .register 1 0, .read 1 1]

theorem delivered_redialed : ∃ s, (system twoNodes).run start redialed = some s ∧
    s.received = [⟨1, 2, 0, ⟨0, 7⟩⟩, ⟨1, 2, 1, ⟨2, 10⟩⟩] ∧
    s.sent[2]? = some ⟨2, 1, 1, 10⟩ ∧ (s.received.map fun r => r.packet.index).Nodup := by
  obtain ⟨s, hrun, hreceived⟩ : ∃ s, (system twoNodes).run start redialed = some s ∧
      s.received = [⟨1, 2, 0, ⟨0, 7⟩⟩, ⟨1, 2, 1, ⟨2, 10⟩⟩] := ⟨_, rfl, rfl⟩
  have hreach : (system twoNodes).Reachable s := System.Reachable.run (.init rfl) redialed hrun
  obtain ⟨hsent, honce, -⟩ := delivered_of_reachable hreach
  exact ⟨s, hrun, hreceived, hsent ⟨1, 2, 1, ⟨2, 10⟩⟩ (by simp [hreceived]), honce⟩

end OmniPaxosKV.PeerMesh
