import Mathlib.Data.List.AList
import OmniPaxosKV.Common

/-!
The server's connection tables: a slot for each peer, and a map of clients by the id each
connection was given when it registered.

Sending hands a message to the connection's writer task; where that task has ended the entry is
dropped. A replaced peer connection is closed, which ends its two tasks.
-/

namespace OmniPaxosKV.ServerNetwork

open Common

open Function (update)

structure PeerConnection where
  peerId : NodeId
  link : LinkId
  writerTask : Bool
  deriving DecidableEq

structure ClientConnection where
  clientId : ClientId
  link : LinkId
  writerTask : Bool
  deriving DecidableEq

inductive NewConnection
  | ToPeer (connection : PeerConnection)
  | ToClient (connection : ClientConnection)
  deriving DecidableEq

structure Network where
  peers : List NodeId
  peerConnections : List (Option PeerConnection)
  clientConnections : AList fun _ : ClientId => ClientConnection
  maxClientId : ClientId
  deriving DecidableEq

namespace Network

def new (peers : List NodeId) : Network := ⟨peers, List.replicate peers.length none, ∅, 0⟩

def clusterIdToIdx (n : Network) (id : NodeId) : Option ℕ := n.peers.findIdx? (· = id)

/-- The id the next client gets when it registers. -/
def nextClientId (n : Network) : Network × ClientId :=
  ({ n with maxClientId := n.maxClientId + 1 }, n.maxClientId + 1)

/-- Stores a connection; the link that is closed for it, if one is. -/
def applyConnection (n : Network) : NewConnection → Network × Option LinkId
  | .ToPeer connection =>
    match n.clusterIdToIdx connection.peerId with
    | some idx =>
      ({ n with peerConnections := n.peerConnections.set idx (some connection) },
        (n.peerConnections[idx]?.join).map PeerConnection.link)
    | none => (n, none)
  | .ToClient connection =>
    ({ n with
      clientConnections := n.clientConnections.insert connection.clientId connection }, none)

def anyPeer (n : Network) : Bool := n.peerConnections.any Option.isSome

/-- Hands a message to a peer's connection: the link it goes out on, if it does. -/
def sendToCluster (n : Network) (peer : NodeId) : Network × Option LinkId :=
  match n.clusterIdToIdx peer with
  | some idx =>
    match n.peerConnections[idx]? with
    | some (some connection) =>
      if connection.writerTask then (n, some connection.link)
      else ({ n with peerConnections := n.peerConnections.set idx none }, none)
    | _ => (n, none)
  | none => (n, none)

/-- Hands a message to a client's connection: the link it goes out on, if it does. -/
def sendToClient (n : Network) (client : ClientId) : Network × Option LinkId :=
  match n.clientConnections.lookup client with
  | some connection =>
    if connection.writerTask then (n, some connection.link)
    else ({ n with clientConnections := n.clientConnections.erase client }, none)
  | none => (n, none)

/-- Removes every connection; the links that are closed. -/
def shutdown (n : Network) : Network × List LinkId :=
  ({ n with
      peerConnections := List.replicate n.peers.length none
      clientConnections := ∅ },
    (n.clientConnections.entries.map fun e => e.2.link) ++
      n.peerConnections.filterMap (Option.map PeerConnection.link))

/-- The writer task of a client's connection has ended. -/
def clientWriterEnded (n : Network) (client : ClientId) : Network :=
  match n.clientConnections.lookup client with
  | some connection =>
    { n with clientConnections :=
      n.clientConnections.insert client { connection with writerTask := false } }
  | none => n

/-- The writer task of a peer's connection has ended. -/
def peerWriterEnded (n : Network) (idx : ℕ) : Network :=
  match n.peerConnections[idx]? with
  | some (some connection) =>
    { n with peerConnections :=
      n.peerConnections.set idx (some { connection with writerTask := false }) }
  | _ => n

/-! ### The table of clients -/

variable {n : Network} {client client' : ClientId} {connection : ClientConnection}

lemma sendToClient_lookup
    (h : (n.sendToClient client).1.clientConnections.lookup client' = some connection) :
    n.clientConnections.lookup client' = some connection := by
  unfold sendToClient at h
  split at h
  · split_ifs at h with hw
    · exact h
    · by_cases hc : client' = client
      · subst hc
        simp at h
      · rwa [AList.lookup_erase_ne hc] at h
  · exact h

/-- An entry that is still there after a send to it got the message. -/
lemma sendToClient_link
    (h : (n.sendToClient client).1.clientConnections.lookup client = some connection) :
    (n.sendToClient client).2 = some connection.link := by
  have hbefore := sendToClient_lookup h
  unfold sendToClient at h ⊢
  rw [hbefore] at h ⊢
  by_cases hw : connection.writerTask = true
  · simp [hw]
  · simp [hw] at h

/-- A message handed to a link goes to the entry that has the link. -/
lemma lookup_of_sendToClient {link : LinkId} (h : (n.sendToClient client).2 = some link) :
    ∃ connection, n.clientConnections.lookup client = some connection ∧
      connection.link = link ∧ n.sendToClient client = (n, some link) := by
  unfold sendToClient at h ⊢
  split at h
  · rename_i connection hlookup
    split_ifs at h with hw
    obtain rfl := Option.some.inj h
    exact ⟨connection, hlookup, rfl, by simp [hw]⟩
  · cases h

@[simp] lemma sendToClient_maxClientId :
    (n.sendToClient client).1.maxClientId = n.maxClientId := by
  unfold sendToClient
  split
  · split_ifs <;> rfl
  · rfl

@[simp] lemma sendToCluster_clientConnections (peer : NodeId) :
    (n.sendToCluster peer).1.clientConnections = n.clientConnections := by
  unfold sendToCluster
  split
  · split
    · split_ifs <;> rfl
    · rfl
  · rfl

@[simp] lemma sendToCluster_maxClientId (peer : NodeId) :
    (n.sendToCluster peer).1.maxClientId = n.maxClientId := by
  unfold sendToCluster
  split
  · split
    · split_ifs <;> rfl
    · rfl
  · rfl

lemma clientWriterEnded_lookup
    (h : (n.clientWriterEnded client).clientConnections.lookup client' = some connection) :
    ∃ connection', n.clientConnections.lookup client' = some connection' ∧
      connection'.link = connection.link := by
  unfold clientWriterEnded at h
  split at h
  · rename_i connection₀ hlookup
    by_cases hc : client' = client
    · subst hc
      simp only [AList.lookup_insert, Option.some.injEq] at h
      exact ⟨connection₀, hlookup, by rw [← h]⟩
    · rw [AList.lookup_insert_ne hc] at h
      exact ⟨connection, h, rfl⟩
  · exact ⟨connection, h, rfl⟩

@[simp] lemma clientWriterEnded_maxClientId :
    (n.clientWriterEnded client).maxClientId = n.maxClientId := by
  unfold clientWriterEnded
  split <;> rfl

@[simp] lemma peerWriterEnded_clientConnections (idx : ℕ) :
    (n.peerWriterEnded idx).clientConnections = n.clientConnections := by
  unfold peerWriterEnded
  split <;> rfl

@[simp] lemma peerWriterEnded_maxClientId (idx : ℕ) :
    (n.peerWriterEnded idx).maxClientId = n.maxClientId := by
  unfold peerWriterEnded
  split <;> rfl

/-! ### Both tables -/

/-- There is a slot for each peer, what is in a slot was registered for its peer, and what is
in the map is under its own id. -/
structure Aligned (n : Network) : Prop where
  length : n.peerConnections.length = n.peers.length
  slot : ∀ (idx : ℕ) (c : PeerConnection), n.peerConnections[idx]? = some (some c) →
    n.peers[idx]? = some c.peerId
  client : ∀ (id : ClientId) (c : ClientConnection), n.clientConnections.lookup id = some c →
    c.clientId = id

/-- A place for a connection: the slot of a peer, or the entry of a client. -/
inductive Place
  | peer (idx : ℕ)
  | client (id : ClientId)
  deriving DecidableEq

def linkAt (n : Network) : Place → Option LinkId
  | .peer idx => (n.peerConnections[idx]?.join).map PeerConnection.link
  | .client id => (n.clientConnections.lookup id).map ClientConnection.link

/-- Empty tables, as at the start and after a shutdown. -/
structure Empty (n : Network) : Prop where
  slots : n.peerConnections = List.replicate n.peers.length none
  clients : n.clientConnections = ∅

lemma empty_new (peers : List NodeId) : Empty (new peers) := ⟨rfl, rfl⟩

lemma empty_shutdown (n : Network) : Empty n.shutdown.1 := ⟨rfl, rfl⟩

lemma Empty.slot (h : Empty n) {idx : ℕ} {x : Option PeerConnection}
    (hslot : n.peerConnections[idx]? = some x) : x = none := by
  rw [h.slots] at hslot
  exact List.eq_of_mem_replicate (List.mem_of_getElem? hslot)

lemma Empty.aligned (h : Empty n) : Aligned n := by
  refine ⟨by simp [h.slots], fun idx c hc => ?_, fun id c hc => ?_⟩
  · cases h.slot hc
  · rw [h.clients] at hc
    cases hc

lemma Empty.linkAt (h : Empty n) : n.linkAt = fun _ => none := by
  funext place
  cases place with
  | peer idx =>
    rcases hslot : n.peerConnections[idx]? with _ | x
    · simp [Network.linkAt, hslot]
    · simp [Network.linkAt, hslot, h.slot hslot]
  | client id => simp [Network.linkAt, h.clients]

lemma clusterIdToIdx_spec {id : NodeId} {idx : ℕ} (h : n.clusterIdToIdx id = some idx) :
    n.peers[idx]? = some id := by
  obtain ⟨hlt, hid, -⟩ := List.findIdx?_eq_some_iff_getElem.mp h
  rw [List.getElem?_eq_getElem hlt]
  exact congrArg some (by simpa using hid)

lemma Aligned.idx_lt (h : Aligned n) {id : NodeId} {idx : ℕ}
    (hidx : n.clusterIdToIdx id = some idx) :
    idx < n.peerConnections.length := by
  rw [h.length]
  exact (List.getElem?_eq_some_iff.mp (clusterIdToIdx_spec hidx)).1

/-- One slot changes. -/
lemma linkAt_setSlot {idx : ℕ} (hidx : idx < n.peerConnections.length)
    (x : Option PeerConnection) :
    linkAt { n with peerConnections := n.peerConnections.set idx x } =
      update n.linkAt (.peer idx) (x.map PeerConnection.link) := by
  funext place
  cases place with
  | peer j =>
    by_cases hj : j = idx
    · subst hj
      simp [linkAt, hidx]
    · have hne : Place.peer j ≠ Place.peer idx := fun h => hj (Place.peer.inj h)
      simp [linkAt, hne, List.getElem?_set_ne (Ne.symm hj)]
  | client id => simp [linkAt]

lemma linkAt_insert (c : ClientConnection) :
    linkAt { n with clientConnections := n.clientConnections.insert client c } =
      update n.linkAt (.client client) (some c.link) := by
  funext place
  cases place with
  | peer j => simp [linkAt]
  | client id =>
    by_cases hid : id = client
    · subst hid
      simp [linkAt]
    · have hne : Place.client id ≠ Place.client client := fun h => hid (Place.client.inj h)
      simp [linkAt, hne, AList.lookup_insert_ne hid]

lemma linkAt_erase :
    linkAt { n with clientConnections := n.clientConnections.erase client } =
      update n.linkAt (.client client) none := by
  funext place
  cases place with
  | peer j => simp [linkAt]
  | client id =>
    by_cases hid : id = client
    · subst hid
      simp [linkAt]
    · have hne : Place.client id ≠ Place.client client := fun h => hid (Place.client.inj h)
      simp [linkAt, hne, AList.lookup_erase_ne hid]

/-- Shutting down closes what is in the tables. -/
lemma mem_shutdown {link : LinkId} :
    link ∈ n.shutdown.2 ↔ ∃ place, n.linkAt place = some link := by
  simp only [shutdown, List.mem_append, List.mem_map, List.mem_filterMap]
  constructor
  · rintro (⟨⟨id, c⟩, hmem, rfl⟩ | ⟨x, hmem, hlink⟩)
    · have hlookup : n.clientConnections.lookup id = some c := AList.mem_lookup_iff.mpr hmem
      exact ⟨.client id, by simp [linkAt, hlookup]⟩
    · obtain ⟨idx, hslot⟩ := List.mem_iff_getElem?.mp hmem
      exact ⟨.peer idx, by simpa [linkAt, hslot] using hlink⟩
  · rintro ⟨place, hplace⟩
    cases place with
    | peer idx =>
      obtain ⟨c, hslot, rfl⟩ := Option.map_eq_some_iff.mp hplace
      exact Or.inr ⟨some c, List.mem_of_getElem? (Option.join_eq_some_iff.mp hslot), rfl⟩
    | client id =>
      obtain ⟨c, hlookup, rfl⟩ := Option.map_eq_some_iff.mp hplace
      exact Or.inl ⟨⟨id, c⟩, AList.mem_lookup_iff.mp hlookup, rfl⟩

lemma Aligned.setSlot (h : Aligned n) {idx : ℕ} {x : Option PeerConnection}
    (hidx : idx < n.peerConnections.length)
    (hx : ∀ c, x = some c → n.peers[idx]? = some c.peerId) :
    Aligned { n with peerConnections := n.peerConnections.set idx x } := by
  refine ⟨by simpa using h.length, fun j c hc => ?_, h.client⟩
  by_cases hj : j = idx
  · subst hj
    have hset : (n.peerConnections.set j x)[j]? = some x := List.getElem?_set_self hidx
    exact hx c (Option.some.inj (hset.symm.trans hc))
  · have hset : (n.peerConnections.set idx x)[j]? = n.peerConnections[j]? :=
      List.getElem?_set_ne (Ne.symm hj)
    exact h.slot j c (hset.symm.trans hc)

lemma Aligned.insert (h : Aligned n) (c : ClientConnection) :
    Aligned { n with clientConnections := n.clientConnections.insert c.clientId c } := by
  refine ⟨h.length, h.slot, fun id c' hc => ?_⟩
  by_cases hid : id = c.clientId
  · subst hid
    have hc' : some c = some c' := (AList.lookup_insert n.clientConnections).symm.trans hc
    rw [← Option.some.inj hc']
  · exact h.client id c' ((AList.lookup_insert_ne hid).symm.trans hc)

lemma Aligned.erase (h : Aligned n) (client : ClientId) :
    Aligned { n with clientConnections := n.clientConnections.erase client } := by
  refine ⟨h.length, h.slot, fun id c hc => ?_⟩
  by_cases hid : id = client
  · subst hid
    exact absurd hc (by simp)
  · exact h.client id c ((AList.lookup_erase_ne hid).symm.trans hc)

/-! ### What the operations do to both -/

/-- The connection a message to a peer goes to. -/
def peerConnection (n : Network) (peer : NodeId) : Option PeerConnection :=
  (n.clusterIdToIdx peer).bind fun idx => n.peerConnections[idx]?.join

lemma peerConnection_spec {peer : NodeId} {c : PeerConnection}
    (h : n.peerConnection peer = some c) :
    ∃ idx, n.clusterIdToIdx peer = some idx ∧ n.peerConnections[idx]? = some (some c) := by
  obtain ⟨idx, hidx, hslot⟩ := Option.bind_eq_some_iff.mp h
  exact ⟨idx, hidx, Option.join_eq_some_iff.mp hslot⟩

/-- What `send_to_cluster` does: nothing, a handing over, or the emptying of the slot. -/
lemma sendToCluster_cases (n : Network) (peer : NodeId) :
    (n.peerConnection peer = none ∧ n.sendToCluster peer = (n, none)) ∨
    (∃ c, n.peerConnection peer = some c ∧ c.writerTask = true ∧
      n.sendToCluster peer = (n, some c.link)) ∨
    ∃ c idx, n.peerConnection peer = some c ∧ c.writerTask = false ∧
      n.clusterIdToIdx peer = some idx ∧ n.peerConnections[idx]? = some (some c) ∧
      n.sendToCluster peer =
        ({ n with peerConnections := n.peerConnections.set idx none }, none) := by
  rcases hidx : n.clusterIdToIdx peer with _ | idx
  · exact Or.inl (by simp [peerConnection, sendToCluster, hidx])
  rcases hslot : n.peerConnections[idx]? with _ | _ | c
  · exact Or.inl (by simp [peerConnection, sendToCluster, hidx, hslot])
  · exact Or.inl (by simp [peerConnection, sendToCluster, hidx, hslot])
  · have hc : n.peerConnection peer = some c := by simp [peerConnection, hidx, hslot]
    right
    rcases hw : c.writerTask with _ | _
    · exact Or.inr ⟨c, idx, hc, hw, rfl, hslot, by simp [sendToCluster, hidx, hslot, hw]⟩
    · exact Or.inl ⟨c, hc, hw, by simp [sendToCluster, hidx, hslot, hw]⟩

lemma sendToClient_cases (n : Network) (client : ClientId) :
    (n.sendToClient client).1 = n ∧
      (∀ c, n.clientConnections.lookup client = some c → c.writerTask = true) ∨
    ∃ c, n.clientConnections.lookup client = some c ∧ c.writerTask = false ∧
      (n.sendToClient client).1 =
        { n with clientConnections := n.clientConnections.erase client } := by
  rcases hlookup : n.clientConnections.lookup client with _ | c
  · exact Or.inl (by simp [sendToClient, hlookup])
  · rcases hw : c.writerTask with _ | _
    · exact Or.inr ⟨c, rfl, hw, by simp [sendToClient, hlookup, hw]⟩
    · exact Or.inl (by simp [sendToClient, hlookup, hw])

lemma Aligned.sendToCluster (h : Aligned n) (peer : NodeId) : Aligned (n.sendToCluster peer).1 := by
  rcases n.sendToCluster_cases peer with ⟨-, heq⟩ | ⟨c, -, -, heq⟩ | ⟨c, idx, -, -, hidx, -, heq⟩
  · rw [heq]
    exact h
  · rw [heq]
    exact h
  · rw [heq]
    exact h.setSlot (h.idx_lt hidx) (by simp)

lemma Aligned.sendToClient (h : Aligned n) (client : ClientId) :
    Aligned (n.sendToClient client).1 := by
  rcases n.sendToClient_cases client with ⟨heq, -⟩ | ⟨c, -, -, heq⟩
  · rw [heq]
    exact h
  · rw [heq]
    exact h.erase client

lemma Aligned.applyConnection (h : Aligned n) (new : NewConnection) :
    Aligned (n.applyConnection new).1 := by
  cases new with
  | ToPeer c =>
    rcases hidx : n.clusterIdToIdx c.peerId with _ | idx
    · simpa [Network.applyConnection, hidx] using h
    · simp only [Network.applyConnection, hidx]
      refine h.setSlot (h.idx_lt hidx) fun c' hc => ?_
      rw [← Option.some.inj hc]
      exact clusterIdToIdx_spec hidx
  | ToClient c => exact h.insert c

/-- **A message for a peer** is handed to a connection registered for it, and no slot but its
own changes. -/
lemma sendToCluster_own (h : Aligned n) (peer : NodeId) :
    (∀ link, (n.sendToCluster peer).2 = some link → ∃ (idx : ℕ) (c : PeerConnection),
      n.peerConnections[idx]? = some (some c) ∧ c.peerId = peer ∧ c.link = link) ∧
    ∀ idx, n.clusterIdToIdx peer ≠ some idx →
      (n.sendToCluster peer).1.peerConnections[idx]? = n.peerConnections[idx]? := by
  rcases n.sendToCluster_cases peer with ⟨-, heq⟩ | ⟨c, hc, -, heq⟩ | ⟨c, idx, -, -, hidx, -, heq⟩
  · rw [heq]
    exact ⟨by simp, fun idx _ => rfl⟩
  · rw [heq]
    refine ⟨fun link hlink => ?_, fun idx _ => rfl⟩
    obtain ⟨idx, hidx, hslot⟩ := peerConnection_spec hc
    have hpeer : some c.peerId = some peer :=
      (h.slot idx c hslot).symm.trans (clusterIdToIdx_spec hidx)
    exact ⟨idx, c, hslot, Option.some.inj hpeer, Option.some.inj hlink⟩
  · rw [heq]
    refine ⟨by simp, fun j hj => List.getElem?_set_ne ?_⟩
    rintro rfl
    exact hj hidx

/-- The end of a writer moves no connection. -/
lemma peerWriterEnded_spec (h : Aligned n) (idx : ℕ) :
    Aligned (n.peerWriterEnded idx) ∧ (n.peerWriterEnded idx).linkAt = n.linkAt := by
  unfold peerWriterEnded
  split
  · rename_i c hslot
    have hlt : idx < n.peerConnections.length := (List.getElem?_eq_some_iff.mp hslot).1
    refine ⟨h.setSlot hlt fun c' hc => ?_, ?_⟩
    · rw [← Option.some.inj hc]
      exact h.slot idx c hslot
    · rw [linkAt_setSlot hlt]
      exact Function.update_eq_self_iff.mpr (by simp [linkAt, hslot])
  · exact ⟨h, rfl⟩

lemma clientWriterEnded_spec (h : Aligned n) (client : ClientId) :
    Aligned (n.clientWriterEnded client) ∧ (n.clientWriterEnded client).linkAt = n.linkAt := by
  unfold clientWriterEnded
  split
  · rename_i c hlookup
    have hid := h.client client c hlookup
    refine ⟨?_, ?_⟩
    · have hins := h.insert { c with writerTask := false }
      simpa [hid] using hins
    · rw [linkAt_insert]
      exact Function.update_eq_self_iff.mpr (by simp [linkAt, hlookup])
  · exact ⟨h, rfl⟩

/-! ### The connection of a peer -/

/-- One slot is one peer's. -/
lemma peerConnection_setSlot {peer : NodeId} {idx : ℕ} (hlt : idx < n.peerConnections.length)
    (hidx : n.clusterIdToIdx peer = some idx) (x : Option PeerConnection) :
    peerConnection { n with peerConnections := n.peerConnections.set idx x } =
      update n.peerConnection peer x := by
  funext q
  by_cases hq : q = peer
  · subst hq
    have hidx' : clusterIdToIdx { n with peerConnections := n.peerConnections.set idx x } q =
        some idx := hidx
    simp [peerConnection, hidx', hlt]
  · rw [Function.update_of_ne hq]
    rcases hj : n.clusterIdToIdx q with _ | j
    · have hj' : clusterIdToIdx { n with peerConnections := n.peerConnections.set idx x } q =
          none := hj
      simp [peerConnection, hj, hj']
    · have hj' : clusterIdToIdx { n with peerConnections := n.peerConnections.set idx x } q =
          some j := hj
      have hne : idx ≠ j := by
        rintro rfl
        have hsame := (clusterIdToIdx_spec hj).symm.trans (clusterIdToIdx_spec hidx)
        exact hq (Option.some.inj hsame)
      simp [peerConnection, hj, hj', List.getElem?_set_ne hne]

/-- Sending to a peer empties its slot or leaves everything. -/
lemma Aligned.sendToCluster_peer (h : Aligned n) (peer : NodeId) :
    (n.peerConnection peer = none ∧ n.sendToCluster peer = (n, none)) ∨
    (∃ c, n.peerConnection peer = some c ∧ c.writerTask = true ∧
      n.sendToCluster peer = (n, some c.link)) ∨
    ∃ c net, n.peerConnection peer = some c ∧ c.writerTask = false ∧
      n.sendToCluster peer = (net, none) ∧ net.peers = n.peers ∧
      net.peerConnection = update n.peerConnection peer none := by
  rcases n.sendToCluster_cases peer with hnone | hsome | ⟨c, idx, hc, hw, hidx, -, heq⟩
  · exact Or.inl hnone
  · exact Or.inr (Or.inl hsome)
  · exact Or.inr (Or.inr ⟨c, _, hc, hw, heq, rfl,
      peerConnection_setSlot (h.idx_lt hidx) hidx none⟩)

/-- A connection to a peer that is known takes the slot of the one before. -/
lemma Aligned.applyConnection_peer (h : Aligned n) {c : PeerConnection} (hc : c.peerId ∈ n.peers) :
    ∃ net, Network.applyConnection n (.ToPeer c) =
        (net, (n.peerConnection c.peerId).map PeerConnection.link) ∧
      net.peers = n.peers ∧ net.peerConnection = update n.peerConnection c.peerId (some c) := by
  obtain ⟨idx, hidx⟩ : ∃ idx, n.clusterIdToIdx c.peerId = some idx :=
    Option.isSome_iff_exists.mp (List.findIdx?_isSome.trans
      (List.any_eq_true.mpr ⟨c.peerId, hc, by simp⟩))
  refine ⟨{ n with peerConnections := n.peerConnections.set idx (some c) }, ?_, rfl,
    peerConnection_setSlot (h.idx_lt hidx) hidx (some c)⟩
  simp [Network.applyConnection, peerConnection, hidx]

/-- The end of a writer is the end of one peer's. -/
lemma peerWriterEnded_peer (idx : ℕ) (peer : NodeId) :
    ((n.peerWriterEnded idx).peerConnection peer).map PeerConnection.link =
        (n.peerConnection peer).map PeerConnection.link ∧
      (n.clusterIdToIdx peer ≠ some idx →
        (n.peerWriterEnded idx).peerConnection peer = n.peerConnection peer) := by
  unfold peerWriterEnded
  split
  · rename_i c hslot
    have hlt : idx < n.peerConnections.length := (List.getElem?_eq_some_iff.mp hslot).1
    obtain ⟨slots, hslots⟩ : ∃ slots,
        slots = n.peerConnections.set idx (some { c with writerTask := false }) := ⟨_, rfl⟩
    rw [← hslots]
    have hidx' : clusterIdToIdx { n with peerConnections := slots } peer = n.clusterIdToIdx peer :=
      rfl
    rcases hj : n.clusterIdToIdx peer with _ | j
    · simp [peerConnection, hidx', hj]
    · simp only [peerConnection, hidx', hj, Option.bind_some]
      by_cases hjidx : idx = j
      · subst hjidx
        rw [hslots, List.getElem?_set_self hlt, hslot]
        simp
      · simp [hslots, List.getElem?_set_ne hjidx]
  · exact ⟨rfl, fun _ => rfl⟩

end Network

end OmniPaxosKV.ServerNetwork
