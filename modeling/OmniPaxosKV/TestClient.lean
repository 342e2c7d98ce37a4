import Mathlib.Data.List.AList
import OmniPaxosKV.Common

/-!
The client inside the shim: its connection to the server, its record of requests, and the maps
of HTTP callers that wait for an answer.

A request is sent under the next free id. If the connection takes it, the caller is kept under
that id until the response with the same id arrives; if not, the caller gets an error at once
and the id stays free.
-/

namespace OmniPaxosKV.TestClient

open Common

/-! ### The network -/

/-- A connection to a server, with its two tasks while they run. -/
structure ServerConnection where
  link : LinkId
  readerTask : Bool
  writerTask : Bool
  deriving DecidableEq

def ServerConnection.new (link : LinkId) : ServerConnection := ⟨link, true, true⟩

structure Network where
  serverConnections : List (Option ServerConnection)
  deriving DecidableEq

namespace Network

def new (serverId : NodeId) (connection : ServerConnection) : Network :=
  ⟨(List.replicate (serverId + 1) none).set serverId (some connection)⟩

def isConnected (n : Network) (serverId : NodeId) : Bool :=
  match n.serverConnections[serverId]? with
  | some (some _) => true
  | _ => false

/-- Hands a message to the connection: the connection that takes it, if one does. The channel
to the writer task is closed once the task has ended. -/
def send (n : Network) (serverId : NodeId) : Network × Option LinkId :=
  match n.serverConnections[serverId]? with
  | some (some connection) =>
    if connection.writerTask then (n, some connection.link)
    else ({ n with serverConnections := n.serverConnections.set serverId none }, none)
  | some none => (n, none)
  | none => (n, none)

/-- The first half of `reconnect`: the old connection is closed. -/
def disconnect (n : Network) (serverId : NodeId) : Network :=
  { n with serverConnections := n.serverConnections.set serverId none }

/-- The second half of `reconnect`: a new connection is in place. -/
def connect (n : Network) (serverId : NodeId) (connection : ServerConnection) : Network :=
  { n with serverConnections := n.serverConnections.set serverId (some connection) }

/-- A task of a connection has ended. -/
def mapConnections (n : Network) (f : ServerConnection → ServerConnection) : Network :=
  { n with serverConnections := n.serverConnections.map (Option.map f) }

def readerEnded (n : Network) (link : LinkId) : Network :=
  n.mapConnections fun c => if c.link = link then { c with readerTask := false } else c

def writerEnded (n : Network) (link : LinkId) : Network :=
  n.mapConnections fun c => if c.link = link then { c with writerTask := false } else c

end Network

/-- The connections in place. -/
def Network.links (n : Network) : List LinkId :=
  n.serverConnections.filterMap (Option.map ServerConnection.link)

lemma Network.links_set {n : Network} {idx : ℕ} {connection : Option ServerConnection}
    {link : LinkId}
    (h : link ∈ Network.links
      { n with serverConnections := n.serverConnections.set idx connection }) :
    link ∈ n.links ∨ connection.map ServerConnection.link = some link := by
  obtain ⟨c, hc, hlink⟩ := List.mem_filterMap.mp h
  rcases List.mem_or_eq_of_mem_set hc with hc | rfl
  · exact Or.inl (List.mem_filterMap.mpr ⟨c, hc, hlink⟩)
  · exact Or.inr hlink

lemma Network.links_new (serverId : NodeId) (connection : ServerConnection) :
    (Network.new serverId connection).links ⊆ [connection.link] := by
  intro link h
  obtain ⟨c, hc, hlink⟩ := List.mem_filterMap.mp h
  rcases List.mem_or_eq_of_mem_set hc with hc | rfl
  · rw [List.eq_of_mem_replicate hc] at hlink
    cases hlink
  · obtain rfl : connection.link = link := by simpa using hlink
    simp

/-- Sending uses a connection in place, and at most drops one. -/
lemma Network.links_send (n : Network) (serverId : NodeId) :
    (n.send serverId).1.links ⊆ n.links ∧
      ∀ link, (n.send serverId).2 = some link → link ∈ n.links := by
  unfold Network.send
  split
  · rename_i connection hslot
    split_ifs with hw
    · refine ⟨List.Subset.refl _, fun link hlink => ?_⟩
      have hmem := List.mem_of_getElem? hslot
      exact List.mem_filterMap.mpr ⟨_, hmem, hlink⟩
    · refine ⟨fun link hlink => ?_, by simp⟩
      rcases Network.links_set hlink with hold | hnone
      · exact hold
      · cases hnone
  · exact ⟨List.Subset.refl _, by simp⟩
  · exact ⟨List.Subset.refl _, by simp⟩

lemma Network.links_mapConnections {n : Network} {f : ServerConnection → ServerConnection}
    (hf : ∀ c, (f c).link = c.link) : (n.mapConnections f).links = n.links := by
  unfold Network.links Network.mapConnections
  rw [List.filterMap_map]
  congr 1
  funext c
  cases c with
  | none => rfl
  | some c => exact congrArg some (hf c)

/-! ### The record of requests -/

structure RequestData where
  requestTime : Timestamp
  write : Bool
  responseTime : Option Timestamp
  deriving DecidableEq

structure ClientData where
  requestData : List RequestData
  responseCount : ℕ
  deriving DecidableEq

namespace ClientData

def new : ClientData := ⟨[], 0⟩

def newRequest (d : ClientData) (now : Timestamp) (isWrite : Bool) : ClientData :=
  { d with requestData := d.requestData ++ [⟨now, isWrite, none⟩] }

/-- Indexing past the end panics. -/
def newResponse (d : ClientData) (now : Timestamp) (commandId : CommandId) : Option ClientData :=
  match d.requestData[commandId]? with
  | some data => some
      { requestData := d.requestData.set commandId { data with responseTime := some now }
        responseCount := d.responseCount + 1 }
  | none => none

def requestCount (d : ClientData) : ℕ := d.requestData.length

@[simp] lemma newRequest_count (d : ClientData) (now : Timestamp) (isWrite : Bool) :
    (d.newRequest now isWrite).requestCount = d.requestCount + 1 := by
  simp [requestCount, newRequest]

lemma newResponse_isSome {d : ClientData} (now : Timestamp) {commandId : CommandId} :
    (d.newResponse now commandId).isSome ↔ commandId < d.requestCount := by
  unfold newResponse requestCount
  rcases h : d.requestData[commandId]? with _ | data
  · have := List.getElem?_eq_none_iff.mp h
    simp; omega
  · have := (List.getElem?_eq_some_iff.mp h).1
    simp; omega

lemma newResponse_count {d d' : ClientData} {now : Timestamp} {commandId : CommandId}
    (h : d.newResponse now commandId = some d') : d'.requestCount = d.requestCount := by
  unfold newResponse at h
  split at h
  · cases h
    simp [requestCount]
  · cases h

end ClientData

/-! ### The client -/

/-- The sending half of the one-shot channel an HTTP handler waits on. -/
abbrev Sender := ℕ

inductive ApiCommand
  | Put (key value : String) (tx : Sender)
  | Get (key : String) (tx : Sender)
  deriving DecidableEq

def ApiCommand.tx : ApiCommand → Sender
  | .Put _ _ tx => tx
  | .Get _ tx => tx

def ApiCommand.kvCmd : ApiCommand → KVCommand
  | .Put key value _ => .Put key value
  | .Get key _ => .Get key

/-- What is sent back to a caller, by where it comes from. -/
inductive Reply
  | ok
  | read (value : Option String)
  | error (errorMsg : String)
  deriving DecidableEq

/-- The text of the body. -/
def Reply.text : Reply → String
  | .ok => "Ok"
  | .read value => value.getD "Key not found"
  | .error errorMsg => errorMsg

abbrev Pending := AList fun _ : CommandId => Sender

def Pending.senders (m : Pending) : List Sender := m.entries.map Sigma.snd

structure Client where
  network : Network
  clientData : ClientData
  activeServer : NodeId
  nextRequestId : CommandId
  pendingGets : Pending
  pendingPuts : Pending
  deriving DecidableEq

namespace Client

def new (serverId : NodeId) (connection : ServerConnection) : Client where
  network := .new serverId connection
  clientData := .new
  activeServer := serverId
  nextRequestId := 0
  pendingGets := ∅
  pendingPuts := ∅

/-- Sends a request under the next id, which is used up only if the connection takes it. -/
def sendRequestManual (c : Client) (now : Timestamp) (cmd : KVCommand) :
    Client × Option (LinkId × ClientMessage) :=
  let isWrite := match cmd with
    | .Put _ _ => true
    | _ => false
  let request := ClientMessage.Append c.nextRequestId cmd
  match c.network.send c.activeServer with
  | (network, some link) =>
    ({ c with
        network := network
        clientData := c.clientData.newRequest now isWrite
        nextRequestId := c.nextRequestId + 1 }, some (link, request))
  | (network, none) => ({ c with network := network }, none)

/-- The branch of the loop that takes a command from the HTTP shim: what goes to the server,
and what the caller is told at once. -/
def handleApi (c : Client) (now : Timestamp) (cmd : ApiCommand) :
    Client × Option (LinkId × ClientMessage) × List (Sender × Reply) :=
  match cmd with
  | .Put k v tx =>
    let key := c.nextRequestId
    match c.sendRequestManual now (.Put k v) with
    | (c', none) => (c', none, [(tx, .error "Error: server disconnected")])
    | (c', some request) =>
      ({ c' with pendingPuts := c'.pendingPuts.insert key tx }, some request, [])
  | .Get k tx =>
    let key := c.nextRequestId
    match c.sendRequestManual now (.Get k) with
    | (c', none) => (c', none, [(tx, .error "Error: server disconnected")])
    | (c', some request) =>
      ({ c' with pendingGets := c'.pendingGets.insert key tx }, some request, [])

/-- Takes the caller out of the waiting puts, and answers it. -/
def answerPut (c : Client) (id : CommandId) : Client × List (Sender × Reply) :=
  match c.pendingPuts.lookup id with
  | some tx => ({ c with pendingPuts := c.pendingPuts.erase id }, [(tx, .ok)])
  | none => (c, [])

def answerGet (c : Client) (id : CommandId) (value : Option String) :
    Client × List (Sender × Reply) :=
  match c.pendingGets.lookup id with
  | some tx => ({ c with pendingGets := c.pendingGets.erase id }, [(tx, .read value)])
  | none => (c, [])

/-- The record of the response; it panics where the id is of no request. -/
def handleServerMessage (c : Client) (now : Timestamp) : ServerMessage → Option Client
  | .StartSignal _ => some c
  | .Write id => (c.clientData.newResponse now id).map fun d => { c with clientData := d }
  | .Read id _ => (c.clientData.newResponse now id).map fun d => { c with clientData := d }

/-- The branch of the loop that takes a message from the server. -/
def handleMessage (c : Client) (now : Timestamp) (msg : ServerMessage) :
    Option (Client × List (Sender × Reply)) :=
  let (c', answers) := match msg with
    | .Write id => c.answerPut id
    | .Read id value => c.answerGet id value
    | .StartSignal _ => (c, [])
  (c'.handleServerMessage now msg).map fun c'' => (c'', answers)

def failAllPending (c : Client) (errorMsg : String) : Client × List (Sender × Reply) :=
  ({ c with pendingPuts := ∅, pendingGets := ∅ },
    (c.pendingPuts.senders ++ c.pendingGets.senders).map fun tx => (tx, .error errorMsg))

end Client

/-! ### Waiting callers -/

@[simp] lemma Pending.senders_empty : Pending.senders ∅ = [] := rfl

lemma Pending.senders_insert {m : Pending} {id : CommandId} {tx : Sender} (h : id ∉ m) :
    Pending.senders (m.insert id tx) = tx :: m.senders := by
  unfold Pending.senders
  rw [AList.entries_insert_of_notMem h, List.map_cons]

lemma lookup_of_insert {m : Pending} {id id' : CommandId} {tx tx' : Sender}
    (h : (m.insert id tx).lookup id' = some tx') :
    id' = id ∧ tx' = tx ∨ m.lookup id' = some tx' := by
  by_cases heq : id' = id
  · subst heq
    exact Or.inl ⟨rfl, by simpa using h.symm⟩
  · exact Or.inr (by rwa [AList.lookup_insert_ne heq] at h)

/-- Taking a caller out leaves the others. -/
lemma Pending.senders_erase {m : Pending} {id : CommandId} {tx : Sender}
    (h : m.lookup id = some tx) : m.senders.Perm (tx :: Pending.senders (m.erase id)) := by
  have hmem : id ∈ m.entries.keys := AList.mem_keys.mp (AList.lookup_isSome.mp (by simp [h]))
  obtain ⟨tx', l₁, l₂, hl₁, hentries, herase⟩ := List.exists_of_kerase hmem
  have htx : tx' = tx := by
    have hlookup : m.entries.dlookup id = some tx := h
    rw [hentries, List.dlookup_append] at hlookup
    have hnone : l₁.dlookup id = none := List.dlookup_eq_none.mpr hl₁
    simpa [hnone] using hlookup
  have herase' : (m.erase id).entries = l₁ ++ l₂ := herase
  unfold Pending.senders
  rw [herase', hentries, List.map_append, List.map_cons, List.map_append, htx]
  exact List.perm_middle

lemma lookup_of_erase {m : Pending} {id id' : CommandId} {tx : Sender}
    (h : AList.lookup id' (m.erase id) = some tx) : m.lookup id' = some tx := by
  by_cases hid : id' = id
  · subst hid
    simp at h
  · rwa [AList.lookup_erase_ne hid] at h

/-! ### What the branches of the loop do -/

/-- What a command from the shim does: it is refused, or it is sent and its caller waits. -/
lemma handleApi_cases (c : Client) (now : Timestamp) (cmd : ApiCommand) :
    (∃ n, c.handleApi now cmd = ({ c with network := n }, none,
      [(cmd.tx, .error "Error: server disconnected")])) ∨
    ∃ n link d puts gets, d.requestCount = c.clientData.requestCount + 1 ∧
      c.handleApi now cmd = (⟨n, d, c.activeServer, c.nextRequestId + 1, gets, puts⟩,
        some (link, .Append c.nextRequestId cmd.kvCmd), []) ∧
      ((∃ k v, cmd = .Put k v cmd.tx ∧ puts = c.pendingPuts.insert c.nextRequestId cmd.tx ∧
          gets = c.pendingGets) ∨
        ∃ k, cmd = .Get k cmd.tx ∧ puts = c.pendingPuts ∧
          gets = c.pendingGets.insert c.nextRequestId cmd.tx) := by
  rcases hsend : c.network.send c.activeServer with ⟨n, _ | link⟩
  · left
    refine ⟨n, ?_⟩
    cases cmd <;> simp [Client.handleApi, Client.sendRequestManual, hsend, ApiCommand.tx]
  · right
    cases cmd with
    | Put k v tx =>
      refine ⟨n, link, c.clientData.newRequest now true, _, _, by simp, ?_,
        Or.inl ⟨k, v, rfl, rfl, rfl⟩⟩
      simp [Client.handleApi, Client.sendRequestManual, hsend, ApiCommand.tx, ApiCommand.kvCmd]
    | Get k tx =>
      refine ⟨n, link, c.clientData.newRequest now false, _, _, by simp, ?_,
        Or.inr ⟨k, rfl, rfl, rfl⟩⟩
      simp [Client.handleApi, Client.sendRequestManual, hsend, ApiCommand.tx, ApiCommand.kvCmd]

/-- A command from the shim uses the network for one send. -/
lemma handleApi_network (c : Client) (now : Timestamp) (cmd : ApiCommand) :
    (c.handleApi now cmd).1.network = (c.network.send c.activeServer).1 ∧
      (c.handleApi now cmd).2.1.map Prod.fst = (c.network.send c.activeServer).2 := by
  rcases hsend : c.network.send c.activeServer with ⟨n, _ | link⟩
  · cases cmd <;> simp [Client.handleApi, Client.sendRequestManual, hsend]
  · cases cmd <;> simp [Client.handleApi, Client.sendRequestManual, hsend]

/-- What a message from the server does: it takes at most its own caller out of the maps. -/
lemma handleMessage_cases {c c' : Client} {now : Timestamp} {msg : ServerMessage}
    {answers : List (Sender × Reply)} (h : c.handleMessage now msg = some (c', answers)) :
    ∃ d puts gets, d.requestCount = c.clientData.requestCount ∧
      c' = ⟨c.network, d, c.activeServer, c.nextRequestId, gets, puts⟩ ∧
      ((puts = c.pendingPuts ∧ gets = c.pendingGets ∧ answers = []) ∨
        (∃ id tx, msg = .Write id ∧ c.pendingPuts.lookup id = some tx ∧
          puts = c.pendingPuts.erase id ∧ gets = c.pendingGets ∧ answers = [(tx, .ok)]) ∨
        ∃ id value tx, msg = .Read id value ∧ c.pendingGets.lookup id = some tx ∧
          puts = c.pendingPuts ∧ gets = c.pendingGets.erase id ∧
          answers = [(tx, .read value)]) := by
  cases msg with
  | StartSignal time =>
    obtain ⟨rfl, rfl⟩ : c = c' ∧ [] = answers := by
      simpa [Client.handleMessage, Client.handleServerMessage] using h
    exact ⟨_, _, _, rfl, rfl, Or.inl ⟨rfl, rfl, rfl⟩⟩
  | Write id =>
    simp only [Client.handleMessage, Client.handleServerMessage, Option.map_map,
      Option.map_eq_some_iff] at h
    obtain ⟨d, hd, hc⟩ := h
    obtain ⟨rfl, rfl⟩ := Prod.mk.inj hc
    rcases hlookup : c.pendingPuts.lookup id with _ | tx
    · have hans : c.answerPut id = (c, []) := by simp [Client.answerPut, hlookup]
      rw [hans] at hd ⊢
      exact ⟨d, _, _, ClientData.newResponse_count hd, rfl, Or.inl ⟨rfl, rfl, rfl⟩⟩
    · have hans : c.answerPut id =
          ({ c with pendingPuts := c.pendingPuts.erase id }, [(tx, .ok)]) := by
        simp [Client.answerPut, hlookup]
      rw [hans] at hd ⊢
      exact ⟨d, _, _, ClientData.newResponse_count hd, rfl,
        Or.inr (Or.inl ⟨id, tx, rfl, hlookup, rfl, rfl, rfl⟩)⟩
  | Read id value =>
    simp only [Client.handleMessage, Client.handleServerMessage, Option.map_map,
      Option.map_eq_some_iff] at h
    obtain ⟨d, hd, hc⟩ := h
    obtain ⟨rfl, rfl⟩ := Prod.mk.inj hc
    rcases hlookup : c.pendingGets.lookup id with _ | tx
    · have hans : c.answerGet id value = (c, []) := by simp [Client.answerGet, hlookup]
      rw [hans] at hd ⊢
      exact ⟨d, _, _, ClientData.newResponse_count hd, rfl, Or.inl ⟨rfl, rfl, rfl⟩⟩
    · have hans : c.answerGet id value =
          ({ c with pendingGets := c.pendingGets.erase id }, [(tx, .read value)]) := by
        simp [Client.answerGet, hlookup]
      rw [hans] at hd ⊢
      exact ⟨d, _, _, ClientData.newResponse_count hd, rfl,
        Or.inr (Or.inr ⟨id, value, tx, rfl, hlookup, rfl, rfl, rfl⟩)⟩

end OmniPaxosKV.TestClient
