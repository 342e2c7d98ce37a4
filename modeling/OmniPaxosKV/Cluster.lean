import OmniPaxosKV.Crash
import OmniPaxosKV.ServerNetwork
import OmniPaxosKV.Tracking

/-!
The whole deployment: servers with their disks and tables of connections, client processes with
the HTTP requests they serve, and the connections between them.

Of OmniPaxos only the decided sequence is kept: what a server appends waits in a pool until it
is decided, and each server knows of a prefix of what is decided. A connection is a queue each
way, from which any message may be lost. Processes and servers stop and start at any time.
-/

namespace OmniPaxosKV.Cluster

open Common Store Server Crash TestClient Tracking TransSys

open Function (update)

/-- An appended command, with the process that sent it and the HTTP request it is for. -/
structure Entry where
  command : Command
  origin : ProcId
  tx : Sender
  deriving DecidableEq

/-- A response that a server handed to a connection, with the index of its entry. -/
structure Handed where
  node : NodeId
  index : ℕ
  link : LinkId
  msg : ServerMessage
  deriving DecidableEq

/-- What a server makes of a connection. -/
inductive ServerEnd
  /-- The registration is still to be read. -/
  | connecting
  | registered (client : ClientId)
  | closed
  deriving DecidableEq

/-- Where a client process is. -/
inductive Phase
  | unstarted
  /-- In `wait_for_start_signal`. -/
  | waiting
  /-- In the main loop. -/
  | running
  /-- In `reconnect_loop`. -/
  | reconnecting
  | panicked
  | exited
  deriving DecidableEq

/-- An HTTP request, with the time it was called at and what it returned when. -/
structure Request where
  proc : ProcId
  cmd : KVCommand
  called : ℕ
  returned : Option (ℕ × Reply)
  deriving DecidableEq

structure Config (Text : Type) where
  serde : SerdeJson Text
  interval : ℕ
  /-- The server a client process connects to. -/
  home : ProcId → NodeId
  numClients : NodeId → ℕ

structure State (Text : Type) where
  log : List Entry
  /-- What was appended and is not decided. -/
  pool : List Entry
  nodes : NodeId → Node Text
  nets : NodeId → ServerNetwork.Network
  /-- Registered connections on their way to the server's loop, in no particular order. -/
  registering : NodeId → List ServerNetwork.ClientConnection
  /-- The client process each link belongs to. -/
  owners : List ProcId
  serverEnd : LinkId → ServerEnd
  up : LinkId → List Sent
  down : LinkId → List ServerMessage
  phase : ProcId → Phase
  /-- What the HTTP handlers of a process send to its client, in no particular order. -/
  httpRx : ProcId → List ApiCommand
  trackers : ProcId → Tracker
  requests : List Request
  clock : ℕ
  handed : List Handed

inductive Action (Text : Type)
  | procStarts (p : ProcId)
  | procExits (p : ProcId)
  | httpPut (p : ProcId) (key value : String)
  | httpGet (p : ProcId) (key : String)
  /-- The handler of a request gets the answer. -/
  | httpReturns (tx : Sender)
  /-- The handler of a request gives up. -/
  | httpFails (tx : Sender) (errorMsg : String)
  | clientApi (p : ProcId) (i : ℕ) (now : Timestamp)
  | clientMessage (link : LinkId) (now : Timestamp)
  | clientTimer (p : ProcId)
  | clientReconnects (p : ProcId)
  | clientReaderEnds (link : LinkId)
  | clientWriterEnds (link : LinkId)
  | register (link : LinkId)
  | applyConnection (n : NodeId) (i : ℕ)
  | serverWriterEnds (n : NodeId) (client : ClientId)
  | handleClientMessage (link : LinkId)
  | loseUp (link : LinkId) (i : ℕ)
  | loseDown (link : LinkId) (i : ℕ)
  | decided (i : ℕ)
  | node (n : NodeId) (a : NodeAction Text)
  | startSignals (n : NodeId) (startTime : Timestamp)

variable {Text : Type}

namespace State

variable (s : State Text)

def commands : List Command := s.log.map Entry.command

/-- What a server has not passed yet. -/
def unhandled (n : NodeId) : List Entry := s.log.drop (s.nodes n).handled ++ s.pool

/-- Puts requests on the links they were accepted for. -/
def push (sent : List Sent) : State Text :=
  { s with up := fun link => s.up link ++ sent.filter fun a => a.link = link }

/-- The client of a process meets an event. The requests it accepts go out. -/
def event (p : ProcId) (e : Event) : Option (State Text) :=
  if s.phase p = .unstarted then none
  else ((s.trackers p).step e).map fun t =>
    State.push { s with trackers := update s.trackers p t }
      (t.accepted.drop (s.trackers p).accepted.length)

/-- A process opens a connection; its link is the next free one. -/
def openLink (p : ProcId) : State Text := { s with owners := s.owners ++ [p] }

def setPhase (p : ProcId) (phase : Phase) : State Text :=
  { s with phase := update s.phase p phase }

/-- An HTTP handler hands its command to the client. -/
def request (p : ProcId) (cmd : ApiCommand) : Option (State Text) :=
  if s.phase p = .unstarted ∨ s.phase p = .exited then none
  else some { s with
    requests := s.requests ++ [⟨p, cmd.kvCmd, s.clock, none⟩]
    httpRx := update s.httpRx p (s.httpRx p ++ [cmd]) }

/-- An HTTP handler returns. -/
def respond (tx : Sender) (reply : Reply) : Option (State Text) :=
  match s.requests[tx]? with
  | some r =>
    if r.returned = none ∧ s.phase r.proc ≠ .exited then
      some { s with requests := s.requests.set tx { r with returned := some (s.clock, reply) } }
    else none
  | none => none

/-- The client of a process takes a message from its server. -/
def takeMessage (p : ProcId) (now : Timestamp) (msg : ServerMessage) : Option (State Text) :=
  match s.phase p with
  | .waiting =>
    match msg with
    | .StartSignal _ => some (s.setPhase p .running)
    | .Write _ => some s
    | .Read _ _ => some s
  | .running =>
    match s.event p (.message now msg) with
    | some s' => some s'
    -- `new_response` indexes out of bounds
    | none => some (s.setPhase p .panicked)
  | .unstarted => none
  | .reconnecting => none
  | .panicked => none
  | .exited => none

/-- Sends to a client of a server; `index` is the index of the entry, for a response. -/
def sendToClient (n : NodeId) (index : Option ℕ) (s : State Text) (x : Send) : State Text :=
  let (net, link) := (s.nets n).sendToClient x.1
  match link with
  | some l => { s with
      nets := update s.nets n net
      down := update s.down l (s.down l ++ [x.2])
      handed := s.handed ++ (index.map fun i => ⟨n, i, l, x.2⟩).toList }
  | none => { s with nets := update s.nets n net }

end State

/-- What the HTTP handlers answer by themselves. -/
def httpErrors : List String :=
  ["Error: client unavailable", "Error: request dropped", "Error: timeout"]

section System

variable (cfg : Config Text)

/-- The connections of a server are gone with it. -/
def State.dropConnections (s : State Text) (n : NodeId) : State Text :=
  { s with
    nets := update s.nets n (.new [])
    registering := update s.registering n []
    serverEnd := fun link =>
      if (s.owners[link]?).map cfg.home = some n then .closed else s.serverEnd link }

/-- A server reads the registration of a client. -/
def State.register (s : State Text) (n : NodeId) (link : LinkId) : State Text :=
  let (net, client) := (s.nets n).nextClientId
  { s with
    nets := update s.nets n net
    registering := update s.registering n (s.registering n ++ [⟨client, link, true⟩])
    serverEnd := update s.serverEnd link (.registered client) }

/-- A server appends the command of a client to the log. -/
def State.appendToLog (s : State Text) (n : NodeId) (from' : ClientId) (p : ProcId) (a : Sent) :
    State Text :=
  match a.message with
  | .Append commandId kvCommand =>
    { s with pool := s.pool ++ [⟨⟨from', n, commandId, kvCommand⟩, p, a.cmd.tx⟩] }

def step (s : State Text) : Action Text → Option (State Text)
  | .procStarts p =>
    if s.phase p = .unstarted ∧ (s.nodes (cfg.home p)).proc.isSome then
      some { (s.openLink p).setPhase p .waiting with
        trackers := update s.trackers p (Tracker.new (cfg.home p) s.owners.length) }
    else none
  | .procExits p => if s.phase p = .unstarted then none else some (s.setPhase p .exited)
  | .httpPut p key value => s.request p (.Put key value s.requests.length)
  | .httpGet p key => s.request p (.Get key s.requests.length)
  | .httpReturns tx =>
    (s.requests[tx]?).bind fun r =>
      ((s.trackers r.proc).answers.find? fun a => a.tx = tx).bind fun a => s.respond tx a.reply
  | .httpFails tx errorMsg => if errorMsg ∈ httpErrors then s.respond tx (.error errorMsg) else none
  | .clientApi p i now =>
    match (s.httpRx p)[i]? with
    | some cmd =>
      if s.phase p = .running then
        State.event { s with httpRx := update s.httpRx p ((s.httpRx p).eraseIdx i) } p
          (.api now cmd)
      else none
    | none => none
  | .clientMessage link now =>
    (s.owners[link]?).bind fun p =>
      match s.down link with
      | msg :: rest => State.takeMessage { s with down := update s.down link rest } p now msg
      | [] => none
  | .clientTimer p =>
    let client := (s.trackers p).client
    if s.phase p = .running ∧ client.network.isConnected client.activeServer = false then
      (s.event p .connectionLost).map fun s' => s'.setPhase p .reconnecting
    else none
  | .clientReconnects p =>
    if s.phase p = .reconnecting ∧ (s.nodes (cfg.home p)).proc.isSome then
      ((s.openLink p).event p (.reconnected s.owners.length)).map fun s' => s'.setPhase p .running
    else none
  | .clientReaderEnds link => (s.owners[link]?).bind fun p => s.event p (.readerEnded link)
  | .clientWriterEnds link => (s.owners[link]?).bind fun p => s.event p (.writerEnded link)
  | .register link =>
    (s.owners[link]?).bind fun p =>
      if s.serverEnd link = .connecting ∧ (s.nodes (cfg.home p)).proc.isSome then
        some (s.register (cfg.home p) link)
      else none
  | .applyConnection n i =>
    match (s.registering n)[i]? with
    | some connection => some { s with
        nets := update s.nets n ((s.nets n).applyConnection (.ToClient connection)).1
        registering := update s.registering n ((s.registering n).eraseIdx i) }
    | none => none
  | .serverWriterEnds n client =>
    some { s with nets := update s.nets n ((s.nets n).clientWriterEnded client) }
  | .handleClientMessage link =>
    (s.owners[link]?).bind fun p =>
      match s.serverEnd link, s.up link with
      | .registered client, a :: rest => some
          (State.appendToLog { s with up := update s.up link rest } (cfg.home p) client p a)
      | .registered _, [] => none
      | .connecting, _ => none
      | .closed, _ => none
  | .loseUp link i => some { s with up := update s.up link ((s.up link).eraseIdx i) }
  | .loseDown link i => some { s with down := update s.down link ((s.down link).eraseIdx i) }
  | .decided i =>
    match s.pool[i]? with
    | some e => some { s with log := s.log ++ [e], pool := s.pool.eraseIdx i }
    | none => none
  | .node n a =>
    ((s.nodes n).step cfg.serde cfg.interval n s.commands a).map fun r =>
      let s' := r.2.foldl (State.sendToClient n (s.nodes n).handled) s
      let s'' := { s' with nodes := update s'.nodes n r.1 }
      if a.isCrash then s''.dropConnections cfg n else s''
  | .startSignals n startTime =>
    if (s.nodes n).proc.isSome then
      some ((List.range' 1 (cfg.numClients n)).foldl
        (fun s client => s.sendToClient n none (client, .StartSignal startTime)) s)
    else none

/-- Nothing runs yet, and no server has a snapshot it could read. -/
def start (files : NodeId → Files Text) : State Text where
  log := []
  pool := []
  nodes n := ⟨files n, 0, none⟩
  nets _ := .new []
  registering _ := []
  owners := []
  serverEnd _ := .connecting
  up _ := []
  down _ := []
  phase _ := .unstarted
  httpRx _ := []
  trackers p := Tracker.new (cfg.home p) 0
  requests := []
  clock := 0
  handed := []

/-- The clock ticks with every step. -/
def system : System (State Text) (Action Text) where
  init s := ∃ files, (∀ n json, files n (snapshotPath n) = some json →
    cfg.serde.fromStr json = none) ∧ s = start cfg files
  step s a := (step cfg s a).map fun s' => { s' with clock := s'.clock + 1 }

end System

/-- Taking from one queue takes from no other. -/
lemma update_sublist {α β : Type*} [DecidableEq α] {f : α → List β} {a : α} {l : List β}
    (h : l.Sublist (f a)) (b : α) : (update f a l b).Sublist (f b) := by
  by_cases hb : b = a
  · subst hb
    rwa [Function.update_self]
  · rw [Function.update_of_ne hb]

/-- What an event of a client does: the commands it takes, and the requests it sends out. -/
lemma State.event_cases {s s' : State Text} {p : ProcId} {e : Event} (h : s.event p e = some s') :
    s.phase p ≠ .unstarted ∧ ∃ t cmds sent, (s.trackers p).step e = some t ∧
      t.taken = (s.trackers p).taken ++ cmds ∧ t.accepted = (s.trackers p).accepted ++ sent ∧
      (sent.map Sent.cmd).Sublist cmds ∧ (∀ cmd ∈ cmds, ∃ now, e = .api now cmd) ∧
      (∀ a ∈ sent, a.link ∈ (s.trackers p).client.network.links) ∧
      s' = { s with
        trackers := update s.trackers p t
        up := fun link => s.up link ++ sent.filter fun a => a.link = link } := by
  unfold State.event at h
  split_ifs at h with hun
  obtain ⟨t, ht, rfl⟩ := Option.map_eq_some_iff.mp h
  obtain ⟨cmds, sent, htaken, haccepted, hsub, hcmds, hlinks⟩ := step_accepted ht
  refine ⟨hun, t, cmds, sent, ht, htaken, haccepted, hsub, hcmds, hlinks, ?_⟩
  rw [haccepted, List.drop_left]
  rfl

end OmniPaxosKV.Cluster
