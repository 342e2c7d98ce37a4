import OmniPaxosKV.ServerLoop

/-!
What the loops of the server call, over whole runs.

A run is seen from outside: by the messages that arrived, and by the calls made. `appends_of_run`
says which commands are appended, and `starts_of_run` which start signals are sent. How the
messages fell into batches, and which of the two loops took them, makes no difference to either.
-/

namespace OmniPaxosKV.ServerLoop

open Common Store Server ServerNetwork TransSys

variable {Ω Msg : Type*} {op : OmniPaxos Ω Msg} {cfg : OmniPaxosKVConfig} {L : List Command}
  {S : ℕ} {path : Option String} {ω ω' : Ω} {c c' : Core Ω Msg} {s s' : State Ω Msg}

/-! ### What the loops call -/

/-- A start signal to all clients: its time, and whether the server announced it itself. -/
structure Round where
  startTime : Timestamp
  announced : Bool
  deriving DecidableEq

def Round.toClients (cfg : OmniPaxosKVConfig) (r : Round) : List (ClientId × Timestamp) :=
  (List.range' 1 cfg.numClients).map fun client => (client, r.startTime)

def Round.toPeers (cfg : OmniPaxosKVConfig) (r : Round) : List (NodeId × Timestamp) :=
  if r.announced then cfg.peers.map fun peer => (peer, r.startTime) else []

def Call.appended? : Call Msg → Option Command
  | .append command => some command
  | .applyConnection _ => none
  | .sendToCluster _ _ => none
  | .sendToClient _ _ => none
  | .saveSnapshot _ => none

def Call.clientStart? : Call Msg → Option (ClientId × Timestamp)
  | .sendToClient client (.StartSignal startTime) => some (client, startTime)
  | .sendToClient _ (.Read _ _) => none
  | .sendToClient _ (.Write _) => none
  | .append _ => none
  | .applyConnection _ => none
  | .sendToCluster _ _ => none
  | .saveSnapshot _ => none

def Call.clusterStart? : Call Msg → Option (NodeId × Timestamp)
  | .sendToCluster peer (.LeaderStartSignal startTime) => some (peer, startTime)
  | .sendToCluster _ (.OmniPaxosMessage _) => none
  | .append _ => none
  | .applyConnection _ => none
  | .sendToClient _ _ => none
  | .saveSnapshot _ => none

/-- The command that a message of a client is appended as. -/
def command (id : NodeId) : ClientId × ClientMessage → Command
  | (client, .Append commandId kvCommand) => ⟨client, id, commandId, kvCommand⟩

/-- From `c` to `c'` the commands `A` were appended and the rounds `rs` sent, in this order. -/
structure Adds (cfg : OmniPaxosKVConfig) (c c' : Core Ω Msg) (A : List Command)
    (rs : List Round) : Prop where
  id : c'.server.id = c.server.id
  appended : c'.calls.filterMap Call.appended? = c.calls.filterMap Call.appended? ++ A
  clients : c'.calls.filterMap Call.clientStart? =
    c.calls.filterMap Call.clientStart? ++ rs.flatMap (Round.toClients cfg)
  peers : c'.calls.filterMap Call.clusterStart? =
    c.calls.filterMap Call.clusterStart? ++ rs.flatMap (Round.toPeers cfg)

namespace Adds

variable {c'' : Core Ω Msg} {A A' : List Command} {rs rs' : List Round}

lemma refl (c : Core Ω Msg) : Adds cfg c c [] [] :=
  ⟨rfl, (List.append_nil _).symm, (List.append_nil _).symm, (List.append_nil _).symm⟩

lemma trans (h : Adds cfg c c' A rs) (h' : Adds cfg c' c'' A' rs') :
    Adds cfg c c'' (A ++ A') (rs ++ rs') := by
  refine ⟨h'.id.trans h.id, ?_, ?_, ?_⟩
  · rw [h'.appended, h.appended, List.append_assoc]
  · rw [h'.clients, h.clients, List.flatMap_append, List.append_assoc]
  · rw [h'.peers, h.peers, List.flatMap_append, List.append_assoc]

lemma call {calls : List (Call Msg)} (hA : calls.filterMap Call.appended? = A)
    (hclients : calls.filterMap Call.clientStart? = rs.flatMap (Round.toClients cfg))
    (hpeers : calls.filterMap Call.clusterStart? = rs.flatMap (Round.toPeers cfg)) :
    Adds cfg c (c.call calls) A rs := by
  refine ⟨rfl, ?_, ?_, ?_⟩
  · rw [Core.call, List.filterMap_append, hA]
  · rw [Core.call, List.filterMap_append, hclients]
  · rw [Core.call, List.filterMap_append, hpeers]

/-- What OmniPaxos does of itself is no call. -/
lemma omnipaxos (h : Adds cfg { c with omnipaxos := ω } c' A rs) : Adds cfg c c' A rs :=
  ⟨h.id, h.appended, h.clients, h.peers⟩

lemma sendOutgoingMsgs (c : Core Ω Msg) : Adds cfg c (c.sendOutgoingMsgs op) [] [] := by
  have hcall : Adds cfg { c with omnipaxos := (op.takeOutgoingMessages c.omnipaxos).1 }
      (c.sendOutgoingMsgs op) [] [] := by
    refine call ?_ ?_ ?_
    · simp [List.filterMap_map, Function.comp_def, Call.appended?]
    · simp [List.filterMap_map, Function.comp_def, Call.clientStart?]
    · simp [List.filterMap_map, Function.comp_def, Call.clusterStart?]
  exact hcall.omnipaxos

lemma relay (c : Core Ω Msg) (startTime : Timestamp) :
    Adds cfg c (c.sendClientStartSignals cfg startTime) [] [⟨startTime, false⟩] := by
  refine call ?_ ?_ ?_
  · simp [List.filterMap_map, Function.comp_def, Call.appended?]
  · simp [List.filterMap_map, Function.comp_def, Call.clientStart?, Round.toClients]
  · simp [List.filterMap_map, Function.comp_def, Call.clusterStart?, Round.toPeers]

lemma announce (c : Core Ω Msg) (startTime : Timestamp) :
    Adds cfg c (c.announce cfg startTime) [] [⟨startTime, true⟩] := by
  have heq : c.announce cfg startTime =
      c.call (cfg.peers.map (fun peer => .sendToCluster peer (.LeaderStartSignal startTime)) ++
        (List.range' 1 cfg.numClients).map fun client =>
          .sendToClient client (.StartSignal startTime)) := by
    simp [Core.announce, Core.sendClusterStartSignals, Core.sendClientStartSignals, Core.call]
  rw [heq]
  refine call ?_ ?_ ?_
  · simp [List.filterMap_map, Function.comp_def, Call.appended?]
  · simp [List.filterMap_map, Function.comp_def, Call.clientStart?, Round.toClients]
  · simp [List.filterMap_map, Function.comp_def, Call.clusterStart?, Round.toPeers]

end Adds

namespace Adds

lemma decided (c : Core Ω Msg) : Adds cfg c (c.handleDecidedEntries op cfg) [] [] := by
  obtain ⟨server, sent, saved, hid, hsent, heq⟩ := handleDecidedEntries_calls op cfg c
  have hadds : Adds cfg { c with server := server } ({ c with server := server }.call
      (sent.map Call.respond ++ (saved.map Call.saveSnapshot).toList)) [] [] := by
    refine call ?_ ?_ ?_
    · exact filterMap_respond (fun _ _ => rfl) (fun _ => rfl) saved
    · refine filterMap_respond (fun x hx => ?_) (fun _ => rfl) saved
      have hsome := hsent x hx
      obtain ⟨client, id | ⟨id, value⟩ | startTime⟩ := x
      · rfl
      · rfl
      · cases hsome
    · exact filterMap_respond (fun _ _ => rfl) (fun _ => rfl) saved
  rw [heq]
  exact ⟨hadds.id.trans hid, hadds.appended, hadds.clients, hadds.peers⟩

lemma handleClusterMessage (c : Core Ω Msg) (msg : ClusterMessage Msg) :
    Adds cfg c (c.handleClusterMessage op cfg msg) []
      (msg.startTime?.map fun startTime => ⟨startTime, false⟩).toList := by
  cases msg with
  | OmniPaxosMessage m => exact omnipaxos (decided _)
  | LeaderStartSignal startTime => exact relay c startTime

/-- Each start signal of a batch is relayed, in order. -/
lemma handleClusterMessages (messages : List (NodeId × ClusterMessage Msg)) (c : Core Ω Msg) :
    Adds cfg c (c.handleClusterMessages op cfg messages).1 []
      ((messages.filterMap fun m => m.2.startTime?).map fun startTime => ⟨startTime, false⟩) := by
  have hfold : ∀ c : Core Ω Msg, Adds cfg c
      (messages.foldl (fun c m => c.handleClusterMessage op cfg m.2) c) []
      ((messages.filterMap fun m => m.2.startTime?).map fun startTime => ⟨startTime, false⟩) := by
    induction messages with
    | nil => exact refl
    | cons m messages ih =>
      intro c
      have hone : Adds cfg c (c.handleClusterMessage op cfg m.2) [] _ :=
        handleClusterMessage c m.2
      have hadds := hone.trans (ih _)
      rw [List.filterMap_cons]
      cases htime : m.2.startTime? <;> simpa [htime] using hadds
  have hflush : Adds cfg _ (Core.sendOutgoingMsgs op _) [] [] := sendOutgoingMsgs
    (messages.foldl (fun c m => c.handleClusterMessage op cfg m.2) c)
  have hadds := (hfold c).trans hflush
  rw [List.append_nil, List.append_nil] at hadds
  exact hadds

lemma foldlM_appendToLog (messages : List (ClientId × ClientMessage))
    (h : messages.foldlM (fun c m => c.appendToLog op m.1 m.2) c = some c') :
    Adds cfg c c' (messages.map (command c.server.id)) [] := by
  induction messages generalizing c with
  | nil =>
    cases h
    exact refl _
  | cons m messages ih =>
    rw [List.foldlM_cons] at h
    obtain ⟨c₁, hc₁, h⟩ := Option.bind_eq_some_iff.mp h
    obtain ⟨client, id, cmd⟩ := m
    obtain ⟨ω, -, rfl⟩ := Option.map_eq_some_iff.mp hc₁
    have hfirst : Adds cfg c
        ({ c with omnipaxos := ω }.call [.append ⟨client, c.server.id, id, cmd⟩])
        [⟨client, c.server.id, id, cmd⟩] [] :=
      omnipaxos (call rfl rfl rfl)
    exact hfirst.trans (ih h)

/-- Each message of a batch is appended, in order. -/
lemma handleClientMessages {messages : List (ClientId × ClientMessage)}
    (h : c.handleClientMessages op messages = some c') :
    Adds cfg c c' (messages.map (command c.server.id)) [] := by
  obtain ⟨c₁, hc₁, rfl⟩ := Option.map_eq_some_iff.mp h
  have hflush : Adds cfg c₁ (c₁.sendOutgoingMsgs op) [] [] := sendOutgoingMsgs c₁
  have hadds := (foldlM_appendToLog messages hc₁).trans hflush
  rw [List.append_nil] at hadds
  exact hadds

lemma recoveryArm (c : Core Ω Msg) (now : Timestamp) (connection : NewConnection) :
    Adds cfg c (c.recoveryArm op cfg now connection) []
      (if c.Leads op then [⟨now, true⟩] else []) := by
  have hcall : Adds cfg c (c.call [.applyConnection connection]) [] [] := call rfl rfl rfl
  have hiff : (c.call [.applyConnection connection]).Leads op ↔ c.Leads op := Iff.rfl
  unfold Core.recoveryArm
  simp only [hiff]
  split_ifs with hleads
  · exact (hcall.trans (announce _ now)).trans (sendOutgoingMsgs _)
  · exact hcall.trans (sendOutgoingMsgs _)

lemma leaderTick (c : Core Ω Msg) (now : Timestamp) :
    Adds cfg c (c.leaderTick op cfg now).1 []
      (if (c.leaderTick op cfg now).2 then [⟨now + 2000, true⟩] else []) := by
  unfold Core.leaderTick
  split_ifs with hleads hdone
  · exact announce c (now + 2000)
  · exact absurd rfl hdone
  · simp_all
  · exact omnipaxos (sendOutgoingMsgs _)

lemma electionTick (c : Core Ω Msg) : Adds cfg c (c.electionTick op) [] [] :=
  omnipaxos (sendOutgoingMsgs _)

end Adds

/-! ### Whole runs -/

def Action.client? : Action Msg → Option (ClientId × ClientMessage)
  | .clientArrives client msg => some (client, msg)
  | .clusterArrives _ _ => none
  | .connectionArrives _ => none
  | .electionTick => none
  | .leaderTick _ => none
  | .clusterMessages _ => none
  | .clientMessages _ => none
  | .recovery _ => none

def Action.cluster? : Action Msg → Option (NodeId × ClusterMessage Msg)
  | .clusterArrives source msg => some (source, msg)
  | .clientArrives _ _ => none
  | .connectionArrives _ => none
  | .electionTick => none
  | .leaderTick _ => none
  | .clusterMessages _ => none
  | .clientMessages _ => none
  | .recovery _ => none

/-- The start time that the server chooses where it announces in this iteration. -/
def Action.announceTime? : Action Msg → Option Timestamp
  | .leaderTick now => some (now + 2000)
  | .recovery now => some now
  | .clusterArrives _ _ => none
  | .clientArrives _ _ => none
  | .connectionArrives _ => none
  | .electionTick => none
  | .clusterMessages _ => none
  | .clientMessages _ => none

lemma Core.leads_of_leaderTick {now : Timestamp} (h : (c.leaderTick op cfg now).2 = true) :
    c.Leads op := by
  unfold Core.leaderTick at h
  split_ifs at h with hleads
  exact ⟨true, hleads⟩

/-- The action `a` handles the messages `clients` and `cluster`, and sends the rounds `rs`. -/
structure Adding (op : OmniPaxos Ω Msg) (cfg : OmniPaxosKVConfig) (s : State Ω Msg)
    (a : Action Msg) (s' : State Ω Msg) (clients : List (ClientId × ClientMessage))
    (cluster : List (NodeId × ClusterMessage Msg)) (rs : List Round) : Prop where
  adds : Adds cfg s.core s'.core (clients.map (command s.core.server.id)) rs
  clientsTaken : s.clientMessages ++ a.client?.toList = clients ++ s'.clientMessages
  clusterTaken : s.clusterMessages ++ a.cluster?.toList = cluster ++ s'.clusterMessages
  relayed : (rs.filter fun r => !r.announced).map Round.startTime =
    cluster.filterMap fun m => m.2.startTime?
  announced : ((rs.filter Round.announced).map Round.startTime).Sublist a.announceTime?.toList
  leads : ∀ r ∈ rs, r.announced → s.core.Leads op
  running : s'.phase = .running → s.phase = .running ∨ rs ≠ []

/-- After the actions `as` the messages `clients` and `cluster` have been handled, and the rounds
`rs` sent. -/
structure Handled (cfg : OmniPaxosKVConfig) (as : List (Action Msg)) (s : State Ω Msg)
    (clients : List (ClientId × ClientMessage)) (cluster : List (NodeId × ClusterMessage Msg))
    (rs : List Round) : Prop where
  id : s.core.server.id = cfg.serverId
  clientsTaken : as.filterMap Action.client? = clients ++ s.clientMessages
  clusterTaken : as.filterMap Action.cluster? = cluster ++ s.clusterMessages
  appended : s.core.calls.filterMap Call.appended? = clients.map (command cfg.serverId)
  toClients : s.core.calls.filterMap Call.clientStart? = rs.flatMap (Round.toClients cfg)
  toPeers : s.core.calls.filterMap Call.clusterStart? = rs.flatMap (Round.toPeers cfg)
  relayed : (rs.filter fun r => !r.announced).map Round.startTime =
    cluster.filterMap fun m => m.2.startTime?
  announced : ((rs.filter Round.announced).map Round.startTime).Sublist
    (as.filterMap Action.announceTime?)
  running : s.phase = .running → rs ≠ []

section Handled

variable {as : List (Action Msg)} {a : Action Msg}
  {clients clients' : List (ClientId × ClientMessage)}
  {cluster cluster' : List (NodeId × ClusterMessage Msg)} {rs rs' : List Round}

/-- An action that handles no message and sends no round. -/
lemma Adding.quiet (hadds : Adds cfg s.core s'.core [] [])
    (hclients : s.clientMessages ++ a.client?.toList = s'.clientMessages)
    (hcluster : s.clusterMessages ++ a.cluster?.toList = s'.clusterMessages)
    (hphase : s'.phase = s.phase) : Adding op cfg s a s' [] [] [] :=
  ⟨hadds, hclients, hcluster, rfl, List.nil_sublist _, (fun r hr => by cases hr),
    fun hrun => .inl (hphase.symm.trans hrun)⟩

/-- **What an action adds.** -/
lemma adding_of_step (hs : step op cfg s a = some s') :
    ∃ clients cluster rs, Adding op cfg s a s' clients cluster rs := by
  cases a with
  | clusterArrives source msg =>
    obtain rfl := Option.some.inj hs
    exact ⟨[], [], [], .quiet (.refl _) (List.append_nil _) rfl rfl⟩
  | clientArrives client msg =>
    obtain rfl := Option.some.inj hs
    exact ⟨[], [], [], .quiet (.refl _) rfl (List.append_nil _) rfl⟩
  | connectionArrives connection =>
    obtain rfl := Option.some.inj hs
    exact ⟨[], [], [], .quiet (.refl _) (List.append_nil _) (List.append_nil _) rfl⟩
  | electionTick =>
    simp only [step] at hs
    split at hs
    · obtain rfl := Option.some.inj hs
      exact ⟨[], [], [], .quiet (.electionTick s.core) (List.append_nil _) (List.append_nil _) rfl⟩
    · cases hs
  | leaderTick now =>
    simp only [step] at hs
    split at hs
    · obtain rfl := Option.some.inj hs
      refine ⟨[], [], _, .leaderTick s.core now, List.append_nil _, List.append_nil _, ?_, ?_, ?_,
        ?_⟩
      · split_ifs <;> rfl
      · split_ifs
        · exact List.Sublist.refl _
        · exact List.nil_sublist _
      · intro r hr _
        split_ifs at hr with hdone
        · exact Core.leads_of_leaderTick hdone
        · cases hr
      · intro hphase
        dsimp only at hphase
        split_ifs at hphase ⊢ with hdone
        · exact .inr (List.cons_ne_nil _ _)
        · exact .inl hphase
    · cases hs
  | clusterMessages k =>
    simp only [step] at hs
    split at hs
    · obtain rfl := Option.some.inj hs
      refine ⟨[], s.clusterMessages.take k, _,
        .handleClusterMessages (s.clusterMessages.take k) s.core, List.append_nil _,
        by simp [Action.cluster?], ?_, ?_, ?_, ?_⟩
      · simp [List.filter_map, Function.comp_def]
      · simp [List.filter_map, Function.comp_def]
      · rintro r hr hannounced
        obtain ⟨startTime, -, rfl⟩ := List.mem_map.mp hr
        cases hannounced
      · intro hphase
        by_cases hstart : (s.core.handleClusterMessages op cfg (s.clusterMessages.take k)).2 = true
        · obtain ⟨m, hm, htime⟩ := List.any_eq_true.mp hstart
          obtain ⟨startTime, htime⟩ := ClusterMessage.startTime?_of_isStart htime
          have hmem : startTime ∈ (s.clusterMessages.take k).filterMap fun m => m.2.startTime? :=
            List.mem_filterMap.mpr ⟨m, hm, htime⟩
          exact .inr (List.ne_nil_of_mem (List.mem_map_of_mem hmem))
        · simp only [if_neg hstart] at hphase
          exact .inl hphase
    · cases hs
  | clientMessages k =>
    simp only [step] at hs
    split at hs
    · obtain ⟨core, hcore, rfl⟩ := Option.map_eq_some_iff.mp hs
      exact ⟨s.clientMessages.take k, [], [], .handleClientMessages hcore,
        by simp [Action.client?], List.append_nil _, rfl, List.nil_sublist _,
        (fun r hr => by cases hr), .inl⟩
    · cases hs
  | recovery now =>
    simp only [step] at hs
    split at hs
    · obtain rfl := Option.some.inj hs
      refine ⟨[], [], _, .recoveryArm s.core now _, List.append_nil _, List.append_nil _, ?_, ?_,
        ?_, .inl⟩
      · split_ifs <;> rfl
      · split_ifs
        · exact List.Sublist.refl _
        · exact List.nil_sublist _
      · intro r hr _
        split_ifs at hr with hleads
        · exact hleads
        · cases hr
    · cases hs

lemma filterMap_concat {α β : Type*} (f : α → Option β) (l : List α) (a : α) :
    (l ++ [a]).filterMap f = l.filterMap f ++ (f a).toList := by
  rw [List.filterMap_append]
  cases h : f a <;> simp [h]

/-- One action more. -/
lemma Handled.concat (h : Handled cfg as s clients cluster rs)
    (hadding : Adding op cfg s a s' clients' cluster' rs') :
    Handled cfg (as ++ [a]) s' (clients ++ clients') (cluster ++ cluster') (rs ++ rs') where
  id := hadding.adds.id.trans h.id
  clientsTaken := by
    rw [filterMap_concat, h.clientsTaken, List.append_assoc, List.append_assoc,
      hadding.clientsTaken]
  clusterTaken := by
    rw [filterMap_concat, h.clusterTaken, List.append_assoc, List.append_assoc,
      hadding.clusterTaken]
  appended := by rw [hadding.adds.appended, h.appended, h.id, List.map_append]
  toClients := by rw [hadding.adds.clients, h.toClients, List.flatMap_append]
  toPeers := by rw [hadding.adds.peers, h.toPeers, List.flatMap_append]
  relayed := by
    rw [List.filter_append, List.map_append, List.filterMap_append, h.relayed, hadding.relayed]
  announced := by
    rw [List.filter_append, List.map_append, filterMap_concat]
    exact h.announced.append hadding.announced
  running := by
    intro hphase
    rcases hadding.running hphase with hrun | hne
    · exact List.append_ne_nil_of_left_ne_nil (h.running hrun) rs'
    · exact List.append_ne_nil_of_right_ne_nil rs hne

end Handled

lemma handled_of_run {as : List (Action Msg)}
    (hr : (system op cfg L S path ω).run (start cfg L S path ω) as = some s) :
    ∃ clients cluster rs, Handled cfg as s clients cluster rs := by
  refine System.run_history (I := fun as s => ∃ clients cluster rs,
    Handled cfg as s clients cluster rs) ?_ ?_ hr
  · exact ⟨[], [], [], rfl, rfl, rfl, rfl, rfl, rfl, rfl, List.Sublist.refl _, fun h => by cases h⟩
  · rintro as s a s' - ⟨clients, cluster, rs, h⟩ hs
    obtain ⟨_, _, _, hadding⟩ := adding_of_step hs
    exact ⟨_, _, _, h.concat hadding⟩

/-- **Appends**: in every run of the loops, the commands appended are the messages of clients that
arrived, each once and in their order, up to those that still wait. -/
theorem appends_of_run {as : List (Action Msg)}
    (hr : (system op cfg L S path ω).run (start cfg L S path ω) as = some s) :
    ∃ taken, as.filterMap Action.client? = taken ++ s.clientMessages ∧
      s.core.calls.filterMap Call.appended? = taken.map (command cfg.serverId) := by
  obtain ⟨clients, cluster, rs, h⟩ := handled_of_run hr
  exact ⟨clients, h.clientsTaken, h.appended⟩

theorem appends_takesOver : ∃ s,
    (system (paxos 2) pair putThenGet 0 none fresh).run
      (start pair putThenGet 0 none fresh) takesOver = some s ∧
    s.core.calls.filterMap Call.appended? = putThenGet ∧
    ∃ taken, takesOver.filterMap Action.client? = taken ++ s.clientMessages ∧
      s.core.calls.filterMap Call.appended? = taken.map (command pair.serverId) := by
  obtain ⟨s, hr, happended⟩ : ∃ s, (system (paxos 2) pair putThenGet 0 none fresh).run
      (start pair putThenGet 0 none fresh) takesOver = some s ∧
      s.core.calls.filterMap Call.appended? = putThenGet := ⟨_, rfl, by decide⟩
  exact ⟨s, hr, happended, appends_of_run hr⟩

/-- **Start signals**: in every run of the loops, the start signals go out in rounds to all the
clients. Each signal of a peer is relayed in one round, in order; the others are announced to all
the peers as well, at a time of a tick or of a connection. No server is done establishing before
the first. -/
theorem starts_of_run {as : List (Action Msg)}
    (hr : (system op cfg L S path ω).run (start cfg L S path ω) as = some s) :
    ∃ taken rs, as.filterMap Action.cluster? = taken ++ s.clusterMessages ∧
      s.core.calls.filterMap Call.clientStart? = rs.flatMap (Round.toClients cfg) ∧
      s.core.calls.filterMap Call.clusterStart? = rs.flatMap (Round.toPeers cfg) ∧
      (rs.filter fun r => !r.announced).map Round.startTime =
        taken.filterMap (fun m => m.2.startTime?) ∧
      ((rs.filter Round.announced).map Round.startTime).Sublist
        (as.filterMap Action.announceTime?) ∧
      (s.phase = .running → rs ≠ []) := by
  obtain ⟨clients, cluster, rs, h⟩ := handled_of_run hr
  exact ⟨cluster, rs, h.clusterTaken, h.toClients, h.toPeers, h.relayed, h.announced, h.running⟩

theorem starts_takesOver : ∃ s,
    (system (paxos 2) pair putThenGet 0 none fresh).run
      (start pair putThenGet 0 none fresh) takesOver = some s ∧
    s.core.calls.filterMap Call.clientStart? = [(1, 3005), (1, 9)] ∧
    ∃ taken rs, takesOver.filterMap Action.cluster? = taken ++ s.clusterMessages ∧
      s.core.calls.filterMap Call.clientStart? = rs.flatMap (Round.toClients pair) ∧
      s.core.calls.filterMap Call.clusterStart? = rs.flatMap (Round.toPeers pair) ∧
      (rs.filter fun r => !r.announced).map Round.startTime =
        taken.filterMap (fun m => m.2.startTime?) ∧
      ((rs.filter Round.announced).map Round.startTime).Sublist
        (takesOver.filterMap Action.announceTime?) ∧
      (s.phase = .running → rs ≠ []) := by
  obtain ⟨s, hr, hstarts⟩ : ∃ s, (system (paxos 2) pair putThenGet 0 none fresh).run
      (start pair putThenGet 0 none fresh) takesOver = some s ∧
      s.core.calls.filterMap Call.clientStart? = [(1, 3005), (1, 9)] :=
    ⟨_, rfl, by decide⟩
  exact ⟨s, hr, hstarts, starts_of_run hr⟩

end OmniPaxosKV.ServerLoop
