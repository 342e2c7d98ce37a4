import OmniPaxosKV.LoopDrives

/-!
The loops of several servers.

A message of a peer arrives only if the peer called `send_to_cluster` with it; it may arrive late,
more than once or never. `refines_library` says that OmniPaxos is run as over such a network: what
it is given was given out by the OmniPaxos of a server, for this one. `announced_of_run` says that
every start signal goes back to a server that led.
-/

namespace OmniPaxosKV.ServerCluster

open Common Store Server ServerNetwork ServerLoop TransSys

variable {Ω Msg : Type*} [DecidableEq Msg]

/-- What a call puts on its way to a peer. -/
def toCluster? : Call Msg → Option (NodeId × ClusterMessage Msg)
  | .sendToCluster peer msg => some (peer, msg)
  | .append _ => none
  | .applyConnection _ => none
  | .sendToClient _ _ => none
  | .saveSnapshot _ => none

/-- A message of a peer was sent. -/
def Sent (nodes : NodeId → State Ω Msg) (n : NodeId) : Action Msg → Prop
  | .clusterArrives source msg => (n, msg) ∈ (nodes source).core.calls.filterMap toCluster?
  | .clientArrives _ _ => True
  | .connectionArrives _ => True
  | .electionTick => True
  | .leaderTick _ => True
  | .clusterMessages _ => True
  | .clientMessages _ => True
  | .recovery _ => True

instance (nodes : NodeId → State Ω Msg) (n : NodeId) (a : Action Msg) :
    Decidable (Sent nodes n a) := by
  cases a <;> unfold Sent <;> infer_instance

section Cluster

variable (op : NodeId → OmniPaxos Ω Msg) (cfg : NodeId → OmniPaxosKVConfig) (L : List Command)
  (S : NodeId → ℕ) (path : NodeId → Option String) (ω : NodeId → Ω)

def startAll : NodeId → State Ω Msg := fun n => start (cfg n) L (S n) (path n) (ω n)

def cluster : System (NodeId → State Ω Msg) (NodeId × Action Msg) :=
  .sideBySide (fun n => system (op n) (cfg n) L (S n) (path n) (ω n)) Sent

end Cluster

variable {op : NodeId → OmniPaxos Ω Msg} {cfg : NodeId → OmniPaxosKVConfig} {L : List Command}
  {S : NodeId → ℕ} {path : NodeId → Option String} {ω : NodeId → Ω}
  {nodes nodes' : NodeId → State Ω Msg} {n : NodeId} {a : Action Msg}

lemma cluster_init : (cluster op cfg L S path ω).init (startAll cfg L S path ω) := fun _ => rfl

lemma cluster_step (hs : (cluster op cfg L S path ω).step nodes (n, a) = some nodes') :
    Sent nodes n a ∧ ∃ s, step (op n) (cfg n) (nodes n) a = some s ∧
      nodes' = Function.update nodes n s :=
  System.sideBySide_step hs

/-! ### The servers run OmniPaxos -/

section Library

variable (op : NodeId → OmniPaxos Ω Msg) (ω : NodeId → Ω)

omit [DecidableEq Msg] in
/-- The OmniPaxos of all servers, under any calls. -/
def library : System (NodeId → Driven Ω Msg) (NodeId × Input Msg) :=
  .sideBySide (fun n => (op n).api (ω n)) fun _ _ _ => True

/-- A message that is handed to OmniPaxos was given out by that of a server, for this one. -/
def Delivers (u : NodeId → Driven Ω Msg) (x : NodeId × Input Msg) : Prop :=
  ∀ m, x.2.incoming? = some m →
    ∃ source, m ∈ (u source).out ∧ (op source).getReceiver m = x.1

end Library

omit [DecidableEq Msg] in
/-- What was given out stays so. -/
lemma out_of_call {op : OmniPaxos Ω Msg} {d d' : Driven Ω Msg} {x : Input Msg}
    (h : op.call d x = some d') : d.out <+: d'.out := by
  cases x with
  | tick =>
    obtain rfl := Option.some.inj h
    exact List.prefix_refl _
  | tryBecomeLeader =>
    obtain rfl := Option.some.inj h
    exact List.prefix_refl _
  | handleIncoming m =>
    obtain rfl := Option.some.inj h
    exact List.prefix_refl _
  | append command =>
    obtain ⟨ω, -, rfl⟩ := Option.map_eq_some_iff.mp h
    exact List.prefix_refl _
  | takeOutgoingMessages =>
    obtain rfl := Option.some.inj h
    exact List.prefix_append _ _

omit [DecidableEq Msg] in
lemma out_of_run {op : OmniPaxos Ω Msg} {ω : Ω} {d d' : Driven Ω Msg} {ins : List (Input Msg)}
    (h : (op.api ω).run d ins = some d') : d.out <+: d'.out := by
  refine System.run_history (I := fun _ d' => d.out <+: d'.out) (List.prefix_refl _) ?_ h
  intro ins d₁ x d₂ _ hpre hs
  exact hpre.trans (out_of_call hs)

omit [DecidableEq Msg] in
/-- What one server calls OmniPaxos with, of what has been given out for it. -/
lemma library_meets {u : NodeId → Driven Ω Msg} {d : Driven Ω Msg} {ins : List (Input Msg)}
    (hr : ((op n).api (ω n)).run (u n) ins = some d)
    (hin : ∀ m ∈ ins.filterMap Input.incoming?,
      ∃ source, m ∈ (u source).out ∧ (op source).getReceiver m = n) :
    (library op ω).Meets (Delivers op) u (ins.map fun x => (n, x)) := by
  induction ins generalizing u with
  | nil => trivial
  | cons x ins ih =>
    simp only [System.run, List.foldlM_cons, Option.bind_eq_bind, Option.bind_eq_some_iff] at hr
    obtain ⟨d', hs, hr⟩ := hr
    have hstep : (library op ω).step u (n, x) = some (Function.update u n d') := by
      simp [library, System.sideBySide, hs]
    rw [List.map_cons, System.Meets, hstep]
    refine ⟨fun m hm => hin m (List.mem_filterMap.mpr ⟨x, List.mem_cons_self, hm⟩), ?_⟩
    refine ih (u := Function.update u n d') (by rwa [Function.update_self]) fun m hm => ?_
    obtain ⟨y, hy, hym⟩ := List.mem_filterMap.mp hm
    obtain ⟨source, hout, hreceiver⟩ :=
      hin m (List.mem_filterMap.mpr ⟨y, List.mem_cons_of_mem _ hy, hym⟩)
    refine ⟨source, ?_, hreceiver⟩
    by_cases hsource : source = n
    · subst hsource
      rw [Function.update_self]
      exact (out_of_call hs).subset hout
    · rwa [Function.update_of_ne hsource]

omit [DecidableEq Msg] in
lemma mem_toCluster {calls : List (Call Msg)} {peer : NodeId} {msg : ClusterMessage Msg} :
    (peer, msg) ∈ calls.filterMap toCluster? ↔ .sendToCluster peer msg ∈ calls := by
  rw [List.mem_filterMap]
  constructor
  · rintro ⟨call, hmem, hcall⟩
    cases call <;> cases hcall
    exact hmem
  · exact fun hmem => ⟨_, hmem, rfl⟩

omit [DecidableEq Msg] in
lemma mem_handed {calls : List (Call Msg)} {peer : NodeId} {msg : Msg} :
    (peer, msg) ∈ calls.filterMap Call.handed? ↔
      .sendToCluster peer (.OmniPaxosMessage msg) ∈ calls := by
  rw [List.mem_filterMap]
  constructor
  · rintro ⟨call, hmem, hcall⟩
    rcases call with _ | _ | ⟨peer, msg | startTime⟩ | _ | _ <;> cases hcall
    exact hmem
  · exact fun hmem => ⟨_, hmem, rfl⟩

omit [DecidableEq Msg] in
lemma mem_clusterStart {calls : List (Call Msg)} {peer : NodeId} {startTime : Timestamp} :
    (peer, startTime) ∈ calls.filterMap Call.clusterStart? ↔
      .sendToCluster peer (.LeaderStartSignal startTime) ∈ calls := by
  rw [List.mem_filterMap]
  constructor
  · rintro ⟨call, hmem, hcall⟩
    rcases call with _ | _ | ⟨peer, msg | startTime⟩ | _ | _ <;> cases hcall
    exact hmem
  · exact fun hmem => ⟨_, hmem, rfl⟩

omit [DecidableEq Msg] in
lemma mem_omniPaxosMessages {messages : List (NodeId × ClusterMessage Msg)} {m : Msg} :
    m ∈ omniPaxosMessages messages ↔ ∃ source, (source, .OmniPaxosMessage m) ∈ messages := by
  unfold omniPaxosMessages
  rw [List.mem_filterMap]
  constructor
  · rintro ⟨⟨source, msg | startTime⟩, hmem, hmsg⟩ <;> cases hmsg
    exact ⟨source, hmem⟩
  · rintro ⟨source, hmem⟩
    exact ⟨_, hmem, rfl⟩

/-- Each server has its OmniPaxos as the library has it, and the messages that wait were given
out. -/
structure RunsLibrary (op : NodeId → OmniPaxos Ω Msg) (nodes : NodeId → State Ω Msg)
    (u : NodeId → Driven Ω Msg) : Prop where
  holds : ∀ n, Holds (op n) (nodes n).core (u n)
  waiting : ∀ n source m, (source, .OmniPaxosMessage m) ∈ (nodes n).clusterMessages →
    m ∈ (u source).out ∧ (op source).getReceiver m = n

/-- **A step of a server** calls its OmniPaxos with what was given out for it. -/
lemma RunsLibrary.step {u : NodeId → Driven Ω Msg} (h : RunsLibrary op nodes u)
    (hs : (cluster op cfg L S path ω).step nodes (n, a) = some nodes') :
    ∃ xs u', (library op ω).run u xs = some u' ∧ (library op ω).Meets (Delivers op) u xs ∧
      RunsLibrary op nodes' u' := by
  obtain ⟨hsent, s, hstep, rfl⟩ := cluster_step hs
  obtain ⟨ins, hiter⟩ := parts_of_step (P := fun _ => True) hstep fun _ _ => trivial
  have hdrives : Drives (op n) (ω n) (nodes n).core ins s.core := .parts hiter.parts
  obtain ⟨d, hr, hholds⟩ := hdrives.driven (u n) (h.holds n)
  -- what waits or arrives at the server was given out for it
  have harrived : ∀ source m, (source, .OmniPaxosMessage m) ∈
      (nodes n).clusterMessages ++ a.cluster?.toList →
      m ∈ (u source).out ∧ (op source).getReceiver m = n := by
    intro source m hm
    rcases List.mem_append.mp hm with hm | hm
    · exact h.waiting n source m hm
    · have ha : a = .clusterArrives source (.OmniPaxosMessage m) := by
        rcases a with ⟨source, msg⟩ | _ | _ | _ | _ | _ | _ | _ <;> simp [Action.cluster?] at hm
        obtain ⟨rfl, rfl⟩ := hm
        rfl
      rw [ha] at hsent
      have hhanded := mem_handed.mpr (mem_toCluster.mp hsent)
      rw [(h.holds source).handed, OmniPaxos.route] at hhanded
      obtain ⟨m', hm', heq⟩ := List.mem_map.mp hhanded
      obtain ⟨hreceiver, rfl⟩ := Prod.mk.inj heq
      exact ⟨hm', hreceiver⟩
  have hout : ∀ p, (u p).out ⊆ (Function.update u n d p).out := by
    intro p
    by_cases hp : p = n
    · subst hp
      rw [Function.update_self]
      exact (out_of_run hr).subset
    · rw [Function.update_of_ne hp]
      exact List.Subset.refl _
  rw [batch_of_step hstep] at harrived
  refine ⟨ins.map fun x => (n, x), Function.update u n d,
    System.sideBySide_run (fun _ _ _ => trivial) hr, library_meets hr fun m hm => ?_, ?_, ?_⟩
  · rw [hiter.incoming] at hm
    obtain ⟨source, hsource⟩ := mem_omniPaxosMessages.mp hm
    exact ⟨source, harrived source m (List.mem_append_left _ hsource)⟩
  · intro p
    by_cases hp : p = n
    · subst hp
      rw [Function.update_self, Function.update_self]
      exact hholds
    · rw [Function.update_of_ne hp, Function.update_of_ne hp]
      exact h.holds p
  · intro p source m hm
    by_cases hp : p = n
    · subst hp
      rw [Function.update_self] at hm
      obtain ⟨hmem, hreceiver⟩ := harrived source m (List.mem_append_right _ hm)
      exact ⟨hout source hmem, hreceiver⟩
    · rw [Function.update_of_ne hp] at hm
      obtain ⟨hmem, hreceiver⟩ := h.waiting p source m hm
      exact ⟨hout source hmem, hreceiver⟩

/-- **The servers run OmniPaxos**: every run of the cluster is a run of the library at each of its
servers, in which what is handed to it was given out by the library at a server for this one, and
what it gave out is what was handed to the network. -/
theorem refines_library (h : (cluster op cfg L S path ω).Reachable nodes) :
    ∃ u, (library op ω).Reaches (Delivers op) u ∧ ∀ n, (u n).omnipaxos = (nodes n).core.omnipaxos ∧
      (nodes n).core.calls.filterMap Call.handed? = (op n).route (u n).out := by
  obtain ⟨u, hreach, hruns⟩ := h.simulates (R := RunsLibrary op) (U := library op ω)
    (D := Delivers op)
    (by
      intro nodes hinit
      refine ⟨fun n => ⟨ω n, []⟩, .init fun n => rfl, fun n => ?_, fun n source m hm => ?_⟩
      · rw [hinit n]
        exact ⟨rfl, rfl⟩
      · rw [hinit n] at hm
        cases hm)
    (by
      rintro nodes ⟨n, a⟩ nodes' u hruns hs -
      exact hruns.step hs)
  exact ⟨u, hreach, fun n => ⟨(hruns.holds n).omnipaxos, (hruns.holds n).handed⟩⟩

def twoPaxos (n : NodeId) : OmniPaxos Paxos ℕ := paxos (3 - n)

def two (n : NodeId) : OmniPaxosKVConfig := { pair with serverId := n, peers := [3 - n] }

/-- Server 1 takes over, and server 2 relays its start signal. -/
def relayed : List (NodeId × Action ℕ) :=
  [(1, .leaderTick 5), (2, .clusterArrives 1 (.OmniPaxosMessage 0)), (1, .leaderTick 1005),
    (2, .clusterArrives 1 (.LeaderStartSignal 3005)), (2, .clusterMessages 2)]

theorem library_relayed : ∃ nodes,
    (cluster twoPaxos two putThenGet (fun _ => 0) (fun _ => none) fun _ => fresh).run
      (startAll two putThenGet (fun _ => 0) (fun _ => none) fun _ => fresh) relayed = some nodes ∧
    (nodes 1).core.calls.filterMap Call.handed? = [(2, 0)] ∧
    ∃ u, (library twoPaxos fun _ => fresh).Reaches (Delivers twoPaxos) u ∧ ∀ n,
      (u n).omnipaxos = (nodes n).core.omnipaxos ∧
      (nodes n).core.calls.filterMap Call.handed? = (twoPaxos n).route (u n).out := by
  obtain ⟨nodes, hr, hhanded⟩ : ∃ nodes, (cluster twoPaxos two putThenGet (fun _ => 0)
      (fun _ => none) fun _ => fresh).run (startAll two putThenGet (fun _ => 0) (fun _ => none)
      fun _ => fresh) relayed = some nodes ∧
      (nodes 1).core.calls.filterMap Call.handed? = [(2, 0)] := ⟨_, rfl, by decide⟩
  exact ⟨nodes, hr, hhanded,
    refines_library (System.Reachable.run (.init cluster_init) relayed hr)⟩

/-! ### Where the start signals come from -/

/-- In the run `as` the server `p`, which led, announced the start at `startTime`. -/
def Announced (op : NodeId → OmniPaxos Ω Msg) (cfg : NodeId → OmniPaxosKVConfig)
    (L : List Command) (S : NodeId → ℕ) (path : NodeId → Option String) (ω : NodeId → Ω)
    (as : List (NodeId × Action Msg)) (p : NodeId) (startTime : Timestamp) : Prop :=
  ∃ as₁ a as₂ nodes₁ nodes₂ A rs, as = as₁ ++ (p, a) :: as₂ ∧
    (cluster op cfg L S path ω).run (startAll cfg L S path ω) as₁ = some nodes₁ ∧
    (cluster op cfg L S path ω).step nodes₁ (p, a) = some nodes₂ ∧
    (nodes₁ p).core.Leads (op p) ∧
    Adds (cfg p) (nodes₁ p).core (nodes₂ p).core A rs ∧ ⟨startTime, true⟩ ∈ rs

/-- Each start time at a server was announced, and a server that is done establishing has one. -/
structure Origin (op : NodeId → OmniPaxos Ω Msg) (cfg : NodeId → OmniPaxosKVConfig)
    (L : List Command) (S : NodeId → ℕ) (path : NodeId → Option String) (ω : NodeId → Ω)
    (as : List (NodeId × Action Msg)) (s : State Ω Msg) : Prop where
  clients : ∀ x ∈ s.core.calls.filterMap Call.clientStart?,
    ∃ p, Announced op cfg L S path ω as p x.2
  peers : ∀ x ∈ s.core.calls.filterMap Call.clusterStart?,
    ∃ p, Announced op cfg L S path ω as p x.2
  waiting : ∀ m ∈ s.clusterMessages, ∀ startTime, m.2.startTime? = some startTime →
    ∃ p, Announced op cfg L S path ω as p startTime
  running : s.phase = .running → ∃ p startTime, Announced op cfg L S path ω as p startTime

variable {as : List (NodeId × Action Msg)} {s s' : State Ω Msg} {p : NodeId}
  {startTime : Timestamp}

lemma Announced.concat (h : Announced op cfg L S path ω as p startTime)
    (x : NodeId × Action Msg) : Announced op cfg L S path ω (as ++ [x]) p startTime := by
  obtain ⟨as₁, a, as₂, nodes₁, nodes₂, A, rs, rfl, hrest⟩ := h
  refine ⟨as₁, a, as₂ ++ [x], nodes₁, nodes₂, A, rs, ?_, hrest⟩
  rw [List.append_assoc, List.cons_append]

lemma Origin.concat (h : Origin op cfg L S path ω as s) (x : NodeId × Action Msg) :
    Origin op cfg L S path ω (as ++ [x]) s where
  clients x hx := (h.clients x hx).imp fun _ h => h.concat _
  peers x hx := (h.peers x hx).imp fun _ h => h.concat _
  waiting m hm startTime htime := (h.waiting m hm startTime htime).imp fun _ h => h.concat _
  running hphase := (h.running hphase).imp fun _ h => h.imp fun _ h => h.concat _

/-- **A step of the server** that moves: what it sends it announces, or was announced. -/
lemma Origin.step
    (hr : (cluster op cfg L S path ω).run (startAll cfg L S path ω) as = some nodes)
    (horigin : ∀ n, Origin op cfg L S path ω as (nodes n))
    (hs : (cluster op cfg L S path ω).step nodes (n, a) = some nodes') :
    Origin op cfg L S path ω (as ++ [(n, a)]) (nodes' n) := by
  obtain ⟨hsent, s, hstep, hnodes⟩ := cluster_step hs
  have hs' : nodes' n = s := by rw [hnodes, Function.update_self]
  obtain ⟨clients, cluster, rs, hadding⟩ := adding_of_step hstep
  rw [← hs'] at hadding
  have hbefore := (horigin n).concat (n, a)
  -- the signals that wait or arrive
  have hwaiting : ∀ m ∈ (nodes n).clusterMessages ++ a.cluster?.toList, ∀ startTime,
      m.2.startTime? = some startTime →
        ∃ p, Announced op cfg L S path ω (as ++ [(n, a)]) p startTime := by
    intro m hm startTime htime
    rcases List.mem_append.mp hm with hm | hm
    · exact hbefore.waiting m hm startTime htime
    · have ha : a = .clusterArrives m.1 (.LeaderStartSignal startTime) := by
        rcases a with ⟨source, msg⟩ | _ | _ | _ | _ | _ | _ | _ <;> simp [Action.cluster?] at hm
        subst hm
        cases msg with
        | OmniPaxosMessage msg => cases htime
        | LeaderStartSignal time =>
          obtain rfl := Option.some.inj htime
          rfl
      rw [ha] at hsent
      obtain ⟨p, hp⟩ := (horigin m.1).peers (n, startTime)
        (mem_clusterStart.mpr (mem_toCluster.mp hsent))
      exact ⟨p, hp.concat _⟩
  rw [hadding.clusterTaken] at hwaiting
  -- the rounds of this step
  have hrounds : ∀ r ∈ rs, ∃ p, Announced op cfg L S path ω (as ++ [(n, a)]) p r.startTime := by
    intro r hround
    cases hannounced : r.announced with
    | true =>
      refine ⟨n, as, a, [], nodes, nodes', _, rs, rfl, hr, hs, hadding.leads r hround hannounced,
        hadding.adds, ?_⟩
      rw [← hannounced]
      exact hround
    | false =>
      have hmem : r.startTime ∈ (rs.filter fun r => !r.announced).map Round.startTime :=
        List.mem_map_of_mem (List.mem_filter.mpr ⟨hround, by simp [hannounced]⟩)
      rw [hadding.relayed] at hmem
      obtain ⟨m, hm, htime⟩ := List.mem_filterMap.mp hmem
      exact hwaiting m (List.mem_append_left _ hm) r.startTime htime
  refine ⟨fun x hx => ?_, fun x hx => ?_, fun m hm => ?_, fun hphase => ?_⟩
  · rw [hadding.adds.clients] at hx
    rcases List.mem_append.mp hx with hx | hx
    · exact hbefore.clients x hx
    · obtain ⟨r, hround, hx⟩ := List.mem_flatMap.mp hx
      obtain ⟨client, -, rfl⟩ := List.mem_map.mp hx
      exact hrounds r hround
  · rw [hadding.adds.peers] at hx
    rcases List.mem_append.mp hx with hx | hx
    · exact hbefore.peers x hx
    · obtain ⟨r, hround, hx⟩ := List.mem_flatMap.mp hx
      unfold Round.toPeers at hx
      split_ifs at hx
      · obtain ⟨peer, -, rfl⟩ := List.mem_map.mp hx
        exact hrounds r hround
      · cases hx
  · exact hwaiting m (List.mem_append_right _ hm)
  · rcases hadding.running hphase with hrun | hne
    · exact hbefore.running hrun
    · obtain ⟨r, rest, rfl⟩ := List.exists_cons_of_ne_nil hne
      obtain ⟨p, hp⟩ := hrounds r List.mem_cons_self
      exact ⟨p, _, hp⟩

/-- **Announcements**: in every run of the cluster, a start time that any client is told, at any
server, was announced by a server that led; and before that no server is done establishing. -/
theorem announced_of_run
    (hr : (cluster op cfg L S path ω).run (startAll cfg L S path ω) as = some nodes)
    (n : NodeId) :
    (∀ x ∈ (nodes n).core.calls.filterMap Call.clientStart?,
      ∃ p, Announced op cfg L S path ω as p x.2) ∧
    ((nodes n).phase = .running → ∃ p startTime, Announced op cfg L S path ω as p startTime) := by
  have hinv : ∀ n, Origin op cfg L S path ω as (nodes n) := by
    refine System.run_history (I := fun (as : List (NodeId × Action Msg))
      (nodes : NodeId → State Ω Msg) => ∀ n, Origin op cfg L S path ω as (nodes n)) ?_ ?_ hr
    · refine fun n => ⟨fun x hx => ?_, fun x hx => ?_, fun m hm => ?_, fun hphase => ?_⟩
      · cases hx
      · cases hx
      · cases hm
      · cases hphase
    · rintro as nodes ⟨n, a⟩ nodes' hr horigin hs i
      by_cases hi : i = n
      · subst hi
        exact Origin.step hr horigin hs
      · obtain ⟨-, s, -, rfl⟩ := cluster_step hs
        rw [Function.update_of_ne hi]
        exact (horigin i).concat _
  exact ⟨(hinv n).clients, (hinv n).running⟩

theorem announced_relayed : ∃ nodes,
    (cluster twoPaxos two putThenGet (fun _ => 0) (fun _ => none) fun _ => fresh).run
      (startAll two putThenGet (fun _ => 0) (fun _ => none) fun _ => fresh) relayed = some nodes ∧
    (nodes 2).core.calls.filterMap Call.clientStart? = [(1, 3005)] ∧ (nodes 2).phase = .running ∧
    (∀ x ∈ (nodes 2).core.calls.filterMap Call.clientStart?, ∃ p, Announced twoPaxos two putThenGet
      (fun _ => 0) (fun _ => none) (fun _ => fresh) relayed p x.2) ∧
    ((nodes 2).phase = .running → ∃ p startTime, Announced twoPaxos two putThenGet
      (fun _ => 0) (fun _ => none) (fun _ => fresh) relayed p startTime) := by
  obtain ⟨nodes, hr, hstart, hphase⟩ : ∃ nodes, (cluster twoPaxos two putThenGet (fun _ => 0)
      (fun _ => none) fun _ => fresh).run (startAll two putThenGet (fun _ => 0) (fun _ => none)
      fun _ => fresh) relayed = some nodes ∧
      (nodes 2).core.calls.filterMap Call.clientStart? = [(1, 3005)] ∧
      (nodes 2).phase = .running := ⟨_, rfl, by decide, by decide⟩
  exact ⟨nodes, hr, hstart, hphase, announced_of_run hr 2⟩

end OmniPaxosKV.ServerCluster
