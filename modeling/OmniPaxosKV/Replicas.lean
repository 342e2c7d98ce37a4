import OmniPaxosKV.Cluster
import OmniPaxosKV.Recovery

/-!
The servers as replicas of one database.

Whatever crashes, is lost or is registered under which id, what a server holds is determined by
how far in the decided sequence it is. `replicas_agree_of_run` compares any two servers at any
two times, and `answers_of_reachable` any two responses to one command.
-/

namespace OmniPaxosKV.Replicas

open Common Replay Store Server Crash TestClient Tracking TransSys Cluster

open Function (update)

variable {Text : Type} {cfg : Config Text} {s s' : State Text}

/-! ### What a step does to the servers -/

/-- The part of a state that the servers' databases and responses are in. -/
structure View (Text : Type) where
  log : List Entry
  nodes : NodeId → Node Text
  handed : List Handed

def view (s : State Text) : View Text := ⟨s.log, s.nodes, s.handed⟩

lemma view_event {p : ProcId} {e : Event} (h : s.event p e = some s') : view s' = view s := by
  obtain ⟨-, t, cmds, sent, -, -, -, -, -, -, rfl⟩ := State.event_cases h
  rfl

lemma view_request {p : ProcId} {cmd : ApiCommand} (h : s.request p cmd = some s') :
    view s' = view s := by
  unfold State.request at h
  split_ifs at h
  obtain rfl := Option.some.inj h
  rfl

lemma view_respond {tx : Sender} {reply : Reply} (h : s.respond tx reply = some s') :
    view s' = view s := by
  unfold State.respond at h
  split at h
  · split_ifs at h
    obtain rfl := Option.some.inj h
    rfl
  · cases h

lemma view_takeMessage {p : ProcId} {now : Timestamp} {msg : ServerMessage}
    (h : s.takeMessage p now msg = some s') : view s' = view s := by
  unfold State.takeMessage at h
  split at h
  · split at h
    · obtain rfl := Option.some.inj h
      rfl
    · obtain rfl := Option.some.inj h
      rfl
    · obtain rfl := Option.some.inj h
      rfl
  · split at h
    · rename_i s₁ hevent
      obtain rfl := Option.some.inj h
      exact view_event hevent
    · obtain rfl := Option.some.inj h
      rfl
  · cases h
  · cases h
  · cases h
  · cases h

lemma view_appendToLog (s : State Text) (n : NodeId) (client : ClientId) (p : ProcId) (a : Sent) :
    view (s.appendToLog n client p a) = view s := by
  unfold State.appendToLog
  split
  rfl

/-- What a server hands to a client's connection is noted if it is a response. -/
lemma view_sendToClient (n : NodeId) (index : Option ℕ) (s : State Text) (x : Send) :
    ∃ new, view (s.sendToClient n index x) = { view s with handed := s.handed ++ new } ∧
      ∀ h ∈ new, h.node = n ∧ some h.index = index ∧ h.msg = x.2 := by
  rcases hsend : (s.nets n).sendToClient x.1 with ⟨net, _ | link⟩
  · refine ⟨[], ?_, by simp⟩
    simp [State.sendToClient, hsend, view]
  · refine ⟨(index.map fun i => ⟨n, i, link, x.2⟩).toList, ?_, ?_⟩
    · simp only [State.sendToClient, hsend, view]
    · intro h hh
      obtain ⟨i, rfl, rfl⟩ : ∃ i, index = some i ∧ ⟨n, i, link, x.2⟩ = h := by simpa using hh
      exact ⟨rfl, rfl, rfl⟩

/-- The messages a server sends one after the other. -/
lemma view_sends (n : NodeId) (index : Option ℕ) (sent : List Send) (s : State Text) :
    ∃ new, view (sent.foldl (State.sendToClient n index) s) =
        { view s with handed := s.handed ++ new } ∧
      ∀ h ∈ new, h.node = n ∧ some h.index = index ∧ ∃ x ∈ sent, h.msg = x.2 := by
  induction sent generalizing s with
  | nil => exact ⟨[], by simp [view], by simp⟩
  | cons x sent ih =>
    obtain ⟨new, hview, hnew⟩ := view_sendToClient n index s x
    obtain ⟨new', hview', hnew'⟩ := ih (s.sendToClient n index x)
    refine ⟨new ++ new', ?_, fun h hh => ?_⟩
    · have hhanded : (s.sendToClient n index x).handed = s.handed ++ new :=
        congrArg View.handed hview
      rw [List.foldl_cons, hview', hview, hhanded, List.append_assoc]
    · rcases List.mem_append.mp hh with hh | hh
      · obtain ⟨hn, hi, hmsg⟩ := hnew h hh
        exact ⟨hn, hi, x, by simp, hmsg⟩
      · obtain ⟨hn, hi, y, hy, hmsg⟩ := hnew' h hh
        exact ⟨hn, hi, y, by simp [hy], hmsg⟩

/-- A step decides an entry, is one of a server, or does not concern the servers. -/
inductive Effect (cfg : Config Text) (v : View Text) : View Text → Prop
  | none : Effect cfg v v
  | decided (e : Entry) : Effect cfg v { v with log := v.log ++ [e] }
  | node (n : NodeId) (a : NodeAction Text) (node : Node Text) (sent : List Send)
    (new : List Handed)
    (hstep : (v.nodes n).step cfg.serde cfg.interval n (v.log.map Entry.command) a =
      some (node, sent))
    (hnew : ∀ h ∈ new, h.node = n ∧ h.index = (v.nodes n).handled ∧ ∃ x ∈ sent, h.msg = x.2) :
    Effect cfg v { v with nodes := update v.nodes n node, handed := v.handed ++ new }

lemma effect_of_step {a : Action Text} (hs : step cfg s a = some s') :
    Effect cfg (view s) (view s') := by
  have hnone : ∀ {t : State Text}, view t = view s → Effect cfg (view s) (view t) := by
    intro t ht
    rw [ht]
    exact .none
  cases a with
  | procStarts p =>
    simp only [step] at hs
    split_ifs at hs
    obtain rfl := Option.some.inj hs
    exact hnone rfl
  | procExits p =>
    simp only [step] at hs
    split_ifs at hs
    obtain rfl := Option.some.inj hs
    exact hnone rfl
  | httpPut p key value => exact hnone (view_request hs)
  | httpGet p key => exact hnone (view_request hs)
  | httpReturns tx =>
    simp only [step, Option.bind_eq_some_iff] at hs
    obtain ⟨r, -, a, -, hs⟩ := hs
    exact hnone (view_respond hs)
  | httpFails tx errorMsg =>
    simp only [step] at hs
    split_ifs at hs
    exact hnone (view_respond hs)
  | clientApi p i now =>
    simp only [step] at hs
    split at hs
    · split_ifs at hs
      exact hnone (view_event hs :)
    · cases hs
  | clientMessage link now =>
    simp only [step, Option.bind_eq_some_iff] at hs
    obtain ⟨p, -, hs⟩ := hs
    split at hs
    · exact hnone (view_takeMessage hs :)
    · cases hs
  | clientTimer p =>
    simp only [step] at hs
    split_ifs at hs
    obtain ⟨s₁, hevent, rfl⟩ := Option.map_eq_some_iff.mp hs
    exact hnone (view_event hevent :)
  | clientReconnects p =>
    simp only [step] at hs
    split_ifs at hs
    obtain ⟨s₁, hevent, rfl⟩ := Option.map_eq_some_iff.mp hs
    exact hnone (view_event hevent :)
  | clientReaderEnds link =>
    simp only [step, Option.bind_eq_some_iff] at hs
    obtain ⟨p, -, hs⟩ := hs
    exact hnone (view_event hs)
  | clientWriterEnds link =>
    simp only [step, Option.bind_eq_some_iff] at hs
    obtain ⟨p, -, hs⟩ := hs
    exact hnone (view_event hs)
  | register link =>
    simp only [step, Option.bind_eq_some_iff] at hs
    obtain ⟨p, -, hs⟩ := hs
    split_ifs at hs
    obtain rfl := Option.some.inj hs
    exact hnone rfl
  | applyConnection n i =>
    simp only [step] at hs
    split at hs
    · obtain rfl := Option.some.inj hs
      exact hnone rfl
    · cases hs
  | serverWriterEnds n client =>
    obtain rfl := Option.some.inj hs
    exact hnone rfl
  | handleClientMessage link =>
    simp only [step, Option.bind_eq_some_iff] at hs
    obtain ⟨p, -, hs⟩ := hs
    split at hs
    · obtain rfl := Option.some.inj hs
      exact hnone (view_appendToLog _ _ _ _ _)
    · cases hs
    · cases hs
    · cases hs
  | loseUp link i =>
    obtain rfl := Option.some.inj hs
    exact hnone rfl
  | loseDown link i =>
    obtain rfl := Option.some.inj hs
    exact hnone rfl
  | decided i =>
    simp only [step] at hs
    split at hs
    · rename_i e hi
      obtain rfl := Option.some.inj hs
      exact .decided e
    · cases hs
  | node n a =>
    simp only [step, Option.map_eq_some_iff] at hs
    obtain ⟨⟨node, sent⟩, hstep, rfl⟩ := hs
    obtain ⟨new, hview, hnew⟩ := view_sends n (some (s.nodes n).handled) sent s
    have heq : view (if a.isCrash = true then State.dropConnections cfg
          { sent.foldl (State.sendToClient n (s.nodes n).handled) s with
            nodes := update (sent.foldl (State.sendToClient n (s.nodes n).handled) s).nodes n
              node } n
        else { sent.foldl (State.sendToClient n (s.nodes n).handled) s with
          nodes := update (sent.foldl (State.sendToClient n (s.nodes n).handled) s).nodes n
            node }) =
        { view s with nodes := update s.nodes n node, handed := s.handed ++ new } := by
      have hlog := congrArg View.log hview
      have hnodes := congrArg View.nodes hview
      have hhanded := congrArg View.handed hview
      simp only [view] at hlog hnodes hhanded
      split_ifs
      · simp only [view, State.dropConnections, hlog, hnodes, hhanded]
      · simp only [view, hlog, hnodes, hhanded]
    rw [heq]
    refine .node n a node sent new hstep fun h hh => ?_
    obtain ⟨hn, hi, hx⟩ := hnew h hh
    exact ⟨hn, Option.some.inj hi, hx⟩
  | startSignals n startTime =>
    simp only [step] at hs
    split_ifs at hs
    obtain rfl := Option.some.inj hs
    obtain ⟨new, hview, hnew⟩ := view_sends n none
      ((List.range' 1 (cfg.numClients n)).map fun client => (client, .StartSignal startTime)) s
    have hempty : new = [] := List.eq_nil_iff_forall_not_mem.mpr fun h hh => by
      cases (hnew h hh).2.1
    rw [List.foldl_map, hempty, List.append_nil] at hview
    exact hnone hview

/-! ### What holds of the servers -/

def View.commands (v : View Text) : List Command := v.log.map Entry.command

structure View.Ok (cfg : Config Text) (v : View Text) : Prop where
  good : ∀ n, Good cfg.serde n v.commands (v.nodes n)
  answers : ∀ h ∈ v.handed, ∃ client, response h.node v.commands h.index = some (client, h.msg)

/-- **One step** keeps the servers replicas. The decided sequence only grows. -/
lemma Effect.ok {v v' : View Text} (he : Effect cfg v v') (h : v.Ok cfg) :
    v'.Ok cfg ∧ v.log <+: v'.log := by
  cases he with
  | none => exact ⟨h, List.prefix_refl _⟩
  | decided e =>
    have hlog : v.log <+: v.log ++ [e] := List.prefix_append _ _
    refine ⟨⟨fun n => (h.good n).mono (hlog.map _), fun x hx => ?_⟩, hlog⟩
    obtain ⟨client, hresp⟩ := h.answers x hx
    exact ⟨client, response_mono hresp (hlog.map _)⟩
  | node n a node sent new hstep hnew =>
    obtain ⟨hgood, hsent⟩ := step_good (h.good n) hstep
    refine ⟨⟨fun m => ?_, fun x hx => ?_⟩, List.prefix_refl _⟩
    · by_cases hm : m = n
      · subst hm
        simpa [View.commands] using hgood
      · simpa [View.commands, hm] using h.good m
    · rcases List.mem_append.mp hx with hold | hx
      · exact h.answers x hold
      · obtain ⟨rfl, hi, y, hy, hmsg⟩ := hnew x hx
        exact ⟨y.1, by rw [hi, hmsg]; exact (hsent y hy).2⟩

lemma system_effect {a : Action Text} (hs : (system cfg).step s a = some s') :
    Effect cfg (view s) (view s') := by
  obtain ⟨s₁, hstep, rfl⟩ := Option.map_eq_some_iff.mp hs
  exact (effect_of_step hstep :)

lemma ok_of_reachable (h : (system cfg).Reachable s) : (view s).Ok cfg := by
  refine System.Reaches.invariant (I := fun s => (view s).Ok cfg) ?_ ?_ h
  · rintro s ⟨files, hfiles, rfl⟩
    refine ⟨fun n => good_down ?_ (Nat.zero_le _) rfl, by simp [view, start]⟩
    intro json snap hf hs
    rw [hfiles n json hf] at hs
    cases hs
  · intro s a s' hok hs _
    exact ((system_effect hs).ok hok).1

lemma log_prefix_of_run {as : List (Action Text)} (h : (system cfg).Reachable s)
    (hr : (system cfg).run s as = some s') : s.log <+: s'.log := by
  induction as generalizing s with
  | nil =>
    cases hr
    exact List.prefix_refl _
  | cons a as ih =>
    simp only [System.run, List.foldlM_cons, Option.bind_eq_bind, Option.bind_eq_some_iff] at hr
    obtain ⟨s₁, hs, hr⟩ := hr
    have hstep := ((system_effect hs).ok (ok_of_reachable h)).2
    exact hstep.trans (ih (h.step hs trivial) hr)

/-! ### Two servers -/

/-- What a server that is up holds is the replay of what it has passed. -/
lemma good_database {id : NodeId} {L : List Command} {node : Node Text}
    {serde : SerdeJson Text} (h : Good serde id L node) {a : OmniPaxosServer} {pc : Pc Text}
    (ha : node.proc = some (a, pc)) :
    a.database.db = replay (L.take node.handled) ∧ node.handled ≤ L.length := by
  obtain ⟨-, -, hcur, hsnap, hpc⟩ := h.proc a pc ha
  have hlen : a.currentDecidedIdx ≤ L.length := hcur.trans h.decided
  cases pc with
  | idle =>
    have hup : UpTo L a a.currentDecidedIdx := hpc
    exact ⟨by simpa [Node.handled, ha, UpTo] using hup, by simp [Node.handled, ha, hlen, hsnap]⟩
  | applying pos rest k =>
    obtain ⟨hup, hpos, -, -⟩ := hpc
    exact ⟨by simpa [Node.handled, ha, UpTo] using hup,
      by simp [Node.handled, ha, hsnap, hpos.trans hlen]⟩
  | saving path stage json =>
    exact ⟨by simpa [Node.handled, ha, UpTo] using hpc.1, by simp [Node.handled, ha, hlen, hsnap]⟩

/-- The replay of a longer prefix goes on from that of a shorter one. -/
lemma replay_take_le (L : List Command) {i j : ℕ} (hij : i ≤ j) :
    replay (L.take j) =
      kv.replayFrom (replay (L.take i)) (((L.take j).drop i).map Command.kvCmd) := by
  have hsplit : L.take j = L.take i ++ (L.take j).drop i := by
    have htake : (L.take j).take i = L.take i := by rw [List.take_take, Nat.min_eq_left hij]
    rw [← htake, List.take_append_drop]
  conv_lhs => rw [hsplit]
  exact replay_append _ _

/-- **Replicas agree**: of two servers, each at any time of a run, the one that is further in
the decided sequence holds what the other one holds after the commands between. -/
theorem replicas_agree_of_run {as : List (Action Text)} (h : (system cfg).Reachable s)
    (hr : (system cfg).run s as = some s') {n m : NodeId} {a b : OmniPaxosServer}
    {pc pc' : Pc Text} (ha : (s.nodes n).proc = some (a, pc))
    (hb : (s'.nodes m).proc = some (b, pc')) :
    ((s.nodes n).handled ≤ (s'.nodes m).handled →
      b.database.db = kv.replayFrom a.database.db
        (((s'.commands.take (s'.nodes m).handled).drop (s.nodes n).handled).map
          Command.kvCmd)) ∧
    ((s'.nodes m).handled ≤ (s.nodes n).handled →
      a.database.db = kv.replayFrom b.database.db
        (((s'.commands.take (s.nodes n).handled).drop (s'.nodes m).handled).map
          Command.kvCmd)) := by
  obtain ⟨hdb, hlen⟩ := good_database ((ok_of_reachable h).good n) ha
  obtain ⟨hdb', -⟩ := good_database ((ok_of_reachable (h.run as hr)).good m) hb
  -- the earlier sequence is the start of the later one
  have hpre : s.commands <+: s'.commands := (log_prefix_of_run h hr).map _
  have htake : s'.commands.take (s.nodes n).handled = s.commands.take (s.nodes n).handled :=
    take_of_isPrefix hpre hlen
  have hdb₁ : a.database.db = replay (s'.commands.take (s.nodes n).handled) := by
    rw [htake]
    exact hdb
  have hdb₂ : b.database.db = replay (s'.commands.take (s'.nodes m).handled) := hdb'
  constructor
  · intro hle
    rw [hdb₁, hdb₂]
    exact replay_take_le _ hle
  · intro hle
    rw [hdb₁, hdb₂]
    exact replay_take_le _ hle

/-- Two servers, with one client process each. -/
def pair : Config (Option DatabaseSnapshot) := ⟨Recovery.plainSerde, 1, fun p => p + 1, fun _ => 1⟩

/-- Server 1 has executed the first put, and the second is decided. -/
def firstPut : List (Action (Option DatabaseSnapshot)) :=
  [.node 1 (.restart 0 true), .node 2 (.restart 0 true), .procStarts 0, .register 0,
    .applyConnection 1 0, .startSignals 1 5, .clientMessage 0 6, .httpPut 0 "x" "1",
    .clientApi 0 0 7, .handleClientMessage 0, .decided 0, .httpPut 0 "x" "2", .clientApi 0 0 8,
    .handleClientMessage 0, .decided 0, .node 1 (.decide 1), .node 1 .handle, .node 1 .entry]

/-- Server 1 crashes, and server 2 executes both. -/
def secondPut : List (Action (Option DatabaseSnapshot)) :=
  [.node 1 (.crash none), .node 2 (.decide 2), .node 2 .handle, .node 2 .entry, .node 2 .entry]

theorem replicas_agree_pair : ∃ s s' a b pc pc',
    (system pair).run (start pair fun _ _ => none) firstPut = some s ∧
    (system pair).run s secondPut = some s' ∧
    (s.nodes 1).proc = some (a, pc) ∧ (s'.nodes 2).proc = some (b, pc') ∧
    (s.nodes 1).handled = 1 ∧ (s'.nodes 2).handled = 2 ∧
    b.database.db = kv.replayFrom a.database.db [.Put "x" "2"] := by
  obtain ⟨s, s', a, b, pc, pc', hrun, hrun', ha, hb, hi, hj, hgap⟩ : ∃ s s' a b pc pc',
      (system pair).run (start pair fun _ _ => none) firstPut = some s ∧
      (system pair).run s secondPut = some s' ∧
      (s.nodes 1).proc = some (a, pc) ∧ (s'.nodes 2).proc = some (b, pc') ∧
      (s.nodes 1).handled = 1 ∧ (s'.nodes 2).handled = 2 ∧
      ((s'.commands.take 2).drop 1).map Command.kvCmd = [.Put "x" "2"] :=
    ⟨_, _, _, _, _, _, rfl, rfl, rfl, rfl, rfl, rfl, rfl⟩
  have hinit : (system pair).init (start pair fun _ _ => none) := ⟨fun _ _ => none, by simp, rfl⟩
  have hagree := (replicas_agree_of_run (System.Reachable.run (.init hinit) firstPut hrun) hrun'
    ha hb).1 (by rw [hi, hj]; decide)
  rw [hi, hj, hgap] at hagree
  exact ⟨s, s', a, b, pc, pc', hrun, hrun', ha, hb, hi, hj, hagree⟩

/-! ### Two responses -/

/-- **One answer**: every response to a command comes from the server that appended it and is
the one its place in the decided sequence gives, so a command that is executed again after a
crash is answered as it was before. -/
theorem answers_of_reachable (h : (system cfg).Reachable s) :
    (∀ x ∈ s.handed, ∃ e, s.log[x.index]? = some e ∧ e.command.coordinatorId = x.node ∧
      response x.node s.commands x.index = some (e.command.clientId, x.msg)) ∧
    ∀ x ∈ s.handed, ∀ y ∈ s.handed, x.index = y.index → x.node = y.node ∧ x.msg = y.msg := by
  have hspec : ∀ x ∈ s.handed, ∃ e, s.log[x.index]? = some e ∧
      e.command.coordinatorId = x.node ∧
      response x.node s.commands x.index = some (e.command.clientId, x.msg) := by
    intro x hx
    obtain ⟨client, hresp⟩ := (ok_of_reachable h).answers x hx
    obtain ⟨c, hc, hcoord, hclient, -⟩ := response_spec hresp
    obtain ⟨e, he, rfl⟩ : ∃ e, s.log[x.index]? = some e ∧ e.command = c := by
      simpa [view, View.commands] using hc
    obtain rfl : client = e.command.clientId := hclient
    exact ⟨e, he, hcoord, hresp⟩
  refine ⟨hspec, fun x hx y hy hxy => ?_⟩
  obtain ⟨e, he, hcoord, hresp⟩ := hspec x hx
  obtain ⟨e', he', hcoord', hresp'⟩ := hspec y hy
  rw [← hxy] at he' hresp'
  obtain rfl := Option.some.inj (he.symm.trans he')
  have hnode : x.node = y.node := hcoord.symm.trans hcoord'
  rw [hnode, hresp', Option.some.injEq, Prod.mk.injEq] at hresp
  exact ⟨hnode, hresp.2.symm⟩

/-- Server 1 answers the first put, comes back without it, and answers it again. -/
def answeredTwice : List (Action (Option DatabaseSnapshot)) :=
  firstPut ++ [.node 1 (.crash none), .node 1 (.restart 0 true), .clientWriterEnds 0,
    .httpGet 0 "x", .clientApi 0 0 9, .clientTimer 0, .clientReconnects 0, .register 1,
    .applyConnection 1 0, .node 1 (.decide 2), .node 1 .handle, .node 1 .entry, .node 1 .entry]

theorem answers_answeredTwice : ∃ s,
    (system pair).run (start pair fun _ _ => none) answeredTwice = some s ∧
    s.handed = [⟨1, 0, 0, .Write 0⟩, ⟨1, 0, 1, .Write 0⟩, ⟨1, 1, 1, .Write 1⟩] ∧
    ∀ x ∈ s.handed, ∀ y ∈ s.handed, x.index = y.index → x.node = y.node ∧ x.msg = y.msg := by
  have hinit : (system pair).init (start pair fun _ _ => none) := ⟨fun _ _ => none, by simp, rfl⟩
  refine ⟨_, rfl, by decide, ?_⟩
  exact (answers_of_reachable (System.Reachable.run (.init hinit) answeredTwice rfl)).2

end OmniPaxosKV.Replicas
