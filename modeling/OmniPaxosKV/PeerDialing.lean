import OmniPaxosKV.PeerMesh

/-!
Dialing peers, and dialing them again.

For each peer with a lower id a server has a task that dials it. The task waits for the close
signal of the connection it made, which comes when the server drops that connection, so there is
one connection at a time on the way from the dial to the slot and out of it
(`dialed_of_reachable`), and the server gets back to one whatever happened to it
(`reconnects_of_reachable`). The reader of a connection that was dropped for its writer may go on
beside the next one.

The server at the other end drops a connection without telling anyone. Where the dialing side
goes on sending, nothing makes it dial again (`halfOpen_of_run`).
-/

namespace OmniPaxosKV.PeerMesh

open Common ServerNetwork TransSys

open Function (update)

variable {Msg : Type*} {cfg : ClusterConfig} {a : Server} {n m : NodeId} {link : LinkId}
  {links : List Link} {s s' : State Msg}

/-! ### What a step does to one server -/

/-- What a step does to a server that runs before it and after it. -/
inductive Change (s : State Msg) (k : NodeId) (a : Server) : Action Msg → Server → Prop
  | other (act : Action Msg) : Change s k a act a
  | dial (peer : NodeId) (hconn : a.connectors peer = .connecting) :
    Change s k a (.dial k peer) (a.setConnector peer (.sending s.links.length))
  | accept (n : NodeId) (d : Server) (hd : s.servers n = some d)
    (hconn : d.connectors k = .connecting) :
    Change s k a (.dial n k) { a with accepted := a.accepted ++ [s.links.length] }
  | sendConnection (peer : NodeId) (link : LinkId) (hconn : a.connectors peer = .sending link) :
    Change s k a (.sendConnection k peer)
      ((a.push ⟨peer, link, true⟩).setConnector peer (.waiting link))
  | register (i : ℕ) (link : LinkId) (l : Link) (hi : a.accepted[i]? = some link)
    (hl : s.links[link]? = some l) :
    Change s k a (.register k i)
      { a.push ⟨l.dialer, link, true⟩ with accepted := a.accepted.eraseIdx i }
  | registrationFails (i : ℕ) :
    Change s k a (.registrationFails k i) { a with accepted := a.accepted.eraseIdx i }
  | applyConnection (c : PeerConnection) (rest : List PeerConnection)
    (hq : a.connections = c :: rest) : Change s k a (.applyConnection k) (a.apply c rest).1
  | sendToCluster (peer : NodeId) (msg : Msg) :
    Change s k a (.sendToCluster k peer msg) (a.send peer).1
  | peerWriterEnds (idx : ℕ) :
    Change s k a (.peerWriterEnds k idx) { a with net := a.net.peerWriterEnded idx }
  | closeSignal (peer : NodeId) (link : LinkId) (hconn : a.connectors peer = .waiting link)
    (hdropped : link ∈ a.dropped) :
    Change s k a (.closeSignal k peer) (a.setConnector peer .connecting)

lemma servers_setServer (s : State Msg) (n : NodeId) (a : Server) (k : NodeId) :
    (s.setServer n a).servers k = if k = n then some a else s.servers k := by
  by_cases hk : k = n
  · subst hk
    simp [State.setServer]
  · simp [State.setServer, hk]

/-- One server is set, by a change of it. -/
lemma change_setServer {act : Action Msg} {k : NodeId} {b d : Server} (ha : s.servers n = some a)
    (hd : Change s n a act d) (hb : (s.setServer n d).servers k = some b) :
    ∃ a, s.servers k = some a ∧ Change s k a act b := by
  rw [servers_setServer] at hb
  split_ifs at hb with hk
  · subst hk
    obtain rfl := Option.some.inj hb
    exact ⟨a, ha, hd⟩
  · exact ⟨b, hb, .other act⟩

/-- **What a step can do** to one server: start it, or change it. -/
lemma change_of_step {act : Action Msg} {k : NodeId} {b : Server}
    (hs : step cfg s act = some s') (hb : s'.servers k = some b) :
    (s.servers k = none ∧ b = .new cfg k) ∨ ∃ a, s.servers k = some a ∧ Change s k a act b := by
  cases steps_of_step hs with
  | start n hn hdown =>
    rw [servers_setServer] at hb
    split_ifs at hb with hk
    · subst hk
      exact Or.inl ⟨hdown, (Option.some.inj hb).symm⟩
    · exact Or.inr ⟨b, hb, .other _⟩
  | crash n =>
    by_cases hk : k = n
    · subst hk
      simp at hb
    · exact Or.inr ⟨b, by simpa [hk] using hb, .other _⟩
  | dial n peer d e hd he hpeer hlt hconn =>
    change ((s.setServer n _).setServer peer _).servers k = some b at hb
    simp only [servers_setServer] at hb
    split_ifs at hb with hpeer hn
    · subst hpeer
      obtain rfl := Option.some.inj hb
      exact Or.inr ⟨e, he, .accept n d hd hconn⟩
    · subst hn
      obtain rfl := Option.some.inj hb
      exact Or.inr ⟨d, hd, .dial peer hconn⟩
    · exact Or.inr ⟨b, hb, .other _⟩
  | sendConnection n peer d link hd hconn =>
    exact Or.inr (change_setServer hd (.sendConnection peer link hconn) hb)
  | register n i d link l hd hi hl =>
    exact Or.inr (change_setServer hd (.register i link l hi hl) hb)
  | registrationFails n i d hd => exact Or.inr (change_setServer hd (.registrationFails i) hb)
  | replace n d d' c rest link hd hq happly =>
    have hchange := Change.applyConnection (s := s) (k := n) c rest hq
    rw [happly] at hchange
    exact Or.inr (change_setServer hd hchange hb)
  | store n d d' c rest hd hq happly =>
    have hchange := Change.applyConnection (s := s) (k := n) c rest hq
    rw [happly] at hchange
    exact Or.inr (change_setServer hd hchange hb)
  | hand n peer msg d d' link hd hsend =>
    have hchange := Change.sendToCluster (s := s) (k := n) (a := d) peer msg
    rw [hsend] at hchange
    exact Or.inr (change_setServer hd hchange hb)
  | keep n peer msg d d' hd hsend =>
    have hchange := Change.sendToCluster (s := s) (k := n) (a := d) peer msg
    rw [hsend] at hchange
    exact Or.inr (change_setServer hd hchange hb)
  | peerWriterEnds n idx d hd => exact Or.inr (change_setServer hd (.peerWriterEnds idx) hb)
  | closeSignal n peer d link hd hconn hdropped =>
    exact Or.inr (change_setServer hd (.closeSignal peer link hconn hdropped) hb)
  | read => exact Or.inr ⟨b, hb, .other _⟩
  | readerEnds => exact Or.inr ⟨b, hb, .other _⟩
  | lose => exact Or.inr ⟨b, hb, .other _⟩

lemma links_of_step {act : Action Msg} (hs : step cfg s act = some s') :
    s'.links = s.links ∨ ∃ n peer, act = .dial n peer ∧ s'.links = s.links ++ [⟨n, peer⟩] := by
  cases steps_of_step hs with
  | dial n peer => exact Or.inr ⟨n, peer, rfl, rfl⟩
  | _ => exact Or.inl rfl

/-- A server that runs goes on unless it crashes. -/
lemma change_of_up {act : Action Msg} {k : NodeId} (hs : step cfg s act = some s')
    (ha : s.servers k = some a) (hup : act ≠ .crash k) :
    ∃ b, s'.servers k = some b ∧ Change s k a act b := by
  have hset : ∀ n d, ∃ b, (s.setServer n d).servers k = some b := by
    intro n d
    rw [servers_setServer]
    split_ifs
    · exact ⟨d, rfl⟩
    · exact ⟨a, ha⟩
  obtain ⟨b, hb⟩ : ∃ b, s'.servers k = some b := by
    cases steps_of_step hs with
    | crash n =>
      have hk : k ≠ n := fun heq => hup (heq ▸ rfl)
      exact ⟨a, by simpa [hk] using ha⟩
    | dial n peer d e hd he hpeer hlt hconn =>
      change ∃ b, ((s.setServer n _).setServer peer _).servers k = some b
      rw [servers_setServer]
      split_ifs
      · exact ⟨_, rfl⟩
      · exact hset n _
    | start n => exact hset n _
    | sendConnection n => exact hset n _
    | register n => exact hset n _
    | registrationFails n => exact hset n _
    | replace n => exact hset n _
    | store n => exact hset n _
    | hand n => exact hset n _
    | keep n => exact hset n _
    | peerWriterEnds n => exact hset n _
    | closeSignal n => exact hset n _
    | read => exact ⟨a, ha⟩
    | readerEnds => exact ⟨a, ha⟩
    | lose => exact ⟨a, ha⟩
  refine ⟨b, hb, ?_⟩
  rcases change_of_step hs hb with ⟨hdown, -⟩ | ⟨a', ha', hchange⟩
  · cases ha.symm.trans hdown
  · cases ha.symm.trans ha'
    exact hchange

lemma sent_of_step {act : Action Msg} (hs : step cfg s act = some s') :
    s'.sent = s.sent ∨ ∃ k a a' peer msg link, s.servers k = some a ∧
      a.send peer = (a', some link) ∧ s'.sent = s.sent ++ [⟨k, peer, link, msg⟩] := by
  cases steps_of_step hs with
  | hand n peer msg a a' link ha hsend =>
    exact Or.inr ⟨n, a, a', peer, msg, link, ha, hsend, rfl⟩
  | _ => exact Or.inl rfl

/-! ### The connections that a server dials -/

/-- The connections to a peer that wait in the channel. -/
def Server.queued (a : Server) (peer : NodeId) : List LinkId :=
  (a.connections.filter fun c => c.peerId = peer).map PeerConnection.link

/-- The connection in the slot of a peer. -/
def Server.stored (a : Server) (peer : NodeId) : Option LinkId :=
  (a.net.peerConnection peer).map PeerConnection.link

/-- The way of a connection to a peer that the server dials, from the dial through the channel to
the slot and out of it: one at a time is on it, and the next is dialed only when that was dropped.
Nothing is said of the readers of those before. -/
inductive Dialed (a : Server) (peer : NodeId) : Prop
  | connecting (hconn : a.connectors peer = .connecting) (hqueued : a.queued peer = [])
    (hstored : a.stored peer = none)
  | sending (link : LinkId) (hconn : a.connectors peer = .sending link)
    (hqueued : a.queued peer = []) (hstored : a.stored peer = none) (hdropped : link ∉ a.dropped)
  | queued (link : LinkId) (hconn : a.connectors peer = .waiting link)
    (hqueued : a.queued peer = [link]) (hstored : a.stored peer = none)
    (hdropped : link ∉ a.dropped)
  | stored (link : LinkId) (hconn : a.connectors peer = .waiting link)
    (hqueued : a.queued peer = []) (hstored : a.stored peer = some link)
    (hdropped : link ∉ a.dropped)
  | dropped (link : LinkId) (hconn : a.connectors peer = .waiting link)
    (hqueued : a.queued peer = []) (hstored : a.stored peer = none) (hdropped : link ∈ a.dropped)

/-- Nothing changes for the peer. -/
lemma Dialed.frame {b : Server} {peer : NodeId} (h : Dialed a peer)
    (hconn : b.connectors peer = a.connectors peer) (hqueued : b.queued peer = a.queued peer)
    (hstored : b.stored peer = a.stored peer)
    (hdropped : ∀ link, a.connectors peer = .sending link ∨ a.connectors peer = .waiting link →
      (link ∈ b.dropped ↔ link ∈ a.dropped)) : Dialed b peer := by
  cases h with
  | connecting hc hq hs => exact .connecting (hconn.trans hc) (hqueued.trans hq) (hstored.trans hs)
  | sending link hc hq hs hd =>
    exact .sending link (hconn.trans hc) (hqueued.trans hq) (hstored.trans hs)
      (mt (hdropped link (Or.inl hc)).mp hd)
  | queued link hc hq hs hd =>
    exact .queued link (hconn.trans hc) (hqueued.trans hq) (hstored.trans hs)
      (mt (hdropped link (Or.inr hc)).mp hd)
  | stored link hc hq hs hd =>
    exact .stored link (hconn.trans hc) (hqueued.trans hq) (hstored.trans hs)
      (mt (hdropped link (Or.inr hc)).mp hd)
  | dropped link hc hq hs hd =>
    exact .dropped link (hconn.trans hc) (hqueued.trans hq) (hstored.trans hs)
      ((hdropped link (Or.inr hc)).mpr hd)

structure DialOk (cfg : ClusterConfig) (links : List Link) (n : NodeId) (a : Server) : Prop where
  dropped : ∀ link ∈ a.dropped, link < links.length
  dialed : ∀ peer ∈ cfg.getPeers n, peer < n → Dialed a peer

/-- What another peer's slot holds is not what the task of this one waits for. -/
lemma Inv.connector_ne (h : Inv cfg s) (ha : s.servers n = some a) {peer q : NodeId}
    (hlink : a.connectors peer = .sending link ∨ a.connectors peer = .waiting link)
    {link' : LinkId} (hq : a.stored q = some link') (hne : peer ≠ q) : link ≠ link' := by
  rintro rfl
  obtain ⟨c, hc, rfl⟩ := Option.map_eq_some_iff.mp hq
  have hok := h.server n a ha
  exact hne (h.joins_unique (Or.inl (hok.connectors peer _ hlink).2) (hok.stored q c hc))

/-- The slot of another peer is emptied or given to another connection. -/
lemma Inv.dialed_setSlot (h : Inv cfg s) (ha : s.servers n = some a) {peer q : NodeId}
    (hd : Dialed a peer) (hne : peer ≠ q) {b : Server} (hconn : b.connectors = a.connectors)
    (hqueued : b.queued peer = a.queued peer) {x : Option PeerConnection}
    (hnet : b.net.peerConnection = update a.net.peerConnection q x)
    (hdropped : b.dropped = a.dropped ++ (a.stored q).toList) : Dialed b peer := by
  refine hd.frame (by rw [hconn]) hqueued (by simp [Server.stored, hnet, hne]) fun link hlink => ?_
  rw [hdropped, List.mem_append]
  refine or_iff_left fun hmem => ?_
  exact h.connector_ne ha hlink (Option.mem_toList.mp hmem) hne rfl

/-- A connection taken from the channel. -/
lemma Inv.dialed_apply (h : Inv cfg s) (ha : s.servers n = some a) {peer : NodeId}
    (hd : Dialed a peer) {c : PeerConnection} {rest : List PeerConnection}
    (hq : a.connections = c :: rest) : Dialed (a.apply c rest).1 peer := by
  have hok := h.server n a ha
  obtain ⟨hc, -⟩ := hok.queued c (by simp [hq])
  obtain ⟨net, -, -, hnet, happly⟩ := hok.apply_spec rest hc
  rw [happly]
  by_cases hpeer : peer = c.peerId
  · -- it is the one that the task sent
    subst hpeer
    have hhead : a.queued c.peerId =
        c.link :: (rest.filter fun d => d.peerId = c.peerId).map PeerConnection.link := by
      simp [Server.queued, hq]
    cases hd with
    | connecting hconn hqueued hstored =>
      rw [hqueued] at hhead
      cases hhead
    | sending link hconn hqueued hstored hdropped =>
      rw [hqueued] at hhead
      cases hhead
    | queued link hconn hqueued hstored hdropped =>
      rw [hqueued, List.cons.injEq] at hhead
      obtain ⟨rfl, hrest⟩ := hhead
      have hempty : a.net.peerConnection c.peerId = none := Option.map_eq_none_iff.mp hstored
      refine .stored c.link hconn ?_ ?_ ?_
      · exact hrest.symm
      · simp [Server.stored, hnet]
      · simpa [hempty] using hdropped
    | stored link hconn hqueued hstored hdropped =>
      rw [hqueued] at hhead
      cases hhead
    | dropped link hconn hqueued hstored hdropped =>
      rw [hqueued] at hhead
      cases hhead
  · refine h.dialed_setSlot ha hd hpeer rfl ?_ hnet rfl
    simp [Server.queued, hq, Ne.symm hpeer]

/-- A message sent, to this peer or another. -/
lemma Inv.dialed_send (h : Inv cfg s) (ha : s.servers n = some a) {peer : NodeId}
    (hd : Dialed a peer) (q : NodeId) : Dialed (a.send q).1 peer := by
  rcases (h.server n a ha).send_cases q with ⟨-, hsend⟩ | ⟨c, -, -, hsend⟩ |
    ⟨c, net, hc, -, -, -, hnet, hsend⟩
  · rw [hsend]
    exact hd
  · rw [hsend]
    exact hd
  · rw [hsend]
    have hstored : a.stored q = some c.link := by simp [Server.stored, hc]
    by_cases hpeer : peer = q
    · -- what is dropped is what the task waits for
      subst hpeer
      cases hd with
      | connecting hconn hqueued hempty => cases hstored.symm.trans hempty
      | sending link hconn hqueued hempty hdropped => cases hstored.symm.trans hempty
      | queued link hconn hqueued hempty hdropped => cases hstored.symm.trans hempty
      | stored link hconn hqueued hsome hdropped =>
        obtain rfl : c.link = link := Option.some.inj (hstored.symm.trans hsome)
        exact .dropped c.link hconn hqueued (by simp [Server.stored, hnet]) (by simp)
      | dropped link hconn hqueued hempty hdropped => cases hstored.symm.trans hempty
    · exact h.dialed_setSlot ha hd hpeer rfl rfl hnet (by simp [hstored])

lemma Inv.dropped_apply (h : Inv cfg s) (ha : s.servers n = some a)
    (hd : ∀ link ∈ a.dropped, link < s.links.length) {c : PeerConnection}
    {rest : List PeerConnection} (hq : a.connections = c :: rest) :
    ∀ link ∈ (a.apply c rest).1.dropped, link < s.links.length := by
  have hok := h.server n a ha
  obtain ⟨hc, -⟩ := hok.queued c (by simp [hq])
  obtain ⟨net, -, -, -, happly⟩ := hok.apply_spec rest hc
  intro link hlink
  rw [happly, List.mem_append, Option.mem_toList, Option.map_eq_some_iff] at hlink
  rcases hlink with hold | ⟨e, he, rfl⟩
  · exact hd link hold
  · exact (hok.stored _ e he).lt

lemma Inv.dropped_send (h : Inv cfg s) (ha : s.servers n = some a)
    (hd : ∀ link ∈ a.dropped, link < s.links.length) (q : NodeId) :
    ∀ link ∈ (a.send q).1.dropped, link < s.links.length := by
  have hok := h.server n a ha
  intro link hlink
  rcases hok.send_cases q with ⟨-, hsend⟩ | ⟨c, -, -, hsend⟩ | ⟨c, net, hc, -, -, -, -, hsend⟩
  · exact hd link (by simpa [hsend] using hlink)
  · exact hd link (by simpa [hsend] using hlink)
  · simp only [hsend, List.mem_append, List.mem_singleton] at hlink
    rcases hlink with hold | rfl
    · exact hd link hold
    · exact (hok.stored _ c hc).lt

/-- A server's step keeps what it dialed on its way. -/
lemma Inv.dialOk_change (h : Inv cfg s) {act : Action Msg} {b : Server}
    (ha : s.servers n = some a) (hd : DialOk cfg s.links n a) (hchange : Change s n a act b) :
    DialOk cfg s.links n b := by
  have hok := h.server n a ha
  cases hchange with
  | other act => exact hd
  | dial q hconn =>
    refine ⟨hd.dropped, fun peer hpeer hlt => ?_⟩
    have hold := hd.dialed peer hpeer hlt
    by_cases hq : peer = q
    · subst hq
      cases hold with
      | connecting _ hqueued hstored =>
        refine .sending s.links.length (by simp [Server.setConnector]) hqueued hstored ?_
        exact fun hmem => (hd.dropped _ hmem).false
      | sending link hconn' => cases hconn.symm.trans hconn'
      | queued link hconn' => cases hconn.symm.trans hconn'
      | stored link hconn' => cases hconn.symm.trans hconn'
      | dropped link hconn' => cases hconn.symm.trans hconn'
    · exact hold.frame (by simp [Server.setConnector, hq]) rfl rfl fun _ _ => Iff.rfl
  | accept m d hm hconn =>
    exact ⟨hd.dropped, fun peer hpeer hlt =>
      (hd.dialed peer hpeer hlt).frame rfl rfl rfl fun _ _ => Iff.rfl⟩
  | sendConnection q link hconn =>
    refine ⟨hd.dropped, fun peer hpeer hlt => ?_⟩
    have hold := hd.dialed peer hpeer hlt
    by_cases hq : peer = q
    · subst hq
      cases hold with
      | connecting hconn' => cases hconn.symm.trans hconn'
      | sending link' hconn' hqueued hstored hdropped =>
        obtain rfl := Connector.sending.inj (hconn.symm.trans hconn')
        refine .queued link (by simp [Server.setConnector]) ?_ hstored hdropped
        unfold Server.queued at hqueued
        simp [Server.queued, Server.push, Server.setConnector, List.map_eq_nil_iff.mp hqueued]
      | queued link' hconn' => cases hconn.symm.trans hconn'
      | stored link' hconn' => cases hconn.symm.trans hconn'
      | dropped link' hconn' => cases hconn.symm.trans hconn'
    · refine hold.frame (by simp [Server.setConnector, Server.push, hq]) ?_ rfl fun _ _ => Iff.rfl
      simp [Server.queued, Server.push, Server.setConnector, Ne.symm hq]
  | register i link l hi hl =>
    refine ⟨hd.dropped, fun peer hpeer hlt => (hd.dialed peer hpeer hlt).frame rfl ?_ rfl
      fun _ _ => Iff.rfl⟩
    -- who dialed this server has a higher id
    obtain ⟨m, hm⟩ := hok.accepted link (List.mem_of_getElem? hi)
    obtain rfl := Option.some.inj (hl.symm.trans hm)
    have hgt : n < m := (h.links _ (List.mem_of_getElem? hl)).1
    have hne : m ≠ peer := (hlt.trans hgt).ne'
    simp [Server.queued, Server.push, hne]
  | registrationFails i =>
    exact ⟨hd.dropped, fun peer hpeer hlt =>
      (hd.dialed peer hpeer hlt).frame rfl rfl rfl fun _ _ => Iff.rfl⟩
  | applyConnection c rest hq =>
    exact ⟨h.dropped_apply ha hd.dropped hq, fun peer hpeer hlt =>
      h.dialed_apply ha (hd.dialed peer hpeer hlt) hq⟩
  | sendToCluster q msg =>
    exact ⟨h.dropped_send ha hd.dropped q, fun peer hpeer hlt =>
      h.dialed_send ha (hd.dialed peer hpeer hlt) q⟩
  | peerWriterEnds idx =>
    exact ⟨hd.dropped, fun peer hpeer hlt => (hd.dialed peer hpeer hlt).frame rfl rfl
      (Network.peerWriterEnded_peer idx peer).1 fun _ _ => Iff.rfl⟩
  | closeSignal q link hconn hdropped =>
    refine ⟨hd.dropped, fun peer hpeer hlt => ?_⟩
    have hold := hd.dialed peer hpeer hlt
    by_cases hq : peer = q
    · subst hq
      -- the task waits for the connection that is dropped
      cases hold with
      | connecting hconn' => cases hconn.symm.trans hconn'
      | sending link' hconn' => cases hconn.symm.trans hconn'
      | queued link' hconn' hqueued hstored hkept =>
        obtain rfl := Connector.waiting.inj (hconn.symm.trans hconn')
        exact absurd hdropped hkept
      | stored link' hconn' hqueued hstored hkept =>
        obtain rfl := Connector.waiting.inj (hconn.symm.trans hconn')
        exact absurd hdropped hkept
      | dropped link' hconn' hqueued hstored _ =>
        exact .connecting (by simp [Server.setConnector]) hqueued hstored
    · exact hold.frame (by simp [Server.setConnector, hq]) rfl rfl fun _ _ => Iff.rfl

lemma DialOk.new (cfg : ClusterConfig) (links : List Link) (n : NodeId) :
    DialOk cfg links n (.new cfg n) := by
  have hempty : (Network.new (cfg.getPeers n)).Empty := Network.empty_new _
  refine ⟨by simp [Server.new], fun peer _ _ => .connecting rfl
    (by simp [Server.queued, Server.new])
    (Option.map_eq_none_iff.mpr (Option.eq_none_iff_forall_not_mem.mpr fun c hc => ?_))⟩
  obtain ⟨idx, -, hslot⟩ := Network.peerConnection_spec hc
  cases hempty.slot hslot

lemma step_dialOk {act : Action Msg} (h : Inv cfg s)
    (hd : ∀ n a, s.servers n = some a → DialOk cfg s.links n a)
    (hs : step cfg s act = some s') {b : Server} (hb : s'.servers n = some b) :
    DialOk cfg s'.links n b := by
  have hle : s.links.length ≤ s'.links.length := by
    rcases links_of_step hs with heq | ⟨k, peer, -, heq⟩
    · rw [heq]
    · simp [heq]
  have hmono : ∀ c, DialOk cfg s.links n c → DialOk cfg s'.links n c := fun c hc =>
    ⟨fun link hlink => (hc.dropped link hlink).trans_le hle, hc.dialed⟩
  rcases change_of_step hs hb with ⟨-, rfl⟩ | ⟨a, ha, hchange⟩
  · exact DialOk.new cfg s'.links n
  · exact hmono b (h.dialOk_change ha (hd n a ha) hchange)

lemma dialOk_of_reachable (h : (system cfg).Reachable s) :
    Inv cfg s ∧ ∀ n a, s.servers n = some a → DialOk cfg s.links n a := by
  refine System.Reaches.invariant
    (I := fun s => Inv cfg s ∧ ∀ n a, s.servers n = some a → DialOk cfg s.links n a) ?_ ?_ h
  · rintro s rfl
    exact ⟨inv_start, fun n a ha => by cases ha⟩
  · intro s act s' hinv hs _
    exact ⟨step_inv hinv.1 hs, fun n b hb => step_dialOk hinv.1 hinv.2 hs hb⟩

/-- **The dialing side**: to a peer with a lower id one connection at a time is on its way from the
dial to the slot, or in it, and the next is dialed when that has been dropped. -/
theorem dialed_of_reachable (h : (system cfg).Reachable s) (ha : s.servers n = some a)
    {peer : NodeId} (hpeer : peer ∈ cfg.getPeers n) (hlt : peer < n) : Dialed a peer :=
  ((dialOk_of_reachable h).2 n a ha).dialed peer hpeer hlt

theorem dialed_redialed : ∃ s a, (system twoNodes).run start redialed = some s ∧
    s.servers 2 = some a ∧ a.connectors 1 = .waiting 1 ∧ a.dropped = [0] ∧ Dialed a 1 := by
  obtain ⟨s, a, hrun, ha, hconn, hdropped⟩ : ∃ s a,
      (system twoNodes).run start redialed = some s ∧ s.servers 2 = some a ∧
      a.connectors 1 = .waiting 1 ∧ a.dropped = [0] := ⟨_, _, rfl, rfl, rfl, rfl⟩
  have hreach : (system twoNodes).Reachable s := System.Reachable.run (.init rfl) redialed hrun
  exact ⟨s, a, hrun, ha, hconn, hdropped,
    dialed_of_reachable hreach ha (by decide) (by decide)⟩

/-! ### Dialing again -/

/-- The steps of a server that dials a peer, none of them an error. -/
def Dials (n peer : NodeId) : Action Msg → Prop
  | .sendToCluster k q _ => k = n ∧ q = peer
  | .closeSignal k q => k = n ∧ q = peer
  | .dial k q => k = n ∧ q = peer
  | .sendConnection k q => k = n ∧ q = peer
  | .applyConnection k => k = n
  | _ => False

/-- Such steps lead to a connection that takes what is sent. -/
def Reconnects (cfg : ClusterConfig) (s : State Msg) (n peer : NodeId) : Prop :=
  ∃ as s' a c, (system cfg).run s as = some s' ∧ (∀ act ∈ as, Dials n peer act) ∧
    s'.servers n = some a ∧ a.net.peerConnection peer = some c ∧ c.writerTask = true

lemma Reconnects.of_step {act : Action Msg} {peer : NodeId} (hs : step cfg s act = some s')
    (hact : Dials n peer act) (h : Reconnects cfg s' n peer) : Reconnects cfg s n peer := by
  obtain ⟨as, t, a, c, hrun, has, ha, hc, hw⟩ := h
  refine ⟨act :: as, t, a, c, ?_, List.forall_mem_cons.mpr ⟨hact, has⟩, ha, hc, hw⟩
  have hcons : (system cfg).run s (act :: as) =
      (step cfg s act).bind fun s => (system cfg).run s as := List.foldlM_cons
  rw [hcons, hs]
  exact hrun

/-- A connection in the channel comes to its slot when those before it have been taken. -/
lemma reconnects_queued (link : LinkId) {peer : NodeId} (k : ℕ) (h : (system cfg).Reachable s)
    (ha : s.servers n = some a) (hpeer : peer ∈ cfg.getPeers n) (hlt : peer < n)
    (hlink : a.queued peer = [link]) (hk : a.connections.length = k) :
    Reconnects cfg s n peer := by
  induction k generalizing s a with
  | zero => simp [Server.queued, List.length_eq_zero_iff.mp hk] at hlink
  | succ k ih =>
    obtain ⟨c, rest, hq⟩ := List.exists_cons_of_length_eq_add_one hk
    have hok := (inv_of_reachable h).server n a ha
    obtain ⟨hc, -⟩ := hok.queued c (by simp [hq])
    obtain ⟨net, -, -, hnet, happly⟩ := hok.apply_spec rest hc
    obtain ⟨s', hs, hs'⟩ : ∃ s', step cfg s (.applyConnection n) = some s' ∧
        s'.servers n = some (a.apply c rest).1 := by
      rcases hclosed : (a.apply c rest).2 with _ | closed
      · have heq : a.apply c rest = ((a.apply c rest).1, none) := Prod.ext rfl hclosed
        refine ⟨s.setServer n (a.apply c rest).1, ?_, by simp [servers_setServer]⟩
        simp only [step, ha, hq]
        rw [heq]
      · have heq : a.apply c rest = ((a.apply c rest).1, some closed) := Prod.ext rfl hclosed
        refine ⟨(s.setServer n (a.apply c rest).1).stopReader closed n, ?_, ?_⟩
        · simp only [step, ha, hq]
          rw [heq]
        · exact (servers_setServer s n _ n).trans (if_pos rfl)
    have hreach : (system cfg).Reachable s' := reachable_step h hs
    refine Reconnects.of_step hs rfl ?_
    by_cases hcp : c.peerId = peer
    · subst hcp
      refine ⟨[], s', (a.apply c rest).1, c, rfl, by simp, hs', ?_, hok.fresh c (by simp [hq])⟩
      simp [happly, hnet]
    · refine ih hreach hs' ?_ ?_
      · simpa [happly, Server.queued, hq, hcp] using hlink
      · simpa [happly, hq] using hk

lemma reconnects_sending (link : LinkId) {peer : NodeId} (h : (system cfg).Reachable s)
    (ha : s.servers n = some a) (hpeer : peer ∈ cfg.getPeers n) (hlt : peer < n)
    (hconn : a.connectors peer = .sending link) (hqueued : a.queued peer = []) :
    Reconnects cfg s n peer := by
  have hs : step cfg s (.sendConnection n peer) =
      some (s.setServer n ((a.push ⟨peer, link, true⟩).setConnector peer (.waiting link))) := by
    simp [step, ha, hconn]
  refine Reconnects.of_step hs ⟨rfl, rfl⟩ (reconnects_queued link _
    (reachable_step h hs) ((servers_setServer _ _ _ n).trans (if_pos rfl)) hpeer hlt ?_ rfl)
  unfold Server.queued at hqueued
  simp [Server.queued, Server.push, Server.setConnector, List.map_eq_nil_iff.mp hqueued]

lemma reconnects_connecting {peer : NodeId} {b : Server} (h : (system cfg).Reachable s)
    (ha : s.servers n = some a) (hb : s.servers peer = some b) (hpeer : peer ∈ cfg.getPeers n)
    (hlt : peer < n) (hconn : a.connectors peer = .connecting) (hqueued : a.queued peer = []) :
    Reconnects cfg s n peer := by
  have hmem : peer ∈ a.net.peers := by
    rw [((inv_of_reachable h).server n a ha).peers]
    exact hpeer
  have hne : n ≠ peer := hlt.ne'
  have hs : step cfg s (.dial n peer) = some
      { ((s.setServer n (a.setConnector peer (.sending s.links.length))).setServer peer
          { b with accepted := b.accepted ++ [s.links.length] }).startReader
            s.links.length n peer with
        links := s.links ++ [⟨n, peer⟩] } := by
    simp [step, ha, hb, hmem, hlt, hconn]
  refine Reconnects.of_step hs ⟨rfl, rfl⟩ (reconnects_sending s.links.length
    (a := a.setConnector peer (.sending s.links.length)) (reachable_step h hs) ?_ hpeer hlt ?_
    hqueued)
  · change ((s.setServer n _).setServer peer _).servers n = _
    simp [servers_setServer, hne]
  · simp [Server.setConnector]

lemma reconnects_dropped (link : LinkId) {peer : NodeId} {b : Server}
    (h : (system cfg).Reachable s) (ha : s.servers n = some a) (hb : s.servers peer = some b)
    (hpeer : peer ∈ cfg.getPeers n) (hlt : peer < n) (hconn : a.connectors peer = .waiting link)
    (hqueued : a.queued peer = []) (hdropped : link ∈ a.dropped) : Reconnects cfg s n peer := by
  have hne : peer ≠ n := hlt.ne
  have hs : step cfg s (.closeSignal n peer) =
      some (s.setServer n (a.setConnector peer .connecting)) := by
    simp [step, ha, hconn, hdropped]
  refine Reconnects.of_step hs ⟨rfl, rfl⟩ (reconnects_connecting
    (a := a.setConnector peer .connecting) (b := b) (reachable_step h hs)
    ((servers_setServer _ _ _ n).trans (if_pos rfl)) ?_ hpeer hlt ?_ hqueued)
  · simpa [servers_setServer, hne] using hb
  · simp [Server.setConnector]

/-- **Dialing again**: while both servers are up the server that dials always gets back to a
connection, by steps of its own. -/
theorem reconnects_of_reachable (h : (system cfg).Reachable s) (msg : Msg)
    (ha : s.servers n = some a) {peer : NodeId} {b : Server} (hb : s.servers peer = some b)
    (hpeer : peer ∈ cfg.getPeers n) (hlt : peer < n) : Reconnects cfg s n peer := by
  cases dialed_of_reachable h ha hpeer hlt with
  | connecting hconn hqueued hstored =>
    exact reconnects_connecting h ha hb hpeer hlt hconn hqueued
  | sending link hconn hqueued hstored _ =>
    exact reconnects_sending _ h ha hpeer hlt hconn hqueued
  | queued link hconn hqueued hstored _ => exact reconnects_queued _ _ h ha hpeer hlt hqueued rfl
  | dropped link hconn hqueued hstored hmem =>
    exact reconnects_dropped _ h ha hb hpeer hlt hconn hqueued hmem
  | stored link hconn hqueued hstored _ =>
    -- a message tells whether its writer task runs
    obtain ⟨c, hc, rfl⟩ := Option.map_eq_some_iff.mp hstored
    rcases hw : c.writerTask with _ | _
    · rcases ((inv_of_reachable h).server n a ha).send_cases peer with ⟨hnone, -⟩ |
        ⟨d, hd, hdw, -⟩ | ⟨d, net, hd, -, -, -, -, hsend⟩
      · cases hc.symm.trans hnone
      · cases hc.symm.trans hd
        cases hw.symm.trans hdw
      · cases hc.symm.trans hd
        have hs : step cfg s (.sendToCluster n peer msg) =
            some (s.setServer n (a.send peer).1) := by
          simp [step, ha, hsend]
        have hne : peer ≠ n := hlt.ne
        refine Reconnects.of_step hs ⟨rfl, rfl⟩ (reconnects_dropped c.link
          (a := (a.send peer).1) (b := b) (reachable_step h hs)
          ((servers_setServer _ _ _ n).trans (if_pos rfl)) ?_ hpeer hlt ?_ ?_ ?_)
        · simpa [servers_setServer, hne] using hb
        · rw [hsend]
          exact hconn
        · rw [hsend]
          exact hqueued
        · simp [hsend]
    · exact ⟨[], s, a, c, rfl, by simp, ha, hc, hw⟩

/-- The connection is in its slot, and its writer task has ended. -/
def writerEnded : List (Action ℕ) :=
  [.start 1, .start 2, .dial 2 1, .sendConnection 2 1, .applyConnection 2, .peerWriterEnds 2 0]

theorem reconnects_writerEnded : ∃ s a b, (system twoNodes).run start writerEnded = some s ∧
    s.servers 2 = some a ∧ s.servers 1 = some b ∧ a.net.peerConnections = [some ⟨1, 0, false⟩] ∧
    Reconnects twoNodes s 2 1 := by
  obtain ⟨s, a, b, hrun, ha, hb, hslots⟩ : ∃ s a b,
      (system twoNodes).run start writerEnded = some s ∧ s.servers 2 = some a ∧
      s.servers 1 = some b ∧ a.net.peerConnections = [some ⟨1, 0, false⟩] :=
    ⟨_, _, _, rfl, rfl, rfl, rfl⟩
  have hreach : (system twoNodes).Reachable s := System.Reachable.run (.init rfl) writerEnded hrun
  exact ⟨s, a, b, hrun, ha, hb, hslots,
    reconnects_of_reachable hreach 7 ha hb (by decide) (by decide)⟩

/-! ### Connections that are open one way -/

/-- There is no connection to `n` at the server `m`, nor one on its way. -/
structure Apart (links : List Link) (n m : NodeId) (b : Server) : Prop where
  stored : b.net.peerConnection n = none
  queued : ∀ c ∈ b.connections, c.peerId ≠ n
  accepted : ∀ link ∈ b.accepted, links[link]? ≠ some ⟨n, m⟩

/-- The server `n` holds a connection to `m` that takes what it sends, and `m` has none to `n`. -/
structure HalfOpen (s : State Msg) (n m : NodeId) : Prop where
  lt : m < n
  dialer : ∃ a c, s.servers n = some a ∧ a.net.peerConnection m = some c ∧ c.writerTask = true
  listener : ∃ b, s.servers m = some b ∧ Apart s.links n m b

/-- What `m` has sent to `n`. -/
def State.sentBy (s : State Msg) (m n : NodeId) : List (Sent Msg) :=
  s.sent.filter fun x => x.source = m ∧ x.target = n

/-- Both servers stay up, and so does the writer task of `n`'s connection to `m`. -/
def Undisturbed (n m : NodeId) (s : State Msg) : Action Msg → Prop
  | .crash k => k ≠ n ∧ k ≠ m
  | .peerWriterEnds k idx => k = n → ∀ a, s.servers n = some a → a.net.clusterIdToIdx m ≠ some idx
  | _ => True

/-- With a connection in the slot the task that dialed it waits. -/
lemma DialOk.waits (hd : DialOk cfg links n a) {peer : NodeId} (hpeer : peer ∈ cfg.getPeers n)
    (hlt : peer < n) {c : PeerConnection} (hc : a.net.peerConnection peer = some c) :
    a.connectors peer = .waiting c.link ∧ a.queued peer = [] := by
  have hstored : a.stored peer = some c.link := by simp [Server.stored, hc]
  cases hd.dialed peer hpeer hlt with
  | connecting _ _ hempty => cases hstored.symm.trans hempty
  | sending _ _ _ hempty => cases hstored.symm.trans hempty
  | queued _ _ _ hempty => cases hstored.symm.trans hempty
  | stored link hconn hqueued hsome =>
    cases hstored.symm.trans hsome
    exact ⟨hconn, hqueued⟩
  | dropped _ _ _ hempty => cases hstored.symm.trans hempty

lemma ServerOk.mem_peers {peer : NodeId} (h : ServerOk cfg links n a) {c : PeerConnection}
    (hc : a.net.peerConnection peer = some c) : peer ∈ cfg.getPeers n := by
  obtain ⟨idx, hidx, -⟩ := Network.peerConnection_spec hc
  rw [← h.peers]
  exact List.mem_of_getElem? (Network.clusterIdToIdx_spec hidx)

/-- The dialing side keeps its connection. -/
lemma Inv.halfOpen_dialer (h : Inv cfg s) {act : Action Msg} {b : Server} {c : PeerConnection}
    (ha : s.servers n = some a) (hd : DialOk cfg s.links n a) (hlt : m < n)
    (hc : a.net.peerConnection m = some c) (hw : c.writerTask = true)
    (hchange : Change s n a act b) (hund : Undisturbed n m s act) :
    b.net.peerConnection m = some c := by
  have hok := h.server n a ha
  obtain ⟨hconn, hqueued⟩ := hd.waits (hok.mem_peers hc) hlt hc
  cases hchange with
  | applyConnection d rest hq =>
    obtain ⟨hdpeer, -⟩ := hok.queued d (by simp [hq])
    obtain ⟨net, -, -, hnet, happly⟩ := hok.apply_spec rest hdpeer
    have hne : m ≠ d.peerId := by
      rintro rfl
      simp [Server.queued, hq] at hqueued
    simpa [happly, hnet, hne] using hc
  | sendToCluster q msg =>
    rcases hok.send_cases q with ⟨-, hsend⟩ | ⟨d, -, -, hsend⟩ |
      ⟨d, net, hdq, hdw, -, -, hnet, hsend⟩
    · rwa [hsend]
    · rwa [hsend]
    · have hne : m ≠ q := by
        rintro rfl
        cases hc.symm.trans hdq
        cases hw.symm.trans hdw
      simpa [hsend, hnet, hne] using hc
  | peerWriterEnds idx =>
    exact ((Network.peerWriterEnded_peer idx m).2 (hund rfl a ha)).trans hc
  | other => exact hc
  | dial => exact hc
  | accept => exact hc
  | sendConnection => exact hc
  | register => exact hc
  | registrationFails => exact hc
  | closeSignal => exact hc

lemma Apart.push {b : Server} {c : PeerConnection} (h : Apart links n m b) (hc : c.peerId ≠ n) :
    Apart links n m (b.push c) := by
  refine ⟨h.stored, fun d hd => ?_, h.accepted⟩
  rcases List.mem_append.mp hd with hold | hnew
  · exact h.queued d hold
  · obtain rfl := List.mem_singleton.mp hnew
    exact hc

/-- The other side stays apart while nobody dials it from `n`. -/
lemma Inv.apart_change (h : Inv cfg s) {act : Action Msg} {b b' : Server}
    (hb : s.servers m = some b) (hlt : m < n) (hap : Apart s.links n m b)
    (hchange : Change s m b act b') (hdial : act ≠ .dial n m)
    (hs : step cfg s act = some s') : Apart s'.links n m b' := by
  have hok := h.server m b hb
  -- the sockets accepted before this step are as they were
  have haccepted : ∀ link ∈ b.accepted, s'.links[link]? ≠ some ⟨n, m⟩ := by
    intro link hlink
    obtain ⟨k, hk⟩ := hok.accepted link hlink
    rcases links_of_step hs with heq | ⟨_, _, -, heq⟩
    · exact heq ▸ hap.accepted link hlink
    · rw [heq, getElem?_append_some hk, ← hk]
      exact hap.accepted link hlink
  cases hchange with
  | other => exact ⟨hap.stored, hap.queued, haccepted⟩
  | dial => exact ⟨hap.stored, hap.queued, haccepted⟩
  | accept d e he hconn =>
    have hne : d ≠ n := fun heq => hdial (heq ▸ rfl)
    refine ⟨hap.stored, hap.queued, fun link hlink => ?_⟩
    rcases List.mem_append.mp hlink with hold | hnew
    · exact haccepted link hold
    · obtain rfl := List.mem_singleton.mp hnew
      cases steps_of_step hs with
      | dial => simpa using hne
  | sendConnection peer link hconn =>
    have hlink := (hok.connectors peer link (Or.inl hconn)).2
    have hpeer : peer < m := (h.links _ (List.mem_of_getElem? hlink)).1
    have hpush := Apart.push (c := ⟨peer, link, true⟩) ⟨hap.stored, hap.queued, haccepted⟩
      (hpeer.trans hlt).ne
    exact ⟨hpush.stored, hpush.queued, hpush.accepted⟩
  | register i link l hi hl =>
    have hmem := List.mem_of_getElem? hi
    obtain ⟨k, hk⟩ := hok.accepted link hmem
    obtain rfl := Option.some.inj (hl.symm.trans hk)
    have hne : k ≠ n := by
      rintro rfl
      exact hap.accepted link hmem hl
    have hpush := Apart.push (c := ⟨k, link, true⟩) ⟨hap.stored, hap.queued, haccepted⟩ hne
    exact ⟨hpush.stored, hpush.queued,
      fun link' hl' => haccepted link' ((List.eraseIdx_sublist _ _).subset hl')⟩
  | registrationFails i =>
    exact ⟨hap.stored, hap.queued,
      fun link hl => haccepted link ((List.eraseIdx_sublist _ _).subset hl)⟩
  | applyConnection c rest hq =>
    obtain ⟨hc, -⟩ := hok.queued c (by simp [hq])
    obtain ⟨net, -, -, hnet, happly⟩ := hok.apply_spec rest hc
    have hne : n ≠ c.peerId := (hap.queued c (by simp [hq])).symm
    rw [happly]
    refine ⟨by simpa [hnet, hne] using hap.stored, fun d hd => hap.queued d ?_, haccepted⟩
    rw [hq]
    exact List.mem_cons_of_mem c hd
  | sendToCluster q msg =>
    rcases hok.send_cases q with ⟨-, hsend⟩ | ⟨d, -, -, hsend⟩ | ⟨d, net, -, -, -, -, hnet, hsend⟩
    · rw [hsend]
      exact ⟨hap.stored, hap.queued, haccepted⟩
    · rw [hsend]
      exact ⟨hap.stored, hap.queued, haccepted⟩
    · rw [hsend]
      refine ⟨?_, hap.queued, haccepted⟩
      by_cases hq : n = q
      · subst hq
        simp [hnet]
      · simpa [hnet, hq] using hap.stored
  | peerWriterEnds idx =>
    have hlink := (Network.peerWriterEnded_peer (n := b.net) idx n).1
    rw [hap.stored] at hlink
    exact ⟨Option.map_eq_none_iff.mp hlink, hap.queued, haccepted⟩
  | closeSignal => exact ⟨hap.stored, hap.queued, haccepted⟩

lemma halfOpen_step {act : Action Msg} (h : Inv cfg s)
    (hd : ∀ n a, s.servers n = some a → DialOk cfg s.links n a) (hopen : HalfOpen s n m)
    (hs : step cfg s act = some s') (hund : Undisturbed n m s act) :
    HalfOpen s' n m ∧ s'.sentBy m n = s.sentBy m n := by
  obtain ⟨hlt, ⟨a, c, ha, hc, hw⟩, b, hb, hapart⟩ := hopen
  have hup : act ≠ .crash n ∧ act ≠ .crash m := by
    constructor
    · rintro rfl
      exact hund.1 rfl
    · rintro rfl
      exact hund.2 rfl
  have hdial : act ≠ .dial n m := by
    rintro rfl
    cases steps_of_step hs with
    | dial _ _ a' _ ha' _ _ _ hconn =>
      cases ha.symm.trans ha'
      have hwaits := ((hd n a ha).waits ((h.server n a ha).mem_peers hc) hlt hc).1
      cases hconn.symm.trans hwaits
  obtain ⟨a', ha', hca⟩ := change_of_up hs ha hup.1
  obtain ⟨b', hb', hcb⟩ := change_of_up hs hb hup.2
  have hkept := h.halfOpen_dialer ha (hd n a ha) hlt hc hw hca hund
  have hapart' := h.apart_change hb hlt hapart hcb hdial hs
  refine ⟨⟨hlt, ⟨a', c, ha', hkept, hw⟩, b', hb', hapart'⟩, ?_⟩
  rcases sent_of_step hs with heq | ⟨k, d, d', peer, msg, link, hk, hsend, heq⟩
  · simp [State.sentBy, heq]
  · have hne : ¬ (k = m ∧ peer = n) := by
      rintro ⟨rfl, rfl⟩
      cases hb.symm.trans hk
      obtain ⟨e, he, -⟩ := (h.server _ _ hb).peerConnection_of_send hsend
      cases hapart.stored.symm.trans he
    simpa [State.sentBy, heq] using hne

/-- **A connection that is open one way stays so**: `n` goes on sending to `m` and does not dial
again, `m` waits to be dialed, and nothing that `m` sends goes to `n`. -/
theorem halfOpen_of_run {as : List (Action Msg)} (h : (system cfg).Reachable s)
    (hopen : HalfOpen s n m) (hr : (system cfg).run s as = some s')
    (hund : (system cfg).Meets (Undisturbed n m) s as) :
    HalfOpen s' n m ∧ s'.sentBy m n = s.sentBy m n := by
  induction as generalizing s with
  | nil =>
    cases hr
    exact ⟨hopen, rfl⟩
  | cons act as ih =>
    simp only [System.run, List.foldlM_cons, Option.bind_eq_bind, Option.bind_eq_some_iff] at hr
    obtain ⟨s₁, hs, hr⟩ := hr
    rw [System.Meets, hs] at hund
    obtain ⟨hinv, hdialed⟩ := dialOk_of_reachable h
    obtain ⟨hopen₁, hsent⟩ := halfOpen_step hinv hdialed hopen hs hund.1
    obtain ⟨hopen', hsent'⟩ := ih (h.step hs trivial) hopen₁ hr hund.2
    exact ⟨hopen', hsent'.trans hsent⟩

/-- The writer task of the listener ends and the next message makes it drop the connection. -/
def halfOpened : List (Action ℕ) :=
  [.start 1, .start 2, .dial 2 1, .sendConnection 2 1, .applyConnection 2, .register 1 0,
    .applyConnection 1, .peerWriterEnds 1 0, .sendToCluster 1 2 7]

theorem halfOpen_halfOpened : ∃ s s', (system twoNodes).run start halfOpened = some s ∧
    (system twoNodes).run s [.sendToCluster 2 1 8, .read 0 1, .sendToCluster 1 2 9] = some s' ∧
    HalfOpen s 2 1 ∧ s'.received = [⟨1, 2, 0, ⟨0, 8⟩⟩] ∧ HalfOpen s' 2 1 ∧
    s'.sentBy 1 2 = s.sentBy 1 2 := by
  obtain ⟨s, hrun, hopen, s', hrun', hreceived⟩ : ∃ s,
      (system twoNodes).run start halfOpened = some s ∧ HalfOpen s 2 1 ∧
      ∃ s', (system twoNodes).run s [.sendToCluster 2 1 8, .read 0 1, .sendToCluster 1 2 9] =
        some s' ∧ s'.received = [⟨1, 2, 0, ⟨0, 8⟩⟩] := by
    refine ⟨_, rfl, ⟨by decide, ⟨_, _, rfl, rfl, rfl⟩, _, rfl, rfl, ?_, ?_⟩, _, rfl, rfl⟩
    · decide
    · decide
  have hreach : (system twoNodes).Reachable s := System.Reachable.run (.init rfl) halfOpened hrun
  obtain ⟨hopen', hsent⟩ := halfOpen_of_run hreach hopen hrun'
    (System.meets_of_forall (by simp [Undisturbed]) s)
  exact ⟨s, s', hrun, hrun', hopen, hreceived, hopen', hsent⟩

end OmniPaxosKV.PeerMesh
