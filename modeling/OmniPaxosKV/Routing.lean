import OmniPaxosKV.Cluster
import OmniPaxosKV.Recovery

/-!
Which process a response reaches.

An entry of the log is answered to whoever is registered under its client id when its server
comes to it. The ids start over with each run of the server, while entries wait in the log.
`ownResponses_of_fresh` says when every response still reaches the process that sent the
command: when nobody registers under an id that the server has yet to answer for another
process.
-/

namespace OmniPaxosKV.Routing

open Common Store Server Crash TestClient Tracking TransSys Cluster

open Function (update)

variable {Text : Type}

/-- The response handed over is the one to the entry at its index, and the link belongs to the
process that sent the command of the entry. -/
def Own (s : State Text) (h : Handed) : Prop :=
  ∃ e, s.log[h.index]? = some e ∧ s.owners[h.link]? = some e.origin ∧
    response h.node s.commands h.index = some (e.command.clientId, h.msg)

/-- The response was handed to a connection of the process. -/
def HandedTo (s : State Text) (p : ProcId) (msg : ServerMessage) : Prop :=
  ∃ h ∈ s.handed, s.owners[h.link]? = some p ∧ h.msg = msg

/-- The link belongs to a process of the server and is registered there under the id. -/
def RegisteredAt (cfg : Config Text) (s : State Text) (n : NodeId) (c : ClientId) (link : LinkId) :
    Prop :=
  s.serverEnd link = .registered c ∧ ∃ p, s.owners[link]? = some p ∧ cfg.home p = n

/-- An entry comes from a process of its server that sent its command under its id. -/
def Entered (cfg : Config Text) (s : State Text) (e : Entry) : Prop :=
  e.command.coordinatorId = cfg.home e.origin ∧ ∃ a ∈ (s.trackers e.origin).accepted,
    a.message = .Append e.command.id e.command.kvCmd ∧ a.cmd.tx = e.tx

/-- What the server has not passed and will answer to the id comes from the process. -/
def Answerable (s : State Text) (n : NodeId) (c : ClientId) (p : ProcId) : Prop :=
  ∀ e ∈ s.unhandled n, e.command.coordinatorId = n → e.command.clientId = c → e.origin = p

structure Inv (cfg : Config Text) (s : State Text) : Prop where
  good : ∀ n, Good cfg.serde n s.commands (s.nodes n)
  tracked : ∀ p, Tracking.Inv (s.trackers p)
  unstarted : ∀ p, s.phase p = .unstarted → s.trackers p = Tracker.new (cfg.home p) 0
  links : ∀ p, s.phase p ≠ .unstarted → ∀ link ∈ (s.trackers p).client.network.links,
    s.owners[link]? = some p
  up : ∀ link, ∀ a ∈ s.up link, a.link = link ∧
    ∃ p, s.owners[link]? = some p ∧ a ∈ (s.trackers p).accepted
  entered : ∀ e ∈ s.log ++ s.pool, Entered cfg s e
  registered : ∀ link c, s.serverEnd link = .registered c → ∃ p, s.owners[link]? = some p ∧
    (s.nodes (cfg.home p)).proc.isSome ∧ c ≤ (s.nets (cfg.home p)).maxClientId ∧
    Answerable s (cfg.home p) c p
  unique : ∀ n c link link', RegisteredAt cfg s n c link → RegisteredAt cfg s n c link' →
    link = link'
  table : ∀ n c connection, (s.nets n).clientConnections.lookup c = some connection →
    RegisteredAt cfg s n c connection.link
  queued : ∀ n, ∀ connection ∈ s.registering n,
    RegisteredAt cfg s n connection.clientId connection.link
  own : ∀ h ∈ s.handed, Own s h
  down : ∀ link, ∀ msg ∈ s.down link, msg.commandId ≠ none →
    ∃ h ∈ s.handed, h.link = link ∧ h.msg = msg
  answered : ∀ p, ∀ a ∈ (s.trackers p).answers, ∀ now msg, a.upon = .message now msg →
    msg.commandId ≠ none → HandedTo s p msg
  alive : ∀ p, s.phase p ≠ .panicked

variable {cfg : Config Text} {s s' : State Text}

/-! ### What does not concern the connections -/

lemma Inv.bookkeeping (h : Inv cfg s) (requests : List Request)
    (httpRx : ProcId → List ApiCommand) (clock : ℕ) :
    Inv cfg { s with requests := requests, httpRx := httpRx, clock := clock } :=
  ⟨h.good, h.tracked, h.unstarted, h.links, h.up, h.entered, h.registered, h.unique, h.table,
    h.queued, h.own, h.down, h.answered, h.alive⟩

lemma Inv.lost (h : Inv cfg s) (up : LinkId → List Sent) (down : LinkId → List ServerMessage)
    (hup : ∀ link, (up link).Sublist (s.up link))
    (hdown : ∀ link, (down link).Sublist (s.down link)) :
    Inv cfg { s with up := up, down := down } :=
  ⟨h.good, h.tracked, h.unstarted, h.links, fun link a ha => h.up link a ((hup link).subset ha),
    h.entered, h.registered, h.unique, h.table, h.queued, h.own,
    fun link msg hmsg => h.down link msg ((hdown link).subset hmsg), h.answered, h.alive⟩

lemma Inv.setPhase (h : Inv cfg s) {p : ProcId} {phase : Phase} (hp : s.phase p ≠ .unstarted)
    (hun : phase ≠ .unstarted) (hpan : phase ≠ .panicked) : Inv cfg (s.setPhase p phase) := by
  have hphase : ∀ q, (s.setPhase p phase).phase q = .unstarted ↔ s.phase q = .unstarted := by
    intro q
    by_cases hq : q = p
    · subst hq
      simp [State.setPhase, hun, hp]
    · simp [State.setPhase, hq]
  refine ⟨h.good, h.tracked, fun q hq => h.unstarted q ((hphase q).mp hq), fun q hq => ?_, h.up,
    h.entered, h.registered, h.unique, h.table, h.queued, h.own, h.down, h.answered, fun q => ?_⟩
  · exact h.links q fun hq' => hq ((hphase q).mpr hq')
  · by_cases hq : q = p
    · subst hq
      simpa [State.setPhase] using hpan
    · simpa [State.setPhase, hq] using h.alive q

/-! ### Connections -/

lemma RegisteredAt.openLink {n : NodeId} {c : ClientId} {link : LinkId}
    (h : RegisteredAt cfg s n c link) (p : ProcId) : RegisteredAt cfg (s.openLink p) n c link := by
  obtain ⟨hend, q, hq, hn⟩ := h
  exact ⟨hend, q, getElem?_append_some hq, hn⟩

lemma Own.openLink {h : Handed} (ho : Own s h) (p : ProcId) : Own (s.openLink p) h := by
  obtain ⟨e, he, howner, hresp⟩ := ho
  exact ⟨e, he, getElem?_append_some howner, hresp⟩

lemma Inv.openLink (h : Inv cfg s) (p : ProcId) : Inv cfg (s.openLink p) := by
  have hback : ∀ {n c link}, RegisteredAt cfg (s.openLink p) n c link →
      RegisteredAt cfg s n c link := by
    rintro n c link ⟨hend, q, hq, hn⟩
    obtain ⟨q', hq', -⟩ := h.registered link c hend
    have hq'' : (s.openLink p).owners[link]? = some q' := getElem?_append_some hq'
    obtain rfl : q = q' := Option.some.inj (hq.symm.trans hq'')
    exact ⟨hend, q, hq', hn⟩
  refine ⟨h.good, h.tracked, h.unstarted, ?_, ?_, h.entered, ?_, ?_, ?_, ?_, ?_, h.down, ?_,
    h.alive⟩
  · exact fun q hq link hlink => getElem?_append_some (h.links q hq link hlink)
  · intro link a ha
    obtain ⟨hlink, q, hq, ha⟩ := h.up link a ha
    exact ⟨hlink, q, getElem?_append_some hq, ha⟩
  · intro link c hend
    obtain ⟨q, hq, hrest⟩ := h.registered link c hend
    exact ⟨q, getElem?_append_some hq, hrest⟩
  · exact fun n c link link' hl hl' => h.unique n c link link' (hback hl) (hback hl')
  · exact fun n c connection hc => (h.table n c connection hc).openLink p
  · exact fun n connection hc => (h.queued n connection hc).openLink p
  · exact fun x hx => (h.own x hx).openLink p
  · intro q a ha now msg hupon hid
    obtain ⟨x, hx, howner, hmsg⟩ := h.answered q a ha now msg hupon hid
    exact ⟨x, hx, getElem?_append_some howner, hmsg⟩

/-- A server's table of connections loses an entry, or marks one. -/
lemma Inv.setNet (h : Inv cfg s) {n : NodeId} {net : ServerNetwork.Network}
    (hlookup : ∀ c connection, net.clientConnections.lookup c = some connection →
      ∃ connection', (s.nets n).clientConnections.lookup c = some connection' ∧
        connection'.link = connection.link)
    (hmax : net.maxClientId = (s.nets n).maxClientId) :
    Inv cfg { s with nets := update s.nets n net } := by
  have hmax' : ∀ m, (update s.nets n net m).maxClientId = (s.nets m).maxClientId := by
    intro m
    by_cases hm : m = n
    · subst hm
      simp [hmax]
    · simp [hm]
  refine ⟨h.good, h.tracked, h.unstarted, h.links, h.up, h.entered, ?_, h.unique, ?_, h.queued,
    h.own, h.down, h.answered, h.alive⟩
  · intro link c hend
    obtain ⟨p, hp, hup, hle, hans⟩ := h.registered link c hend
    exact ⟨p, hp, hup, by rw [hmax']; exact hle, hans⟩
  · intro m c connection hc
    by_cases hm : m = n
    · subst hm
      obtain ⟨connection', hc', hlink⟩ := hlookup c connection (by simpa using hc)
      exact hlink ▸ h.table m c connection' hc'
    · exact h.table m c connection (by simpa [hm] using hc)

/-- What is registered afterwards: what was, and the new connection under the new id. -/
lemma registeredAt_register {link : LinkId} {p : ProcId} (hp : s.owners[link]? = some p)
    (hend : s.serverEnd link = .connecting) {m : NodeId} {c : ClientId} {l : LinkId} :
    RegisteredAt cfg (s.register (cfg.home p) link) m c l ↔ RegisteredAt cfg s m c l ∨
      m = cfg.home p ∧ c = (s.nets (cfg.home p)).nextClientId.2 ∧ l = link := by
  by_cases hl : l = link
  · subst hl
    have hend' : (s.register (cfg.home p) l).serverEnd l =
        .registered (s.nets (cfg.home p)).nextClientId.2 := by
      simp [State.register]
    constructor
    · rintro ⟨hreg, q, hq, hm⟩
      rw [hend'] at hreg
      obtain rfl : q = p := Option.some.inj (hq.symm.trans hp)
      exact Or.inr ⟨hm.symm, (ServerEnd.registered.inj hreg).symm, rfl⟩
    · rintro (⟨hreg, -⟩ | ⟨rfl, rfl, -⟩)
      · rw [hend] at hreg
        cases hreg
      · exact ⟨hend', p, hp, rfl⟩
  · have hend' : (s.register (cfg.home p) link).serverEnd l = s.serverEnd l := by
      simp [State.register, hl]
    simp only [RegisteredAt, hend', hl, and_false, or_false]
    rfl

lemma Inv.register (h : Inv cfg s) {link : LinkId} {p : ProcId} (hp : s.owners[link]? = some p)
    (hend : s.serverEnd link = .connecting) (hup : (s.nodes (cfg.home p)).proc.isSome)
    (hfresh : Answerable s (cfg.home p) (s.nets (cfg.home p)).nextClientId.2 p) :
    Inv cfg (s.register (cfg.home p) link) := by
  set n := cfg.home p with hn
  set c₀ := (s.nets n).nextClientId.2 with hc₀
  have hc₀' : c₀ = (s.nets n).maxClientId + 1 := rfl
  have hregistered : ∀ {m c l}, RegisteredAt cfg (s.register n link) m c l ↔
      RegisteredAt cfg s m c l ∨ m = n ∧ c = c₀ ∧ l = link := registeredAt_register hp hend
  have hmax : ∀ m, (s.nets m).maxClientId ≤ ((s.register n link).nets m).maxClientId := by
    intro m
    by_cases hm : m = n
    · subst hm
      simp [State.register, ServerNetwork.Network.nextClientId]
    · simp [State.register, hm]
  have hlookup : ∀ m c, ((s.register n link).nets m).clientConnections.lookup c =
      (s.nets m).clientConnections.lookup c := by
    intro m c
    by_cases hm : m = n
    · subst hm
      simp [State.register, ServerNetwork.Network.nextClientId]
    · simp [State.register, hm]
  refine ⟨h.good, h.tracked, h.unstarted, h.links, h.up, h.entered, ?_, ?_, ?_, ?_, h.own, h.down,
    h.answered, h.alive⟩
  · intro l c hreg
    by_cases hl : l = link
    · subst hl
      have hc : c = c₀ := by
        have hend' : (s.register n l).serverEnd l = .registered c₀ := by
          simp [State.register, hc₀]
        exact (ServerEnd.registered.inj (hend'.symm.trans hreg)).symm
      subst hc
      refine ⟨p, hp, hup, ?_, hfresh⟩
      simp [State.register, ServerNetwork.Network.nextClientId, ← hn, hc₀]
    · have hreg' : s.serverEnd l = .registered c := by
        simpa [State.register, hl] using hreg
      obtain ⟨q, hq, hup', hle, hans⟩ := h.registered l c hreg'
      exact ⟨q, hq, hup', hle.trans (hmax _), hans⟩
  · -- the new id is above all ids in use
    have hnew : ∀ l, ¬ RegisteredAt cfg s n c₀ l := by
      rintro l ⟨hreg, q, hq, hm⟩
      obtain ⟨q', hq', -, hle, -⟩ := h.registered l c₀ hreg
      obtain rfl : q = q' := Option.some.inj (hq.symm.trans hq')
      rw [hm, hc₀'] at hle
      exact absurd hle (Nat.not_succ_le_self _)
    intro m c l l' hl hl'
    rcases hregistered.mp hl with hold | ⟨rfl, rfl, rfl⟩
    · rcases hregistered.mp hl' with hold' | ⟨rfl, rfl, rfl⟩
      · exact h.unique m c l l' hold hold'
      · exact absurd hold (hnew l)
    · rcases hregistered.mp hl' with hold' | ⟨-, -, rfl⟩
      · exact absurd hold' (hnew l')
      · rfl
  · intro m c connection hc
    rw [hlookup] at hc
    exact hregistered.mpr (Or.inl (h.table m c connection hc))
  · intro m connection hc
    by_cases hm : m = n
    · subst hm
      have hc' : connection ∈ s.registering n ∨ connection = ⟨c₀, link, true⟩ := by
        simpa [State.register, hc₀] using hc
      rcases hc' with hc' | rfl
      · exact hregistered.mpr (Or.inl (h.queued n connection hc'))
      · exact hregistered.mpr (Or.inr ⟨rfl, rfl, rfl⟩)
    · have hc' : connection ∈ s.registering m := by
        simpa [State.register, hm] using hc
      exact hregistered.mpr (Or.inl (h.queued m connection hc'))

lemma Inv.applyConnection (h : Inv cfg s) {n : NodeId} {i : ℕ}
    {connection : ServerNetwork.ClientConnection} (hi : (s.registering n)[i]? = some connection) :
    Inv cfg { s with
      nets := update s.nets n ((s.nets n).applyConnection (.ToClient connection)).1
      registering := update s.registering n ((s.registering n).eraseIdx i) } := by
  refine ⟨h.good, h.tracked, h.unstarted, h.links, h.up, h.entered, ?_, h.unique, ?_, ?_, h.own,
    h.down, h.answered, h.alive⟩
  · intro link c hend
    obtain ⟨p, hp, hup, hle, hans⟩ := h.registered link c hend
    refine ⟨p, hp, hup, ?_, hans⟩
    by_cases hm : cfg.home p = n
    · simpa [hm, ServerNetwork.Network.applyConnection] using hle
    · simpa [hm] using hle
  · intro m c connection' hc
    by_cases hm : m = n
    · subst hm
      by_cases hcc : c = connection.clientId
      · subst hcc
        have heq : connection = connection' := by
          simpa [ServerNetwork.Network.applyConnection] using hc
        subst heq
        exact h.queued m connection (List.mem_of_getElem? hi)
      · have hc' : (s.nets m).clientConnections.lookup c = some connection' := by
          simpa [ServerNetwork.Network.applyConnection, AList.lookup_insert_ne hcc] using hc
        exact h.table m c connection' hc'
    · exact h.table m c connection' (by simpa [hm] using hc)
  · intro m connection' hc
    by_cases hm : m = n
    · subst hm
      have hc' : connection' ∈ (s.registering m).eraseIdx i := by simpa using hc
      exact h.queued m connection' (List.mem_of_mem_eraseIdx hc')
    · exact h.queued m connection' (by simpa [hm] using hc)

/-! ### The log -/

lemma Inv.appendToLog (h : Inv cfg s) {link : LinkId} {p : ProcId} {c : ClientId} {a : Sent}
    {rest : List Sent} (hp : s.owners[link]? = some p) (hend : s.serverEnd link = .registered c)
    (hup : s.up link = a :: rest) :
    Inv cfg (State.appendToLog { s with up := update s.up link rest } (cfg.home p) c p a) := by
  obtain ⟨-, q, hq, ha⟩ := h.up link a (by simp [hup])
  obtain rfl : p = q := Option.some.inj (hp.symm.trans hq)
  obtain ⟨-, id, hmsg⟩ := (h.tracked p).sent a ha
  set e : Entry := ⟨⟨c, cfg.home p, id, a.cmd.kvCmd⟩, p, a.cmd.tx⟩ with he
  have hstate : State.appendToLog { s with up := update s.up link rest } (cfg.home p) c p a =
      { s with up := update s.up link rest, pool := s.pool ++ [e] } := by
    simp only [State.appendToLog, hmsg, he]
  rw [hstate]
  refine ⟨h.good, h.tracked, h.unstarted, h.links, ?_, ?_, ?_, h.unique, h.table, h.queued, h.own,
    h.down, h.answered, h.alive⟩
  · have hrest : rest.Sublist (s.up link) := by
      rw [hup]
      exact List.sublist_cons_self _ _
    exact fun l b hb => h.up l b ((update_sublist hrest l).subset hb)
  · intro x hx
    have hx' : x ∈ s.log ++ s.pool ∨ x = e := by simpa [or_assoc] using hx
    rcases hx' with hx' | rfl
    · exact h.entered x hx'
    · exact ⟨rfl, a, ha, hmsg, rfl⟩
  · intro l c' hreg
    obtain ⟨q, hq, hupq, hle, hans⟩ := h.registered l c' hreg
    refine ⟨q, hq, hupq, hle, fun x hx hcoord hclient => ?_⟩
    have hx' : x ∈ s.unhandled (cfg.home q) ∨ x = e := by
      simpa [State.unhandled, or_assoc] using hx
    rcases hx' with hx' | rfl
    · exact hans x hx' hcoord hclient
    · -- the id is in use for this link only
      have hc : c = c' := hclient
      have hhome : cfg.home p = cfg.home q := hcoord
      have hl : link = l := h.unique (cfg.home q) c' link l ⟨hc ▸ hend, p, hp, hhome⟩
        ⟨hreg, q, hq, rfl⟩
      subst hl
      exact Option.some.inj (hp.symm.trans hq)

lemma Own.decided {x : Handed} (ho : Own s x) (e : Entry) (pool : List Entry) :
    Own { s with log := s.log ++ [e], pool := pool } x := by
  obtain ⟨e', he', howner, hresp⟩ := ho
  refine ⟨e', getElem?_append_some he', howner, response_mono hresp ?_⟩
  exact (List.prefix_append s.log [e]).map _

lemma Inv.decided (h : Inv cfg s) {i : ℕ} {e : Entry} (hi : s.pool[i]? = some e) :
    Inv cfg { s with log := s.log ++ [e], pool := s.pool.eraseIdx i } := by
  have hpool : ∀ x, x = e ∨ x ∈ s.pool.eraseIdx i → x ∈ s.pool := by
    rintro x (rfl | hx)
    · exact List.mem_of_getElem? hi
    · exact List.mem_of_mem_eraseIdx hx
  refine ⟨fun n => ?_, h.tracked, h.unstarted, h.links, h.up, ?_, ?_, h.unique, h.table, h.queued,
    fun x hx => (h.own x hx).decided e _, h.down, h.answered, h.alive⟩
  · exact (h.good n).mono ((List.prefix_append s.log [e]).map _)
  · intro x hx
    refine h.entered x ?_
    simp only [List.mem_append, List.mem_singleton, or_assoc] at hx ⊢
    exact hx.imp_right (hpool x)
  · intro l c hreg
    obtain ⟨p, hp, hup, hle, hans⟩ := h.registered l c hreg
    refine ⟨p, hp, hup, hle, fun x hx => hans x ?_⟩
    simp only [State.unhandled, List.drop_append, List.mem_append, or_assoc] at hx ⊢
    refine hx.imp_right fun hx => hpool x ?_
    exact hx.imp_left fun hx => List.mem_singleton.mp (List.mem_of_mem_drop hx)

/-! ### What a server sends -/

lemma Inv.deliver (h : Inv cfg s) (link : LinkId) (msg : ServerMessage) (new : List Handed)
    (hown : ∀ x ∈ new, Own s x)
    (hmsg : msg.commandId ≠ none → ∃ x ∈ new, x.link = link ∧ x.msg = msg) :
    Inv cfg { s with
      down := update s.down link (s.down link ++ [msg])
      handed := s.handed ++ new } := by
  refine ⟨h.good, h.tracked, h.unstarted, h.links, h.up, h.entered, h.registered, h.unique, h.table,
    h.queued, ?_, ?_, ?_, h.alive⟩
  · intro x hx
    rcases List.mem_append.mp hx with hx | hx
    · exact h.own x hx
    · exact hown x hx
  · intro l m hm hid
    have hm' : m ∈ s.down l ∨ l = link ∧ m = msg := by
      by_cases hl : l = link
      · subst hl
        simpa using hm
      · exact Or.inl (by simpa [hl] using hm)
    rcases hm' with hm' | ⟨rfl, rfl⟩
    · obtain ⟨x, hx, hrest⟩ := h.down l m hm' hid
      exact ⟨x, List.mem_append_left _ hx, hrest⟩
    · obtain ⟨x, hx, hrest⟩ := hmsg hid
      exact ⟨x, List.mem_append_right _ hx, hrest⟩
  · intro p a ha now m hupon hid
    obtain ⟨x, hx, hrest⟩ := h.answered p a ha now m hupon hid
    exact ⟨x, List.mem_append_left _ hx, hrest⟩

/-- The entry a server is at is answered to the process it comes from. -/
lemma Inv.own_response (h : Inv cfg s) {n : NodeId} {x : Send} {link : LinkId}
    (hresp : response n s.commands (s.nodes n).handled = some x)
    (hsend : ((s.nets n).sendToClient x.1).2 = some link) :
    Own s ⟨n, (s.nodes n).handled, link, x.2⟩ := by
  obtain ⟨c, hc, hcoord, hclient, -⟩ := response_spec hresp
  obtain ⟨e, he, rfl⟩ : ∃ e, s.log[(s.nodes n).handled]? = some e ∧ e.command = c := by
    simpa [State.commands] using hc
  obtain ⟨connection, hlookup, rfl, -⟩ := ServerNetwork.Network.lookup_of_sendToClient hsend
  obtain ⟨hend, q, hq, hhome⟩ := h.table n x.1 connection hlookup
  obtain ⟨p, hp, -, -, hans⟩ := h.registered connection.link x.1 hend
  obtain rfl : p = q := Option.some.inj (hp.symm.trans hq)
  have hmem : e ∈ s.unhandled (cfg.home p) := by
    refine List.mem_append_left _ (List.mem_of_getElem? (i := 0) ?_)
    rw [hhome, List.getElem?_drop, Nat.add_zero]
    exact he
  have horigin : e.origin = p := hans e hmem (hcoord.trans hhome.symm) hclient.symm
  refine ⟨e, he, by rw [horigin]; exact hp, ?_⟩
  rw [hresp, ← hclient]

lemma Inv.sendToClient (h : Inv cfg s) {n : NodeId} {index : Option ℕ} {x : Send}
    (hindex : ∀ i ∈ index, i = (s.nodes n).handled ∧ response n s.commands i = some x)
    (hsignal : index = none → x.2.commandId = none) : Inv cfg (s.sendToClient n index x) := by
  have hnet : Inv cfg { s with nets := update s.nets n ((s.nets n).sendToClient x.1).1 } :=
    h.setNet
      (fun c connection hc => ⟨connection, ServerNetwork.Network.sendToClient_lookup hc, rfl⟩)
      ServerNetwork.Network.sendToClient_maxClientId
  rcases hsend : (s.nets n).sendToClient x.1 with ⟨net, _ | link⟩
  · rw [hsend] at hnet
    simpa only [State.sendToClient, hsend] using hnet
  · rw [hsend] at hnet
    have hstate : s.sendToClient n index x = { s with
        nets := update s.nets n net
        down := update s.down link (s.down link ++ [x.2])
        handed := s.handed ++ (index.map fun i => ⟨n, i, link, x.2⟩).toList } := by
      simp only [State.sendToClient, hsend]
    rw [hstate]
    refine hnet.deliver link x.2 _ ?_ ?_
    · intro y hy
      obtain ⟨i, hi, rfl⟩ : ∃ i, index = some i ∧ ⟨n, i, link, x.2⟩ = y := by simpa using hy
      obtain ⟨rfl, hresp⟩ := hindex i hi
      exact h.own_response hresp (by rw [hsend])
    · intro hid
      cases index with
      | none => exact absurd (hsignal rfl) hid
      | some i => exact ⟨⟨n, i, link, x.2⟩, by simp, rfl, rfl⟩

/-- What sending leaves alone. -/
lemma sendToClient_fields (n : NodeId) (index : Option ℕ) (s : State Text) (x : Send) :
    (s.sendToClient n index x).nodes = s.nodes ∧ (s.sendToClient n index x).log = s.log := by
  rcases hsend : (s.nets n).sendToClient x.1 with ⟨net, _ | link⟩
  · simp only [State.sendToClient, hsend]
    exact ⟨trivial, trivial⟩
  · simp only [State.sendToClient, hsend]
    exact ⟨trivial, trivial⟩

/-- The responses of a step of a server, one after the other. -/
lemma Inv.sendResponses {n : NodeId} {i : ℕ} (sent : List Send) :
    ∀ {s : State Text}, Inv cfg s → i = (s.nodes n).handled →
      (∀ x ∈ sent, response n s.commands i = some x) →
      Inv cfg (sent.foldl (State.sendToClient n i) s) ∧
        (sent.foldl (State.sendToClient n i) s).nodes = s.nodes ∧
        (sent.foldl (State.sendToClient n i) s).log = s.log := by
  induction sent with
  | nil => exact fun h _ _ => ⟨h, rfl, rfl⟩
  | cons x sent ih =>
    intro s h hi hresp
    obtain ⟨hnodes, hlog⟩ := sendToClient_fields n i s x
    have h' : Inv cfg (s.sendToClient n i x) := by
      refine h.sendToClient ?_ (by simp)
      rintro _ ⟨⟩
      exact ⟨hi, hresp x (by simp)⟩
    have hcommands : (s.sendToClient n i x).commands = s.commands := by
      rw [State.commands, hlog]
      rfl
    obtain ⟨hinv, hnodes', hlog'⟩ := ih h' (by rw [hnodes]; exact hi)
      (fun y hy => by rw [hcommands]; exact hresp y (by simp [hy]))
    exact ⟨hinv, hnodes'.trans hnodes, hlog'.trans hlog⟩

lemma Inv.sendSignals {n : NodeId} {startTime : Timestamp} (clients : List ClientId) :
    ∀ {s : State Text}, Inv cfg s → Inv cfg (clients.foldl
      (fun s client => s.sendToClient n none (client, .StartSignal startTime)) s) := by
  induction clients with
  | nil => exact fun h => h
  | cons c clients ih => exact fun h => ih (h.sendToClient (by simp) fun _ => rfl)

/-! ### Steps of a server -/

lemma Inv.good_update (h : Inv cfg s) {n : NodeId} {node : Node Text}
    (hg : Good cfg.serde n s.commands node) (m : NodeId) :
    Good cfg.serde m s.commands (update s.nodes n node m) := by
  by_cases hm : m = n
  · subst hm
    rwa [Function.update_self]
  · rw [Function.update_of_ne hm]
    exact h.good m

lemma Inv.setNode (h : Inv cfg s) {n : NodeId} {node : Node Text}
    (hg : Good cfg.serde n s.commands node)
    (hup : (s.nodes n).proc.isSome → node.proc.isSome ∧ (s.nodes n).handled ≤ node.handled) :
    Inv cfg { s with nodes := update s.nodes n node } := by
  refine ⟨h.good_update hg, h.tracked, h.unstarted, h.links, h.up, h.entered, ?_, h.unique, h.table,
    h.queued, h.own, h.down, h.answered, h.alive⟩
  · intro link c hreg
    obtain ⟨p, hp, hupp, hle, hans⟩ := h.registered link c hreg
    by_cases hm : cfg.home p = n
    · subst hm
      obtain ⟨hup', hhandled⟩ := hup hupp
      refine ⟨p, hp, by simpa using hup', hle, fun x hx => hans x ?_⟩
      simp only [State.unhandled, Function.update_self, List.mem_append] at hx ⊢
      refine hx.imp_left fun hx => ?_
      exact (List.drop_sublist_drop_left s.log hhandled).subset hx
    · refine ⟨p, hp, by simpa [hm] using hupp, hle, fun x hx => hans x ?_⟩
      simpa [State.unhandled, hm] using hx

/-- A crash takes the connections with it. -/
lemma Inv.crash (h : Inv cfg s) {n : NodeId} {node : Node Text}
    (hg : Good cfg.serde n s.commands node) :
    Inv cfg (State.dropConnections cfg { s with nodes := update s.nodes n node } n) := by
  set s' := State.dropConnections cfg { s with nodes := update s.nodes n node } n with hs'
  have hend : ∀ link c, s'.serverEnd link = .registered c →
      s.serverEnd link = .registered c ∧ (s.owners[link]?).map cfg.home ≠ some n := by
    intro link c hreg
    simp only [hs', State.dropConnections] at hreg
    split_ifs at hreg with hn
    exact ⟨hreg, hn⟩
  have hkeep : ∀ {m c link}, m ≠ n → RegisteredAt cfg s m c link →
      RegisteredAt cfg s' m c link := by
    rintro m c link hm ⟨hreg, q, hq, rfl⟩
    refine ⟨?_, q, hq, rfl⟩
    have hne : (s.owners[link]?).map cfg.home ≠ some n := by
      rw [hq]
      simpa using hm
    simp only [hs', State.dropConnections, if_neg hne]
    exact hreg
  have hback : ∀ {m c link}, RegisteredAt cfg s' m c link → RegisteredAt cfg s m c link :=
    fun ⟨hreg, hrest⟩ => ⟨(hend _ _ hreg).1, hrest⟩
  refine ⟨h.good_update hg, h.tracked, h.unstarted, h.links, h.up, h.entered, ?_, ?_, ?_, ?_,
    h.own, h.down, h.answered, h.alive⟩
  · intro link c hreg
    obtain ⟨hreg', hne⟩ := hend link c hreg
    obtain ⟨p, hp, hup, hle, hans⟩ := h.registered link c hreg'
    have hm : cfg.home p ≠ n := by
      rw [hp] at hne
      simpa using hne
    refine ⟨p, hp, ?_, ?_, fun x hx => hans x ?_⟩
    · simpa [hs', State.dropConnections, hm] using hup
    · simpa [hs', State.dropConnections, hm] using hle
    · simpa [hs', State.dropConnections, State.unhandled, hm] using hx
  · exact fun m c l l' hl hl' => h.unique m c l l' (hback hl) (hback hl')
  · intro m c connection hc
    by_cases hm : m = n
    · subst hm
      simp [hs', State.dropConnections, ServerNetwork.Network.new] at hc
    · exact hkeep hm (h.table m c connection (by simpa [hs', State.dropConnections, hm] using hc))
  · intro m connection hc
    by_cases hm : m = n
    · subst hm
      simp [hs', State.dropConnections] at hc
    · exact hkeep hm (h.queued m connection (by simpa [hs', State.dropConnections, hm] using hc))

/-! ### Steps of a client -/

/-- What a process was handed answers an entry whose command it sent. -/
lemma Inv.handed_entry (h : Inv cfg s) {x : Handed} {p : ProcId} (hx : x ∈ s.handed)
    (hp : s.owners[x.link]? = some p) :
    ∃ e, s.log[x.index]? = some e ∧ e.origin = p ∧ x.msg.commandId = some e.command.id ∧
      ∃ a ∈ (s.trackers p).accepted, a.message = .Append e.command.id e.command.kvCmd ∧
        a.cmd.tx = e.tx := by
  obtain ⟨e, he, howner, hresp⟩ := h.own x hx
  obtain rfl : p = e.origin := Option.some.inj (hp.symm.trans howner)
  obtain ⟨c, hc, -, -, hid⟩ := response_spec hresp
  obtain rfl : e.command = c := by simpa [State.commands, he] using hc
  obtain ⟨-, ha⟩ := h.entered e (List.mem_append_left _ (List.mem_of_getElem? he))
  exact ⟨e, he, rfl, hid, ha⟩

lemma Inv.expects (h : Inv cfg s) {p : ProcId} {msg : ServerMessage}
    (hto : msg.commandId ≠ none → HandedTo s p msg) : (s.trackers p).Expects msg := by
  intro id hid
  obtain ⟨x, hx, hp, rfl⟩ := hto (by rw [hid]; simp)
  obtain ⟨e, -, -, hid', a, ha, hmsg, -⟩ := h.handed_entry hx hp
  obtain rfl : e.command.id = id := Option.some.inj (hid'.symm.trans hid)
  have hlt := (h.tracked p).id_lt ha
  rwa [hmsg] at hlt

lemma Inv.event (h : Inv cfg s) {p : ProcId} {e : Event} (he : s.event p e = some s')
    (hrec : ∀ link, e = .reconnected link → s.owners[link]? = some p)
    (hmsg : ∀ now msg, e = .message now msg → msg.commandId ≠ none → HandedTo s p msg) :
    Inv cfg s' := by
  obtain ⟨hun, t, cmds, sent, ht, -, haccepted, -, -, hlinks, rfl⟩ := State.event_cases he
  have hmono : ∀ q a, a ∈ (s.trackers q).accepted → a ∈ (update s.trackers p t q).accepted := by
    intro q a ha
    by_cases hq : q = p
    · subst hq
      rw [Function.update_self, haccepted]
      exact List.mem_append_left _ ha
    · rwa [Function.update_of_ne hq]
  refine ⟨h.good, fun q => ?_, fun q hq => ?_, fun q hq => ?_, ?_, ?_, h.registered, h.unique,
    h.table, h.queued, h.own, h.down, fun q => ?_, h.alive⟩
  · by_cases hqp : q = p
    · subst hqp
      simpa using Tracking.step_inv (h.tracked q) ht
    · simpa [hqp] using h.tracked q
  · have hqp : q ≠ p := fun hqp => hun (hqp ▸ hq)
    simpa [hqp] using h.unstarted q hq
  · by_cases hqp : q = p
    · subst hqp
      intro link hlink
      rcases step_links ht (by simpa using hlink) with hold | hnew
      · exact h.links q hq link hold
      · exact hrec link hnew
    · simpa [hqp] using h.links q hq
  · intro link a ha
    rcases List.mem_append.mp ha with ha | ha
    · obtain ⟨hlink, q, hq, ha⟩ := h.up link a ha
      exact ⟨hlink, q, hq, hmono q a ha⟩
    · obtain ⟨hsent, hlink⟩ := List.mem_filter.mp ha
      obtain rfl : a.link = link := by simpa using hlink
      refine ⟨rfl, p, h.links p hun _ (hlinks a hsent), ?_⟩
      simp only [Function.update_self, haccepted]
      exact List.mem_append_right _ hsent
  · intro x hx
    obtain ⟨hcoord, a, ha, hrest⟩ := h.entered x hx
    exact ⟨hcoord, a, hmono _ a ha, hrest⟩
  · by_cases hqp : q = p
    · subst hqp
      intro a ha now msg hupon hid
      obtain ⟨answers, hanswers⟩ := step_answers ht
      simp only [Function.update_self, hanswers] at ha
      rcases List.mem_append.mp ha with ha | ha
      · exact h.answered q a ha now msg hupon hid
      · obtain ⟨y, -, rfl⟩ := List.mem_map.mp ha
        exact hmsg now msg hupon hid
    · intro a ha
      exact h.answered q a (by simpa [hqp] using ha)

/-- A process that starts has taken, sent and answered nothing, as before. -/
lemma Inv.blank (h : Inv cfg s) {p : ProcId} (hp : s.phase p = .unstarted) (link : LinkId)
    (q : ProcId) :
    (update s.trackers p (Tracker.new (cfg.home p) link) q).taken = (s.trackers q).taken ∧
    (update s.trackers p (Tracker.new (cfg.home p) link) q).accepted = (s.trackers q).accepted ∧
    (update s.trackers p (Tracker.new (cfg.home p) link) q).answers = (s.trackers q).answers := by
  by_cases hq : q = p
  · subst hq
    rw [Function.update_self, h.unstarted q hp]
    exact ⟨rfl, rfl, rfl⟩
  · rw [Function.update_of_ne hq]
    exact ⟨rfl, rfl, rfl⟩

lemma Inv.procStarts (h : Inv cfg s) {p : ProcId} (hp : s.phase p = .unstarted) :
    Inv cfg { (s.openLink p).setPhase p .waiting with
      trackers := update s.trackers p (Tracker.new (cfg.home p) s.owners.length) } := by
  have h' := h.openLink p
  have haccepted : ∀ q, (update s.trackers p (Tracker.new (cfg.home p) s.owners.length)
      q).accepted = (s.trackers q).accepted := fun q => (h.blank hp s.owners.length q).2.1
  refine ⟨h'.good, fun q => ?_, fun q hq => ?_, fun q hq => ?_, fun link a ha => ?_, fun x hx => ?_,
    h'.registered, h'.unique, h'.table, h'.queued, h'.own, h'.down, fun q => ?_, fun q => ?_⟩
  · by_cases hqp : q = p
    · subst hqp
      simpa using inv_new (cfg.home q) s.owners.length
    · simpa [hqp] using h.tracked q
  · by_cases hqp : q = p
    · subst hqp
      simp [State.setPhase] at hq
    · have hq' : s.phase q = .unstarted := by
        simpa [State.setPhase, State.openLink, hqp] using hq
      simpa [hqp] using h.unstarted q hq'
  · by_cases hqp : q = p
    · subst hqp
      intro link hlink
      have hmem := TestClient.Network.links_new (cfg.home q) (.new s.owners.length)
        (by simpa [Tracker.new, Client.new] using hlink)
      obtain rfl : link = s.owners.length := List.mem_singleton.mp hmem
      simp [State.setPhase, State.openLink]
    · have hq' : s.phase q ≠ .unstarted := by
        simpa [State.setPhase, State.openLink, hqp] using hq
      intro link hlink
      exact getElem?_append_some (h.links q hq' link (by simpa [hqp] using hlink))
  · obtain ⟨hlink, q, hq, ha⟩ := h'.up link a ha
    exact ⟨hlink, q, hq, by rw [haccepted]; exact ha⟩
  · obtain ⟨hcoord, ha⟩ := h.entered x hx
    refine ⟨hcoord, ?_⟩
    rw [haccepted]
    exact ha
  · by_cases hqp : q = p
    · subst hqp
      simp [Tracker.new]
    · intro a ha
      exact h'.answered q a (by simpa [State.openLink, hqp] using ha)
  · by_cases hqp : q = p
    · subst hqp
      simp [State.setPhase]
    · simpa [State.setPhase, State.openLink, hqp] using h.alive q

lemma Inv.takeMessage (h : Inv cfg s) {p : ProcId} {now : Timestamp} {msg : ServerMessage}
    (hto : msg.commandId ≠ none → HandedTo s p msg) (ht : s.takeMessage p now msg = some s') :
    Inv cfg s' := by
  unfold State.takeMessage at ht
  split at ht
  · rename_i hphase
    have hp : s.phase p ≠ .unstarted := by rw [hphase]; simp
    split at ht
    · obtain rfl := Option.some.inj ht
      exact h.setPhase hp (by simp) (by simp)
    · obtain rfl := Option.some.inj ht
      exact h
    · obtain rfl := Option.some.inj ht
      exact h
  · rename_i hphase
    split at ht
    · rename_i s₁ hevent
      obtain rfl := Option.some.inj ht
      refine h.event hevent (by simp) ?_
      rintro _ _ ⟨⟩
      exact hto
    · -- the id was given out, so the response is recorded
      rename_i hnone
      have hexp := h.expects hto
      obtain ⟨r, hr⟩ := Option.isSome_iff_exists.mp ((h.tracked p).tracks.recorded now msg hexp)
      simp [State.event, hphase, Tracker.step, hexp, hr] at hnone
  · cases ht
  · cases ht
  · cases ht
  · cases ht

/-! ### Runs -/

/-- The connection whose registration is read. -/
def registers : Action Text → Option LinkId
  | .register link => some link
  | _ => none

/-- A process registers only under an id that is on no entry of another process its server has
yet to answer. -/
def Fresh (cfg : Config Text) (s : State Text) (a : Action Text) : Prop :=
  ∀ link ∈ registers a, ∀ p ∈ s.owners[link]?,
    Answerable s (cfg.home p) (s.nets (cfg.home p)).nextClientId.2 p

lemma Inv.request (h : Inv cfg s) {p : ProcId} {cmd : ApiCommand}
    (hs : s.request p cmd = some s') : Inv cfg s' := by
  unfold State.request at hs
  split_ifs at hs
  obtain rfl := Option.some.inj hs
  exact h.bookkeeping _ _ _

lemma Inv.respond (h : Inv cfg s) {tx : Sender} {reply : Reply}
    (hs : s.respond tx reply = some s') : Inv cfg s' := by
  unfold State.respond at hs
  split at hs
  · split_ifs at hs
    obtain rfl := Option.some.inj hs
    exact h.bookkeeping _ _ _
  · cases hs

lemma Inv.node (h : Inv cfg s) {n : NodeId} {a : NodeAction Text}
    (hs : step cfg s (.node n a) = some s') : Inv cfg s' := by
  simp only [step, Option.map_eq_some_iff] at hs
  obtain ⟨⟨node, sent⟩, hstep, rfl⟩ := hs
  obtain ⟨hgood, hsent⟩ := step_good (h.good n) hstep
  obtain ⟨hinv, hnodes, hlog⟩ := h.sendResponses sent rfl fun x hx => (hsent x hx).2
  set s₁ := sent.foldl (State.sendToClient n (s.nodes n).handled) s
  have hgood' : Good cfg.serde n s₁.commands node := by
    rw [State.commands, hlog]
    exact hgood
  by_cases hcrash : a.isCrash = true
  · simp only [hcrash, if_true]
    exact hinv.crash hgood'
  · simp only [hcrash]
    refine hinv.setNode hgood' fun hup => ?_
    rw [hnodes] at hup ⊢
    exact step_handled (h.good n) hstep hup (Bool.eq_false_iff.mpr hcrash)

/-- **One step** of the deployment. -/
theorem step_inv {a : Action Text} (h : Inv cfg s) (hs : step cfg s a = some s')
    (hf : Fresh cfg s a) : Inv cfg s' := by
  cases a with
  | procStarts p =>
    simp only [step] at hs
    split_ifs at hs with hc
    obtain rfl := Option.some.inj hs
    exact h.procStarts hc.1
  | procExits p =>
    simp only [step] at hs
    split_ifs at hs with hp
    obtain rfl := Option.some.inj hs
    exact h.setPhase hp (by simp) (by simp)
  | httpPut p key value => exact h.request hs
  | httpGet p key => exact h.request hs
  | httpReturns tx =>
    simp only [step, Option.bind_eq_some_iff] at hs
    obtain ⟨r, -, a, -, hs⟩ := hs
    exact h.respond hs
  | httpFails tx errorMsg =>
    simp only [step] at hs
    split_ifs at hs
    exact h.respond hs
  | clientApi p i now =>
    simp only [step] at hs
    split at hs
    · split_ifs at hs
      exact (h.bookkeeping s.requests _ s.clock).event hs (by simp) (by simp)
    · cases hs
  | clientMessage link now =>
    simp only [step, Option.bind_eq_some_iff] at hs
    obtain ⟨p, hp, hs⟩ := hs
    split at hs
    · rename_i msg rest hdown
      have hrest : rest.Sublist (s.down link) := by
        rw [hdown]
        exact List.sublist_cons_self _ _
      have hlost := h.lost s.up _ (fun _ => List.Sublist.refl _) (update_sublist hrest)
      refine hlost.takeMessage (fun hid => ?_) hs
      obtain ⟨x, hx, rfl, hmsg⟩ := h.down link msg (by rw [hdown]; simp) hid
      exact ⟨x, hx, hp, hmsg⟩
    · cases hs
  | clientTimer p =>
    simp only [step] at hs
    split_ifs at hs with hc
    obtain ⟨s₁, hevent, rfl⟩ := Option.map_eq_some_iff.mp hs
    have hp : s₁.phase p ≠ .unstarted := by
      obtain ⟨hun, t, cmds, sent, -, -, -, -, -, -, rfl⟩ := State.event_cases hevent
      exact hun
    exact (h.event hevent (by simp) (by simp)).setPhase hp (by simp) (by simp)
  | clientReconnects p =>
    simp only [step] at hs
    split_ifs at hs with hc
    obtain ⟨s₁, hevent, rfl⟩ := Option.map_eq_some_iff.mp hs
    have hp : s₁.phase p ≠ .unstarted := by
      obtain ⟨hun, t, cmds, sent, -, -, -, -, -, -, rfl⟩ := State.event_cases hevent
      exact hun
    refine ((h.openLink p).event hevent ?_ (by simp)).setPhase hp (by simp) (by simp)
    rintro _ ⟨⟩
    simp [State.openLink]
  | clientReaderEnds link =>
    simp only [step, Option.bind_eq_some_iff] at hs
    obtain ⟨p, -, hs⟩ := hs
    exact h.event hs (by simp) (by simp)
  | clientWriterEnds link =>
    simp only [step, Option.bind_eq_some_iff] at hs
    obtain ⟨p, -, hs⟩ := hs
    exact h.event hs (by simp) (by simp)
  | register link =>
    simp only [step, Option.bind_eq_some_iff] at hs
    obtain ⟨p, hp, hs⟩ := hs
    split_ifs at hs with hc
    obtain rfl := Option.some.inj hs
    exact h.register hp hc.1 hc.2 (hf link rfl p hp)
  | applyConnection n i =>
    simp only [step] at hs
    split at hs
    · rename_i connection hi
      obtain rfl := Option.some.inj hs
      exact h.applyConnection hi
    · cases hs
  | serverWriterEnds n client =>
    obtain rfl := Option.some.inj hs
    exact h.setNet (fun c connection hc => ServerNetwork.Network.clientWriterEnded_lookup hc)
      ServerNetwork.Network.clientWriterEnded_maxClientId
  | handleClientMessage link =>
    simp only [step, Option.bind_eq_some_iff] at hs
    obtain ⟨p, hp, hs⟩ := hs
    split at hs
    · rename_i client a rest hend hup
      obtain rfl := Option.some.inj hs
      exact h.appendToLog hp hend hup
    · cases hs
    · cases hs
    · cases hs
  | loseUp link i =>
    obtain rfl := Option.some.inj hs
    exact h.lost _ s.down (update_sublist (List.eraseIdx_sublist _ _))
      fun _ => List.Sublist.refl _
  | loseDown link i =>
    obtain rfl := Option.some.inj hs
    exact h.lost s.up _ (fun _ => List.Sublist.refl _)
      (update_sublist (List.eraseIdx_sublist _ _))
  | decided i =>
    simp only [step] at hs
    split at hs
    · rename_i e hi
      obtain rfl := Option.some.inj hs
      exact h.decided hi
    · cases hs
  | node n a => exact h.node hs
  | startSignals n startTime =>
    simp only [step] at hs
    split_ifs at hs
    obtain rfl := Option.some.inj hs
    exact h.sendSignals _

lemma inv_start {files : NodeId → Files Text}
    (hfiles : ∀ n json, files n (snapshotPath n) = some json → cfg.serde.fromStr json = none) :
    Inv cfg (start cfg files) := by
  refine ⟨fun n => good_down ?_ (Nat.zero_le _) rfl, fun p => inv_new _ _, fun _ _ => rfl,
    fun p hp => absurd rfl hp, by simp [start], by simp [start], by simp [start], ?_, ?_,
    by simp [start], by simp [start], by simp [start], by simp [start, Tracker.new],
    by simp [start]⟩
  · intro json snap hf hs
    rw [hfiles n json hf] at hs
    cases hs
  · rintro n c link link' ⟨hreg, -⟩
    cases hreg
  · intro n c connection hc
    simp [start, ServerNetwork.Network.new] at hc

lemma system_step_inv {a : Action Text} (h : Inv cfg s) (hs : (system cfg).step s a = some s')
    (hf : Fresh cfg s a) : Inv cfg s' := by
  obtain ⟨s₁, hstep, rfl⟩ := Option.map_eq_some_iff.mp hs
  exact (step_inv h hstep hf).bookkeeping s₁.requests s₁.httpRx (s₁.clock + 1)

/-- Each response reaches the process that asked for it. -/
structure OwnResponses (s : State Text) : Prop where
  /-- What is handed to a connection answers a log entry whose command the process of the
  connection sent under the id in the response. -/
  handed : ∀ x ∈ s.handed, ∃ e p n, s.log[x.index]? = some e ∧
    response x.node s.commands x.index = some (e.command.clientId, x.msg) ∧
    x.msg.commandId = some n ∧ s.owners[x.link]? = some p ∧
    ∃ a ∈ (s.trackers p).accepted, a.message = .Append n e.command.kvCmd
  /-- The id of a response on its way is in the client's record of requests. -/
  inBounds : ∀ link p, s.owners[link]? = some p → ∀ msg ∈ s.down link, ∀ n ∈ msg.commandId,
    n < (s.trackers p).client.clientData.requestCount
  noPanic : ∀ p, s.phase p ≠ .panicked
  /-- An answer to a caller is the response to the entry of its own request. -/
  answers : ∀ p, ∀ a ∈ (s.trackers p).answers, (a.reply = .ok ∨ ∃ value, a.reply = .read value) →
    ∃ now msg, a.upon = .message now msg ∧ HandedTo s p msg ∧
      ∀ x ∈ s.handed, s.owners[x.link]? = some p → x.msg = msg →
        ∃ e, s.log[x.index]? = some e ∧ e.origin = p ∧ e.tx = a.tx

lemma Inv.answer_entry (h : Inv cfg s) {p : ProcId} {a : Answer}
    (ha : a ∈ (s.trackers p).answers) {now : Timestamp} {msg : ServerMessage} {id : CommandId}
    (hupon : a.upon = .message now msg) (hid : msg.commandId = some id) {b : Sent}
    (hb : b ∈ (s.trackers p).accepted) (hbid : messageId b.message = id) (hbtx : b.cmd.tx = a.tx) :
    HandedTo s p msg ∧ ∀ x ∈ s.handed, s.owners[x.link]? = some p → x.msg = msg →
      ∃ e, s.log[x.index]? = some e ∧ e.origin = p ∧ e.tx = a.tx := by
  refine ⟨h.answered p a ha now msg hupon (by rw [hid]; simp), fun x hx hp hmsg => ?_⟩
  obtain ⟨e, he, horigin, hid', a', ha', hmsg', htx⟩ := h.handed_entry hx hp
  have hsame : e.command.id = id := by
    rw [hmsg, hid] at hid'
    exact (Option.some.inj hid').symm
  have heq : a' = b := by
    refine (h.tracked p).accepted_inj ha' hb ?_
    rw [hmsg', hbid]
    exact hsame
  exact ⟨e, he, horigin, by rw [← htx, heq, hbtx]⟩

lemma Inv.ownResponses (h : Inv cfg s) : OwnResponses s where
  handed x hx := by
    obtain ⟨e, he, howner, hresp⟩ := h.own x hx
    obtain ⟨e', he', -, hid, a, ha, hmsg, -⟩ := h.handed_entry hx howner
    obtain rfl : e = e' := Option.some.inj (he.symm.trans he')
    exact ⟨e, e.origin, e.command.id, he, hresp, hid, howner, a, ha, hmsg⟩
  inBounds link p hp msg hmsg n hn := by
    have hexp : (s.trackers p).Expects msg := by
      refine h.expects fun hid => ?_
      obtain ⟨x, hx, rfl, hxmsg⟩ := h.down link msg hmsg hid
      exact ⟨x, hx, hp, hxmsg⟩
    exact (h.tracked p).count ▸ hexp n hn
  noPanic := h.alive
  answers p a ha hreply := by
    rcases hreply with hreply | ⟨value, hreply⟩
    · obtain ⟨now, id, k, v, link, hupon, hb⟩ := (h.tracked p).ok a ha hreply
      exact ⟨now, _, hupon, h.answer_entry ha hupon rfl hb rfl rfl⟩
    · obtain ⟨now, id, k, link, hupon, hb⟩ := (h.tracked p).read a ha value hreply
      exact ⟨now, _, hupon, h.answer_entry ha hupon rfl hb rfl rfl⟩

/-- **Responses reach their own process**, in every run in which client processes register
under fresh ids. -/
theorem ownResponses_of_fresh (h : (system cfg).Reaches (Fresh cfg) s) : OwnResponses s := by
  have hinv : Inv cfg s := by
    refine h.invariant (I := Inv cfg) ?_ fun s a s' hi hs hf => system_step_inv hi hs hf
    rintro s ⟨files, hfiles, rfl⟩
    exact inv_start hfiles
  exact hinv.ownResponses

instance (s : State Text) (n : NodeId) (c : ClientId) (p : ProcId) :
    Decidable (Answerable s n c p) :=
  inferInstanceAs (Decidable (∀ e ∈ s.unhandled n, _))

instance (cfg : Config Text) (s : State Text) (a : Action Text) : Decidable (Fresh cfg s a) :=
  inferInstanceAs (Decidable (∀ link ∈ registers a, ∀ p ∈ s.owners[link]?, _))

/-- One server, for any number of client processes. -/
def oneServer : Config (Option DatabaseSnapshot) := ⟨Recovery.plainSerde, 1, fun _ => 1, fun _ => 2⟩

def oneServerStart : State (Option DatabaseSnapshot) := start oneServer fun _ _ => none

/-- Process 0 puts; the server crashes once the put is appended, and comes back when it is
decided. -/
def interruptedPut : List (Action (Option DatabaseSnapshot)) :=
  [.node 1 (.restart 0 true), .procStarts 0, .register 0, .applyConnection 1 0, .startSignals 1 5,
    .clientMessage 0 6, .httpPut 0 "x" "1", .clientApi 0 0 7, .handleClientMessage 0,
    .node 1 (.crash none), .decided 0, .node 1 (.restart 0 true)]

/-- What the server does when the first entry is decided. -/
def answerFirst : List (Action (Option DatabaseSnapshot)) :=
  [.node 1 (.decide 1), .node 1 .handle, .node 1 .entry]

/-- Process 0 finds the connection lost, comes back under the id it had, and reads. -/
def freshRun : List (Action (Option DatabaseSnapshot)) :=
  interruptedPut ++ [.clientWriterEnds 0, .httpGet 0 "x", .clientApi 0 0 8, .clientTimer 0,
    .clientReconnects 0, .register 1, .applyConnection 1 0] ++ answerFirst ++
    [.node 1 .finish, .node 1 (.saveErr none), .clientMessage 1 9, .httpGet 0 "x",
      .clientApi 0 0 10, .handleClientMessage 1, .decided 0, .node 1 (.decide 2), .node 1 .handle, .node 1 .entry,
      .clientMessage 1 11]

theorem ownResponses_of_fresh_run :
    ∃ s, (system oneServer).run oneServerStart freshRun = some s ∧ s.handed.length = 2 ∧
      (s.trackers 0).answers.map (fun a => (a.tx, a.reply)) =
        [(1, .error "Error: server disconnected"), (0, .error "Error: connection lost"),
          (2, .read (some "1"))] ∧
      OwnResponses s := by
  have hinit : (system oneServer).init oneServerStart := ⟨fun _ _ => none, by simp, rfl⟩
  refine ⟨_, rfl, by decide, by decide, ?_⟩
  exact ownResponses_of_fresh (System.Reaches.run (.init hinit) freshRun rfl (by decide))

/-- Process 1 registers instead, under the id of process 0, and gets its response. -/
def reusedId : List (Action (Option DatabaseSnapshot)) :=
  interruptedPut ++ [.procStarts 1, .register 1, .applyConnection 1 0, .startSignals 1 8,
    .clientMessage 1 9] ++ answerFirst ++ [.clientMessage 1 10]

/-- The same, with a put of process 1 that gets no further than its client. -/
def reusedIdPending : List (Action (Option DatabaseSnapshot)) :=
  interruptedPut ++ [.procStarts 1, .register 1, .applyConnection 1 0, .startSignals 1 8,
    .clientMessage 1 9, .httpPut 1 "y" "2", .clientApi 1 0 9, .loseUp 1 0] ++ answerFirst ++
    [.clientMessage 1 10]

theorem reusedId_misroutes : (¬ ∀ s, (system oneServer).Reachable s → OwnResponses s) ∧
    (∃ s, (system oneServer).run oneServerStart reusedId = some s ∧ s.phase 1 = .panicked) ∧
    ∃ s, (system oneServer).run oneServerStart reusedIdPending = some s ∧
      (s.trackers 1).answers.map (fun a => (a.tx, a.reply)) = [(1, .ok)] ∧
      s.log.map Entry.tx = [0] := by
  have hinit : (system oneServer).init oneServerStart := ⟨fun _ _ => none, by simp, rfl⟩
  refine ⟨fun hall => ?_, ⟨_, rfl, by decide⟩, ⟨_, rfl, by decide, by decide⟩⟩
  have hown := hall _ (System.Reachable.run (.init hinit) reusedId rfl)
  exact hown.noPanic 1 (by decide)

end OmniPaxosKV.Routing
