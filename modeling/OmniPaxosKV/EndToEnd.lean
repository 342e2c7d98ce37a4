import OmniPaxosKV.Linearize
import OmniPaxosKV.Routing

/-!
The HTTP store is linearizable, from the handlers' point of view, when each server has one
client process.

The decided sequence is the linearization. A request enters it at most once, with the command
it was called with; an answer is the one its place in the sequence gives; and what was answered
before a request was called is in the sequence before that request can enter.
-/

namespace OmniPaxosKV.EndToEnd

open Common Replay Store Server Linearize TestClient Tracking TransSys Cluster Routing

open Function (update)

/-! ### What the store promises -/

/-- A map from keys to values, with the replies to PUTs and GETs. -/
def store : Machine (String → Option String) KVCommand Reply where
  start _ := none
  step m
    | .Put key value => (update m key (some value), .ok)
    | .Delete key => (update m key none, .ok)
    | .Get key => (m, .read (m key))

/-- The result of a request, if it has one: a request that failed may still take effect. -/
def resultOf (r : Request) : Option Reply :=
  match r.returned with
  | some (_, .ok) => some .ok
  | some (_, .read value) => some (.read value)
  | some (_, .error _) => none
  | none => none

/-- The first request returned its result before the second was called. -/
def Before (requests : List Request) (a b : Sender) : Prop :=
  ∃ ra rb t reply, requests[a]? = some ra ∧ requests[b]? = some rb ∧
    ra.returned = some (t, reply) ∧ resultOf ra = some reply ∧ t < rb.called

/-- The caller was told that the connection did not take the request. -/
def Refused (r : Request) : Prop := ∃ t, r.returned = some (t, .error "Error: server disconnected")

/-- What the HTTP handlers saw. A refused request is left out, so it must have no effect; one
that failed otherwise, or has not returned, may take effect once or never. -/
def history (requests : List Request) : History Sender KVCommand Reply where
  invoked tx := ∃ r, requests[tx]? = some r ∧ ¬ Refused r
  input tx := match requests[tx]? with
    | some r => r.cmd
    | none => .Get ""
  result tx := (requests[tx]?).bind resultOf
  before := Before requests

/-! ### The database as a store -/

def lookups (m : Map) : String → Option String := fun key => m.lookup key

lemma store_step (m : Map) (cmd : KVCommand) :
    (store.step (lookups m) cmd).1 = lookups (kv.step m cmd).1 := by
  cases cmd with
  | Put key value =>
    funext k
    by_cases hk : k = key
    · subst hk
      simp [store, lookups, kv, Database.handleCommand]
    · simp [store, lookups, kv, Database.handleCommand, hk]
  | Delete key =>
    funext k
    by_cases hk : k = key
    · subst hk
      simp [store, lookups, kv, Database.handleCommand]
    · simp [store, lookups, kv, Database.handleCommand, hk]
  | Get key => rfl

lemma store_replayFrom (l : List KVCommand) :
    ∀ m : Map, store.replayFrom (lookups m) l = lookups (kv.replayFrom m l) := by
  induction l with
  | nil => exact fun m => rfl
  | cons cmd l ih =>
    intro m
    rw [Machine.replayFrom_cons, store_step, ih]
    rfl

lemma store_replay (L : List Command) :
    store.replay (L.map Command.kvCmd) = lookups (replay L) := by
  have hstart : store.start = lookups kv.start := by
    funext k
    simp [store, lookups]
  rw [Machine.replay, hstart, store_replayFrom]
  rfl

/-- What a client makes of a response. -/
def replyTo : ServerMessage → Option Reply
  | .Write _ => some .ok
  | .Read _ value => some (.read value)
  | .StartSignal _ => none

/-- **A response is the reply of the store** at the place of its entry. -/
lemma response_eq_store {id : NodeId} {L : List Command} {i : ℕ} {x : Send}
    (h : response id L i = some x) :
    ∃ c, L[i]? = some c ∧
      replyTo x.2 = some (store.answer ((L.take i).map Command.kvCmd) c.kvCmd) := by
  obtain ⟨c, hc, hx⟩ := Option.bind_eq_some_iff.mp h
  split_ifs at hx
  obtain rfl := Option.some.inj hx
  refine ⟨c, hc, ?_⟩
  rw [Machine.answer, store_replay]
  rcases c with ⟨client, coord, id, cmd⟩
  cases cmd <;> rfl

/-! ### The requests on their way -/

/-- The client gave this reply: it is not one the handlers make by themselves. -/
def FromClient (reply : Reply) : Prop := ∀ errorMsg ∈ httpErrors, reply ≠ .error errorMsg

lemma returned_of_result {r : Request} {reply : Reply} (hres : resultOf r = some reply) :
    ∃ t, r.returned = some (t, reply) := by
  unfold resultOf at hres
  split at hres
  · rename_i t hret
    exact ⟨t, by rw [hret, Option.some.inj hres]⟩
  · rename_i t value hret
    exact ⟨t, by rw [hret, Option.some.inj hres]⟩
  · cases hres
  · cases hres

lemma fromClient_of_result {r : Request} {t : ℕ} {reply : Reply}
    (hret : r.returned = some (t, reply)) (hres : resultOf r = some reply) : FromClient reply := by
  rintro errorMsg - rfl
  rw [resultOf, hret] at hres
  cases hres

lemma fromClient_of_refused : FromClient (.error "Error: server disconnected") := by
  intro errorMsg hmem heq
  obtain rfl := Reply.error.inj heq
  simp [httpErrors] at hmem

/-- The part of a state that the requests are in. -/
structure Ledger where
  log : List Entry
  pool : List Entry
  up : LinkId → List Sent
  httpRx : ProcId → List ApiCommand
  trackers : ProcId → Tracker
  requests : List Request
  clock : ℕ

def ledger {Text : Type} (s : State Text) : Ledger :=
  ⟨s.log, s.pool, s.up, s.httpRx, s.trackers, s.requests, s.clock⟩

/-- The command is the one of the request its sender belongs to. -/
def IsRequest (requests : List Request) (p : ProcId) (cmd : ApiCommand) : Prop :=
  ∃ r, requests[cmd.tx]? = some r ∧ r.proc = p ∧ r.cmd = cmd.kvCmd

structure Ledger.Ok (l : Ledger) : Prop where
  queued : ∀ p, ∀ cmd ∈ l.httpRx p, IsRequest l.requests p cmd
  taken : ∀ p, ∀ cmd ∈ (l.trackers p).taken, IsRequest l.requests p cmd
  accepted : ∀ p, ((l.trackers p).accepted.map Sent.cmd).Sublist (l.trackers p).taken
  /-- No request enters the sequence twice. -/
  once : ((l.log ++ l.pool).map Entry.tx).Nodup
  upOnce : ∀ link, ((l.up link).map fun a => a.cmd.tx).Nodup
  upNew : ∀ link, ∀ a ∈ l.up link, a.cmd.tx ∉ (l.log ++ l.pool).map Entry.tx
  returned : ∀ tx r t reply, l.requests[tx]? = some r → r.returned = some (t, reply) →
    FromClient reply → ∃ a ∈ (l.trackers r.proc).answers, a.tx = tx ∧ a.reply = reply
  called : ∀ r ∈ l.requests, r.called ≤ l.clock
  order : (l.log.map Entry.tx).Pairwise fun a b => ¬ Before l.requests b a

variable {Text : Type} {cfg : Config Text} {s s' : State Text}

lemma IsRequest.proc_eq {requests : List Request} {p q : ProcId} {cmd cmd' : ApiCommand}
    (h : IsRequest requests p cmd) (h' : IsRequest requests q cmd') (htx : cmd.tx = cmd'.tx) :
    p = q := by
  obtain ⟨r, hr, hp, -⟩ := h
  obtain ⟨r', hr', hq, -⟩ := h'
  rw [htx] at hr
  obtain rfl : r = r' := Option.some.inj (hr.symm.trans hr')
  exact hp.symm.trans hq

/-- A process never sends a request twice. -/
lemma accepted_nodup {t : Tracker} (ht : Tracking.Inv t)
    (hsub : (t.accepted.map Sent.cmd).Sublist t.taken) :
    (t.accepted.map fun a => a.cmd.tx).Nodup := by
  have hmap := hsub.map ApiCommand.tx
  rw [List.map_map] at hmap
  exact ht.distinct.sublist hmap

lemma Ledger.Ok.isRequest {p : ProcId} {a : Sent} (h : (ledger s).Ok)
    (ha : a ∈ (s.trackers p).accepted) : IsRequest s.requests p a.cmd :=
  h.taken p a.cmd ((h.accepted p).subset (List.mem_map_of_mem ha))

/-- Requests with one sender are one. -/
lemma Ledger.Ok.accepted_inj (h : (ledger s).Ok) (hr : Routing.Inv cfg s) {p q : ProcId}
    {a b : Sent} (ha : a ∈ (s.trackers p).accepted) (hb : b ∈ (s.trackers q).accepted)
    (htx : a.cmd.tx = b.cmd.tx) : a = b := by
  obtain rfl := (h.isRequest ha).proc_eq (h.isRequest hb) htx
  exact List.inj_on_of_nodup_map (accepted_nodup (hr.tracked p) (h.accepted p)) ha hb htx

/-- An entry is for a request of its process, with the command of the request. -/
lemma Ledger.Ok.entry (h : (ledger s).Ok) (hr : Routing.Inv cfg s) {e : Entry}
    (he : e ∈ s.log ++ s.pool) :
    (∃ a ∈ (s.trackers e.origin).accepted, a.cmd.tx = e.tx) ∧
      ∃ r, s.requests[e.tx]? = some r ∧ r.cmd = e.command.kvCmd := by
  obtain ⟨-, a, ha, hmsg, htx⟩ := hr.entered e he
  obtain ⟨-, id, hsent⟩ := (hr.tracked e.origin).sent a ha
  obtain ⟨r, hreq, -, hcmd⟩ := h.isRequest ha
  have hkv : a.cmd.kvCmd = e.command.kvCmd := by
    rw [hmsg] at hsent
    exact (ClientMessage.Append.inj hsent).2.symm
  exact ⟨⟨a, ha, htx⟩, r, htx ▸ hreq, hcmd.trans hkv⟩

lemma Ledger.Ok.entry_lt (h : (ledger s).Ok) (hr : Routing.Inv cfg s) {tx : Sender}
    (htx : tx ∈ (s.log ++ s.pool).map Entry.tx) : tx < s.requests.length := by
  obtain ⟨e, he, rfl⟩ := List.mem_map.mp htx
  obtain ⟨-, r, hreq, -⟩ := h.entry hr he
  exact (List.getElem?_eq_some_iff.mp hreq).1

/-- What was refused never enters the sequence. -/
lemma Ledger.Ok.not_refused (h : (ledger s).Ok) (hr : Routing.Inv cfg s) {e : Entry}
    (he : e ∈ s.log ++ s.pool) {r : Request} (hreq : s.requests[e.tx]? = some r) : ¬ Refused r := by
  rintro ⟨t, hret⟩
  obtain ⟨⟨a, ha, htx⟩, -⟩ := h.entry hr he
  obtain ⟨b, hb, hbtx, hreply⟩ := h.returned e.tx r t _ hreq hret fromClient_of_refused
  obtain ⟨r', hreq', hproc, -⟩ := h.isRequest ha
  obtain rfl : r = r' := by
    rw [htx] at hreq'
    exact Option.some.inj (hreq.symm.trans hreq')
  rw [hproc] at hb
  exact (hr.tracked e.origin).refused b hb hreply a ha (htx.trans hbtx.symm)

/-- **What was answered is decided**, and answered as the store does there. -/
lemma Ledger.Ok.answered_entry (h : (ledger s).Ok) (hr : Routing.Inv cfg s) {tx : Sender}
    {r : Request} {t : ℕ} {reply : Reply} (hreq : s.requests[tx]? = some r)
    (hret : r.returned = some (t, reply)) (hres : resultOf r = some reply) :
    ∃ i e, s.log[i]? = some e ∧ e.tx = tx ∧
      reply = store.answer ((s.commands.take i).map Command.kvCmd) e.command.kvCmd := by
  obtain ⟨a, ha, rfl, rfl⟩ := h.returned tx r t reply hreq hret (fromClient_of_result hret hres)
  -- the message the answer was given upon
  obtain ⟨now, msg, b, hupon, hb, hid, htx, hreply⟩ : ∃ now msg b, a.upon = .message now msg ∧
      b ∈ (s.trackers r.proc).accepted ∧ msg.commandId = some (messageId b.message) ∧
      b.cmd.tx = a.tx ∧ replyTo msg = some a.reply := by
    rcases hans : a.reply with _ | value | errorMsg
    · obtain ⟨now, id, k, v, link, hupon, hb⟩ := (hr.tracked r.proc).ok a ha hans
      exact ⟨now, _, _, hupon, hb, rfl, rfl, rfl⟩
    · obtain ⟨now, id, k, link, hupon, hb⟩ := (hr.tracked r.proc).read a ha value hans
      exact ⟨now, _, _, hupon, hb, rfl, rfl, rfl⟩
    · rw [hans] at hret hres
      simp [resultOf, hret] at hres
  obtain ⟨⟨x, hx, hp, hmsg⟩, hentry⟩ := hr.answer_entry ha hupon hid hb rfl htx
  obtain ⟨e, he, -, hetx⟩ := hentry x hx hp hmsg
  obtain ⟨e', he', -, hresp⟩ := hr.own x hx
  obtain ⟨c, hc, hstore⟩ := response_eq_store hresp
  obtain rfl : e.command = c := by simpa [State.commands, he] using hc
  refine ⟨x.index, e, he, hetx, ?_⟩
  rw [hmsg, hreply] at hstore
  exact Option.some.inj hstore

/-! ### One step -/

lemma Ledger.Ok.event (h : (ledger s).Ok) (hr : Routing.Inv cfg s) {p : ProcId} {e : Event}
    (he : s.event p e = some s')
    (hapi : ∀ now cmd, e = .api now cmd → IsRequest s.requests p cmd) : (ledger s').Ok := by
  obtain ⟨-, t, cmds, sent, ht, htaken, haccepted, hsub, hcmds, -, rfl⟩ := State.event_cases he
  have hcmds' : ∀ cmd ∈ cmds, IsRequest s.requests p cmd := by
    intro cmd hcmd
    obtain ⟨now, hnow⟩ := hcmds cmd hcmd
    exact hapi now cmd hnow
  have hsent : ∀ b ∈ sent, IsRequest s.requests p b.cmd := fun b hb =>
    hcmds' b.cmd (hsub.subset (List.mem_map_of_mem hb))
  have hacc : (t.accepted.map Sent.cmd).Sublist t.taken := by
    rw [htaken, haccepted, List.map_append]
    exact (h.accepted p).append hsub
  have hnd := accepted_nodup (Tracking.step_inv (hr.tracked p) ht) hacc
  rw [haccepted, List.map_append] at hnd
  obtain ⟨-, hndSent, hdisj⟩ := List.nodup_append.mp hnd
  -- what is sent now was not sent before
  have hnew : ∀ b ∈ sent, ∀ q, ∀ a ∈ (s.trackers q).accepted, a.cmd.tx ≠ b.cmd.tx := by
    intro b hb q a ha htx
    obtain rfl := (h.isRequest ha).proc_eq (hsent b hb) htx
    exact hdisj _ (List.mem_map_of_mem ha) _ (List.mem_map_of_mem hb) htx
  refine ⟨h.queued, fun q => ?_, fun q => ?_, h.once, fun link => ?_, fun link a ha => ?_, ?_,
    h.called, h.order⟩
  · intro cmd hcmd
    by_cases hq : q = p
    · subst hq
      have hcmd' : cmd ∈ (s.trackers q).taken ++ cmds := by
        simpa [ledger, htaken] using hcmd
      rcases List.mem_append.mp hcmd' with hold | hnew
      · exact h.taken q cmd hold
      · exact hcmds' cmd hnew
    · exact h.taken q cmd (by simpa [ledger, hq] using hcmd)
  · by_cases hq : q = p
    · subst hq
      simpa [ledger] using hacc
    · simpa [ledger, hq] using h.accepted q
  · change ((s.up link ++ sent.filter fun a => a.link = link).map fun a => a.cmd.tx).Nodup
    rw [List.map_append]
    refine List.nodup_append.mpr ⟨h.upOnce link, ?_, ?_⟩
    · exact hndSent.sublist (List.filter_sublist.map _)
    · intro x hx y hy hxy
      obtain ⟨a, ha, rfl⟩ := List.mem_map.mp hx
      obtain ⟨b, hb, rfl⟩ := List.mem_map.mp hy
      obtain ⟨-, q, -, ha⟩ := hr.up link a ha
      exact hnew b (List.mem_filter.mp hb).1 q a ha hxy
  · rcases List.mem_append.mp ha with ha | ha
    · exact h.upNew link a ha
    · intro hmem
      obtain ⟨x, hx, htx⟩ := List.mem_map.mp hmem
      obtain ⟨⟨b, hb, hbtx⟩, -⟩ := h.entry hr hx
      exact hnew a (List.mem_filter.mp ha).1 x.origin b hb (hbtx.trans htx)
  · intro tx r time reply hreq hret hres
    obtain ⟨a, ha, hrest⟩ := h.returned tx r time reply hreq hret hres
    refine ⟨a, ?_, hrest⟩
    by_cases hq : r.proc = p
    · subst hq
      obtain ⟨answers, hanswers⟩ := step_answers ht
      simp only [ledger, Function.update_self, hanswers]
      exact List.mem_append_left _ ha
    · simpa [ledger, hq] using ha

lemma Ledger.Ok.request (h : (ledger s).Ok) (hr : Routing.Inv cfg s) {p : ProcId}
    {cmd : ApiCommand} (hs : s.request p cmd = some s') (htx : cmd.tx = s.requests.length) :
    (ledger s').Ok := by
  unfold State.request at hs
  split_ifs at hs
  obtain rfl := Option.some.inj hs
  set new : Request := ⟨p, cmd.kvCmd, s.clock, none⟩ with hnew
  have hmono : ∀ q c, IsRequest s.requests q c → IsRequest (s.requests ++ [new]) q c := by
    rintro q c ⟨r, hreq, hrest⟩
    exact ⟨r, getElem?_append_some hreq, hrest⟩
  have hback : ∀ {tx r}, (s.requests ++ [new])[tx]? = some r →
      s.requests[tx]? = some r ∨ tx = s.requests.length ∧ r = new := by
    intro tx r hreq
    by_cases hlt : tx < s.requests.length
    · exact Or.inl (by rwa [List.getElem?_append_left hlt] at hreq)
    · have hlen := (List.getElem?_eq_some_iff.mp hreq).1
      have heq : tx = s.requests.length := by
        simp at hlen
        omega
      subst heq
      exact Or.inr ⟨rfl, by simpa using hreq.symm⟩
  refine ⟨fun q c hc => ?_, fun q c hc => hmono q c (h.taken q c hc), h.accepted, h.once, h.upOnce,
    h.upNew, ?_, ?_, ?_⟩
  · by_cases hq : q = p
    · subst hq
      have hc' : c ∈ s.httpRx q ∨ c = cmd := by simpa [ledger] using hc
      rcases hc' with hc' | rfl
      · exact hmono q c (h.queued q c hc')
      · exact ⟨new, by simp [ledger, htx, hnew], rfl, rfl⟩
    · exact hmono q c (h.queued q c (by simpa [ledger, hq] using hc))
  · intro tx r t reply hreq hret hres
    rcases hback hreq with hold | ⟨-, rfl⟩
    · exact h.returned tx r t reply hold hret hres
    · cases hret
  · intro r hmem
    rcases List.mem_append.mp hmem with hold | hlast
    · exact h.called r hold
    · obtain rfl := List.mem_singleton.mp hlast
      exact le_rfl
  · refine h.order.imp_of_mem fun {a b} ha hb hab => ?_
    rintro ⟨rb, ra, t, reply, hrb, hra, hrest⟩
    have hlt : ∀ tx ∈ s.log.map Entry.tx, tx < s.requests.length := fun tx htx' =>
      h.entry_lt hr (by rw [List.map_append]; exact List.mem_append_left _ htx')
    have hra' : s.requests[a]? = some ra := by
      rwa [ledger, List.getElem?_append_left (hlt a ha)] at hra
    have hrb' : s.requests[b]? = some rb := by
      rwa [ledger, List.getElem?_append_left (hlt b hb)] at hrb
    exact hab ⟨rb, ra, t, reply, hrb', hra', hrest⟩

lemma Ledger.Ok.respond (h : (ledger s).Ok) {tx : Sender} {reply : Reply}
    (hs : s.respond tx reply = some s')
    (hans : ∀ r, s.requests[tx]? = some r →
      (∃ a ∈ (s.trackers r.proc).answers, a.tx = tx ∧ a.reply = reply) ∨
        ∃ errorMsg ∈ httpErrors, reply = .error errorMsg) : (ledger s').Ok := by
  unfold State.respond at hs
  split at hs
  case h_2 => cases hs
  case h_1 r hreq =>
  split_ifs at hs with hret
  obtain rfl := Option.some.inj hs
  set r' : Request := { r with returned := some (s.clock, reply) } with hr'
  have hlt : tx < s.requests.length := (List.getElem?_eq_some_iff.mp hreq).1
  -- the request it is about, or another one as it was
  have hback : ∀ {tx' q}, (s.requests.set tx r')[tx']? = some q →
      tx' = tx ∧ q = r' ∨ tx' ≠ tx ∧ s.requests[tx']? = some q := by
    intro tx' q hq
    by_cases heq : tx' = tx
    · subst heq
      rw [List.getElem?_set_self hlt] at hq
      exact Or.inl ⟨rfl, (Option.some.inj hq).symm⟩
    · rw [List.getElem?_set_ne (Ne.symm heq)] at hq
      exact Or.inr ⟨heq, hq⟩
  have hmono : ∀ q c, IsRequest s.requests q c → IsRequest (s.requests.set tx r') q c := by
    rintro q c ⟨r₁, hr₁, hproc, hcmd⟩
    by_cases heq : c.tx = tx
    · obtain rfl : r = r₁ := by
        rw [heq] at hr₁
        exact Option.some.inj (hreq.symm.trans hr₁)
      exact ⟨r', by rw [heq, List.getElem?_set_self hlt], hproc, hcmd⟩
    · exact ⟨r₁, by rw [List.getElem?_set_ne (Ne.symm heq)]; exact hr₁, hproc, hcmd⟩
  refine ⟨fun q c hc => hmono q c (h.queued q c hc), fun q c hc => hmono q c (h.taken q c hc),
    h.accepted, h.once, h.upOnce, h.upNew, ?_, ?_, ?_⟩
  · intro tx' q t reply' hq hretq hres
    rcases hback hq with ⟨rfl, rfl⟩ | ⟨-, hold⟩
    · obtain ⟨-, rfl⟩ := Prod.mk.inj (Option.some.inj hretq)
      rcases hans r hreq with hans | ⟨errorMsg, hmem, rfl⟩
      · exact hans
      · exact absurd rfl (hres errorMsg hmem)
    · exact h.returned tx' q t reply' hold hretq hres
  · intro q hmem
    rcases List.mem_or_eq_of_mem_set hmem with hold | rfl
    · exact h.called q hold
    · exact h.called r (List.mem_of_getElem? hreq)
  · refine h.order.imp fun {a b} hab => ?_
    rintro ⟨rb, ra, t, reply', hrb, hra, hretb, hresb, htlt⟩
    -- the calls are as they were
    obtain ⟨ra', hra', hcalled⟩ : ∃ ra', s.requests[a]? = some ra' ∧ ra'.called = ra.called := by
      rcases hback hra with ⟨rfl, rfl⟩ | ⟨-, hold⟩
      · exact ⟨r, hreq, rfl⟩
      · exact ⟨ra, hold, rfl⟩
    have hle : ra'.called ≤ s.clock := h.called ra' (List.mem_of_getElem? hra')
    rcases hback hrb with ⟨rfl, rfl⟩ | ⟨-, hold⟩
    · -- what returns now returns after every call
      obtain ⟨rfl, -⟩ := Prod.mk.inj (Option.some.inj hretb)
      omega
    · exact hab ⟨rb, ra', t, reply', hold, hra', hretb, hresb, by omega⟩

lemma Ledger.Ok.lost (h : (ledger s).Ok) {up : LinkId → List Sent}
    (hup : ∀ link, (up link).Sublist (s.up link)) : (ledger { s with up := up }).Ok :=
  ⟨h.queued, h.taken, h.accepted, h.once, fun link => (h.upOnce link).sublist ((hup link).map _),
    fun link a ha => h.upNew link a ((hup link).subset ha), h.returned, h.called, h.order⟩

lemma Ledger.Ok.appendToLog (h : (ledger s).Ok) (hr : Routing.Inv cfg s) {link : LinkId}
    {a : Sent} {rest : List Sent} (n : NodeId) (c : ClientId) (p : ProcId)
    (hup : s.up link = a :: rest) :
    (ledger (State.appendToLog { s with up := update s.up link rest } n c p a)).Ok := by
  obtain ⟨e, htx, hstate⟩ : ∃ e : Entry, e.tx = a.cmd.tx ∧
      State.appendToLog { s with up := update s.up link rest } n c p a =
        { s with up := update s.up link rest, pool := s.pool ++ [e] } := by
    rcases hmsg : a.message with ⟨id, cmd⟩
    exact ⟨⟨⟨c, n, id, cmd⟩, p, a.cmd.tx⟩, rfl, by simp only [State.appendToLog, hmsg]⟩
  rw [hstate]
  have ha : a ∈ s.up link := by rw [hup]; simp
  obtain ⟨halink, q, -, haq⟩ := hr.up link a ha
  have hndup := h.upOnce link
  change ((s.up link).map fun a => a.cmd.tx).Nodup at hndup
  rw [hup, List.map_cons, List.nodup_cons] at hndup
  have hentries : (s.log ++ (s.pool ++ [e])).map Entry.tx =
      (s.log ++ s.pool).map Entry.tx ++ [a.cmd.tx] := by
    simp [htx]
  -- what is still on its way, on any link
  have hrest : ∀ l, ∀ b ∈ update s.up link rest l, b ∈ s.up l ∧ b.cmd.tx ≠ a.cmd.tx := by
    intro l b hb
    by_cases hl : l = link
    · subst hl
      rw [Function.update_self] at hb
      refine ⟨by rw [hup]; exact List.mem_cons_of_mem _ hb, fun htx' => ?_⟩
      exact hndup.1 (htx' ▸ List.mem_map_of_mem (f := fun a : Sent => a.cmd.tx) hb)
    · rw [Function.update_of_ne hl] at hb
      refine ⟨hb, fun htx' => ?_⟩
      obtain ⟨hblink, q', -, hbq⟩ := hr.up l b hb
      have hab := h.accepted_inj hr hbq haq htx'
      exact hl (by rw [← hblink, hab, halink])
  refine ⟨h.queued, h.taken, h.accepted, ?_, fun l => ?_, fun l b hb => ?_, h.returned, h.called,
    h.order⟩
  · change ((s.log ++ (s.pool ++ [e])).map Entry.tx).Nodup
    rw [hentries]
    refine List.nodup_append.mpr ⟨h.once, by simp, ?_⟩
    rintro x hx y hy rfl
    obtain rfl := List.mem_singleton.mp hy
    exact h.upNew link a ha hx
  · by_cases hl : l = link
    · subst hl
      simpa [ledger] using hndup.2
    · simpa [ledger, hl] using h.upOnce l
  · obtain ⟨hold, hne⟩ := hrest l b hb
    change b.cmd.tx ∉ (s.log ++ (s.pool ++ [e])).map Entry.tx
    rw [hentries, List.mem_append, List.mem_singleton]
    rintro (hmem | heq)
    · exact h.upNew l b hold hmem
    · exact hne heq

lemma Ledger.Ok.decided (h : (ledger s).Ok) (hr : Routing.Inv cfg s) {i : ℕ} {e : Entry}
    (hi : s.pool[i]? = some e) :
    (ledger { s with log := s.log ++ [e], pool := s.pool.eraseIdx i }).Ok := by
  have hlt : i < s.pool.length := (List.getElem?_eq_some_iff.mp hi).1
  have hpool : s.pool.Perm (e :: s.pool.eraseIdx i) := by
    obtain rfl : s.pool[i] = e := (List.getElem?_eq_some_iff.mp hi).2
    exact (List.getElem_cons_eraseIdx_perm hlt).symm
  have hperm : (s.log ++ s.pool).Perm (s.log ++ [e] ++ s.pool.eraseIdx i) := by
    rw [List.append_assoc]
    exact hpool.append_left s.log
  refine ⟨h.queued, h.taken, h.accepted, ?_, h.upOnce, fun link a ha hmem => ?_, h.returned,
    h.called, ?_⟩
  · exact (hperm.map Entry.tx).nodup_iff.mp h.once
  · exact h.upNew link a ha ((hperm.map Entry.tx).mem_iff.mpr hmem)
  · change ((s.log ++ [e]).map Entry.tx).Pairwise _
    rw [List.map_append]
    refine List.pairwise_append.mpr ⟨h.order, List.pairwise_singleton _ _, ?_⟩
    intro a _ b hb
    obtain rfl : b = e.tx := by simpa using hb
    -- an entry that is not decided was not answered
    rintro ⟨rb, ra, t, reply, hrb, -, hret, hres, -⟩
    obtain ⟨j, e', he', htx, -⟩ := h.answered_entry hr hrb hret hres
    have hnd := h.once
    change ((s.log ++ s.pool).map Entry.tx).Nodup at hnd
    rw [List.map_append] at hnd
    refine (List.nodup_append.mp hnd).2.2 e'.tx ?_ e.tx ?_ htx
    · exact List.mem_map_of_mem (List.mem_of_getElem? he')
    · exact List.mem_map_of_mem (List.mem_of_getElem? hi)

lemma Ledger.Ok.takeMessage (h : (ledger s).Ok) (hr : Routing.Inv cfg s) {p : ProcId}
    {now : Timestamp} {msg : ServerMessage} (hs : s.takeMessage p now msg = some s') :
    (ledger s').Ok := by
  unfold State.takeMessage at hs
  split at hs
  · split at hs
    · obtain rfl := Option.some.inj hs
      exact h
    · obtain rfl := Option.some.inj hs
      exact h
    · obtain rfl := Option.some.inj hs
      exact h
  · split at hs
    · rename_i s₁ hevent
      obtain rfl := Option.some.inj hs
      exact h.event hr hevent (by simp)
    · obtain rfl := Option.some.inj hs
      exact h
  · cases hs
  · cases hs
  · cases hs
  · cases hs

/-- Sending to clients does not concern the requests. -/
lemma ledger_sendToClient (n : NodeId) (index : Option ℕ) (s : State Text) (x : Send) :
    ledger (s.sendToClient n index x) = ledger s := by
  rcases hsend : (s.nets n).sendToClient x.1 with ⟨net, _ | link⟩
  · simp only [State.sendToClient, hsend]
    rfl
  · simp only [State.sendToClient, hsend]
    rfl

lemma ledger_foldl {α : Type*} {f : State Text → α → State Text}
    (hf : ∀ s x, ledger (f s x) = ledger s) (l : List α) (s : State Text) :
    ledger (l.foldl f s) = ledger s := by
  induction l generalizing s with
  | nil => rfl
  | cons x l ih => rw [List.foldl_cons, ih, hf]

/-- The steps of the servers and of what goes to the clients. -/
def IsSilent : Action Text → Prop
  | .register _ => True
  | .applyConnection _ _ => True
  | .serverWriterEnds _ _ => True
  | .loseDown _ _ => True
  | .node _ _ => True
  | .startSignals _ _ => True
  | _ => False

lemma phase_sendToClient (n : NodeId) (index : Option ℕ) (s : State Text) (x : Send) :
    (s.sendToClient n index x).phase = s.phase := by
  rcases hsend : (s.nets n).sendToClient x.1 with ⟨net, _ | link⟩
  · simp only [State.sendToClient, hsend]
  · simp only [State.sendToClient, hsend]

lemma phase_foldl {α : Type*} {f : State Text → α → State Text}
    (hf : ∀ s x, (f s x).phase = s.phase) (l : List α) (s : State Text) :
    (l.foldl f s).phase = s.phase := by
  induction l generalizing s with
  | nil => rfl
  | cons x l ih => rw [List.foldl_cons, ih, hf]

/-- They do not concern the requests. -/
lemma silent_of_step {a : Action Text} (ha : IsSilent a) (hs : step cfg s a = some s') :
    ledger s' = ledger s ∧ s'.phase = s.phase := by
  cases a with
  | register link =>
    simp only [step, Option.bind_eq_some_iff] at hs
    obtain ⟨p, -, hs⟩ := hs
    split_ifs at hs
    obtain rfl := Option.some.inj hs
    exact ⟨rfl, rfl⟩
  | applyConnection n i =>
    simp only [step] at hs
    split at hs
    · obtain rfl := Option.some.inj hs
      exact ⟨rfl, rfl⟩
    · cases hs
  | serverWriterEnds n client =>
    obtain rfl := Option.some.inj hs
    exact ⟨rfl, rfl⟩
  | loseDown link i =>
    obtain rfl := Option.some.inj hs
    exact ⟨rfl, rfl⟩
  | node n a =>
    simp only [step, Option.map_eq_some_iff] at hs
    obtain ⟨⟨node, sent⟩, -, rfl⟩ := hs
    have hledger := ledger_foldl (ledger_sendToClient n (s.nodes n).handled) sent s
    have hphase := phase_foldl (phase_sendToClient n (s.nodes n).handled) sent s
    split_ifs
    · exact ⟨hledger, hphase⟩
    · exact ⟨hledger, hphase⟩
  | startSignals n startTime =>
    simp only [step] at hs
    split_ifs at hs
    obtain rfl := Option.some.inj hs
    exact ⟨ledger_foldl (fun s c => ledger_sendToClient n none s (c, .StartSignal startTime)) _ s,
      phase_foldl (fun s c => phase_sendToClient n none s (c, .StartSignal startTime)) _ s⟩
  | _ => cases ha

lemma Ledger.Ok.procStarts (h : (ledger s).Ok) (hr : Routing.Inv cfg s) {p : ProcId}
    (hp : s.phase p = .unstarted) :
    (ledger { (s.openLink p).setPhase p .waiting with
      trackers := update s.trackers p (Tracker.new (cfg.home p) s.owners.length) }).Ok := by
  have hblank := hr.blank hp s.owners.length
  refine ⟨h.queued, fun q cmd hcmd => ?_, fun q => ?_, h.once, h.upOnce, h.upNew, ?_, h.called,
    h.order⟩
  · exact h.taken q cmd ((hblank q).1 ▸ hcmd)
  · obtain ⟨htaken, haccepted, -⟩ := hblank q
    change ((update s.trackers p _ q).accepted.map Sent.cmd).Sublist (update s.trackers p _ q).taken
    rw [haccepted, htaken]
    exact h.accepted q
  · intro tx r t reply hreq hret hres
    obtain ⟨a, ha, hrest⟩ := h.returned tx r t reply hreq hret hres
    exact ⟨a, (hblank r.proc).2.2 ▸ ha, hrest⟩

/-- The process may take any command from its channel. -/
lemma Ledger.Ok.pop (h : (ledger s).Ok) (p : ProcId) (i : ℕ) :
    (ledger { s with httpRx := update s.httpRx p ((s.httpRx p).eraseIdx i) }).Ok := by
  refine ⟨fun q cmd hcmd => h.queued q cmd ?_, h.taken, h.accepted, h.once, h.upOnce, h.upNew,
    h.returned, h.called, h.order⟩
  exact (update_sublist (List.eraseIdx_sublist _ _) q).subset hcmd

/-- **One step** of the deployment, as the requests see it. -/
theorem step_ok {a : Action Text} (hr : Routing.Inv cfg s) (h : (ledger s).Ok)
    (hs : step cfg s a = some s') : (ledger s').Ok := by
  cases a with
  | procStarts p =>
    simp only [step] at hs
    split_ifs at hs with hc
    obtain rfl := Option.some.inj hs
    exact h.procStarts hr hc.1
  | procExits p =>
    simp only [step] at hs
    split_ifs at hs
    obtain rfl := Option.some.inj hs
    exact h
  | httpPut p key value => exact h.request hr hs rfl
  | httpGet p key => exact h.request hr hs rfl
  | httpReturns tx =>
    simp only [step, Option.bind_eq_some_iff] at hs
    obtain ⟨r, hreq, a, hfind, hs⟩ := hs
    refine h.respond hs fun r' hreq' => Or.inl ⟨a, ?_, ?_, rfl⟩
    · obtain rfl : r = r' := Option.some.inj (hreq.symm.trans hreq')
      exact List.mem_of_find?_eq_some hfind
    · simpa using List.find?_some hfind
  | httpFails tx errorMsg =>
    simp only [step] at hs
    split_ifs at hs with hmem
    exact h.respond hs fun _ _ => Or.inr ⟨errorMsg, hmem, rfl⟩
  | clientApi p i now =>
    simp only [step] at hs
    split at hs
    · rename_i cmd hrx
      split_ifs at hs
      refine (h.pop p i).event (hr.bookkeeping s.requests _ s.clock) hs ?_
      rintro _ _ ⟨⟩
      exact h.queued p cmd (List.mem_of_getElem? hrx)
    · cases hs
  | clientMessage link now =>
    simp only [step, Option.bind_eq_some_iff] at hs
    obtain ⟨p, hp, hs⟩ := hs
    split at hs
    · rename_i msg rest hdown
      have hrest : rest.Sublist (s.down link) := by
        rw [hdown]
        exact List.sublist_cons_self _ _
      have hlost := hr.lost s.up _ (fun _ => List.Sublist.refl _) (update_sublist hrest)
      exact Ledger.Ok.takeMessage (s := { s with down := update s.down link rest }) h hlost hs
    · cases hs
  | clientTimer p =>
    simp only [step] at hs
    split_ifs at hs
    obtain ⟨s₁, hevent, rfl⟩ := Option.map_eq_some_iff.mp hs
    have hok := h.event hr hevent (by simp)
    exact hok
  | clientReconnects p =>
    simp only [step] at hs
    split_ifs at hs
    obtain ⟨s₁, hevent, rfl⟩ := Option.map_eq_some_iff.mp hs
    have hok := Ledger.Ok.event (s := s.openLink p) h (hr.openLink p) hevent (by simp)
    exact hok
  | clientReaderEnds link =>
    simp only [step, Option.bind_eq_some_iff] at hs
    obtain ⟨p, -, hs⟩ := hs
    exact h.event hr hs (by simp)
  | clientWriterEnds link =>
    simp only [step, Option.bind_eq_some_iff] at hs
    obtain ⟨p, -, hs⟩ := hs
    exact h.event hr hs (by simp)
  | register link =>
    simp only [step, Option.bind_eq_some_iff] at hs
    obtain ⟨p, -, hs⟩ := hs
    split_ifs at hs
    obtain rfl := Option.some.inj hs
    exact h
  | applyConnection n i =>
    simp only [step] at hs
    split at hs
    · obtain rfl := Option.some.inj hs
      exact h
    · cases hs
  | serverWriterEnds n client =>
    obtain rfl := Option.some.inj hs
    exact h
  | handleClientMessage link =>
    simp only [step, Option.bind_eq_some_iff] at hs
    obtain ⟨p, -, hs⟩ := hs
    split at hs
    · rename_i client a rest hend hup
      obtain rfl := Option.some.inj hs
      exact h.appendToLog hr _ _ _ hup
    · cases hs
    · cases hs
    · cases hs
  | loseUp link i =>
    obtain rfl := Option.some.inj hs
    exact h.lost (update_sublist (List.eraseIdx_sublist _ _))
  | loseDown link i =>
    obtain rfl := Option.some.inj hs
    exact h
  | decided i =>
    simp only [step] at hs
    split at hs
    · rename_i e hi
      obtain rfl := Option.some.inj hs
      exact h.decided hr hi
    · cases hs
  | node n a =>
    simp only [step, Option.map_eq_some_iff] at hs
    obtain ⟨⟨node, sent⟩, -, rfl⟩ := hs
    have hsent := ledger_foldl (ledger_sendToClient n (s.nodes n).handled) sent s
    have hok : (ledger (sent.foldl (State.sendToClient n (s.nodes n).handled) s)).Ok := by
      rw [hsent]
      exact h
    split_ifs
    · exact hok
    · exact hok
  | startSignals n startTime =>
    simp only [step] at hs
    split_ifs at hs
    obtain rfl := Option.some.inj hs
    rw [ledger_foldl fun s client => ledger_sendToClient n none s (client, .StartSignal startTime)]
    exact h

lemma ok_start (files : NodeId → Files Text) : (ledger (start cfg files)).Ok := by
  refine ⟨?_, ?_, ?_, ?_, ?_, ?_, ?_, ?_, ?_⟩ <;> simp [ledger, start, Tracker.new]

/-- Where each server has one client process, ids are fresh for it. -/
lemma fresh_of_injective (hhome : Function.Injective cfg.home) (hr : Routing.Inv cfg s)
    (a : Action Text) : Fresh cfg s a := by
  intro link _ p _ e he hcoord _
  have hmem : e ∈ s.log ++ s.pool := by
    rcases List.mem_append.mp he with he | he
    · exact List.mem_append_left _ (List.mem_of_mem_drop he)
    · exact List.mem_append_right _ he
  exact hhome ((hr.entered e hmem).1.symm.trans hcoord)

/-- The log, as a linearization of what the handlers saw. -/
lemma linearizable_of_ok (hr : Routing.Inv cfg s) (h : (ledger s).Ok) :
    Linearizable store (history s.requests) := by
  have hmem : ∀ tx ∈ s.log.map Entry.tx, tx ∈ (s.log ++ s.pool).map Entry.tx := by
    intro tx htx
    rw [List.map_append]
    exact List.mem_append_left _ htx
  have hinput : ∀ e ∈ s.log, (history s.requests).input e.tx = e.command.kvCmd := by
    intro e he
    obtain ⟨-, r, hreq, hcmd⟩ := h.entry hr (List.mem_append_left _ he)
    simpa [history, hreq] using hcmd
  have hinputs : (s.log.map Entry.tx).map (history s.requests).input =
      s.commands.map Command.kvCmd := by
    rw [State.commands, List.map_map, List.map_map]
    exact List.map_congr_left hinput
  refine linearizable_of_log (s.log.map Entry.tx) ?_ ?_ ?_ ?_
  · have hnd := h.once
    change ((s.log ++ s.pool).map Entry.tx).Nodup at hnd
    rw [List.map_append] at hnd
    exact (List.nodup_append.mp hnd).1
  · intro tx htx
    obtain ⟨e, he, rfl⟩ := List.mem_map.mp (hmem tx htx)
    obtain ⟨-, r, hreq, -⟩ := h.entry hr he
    exact ⟨r, hreq, h.not_refused hr he hreq⟩
  · intro tx reply _ hres
    obtain ⟨r, hreq, hres⟩ := Option.bind_eq_some_iff.mp hres
    obtain ⟨t, hret⟩ := returned_of_result hres
    obtain ⟨i, e, he, rfl, hreply⟩ := h.answered_entry hr hreq hret hres
    refine ⟨i, by rw [List.getElem?_map, he]; rfl, ?_⟩
    have htake : ((s.log.map Entry.tx).take i).map (history s.requests).input =
        (s.commands.take i).map Command.kvCmd :=
      calc ((s.log.map Entry.tx).take i).map (history s.requests).input
          = ((s.log.map Entry.tx).map (history s.requests).input).take i := List.map_take
        _ = (s.commands.map Command.kvCmd).take i := by rw [hinputs]
        _ = (s.commands.take i).map Command.kvCmd := List.map_take.symm
    rw [htake, hinput e (List.mem_of_getElem? he)]
    exact hreply
  · exact h.order

/-- **The HTTP store is linearizable**, whatever crashes, is lost or comes late, when each server
has one client process. -/
theorem linearizable_of_reachable (hhome : Function.Injective cfg.home)
    (h : (system cfg).Reachable s) : Linearizable store (history s.requests) := by
  have hinv : Routing.Inv cfg s ∧ (ledger s).Ok := by
    refine h.invariant (I := fun s => Routing.Inv cfg s ∧ (ledger s).Ok) ?_ ?_
    · rintro s ⟨files, hfiles, rfl⟩
      exact ⟨inv_start hfiles, ok_start files⟩
    · rintro s a s' ⟨hr, hok⟩ hs -
      refine ⟨system_step_inv hr hs (fresh_of_injective hhome hr a), ?_⟩
      obtain ⟨s₁, hstep, rfl⟩ := Option.map_eq_some_iff.mp hs
      have hok' := step_ok hr hok hstep
      exact ⟨hok'.queued, hok'.taken, hok'.accepted, hok'.once, hok'.upOnce, hok'.upNew,
        hok'.returned, fun r hmem => Nat.le_succ_of_le (hok'.called r hmem), hok'.order⟩
  exact linearizable_of_ok hinv.1 hinv.2

/-- Two servers, with one client process each. -/
def twoServers : Config (Option DatabaseSnapshot) :=
  ⟨Recovery.plainSerde, 1, fun p => p + 1, fun _ => 1⟩

/-- Process 0 puts, and is answered; its second put is appended when its server crashes, and
times out; process 1 reads what it put all the same. -/
def sampleRun : List (Action (Option DatabaseSnapshot)) :=
  [.node 1 (.restart 0 true), .node 2 (.restart 0 true), .procStarts 0, .procStarts 1, .register 0,
    .register 1, .applyConnection 1 0, .applyConnection 2 0, .startSignals 1 5, .startSignals 2 5,
    .clientMessage 0 6, .clientMessage 1 6, .httpPut 0 "x" "1", .clientApi 0 0 7,
    .handleClientMessage 0, .decided 0, .node 1 (.decide 1), .node 1 .handle, .node 1 .entry,
    .clientMessage 0 8, .httpReturns 0, .httpPut 0 "x" "2", .clientApi 0 0 9,
    .handleClientMessage 0, .node 1 (.crash none), .httpFails 1 "Error: timeout", .decided 0,
    .httpGet 1 "x", .clientApi 1 0 10, .handleClientMessage 1, .decided 0, .node 2 (.decide 3),
    .node 2 .handle, .node 2 .entry, .node 2 .entry, .node 2 .entry, .clientMessage 1 11,
    .httpReturns 2]

theorem linearizable_of_reachable_sample :
    ∃ s, (system twoServers).run (start twoServers fun _ _ => none) sampleRun = some s ∧
      s.requests.map (fun r => (r.called, r.returned)) =
        [(12, some (20, .ok)), (21, some (25, .error "Error: timeout")),
          (27, some (37, .read (some "2")))] ∧
      Linearizable store (history s.requests) := by
  have hhome : Function.Injective twoServers.home := fun p q h => Nat.succ.inj h
  have hinit : (system twoServers).init (start twoServers fun _ _ => none) :=
    ⟨fun _ _ => none, by simp, rfl⟩
  refine ⟨_, rfl, by decide, ?_⟩
  exact linearizable_of_reachable hhome (System.Reachable.run (.init hinit) sampleRun rfl)

end OmniPaxosKV.EndToEnd
