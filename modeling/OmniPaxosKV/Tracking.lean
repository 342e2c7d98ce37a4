import OmniPaxosKV.TestClient
import OmniPaxosKV.TransSys

/-!
The client's loop keeps every caller apart.

The tracker is a client together with what has happened so far: the commands it took from the
HTTP shim, the requests its connection accepted, and the answers it gave with the event each
was given upon. `Tracks` is what holds of it after any sequence of events.
-/

namespace OmniPaxosKV.Tracking

open Common TestClient TransSys

/-- What the loop of the client meets. -/
inductive Event
  | api (now : Timestamp) (cmd : ApiCommand)
  | message (now : Timestamp) (msg : ServerMessage)
  /-- The connection is found lost: every waiting caller is told so, and the old connection is
  dropped. -/
  | connectionLost
  | reconnected (link : LinkId)
  | readerEnded (link : LinkId)
  | writerEnded (link : LinkId)
  deriving DecidableEq

/-- A request that the connection took. -/
structure Sent where
  link : LinkId
  message : ClientMessage
  cmd : ApiCommand
  deriving DecidableEq

def messageId : ClientMessage → CommandId
  | .Append id _ => id

/-- An answer given to a caller. -/
structure Answer where
  upon : Event
  tx : Sender
  reply : Reply
  deriving DecidableEq

structure Tracker where
  client : Client
  taken : List ApiCommand
  accepted : List Sent
  answers : List Answer
  deriving DecidableEq

namespace Tracker

def new (serverId : NodeId) (link : LinkId) : Tracker :=
  ⟨.new serverId (.new link), [], [], []⟩

/-- The tracker with the client after an event and the answers it gave. -/
def after (t : Tracker) (e : Event) (c : Client) (answers : List (Sender × Reply)) : Tracker :=
  { t with client := c, answers := t.answers ++ answers.map fun a => ⟨e, a.1, a.2⟩ }

/-- The responses that may arrive: their ids have been given out. -/
def Expects (t : Tracker) (msg : ServerMessage) : Prop :=
  ∀ id ∈ msg.commandId, id < t.client.nextRequestId

instance (t : Tracker) (msg : ServerMessage) : Decidable (t.Expects msg) := by
  unfold Expects
  cases msg.commandId with
  | none => exact isTrue (by simp)
  | some id => exact decidable_of_iff (id < t.client.nextRequestId) (by simp)

/-- The client after an event. Each command brings a sender of its own. -/
def step (t : Tracker) (e : Event) : Option Tracker :=
  match e with
  | .api now cmd =>
    if cmd.tx ∈ t.taken.map ApiCommand.tx then none
    else
      let (c, request, answers) := t.client.handleApi now cmd
      some { t.after e c answers with
        taken := t.taken ++ [cmd]
        accepted := t.accepted ++ (request.map fun r => ⟨r.1, r.2, cmd⟩).toList }
  | .message now msg =>
    if t.Expects msg then
      (t.client.handleMessage now msg).map fun r => t.after e r.1 r.2
    else none
  | .connectionLost =>
    let (c, answers) := t.client.failAllPending "Error: connection lost"
    some (t.after e { c with network := c.network.disconnect c.activeServer } answers)
  | .reconnected link =>
    some (t.after e { t.client with
      network := t.client.network.connect t.client.activeServer (.new link) } [])
  | .readerEnded link =>
    some (t.after e { t.client with network := t.client.network.readerEnded link } [])
  | .writerEnded link =>
    some (t.after e { t.client with network := t.client.network.writerEnded link } [])

end Tracker

def system (serverId : NodeId) : System Tracker Event where
  init t := ∃ link, t = Tracker.new serverId link
  step := Tracker.step

/-- Nothing is lost, answered twice or mixed up. -/
structure Tracks (t : Tracker) : Prop where
  disjoint : ∀ id ∈ t.client.pendingPuts, id ∉ t.client.pendingGets
  keys_lt : ∀ id, id ∈ t.client.pendingPuts ∨ id ∈ t.client.pendingGets →
    id < t.client.nextRequestId
  count : t.client.nextRequestId = t.client.clientData.requestCount
  /-- The id a request would be inserted under is free. -/
  free : t.client.nextRequestId ∉ t.client.pendingPuts ∧
    t.client.nextRequestId ∉ t.client.pendingGets
  distinct : (t.taken.map ApiCommand.tx).Nodup
  /-- Every command taken is answered once or waiting once. -/
  once : (t.taken.map ApiCommand.tx).Perm
    (t.answers.map Answer.tx ++ t.client.pendingPuts.senders ++ t.client.pendingGets.senders)
  ids : t.accepted.map (fun s => messageId s.message) = List.range t.client.nextRequestId
  refused : ∀ a ∈ t.answers, a.reply = .error "Error: server disconnected" →
    ∀ s ∈ t.accepted, s.cmd.tx ≠ a.tx
  /-- "Ok" is for a put, upon the response with the id it was sent under. -/
  ok : ∀ a ∈ t.answers, a.reply = .ok → ∃ now id k v link,
    a.upon = .message now (.Write id) ∧ ⟨link, .Append id (.Put k v), .Put k v a.tx⟩ ∈ t.accepted
  /-- A value is for a get, upon the response with the id it was sent under. -/
  read : ∀ a ∈ t.answers, ∀ value, a.reply = .read value → ∃ now id k link,
    a.upon = .message now (.Read id value) ∧ ⟨link, .Append id (.Get k), .Get k a.tx⟩ ∈ t.accepted
  /-- No response whose id was given out makes the client panic. -/
  recorded : ∀ now msg, t.Expects msg → (t.client.handleMessage now msg).isSome

/-! ### The invariant -/

structure Inv (t : Tracker) : Prop where
  count : t.client.nextRequestId = t.client.clientData.requestCount
  ids : t.accepted.map (fun s => messageId s.message) = List.range t.client.nextRequestId
  sent : ∀ s ∈ t.accepted, s.cmd ∈ t.taken ∧ ∃ id, s.message = .Append id s.cmd.kvCmd
  puts : ∀ id tx, t.client.pendingPuts.lookup id = some tx → ∃ k v link,
    ⟨link, .Append id (.Put k v), .Put k v tx⟩ ∈ t.accepted
  gets : ∀ id tx, t.client.pendingGets.lookup id = some tx → ∃ k link,
    ⟨link, .Append id (.Get k), .Get k tx⟩ ∈ t.accepted
  distinct : (t.taken.map ApiCommand.tx).Nodup
  once : (t.taken.map ApiCommand.tx).Perm
    (t.answers.map Answer.tx ++ t.client.pendingPuts.senders ++ t.client.pendingGets.senders)
  refused : ∀ a ∈ t.answers, a.reply = .error "Error: server disconnected" →
    ∀ s ∈ t.accepted, s.cmd.tx ≠ a.tx
  ok : ∀ a ∈ t.answers, a.reply = .ok → ∃ now id k v link,
    a.upon = .message now (.Write id) ∧ ⟨link, .Append id (.Put k v), .Put k v a.tx⟩ ∈ t.accepted
  read : ∀ a ∈ t.answers, ∀ value, a.reply = .read value → ∃ now id k link,
    a.upon = .message now (.Read id value) ∧ ⟨link, .Append id (.Get k), .Get k a.tx⟩ ∈ t.accepted

variable {t t' : Tracker}

/-- An id stands for one request. -/
lemma Inv.accepted_inj (h : Inv t) {s s' : Sent} (hs : s ∈ t.accepted) (hs' : s' ∈ t.accepted)
    (hid : messageId s.message = messageId s'.message) : s = s' := by
  have hnd : (t.accepted.map fun s => messageId s.message).Nodup := by
    rw [h.ids]; exact List.nodup_range
  exact List.inj_on_of_nodup_map hnd hs hs' hid

lemma Inv.id_lt (h : Inv t) {s : Sent} (hs : s ∈ t.accepted) :
    messageId s.message < t.client.nextRequestId := by
  have hmem : messageId s.message ∈ t.accepted.map fun s => messageId s.message :=
    List.mem_map_of_mem hs
  rw [h.ids] at hmem
  exact List.mem_range.mp hmem

lemma Inv.put_lt (h : Inv t) {id : CommandId} (hid : id ∈ t.client.pendingPuts) :
    id < t.client.nextRequestId := by
  obtain ⟨tx, htx⟩ := Option.isSome_iff_exists.mp (AList.lookup_isSome.mpr hid)
  obtain ⟨k, v, link, hs⟩ := h.puts id tx htx
  exact h.id_lt hs

lemma Inv.get_lt (h : Inv t) {id : CommandId} (hid : id ∈ t.client.pendingGets) :
    id < t.client.nextRequestId := by
  obtain ⟨tx, htx⟩ := Option.isSome_iff_exists.mp (AList.lookup_isSome.mpr hid)
  obtain ⟨k, link, hs⟩ := h.gets id tx htx
  exact h.id_lt hs

lemma Inv.recorded (h : Inv t) {now : Timestamp} {msg : ServerMessage} (hmsg : t.Expects msg) :
    (t.client.handleMessage now msg).isSome := by
  cases msg with
  | StartSignal time => rfl
  | Write id =>
    have hid : id < t.client.clientData.requestCount := h.count ▸ hmsg id rfl
    have hdata := (ClientData.newResponse_isSome now).mpr hid
    simp only [Client.handleMessage, Client.answerPut]
    split <;> simpa [Client.handleServerMessage] using hdata
  | Read id value =>
    have hid : id < t.client.clientData.requestCount := h.count ▸ hmsg id rfl
    have hdata := (ClientData.newResponse_isSome now).mpr hid
    simp only [Client.handleMessage, Client.answerGet]
    split <;> simpa [Client.handleServerMessage] using hdata

lemma Inv.tracks (h : Inv t) : Tracks t where
  disjoint id hput hget := by
    obtain ⟨tx, htx⟩ := Option.isSome_iff_exists.mp (AList.lookup_isSome.mpr hput)
    obtain ⟨tx', htx'⟩ := Option.isSome_iff_exists.mp (AList.lookup_isSome.mpr hget)
    obtain ⟨k, v, link, hs⟩ := h.puts id tx htx
    obtain ⟨k', link', hs'⟩ := h.gets id tx' htx'
    cases h.accepted_inj hs hs' rfl
  keys_lt id hid := hid.elim h.put_lt h.get_lt
  count := h.count
  free := ⟨fun hid => lt_irrefl _ (h.put_lt hid), fun hid => lt_irrefl _ (h.get_lt hid)⟩
  distinct := h.distinct
  once := h.once
  ids := h.ids
  refused := h.refused
  ok := h.ok
  read := h.read
  recorded _ _ hmsg := h.recorded hmsg

/-! ### One event -/

/-- What taking a command does. -/
lemma step_api {now : Timestamp} {cmd : ApiCommand} (hs : t.step (.api now cmd) = some t') :
    cmd.tx ∉ t.taken.map ApiCommand.tx ∧
      t' = { t.after (.api now cmd) (t.client.handleApi now cmd).1
          (t.client.handleApi now cmd).2.2 with
        taken := t.taken ++ [cmd]
        accepted := t.accepted ++ ((t.client.handleApi now cmd).2.1.map
          fun r => ⟨r.1, r.2, cmd⟩).toList } := by
  simp only [Tracker.step] at hs
  split_ifs at hs with hfresh
  exact ⟨hfresh, (Option.some.inj hs).symm⟩

/-- What taking a message does. -/
lemma step_message {now : Timestamp} {msg : ServerMessage}
    (hs : t.step (.message now msg) = some t') :
    t.Expects msg ∧ ∃ c answers, t.client.handleMessage now msg = some (c, answers) ∧
      t' = t.after (.message now msg) c answers := by
  simp only [Tracker.step] at hs
  split_ifs at hs with hexp
  obtain ⟨⟨c, answers⟩, hmsg, rfl⟩ := Option.map_eq_some_iff.mp hs
  exact ⟨hexp, c, answers, hmsg, rfl⟩

lemma inv_new (serverId : NodeId) (link : LinkId) : Inv (Tracker.new serverId link) := by
  refine ⟨rfl, rfl, ?_, ?_, ?_, List.nodup_nil, List.Perm.refl _, ?_, ?_, ?_⟩ <;>
    simp [Tracker.new, Client.new]

/-- Where an answer may come from. -/
def Justified (t : Tracker) (e : Event) (tx : Sender) : Reply → Prop
  | .ok => ∃ now id k v link,
    e = .message now (.Write id) ∧ ⟨link, .Append id (.Put k v), .Put k v tx⟩ ∈ t.accepted
  | .read value => ∃ now id k link,
    e = .message now (.Read id value) ∧ ⟨link, .Append id (.Get k), .Get k tx⟩ ∈ t.accepted
  | .error errorMsg => errorMsg = "Error: server disconnected" → ∀ s ∈ t.accepted, s.cmd.tx ≠ tx

/-- An event that takes no command: callers are moved from the maps to the answers. -/
lemma Inv.after (h : Inv t) {e : Event} {c : Client} {answers : List (Sender × Reply)}
    (hnext : c.nextRequestId = t.client.nextRequestId)
    (hdata : c.clientData.requestCount = t.client.clientData.requestCount)
    (hputs : ∀ id tx, c.pendingPuts.lookup id = some tx → t.client.pendingPuts.lookup id = some tx)
    (hgets : ∀ id tx, c.pendingGets.lookup id = some tx → t.client.pendingGets.lookup id = some tx)
    (honce : (t.client.pendingPuts.senders ++ t.client.pendingGets.senders).Perm
      (answers.map Prod.fst ++ c.pendingPuts.senders ++ c.pendingGets.senders))
    (hans : ∀ a ∈ answers, Justified t e a.1 a.2) : Inv (t.after e c answers) := by
  have hnew : ∀ a ∈ (t.after e c answers).answers,
      a ∈ t.answers ∨ a.upon = e ∧ Justified t e a.tx a.reply := by
    intro a ha
    rcases List.mem_append.mp ha with ha | ha
    · exact Or.inl ha
    · obtain ⟨x, hx, rfl⟩ := List.mem_map.mp ha
      exact Or.inr ⟨rfl, hans x hx⟩
  refine ⟨?_, ?_, h.sent, ?_, ?_, h.distinct, ?_, ?_, ?_, ?_⟩
  · exact hnext.trans (h.count.trans hdata.symm)
  · exact h.ids.trans (congrArg List.range hnext.symm)
  · exact fun id tx hid => h.puts id tx (hputs id tx hid)
  · exact fun id tx hid => h.gets id tx (hgets id tx hid)
  · have hold := h.once
    rw [List.append_assoc] at hold
    have hmap : (t.after e c answers).answers.map Answer.tx =
        t.answers.map Answer.tx ++ answers.map Prod.fst := by
      simp [Tracker.after, Function.comp_def]
    rw [hmap]
    refine hold.trans ?_
    simpa [Tracker.after] using honce.append_left (t.answers.map Answer.tx)
  · intro a ha hreply
    rcases hnew a ha with hold | ⟨-, hjust⟩
    · exact h.refused a hold hreply
    · rw [hreply] at hjust
      exact hjust rfl
  · intro a ha hreply
    rcases hnew a ha with hold | ⟨hupon, hjust⟩
    · exact h.ok a hold hreply
    · rw [hreply] at hjust
      rw [hupon]
      exact hjust
  · intro a ha value hreply
    rcases hnew a ha with hold | ⟨hupon, hjust⟩
    · exact h.read a hold value hreply
    · rw [hreply] at hjust
      rw [hupon]
      exact hjust

/-- Only the network changes. -/
lemma Inv.network (h : Inv t) (e : Event) (n : Network) :
    Inv (t.after e { t.client with network := n } []) :=
  h.after rfl rfl (fun _ _ => id) (fun _ _ => id) (List.Perm.refl _) (by simp)

lemma Inv.connectionLost (h : Inv t) (n : Network) :
    Inv (t.after .connectionLost
      { (t.client.failAllPending "Error: connection lost").1 with network := n }
      (t.client.failAllPending "Error: connection lost").2) := by
  refine h.after rfl rfl (fun id tx hid => ?_) (fun id tx hid => ?_) ?_ ?_
  · cases hid
  · cases hid
  · have hmap : (t.client.failAllPending "Error: connection lost").2.map Prod.fst =
        t.client.pendingPuts.senders ++ t.client.pendingGets.senders := by
      simp [Client.failAllPending, Function.comp_def]
    rw [hmap]
    simp [Client.failAllPending]
  · intro a ha
    obtain ⟨tx, -, rfl⟩ := List.mem_map.mp ha
    intro hmsg
    exact absurd hmsg (by decide)

lemma Inv.message (h : Inv t) {now : Timestamp} {msg : ServerMessage}
    {c : Client} {answers : List (Sender × Reply)}
    (hmsg : t.client.handleMessage now msg = some (c, answers)) :
    Inv (t.after (.message now msg) c answers) := by
  obtain ⟨d, puts, gets, hd, rfl, hcase⟩ := handleMessage_cases hmsg
  rcases hcase with ⟨rfl, rfl, rfl⟩ | ⟨id, tx, rfl, hlookup, rfl, rfl, rfl⟩ |
    ⟨id, value, tx, rfl, hlookup, rfl, rfl, rfl⟩
  · exact h.after rfl hd (fun _ _ hid => hid) (fun _ _ hid => hid) (List.Perm.refl _) (by simp)
  · refine h.after rfl hd (fun _ _ => lookup_of_erase) (fun _ _ hid => hid) ?_ ?_
    · exact (Pending.senders_erase hlookup).append_right _
    · intro a ha
      obtain rfl := List.mem_singleton.mp ha
      obtain ⟨k, v, link, hs⟩ := h.puts id tx hlookup
      exact ⟨now, id, k, v, link, rfl, hs⟩
  · refine h.after rfl hd (fun _ _ hid => hid) (fun _ _ => lookup_of_erase) ?_ ?_
    · have hperm := (Pending.senders_erase hlookup).append_left t.client.pendingPuts.senders
      exact hperm.trans List.perm_middle
    · intro a ha
      obtain rfl := List.mem_singleton.mp ha
      obtain ⟨k, link, hs⟩ := h.gets id tx hlookup
      exact ⟨now, id, k, link, rfl, hs⟩

lemma ne_of_fresh (h : Inv t) {cmd : ApiCommand} (hfresh : cmd.tx ∉ t.taken.map ApiCommand.tx)
    {s : Sent} (hs : s ∈ t.accepted) : s.cmd.tx ≠ cmd.tx := by
  intro heq
  have hmem := List.mem_map_of_mem (f := ApiCommand.tx) (h.sent s hs).1
  exact hfresh (heq ▸ hmem)

lemma distinct_concat (h : Inv t) {cmd : ApiCommand} (hfresh : cmd.tx ∉ t.taken.map ApiCommand.tx) :
    ((t.taken ++ [cmd]).map ApiCommand.tx).Nodup := by
  rw [List.map_append]
  exact List.nodup_append.mpr ⟨h.distinct, by simp, by
    rintro x hx y hy rfl
    obtain rfl : x = cmd.tx := by simpa using hy
    exact hfresh hx⟩

/-- A refused command leaves the id free and is answered. -/
lemma Inv.refuse (h : Inv t) {now : Timestamp} {cmd : ApiCommand} (n : Network)
    (hfresh : cmd.tx ∉ t.taken.map ApiCommand.tx) :
    Inv { t.after (.api now cmd) { t.client with network := n }
        [(cmd.tx, .error "Error: server disconnected")] with
      taken := t.taken ++ [cmd]
      accepted := t.accepted ++ [] } := by
  rw [List.append_nil]
  have hnew : ∀ a ∈ t.answers ++ [⟨.api now cmd, cmd.tx, .error "Error: server disconnected"⟩],
      a ∈ t.answers ∨ a = ⟨.api now cmd, cmd.tx, .error "Error: server disconnected"⟩ := by
    intro a ha
    simpa using ha
  refine ⟨h.count, h.ids, fun s hs => ?_, h.puts, h.gets, distinct_concat h hfresh, ?_, ?_, ?_, ?_⟩
  · exact ⟨List.mem_append_left _ (h.sent s hs).1, (h.sent s hs).2⟩
  · have hold := h.once.append_right [cmd.tx]
    have hmap : (t.taken ++ [cmd]).map ApiCommand.tx = t.taken.map ApiCommand.tx ++ [cmd.tx] := by
      simp
    rw [hmap]
    refine hold.trans ?_
    simp only [Tracker.after, List.map_cons, List.map_nil, List.map_append, List.append_assoc]
    refine List.Perm.append_left _ ?_
    rw [← List.append_assoc]
    exact List.perm_append_comm
  · intro a ha hreply s hs
    rcases hnew a ha with hold | rfl
    · exact h.refused a hold hreply s hs
    · exact ne_of_fresh h hfresh hs
  · intro a ha hreply
    rcases hnew a ha with hold | rfl
    · exact h.ok a hold hreply
    · cases hreply
  · intro a ha value hreply
    rcases hnew a ha with hold | rfl
    · exact h.read a hold value hreply
    · cases hreply

/-- An accepted command uses up the id, and its caller waits under it. -/
lemma Inv.accept (h : Inv t) {now : Timestamp} {cmd : ApiCommand} {n : Network} {link : LinkId}
    {d : ClientData} {puts gets : Pending} (hfresh : cmd.tx ∉ t.taken.map ApiCommand.tx)
    (hd : d.requestCount = t.client.clientData.requestCount + 1)
    (hpend : (∃ k v, cmd = .Put k v cmd.tx ∧
        puts = t.client.pendingPuts.insert t.client.nextRequestId cmd.tx ∧
        gets = t.client.pendingGets) ∨
      ∃ k, cmd = .Get k cmd.tx ∧ puts = t.client.pendingPuts ∧
        gets = t.client.pendingGets.insert t.client.nextRequestId cmd.tx) :
    Inv { t.after (.api now cmd)
        ⟨n, d, t.client.activeServer, t.client.nextRequestId + 1, gets, puts⟩ [] with
      taken := t.taken ++ [cmd]
      accepted := t.accepted ++ [⟨link, .Append t.client.nextRequestId cmd.kvCmd, cmd⟩] } := by
  set id := t.client.nextRequestId with hid
  set new : Sent := ⟨link, .Append id cmd.kvCmd, cmd⟩ with hnew
  have hputFree : id ∉ t.client.pendingPuts := h.tracks.free.1
  have hgetFree : id ∉ t.client.pendingGets := h.tracks.free.2
  have hold : ∀ s ∈ t.accepted, s ∈ t.accepted ++ [new] := fun s hs => List.mem_append_left _ hs
  have hlast : new ∈ t.accepted ++ [new] := by simp
  refine ⟨?_, ?_, ?_, ?_, ?_, distinct_concat h hfresh, ?_, ?_, ?_, ?_⟩
  · change id + 1 = d.requestCount
    rw [hd, ← h.count]
  · change (t.accepted ++ [new]).map _ = List.range (id + 1)
    rw [List.map_append, h.ids, List.range_succ]
    rfl
  · intro s hs
    rcases List.mem_append.mp hs with hs | hs
    · exact ⟨List.mem_append_left _ (h.sent s hs).1, (h.sent s hs).2⟩
    · obtain rfl := List.mem_singleton.mp hs
      exact ⟨by simp [hnew], id, rfl⟩
  · intro id' tx hlookup
    rcases hpend with ⟨k, v, hcmd, rfl, rfl⟩ | ⟨k, hcmd, rfl, rfl⟩
    · rcases lookup_of_insert hlookup with ⟨rfl, rfl⟩ | hlookup'
      · refine ⟨k, v, link, ?_⟩
        rw [← hcmd, ← show cmd.kvCmd = .Put k v by rw [hcmd]; rfl]
        exact hlast
      · obtain ⟨k', v', link', hs⟩ := h.puts id' tx hlookup'
        exact ⟨k', v', link', hold _ hs⟩
    · obtain ⟨k', v', link', hs⟩ := h.puts id' tx hlookup
      exact ⟨k', v', link', hold _ hs⟩
  · intro id' tx hlookup
    rcases hpend with ⟨k, v, hcmd, rfl, rfl⟩ | ⟨k, hcmd, rfl, rfl⟩
    · obtain ⟨k', link', hs⟩ := h.gets id' tx hlookup
      exact ⟨k', link', hold _ hs⟩
    · rcases lookup_of_insert hlookup with ⟨rfl, rfl⟩ | hlookup'
      · refine ⟨k, link, ?_⟩
        rw [← hcmd, ← show cmd.kvCmd = .Get k by rw [hcmd]; rfl]
        exact hlast
      · obtain ⟨k', link', hs⟩ := h.gets id' tx hlookup'
        exact ⟨k', link', hold _ hs⟩
  · have hperm := h.once.append_right [cmd.tx]
    have hmap : (t.taken ++ [cmd]).map ApiCommand.tx = t.taken.map ApiCommand.tx ++ [cmd.tx] := by
      simp
    rw [hmap]
    refine hperm.trans ?_
    have hmove : (t.client.pendingPuts.senders ++ t.client.pendingGets.senders ++ [cmd.tx]).Perm
        (puts.senders ++ gets.senders) := by
      rcases hpend with ⟨k, v, -, rfl, rfl⟩ | ⟨k, -, rfl, rfl⟩
      · rw [Pending.senders_insert hputFree]
        exact List.perm_append_comm
      · rw [Pending.senders_insert hgetFree, List.append_assoc]
        exact List.Perm.append_left _ List.perm_append_comm
    have hans := hmove.append_left (t.answers.map Answer.tx)
    simpa [Tracker.after, List.append_assoc] using hans
  · intro a ha hreply s hs
    have ha' : a ∈ t.answers := by simpa [Tracker.after] using ha
    rcases List.mem_append.mp hs with hs | hs
    · exact h.refused a ha' hreply s hs
    · obtain rfl := List.mem_singleton.mp hs
      intro heq
      have hmem : a.tx ∈ t.taken.map ApiCommand.tx := by
        refine h.once.mem_iff.mpr ?_
        simp only [List.mem_append]
        exact Or.inl (Or.inl (List.mem_map_of_mem ha'))
      exact hfresh (heq ▸ hmem)
  · intro a ha hreply
    have ha' : a ∈ t.answers := by simpa [Tracker.after] using ha
    obtain ⟨now', id', k, v, link', hupon, hs⟩ := h.ok a ha' hreply
    exact ⟨now', id', k, v, link', hupon, hold _ hs⟩
  · intro a ha value hreply
    have ha' : a ∈ t.answers := by simpa [Tracker.after] using ha
    obtain ⟨now', id', k, link', hupon, hs⟩ := h.read a ha' value hreply
    exact ⟨now', id', k, link', hupon, hold _ hs⟩

/-- **One event.** -/
theorem step_inv {e : Event} (h : Inv t) (hs : t.step e = some t') : Inv t' := by
  cases e with
  | api now cmd =>
    obtain ⟨hfresh, rfl⟩ := step_api hs
    rcases handleApi_cases t.client now cmd with ⟨n, heq⟩ | ⟨n, link, d, puts, gets, hd, heq, hpend⟩
    · rw [heq]
      exact h.refuse n hfresh
    · rw [heq]
      exact h.accept hfresh hd hpend
  | message now msg =>
    obtain ⟨-, c, answers, hmsg, rfl⟩ := step_message hs
    exact h.message hmsg
  | connectionLost =>
    obtain rfl := Option.some.inj hs
    exact h.connectionLost _
  | reconnected link =>
    obtain rfl := Option.some.inj hs
    exact h.network _ _
  | readerEnded link =>
    obtain rfl := Option.some.inj hs
    exact h.network _ _
  | writerEnded link =>
    obtain rfl := Option.some.inj hs
    exact h.network _ _

/-- The callers waiting under an id. -/
def Waiting (t : Tracker) (id : CommandId) : Prop :=
  id ∈ t.client.pendingPuts ∨ id ∈ t.client.pendingGets

instance (t : Tracker) (id : CommandId) : Decidable (Waiting t id) :=
  inferInstanceAs (Decidable (_ ∨ _))

/-- Only ids that were not given out before start to wait. -/
lemma step_waiting {e : Event} (hs : t.step e = some t') :
    t.client.nextRequestId ≤ t'.client.nextRequestId ∧
      ∀ id < t.client.nextRequestId, Waiting t' id → Waiting t id := by
  cases e with
  | api now cmd =>
    obtain ⟨-, rfl⟩ := step_api hs
    rcases handleApi_cases t.client now cmd with ⟨n, heq⟩ | ⟨n, link, d, puts, gets, hd, heq, hpend⟩
    · rw [heq]
      exact ⟨le_rfl, fun id _ hid => hid⟩
    · rw [heq]
      refine ⟨Nat.le_succ _, fun id hlt hid => ?_⟩
      have hne : id ≠ t.client.nextRequestId := Nat.ne_of_lt hlt
      rcases hpend with ⟨k, v, -, rfl, rfl⟩ | ⟨k, -, rfl, rfl⟩
      · simpa [Waiting, Tracker.after, hne] using hid
      · simpa [Waiting, Tracker.after, hne] using hid
  | message now msg =>
    obtain ⟨-, c, answers, hmsg, rfl⟩ := step_message hs
    obtain ⟨d, puts, gets, -, rfl, hcase⟩ := handleMessage_cases hmsg
    refine ⟨le_rfl, fun id _ hid => ?_⟩
    rcases hcase with ⟨rfl, rfl, rfl⟩ | ⟨id', tx, -, -, rfl, rfl, -⟩ |
      ⟨id', value, tx, -, -, rfl, rfl, -⟩
    · exact hid
    · exact hid.imp_left fun h => (AList.mem_erase.mp h).2
    · exact hid.imp_right fun h => (AList.mem_erase.mp h).2
  | connectionLost =>
    obtain rfl := Option.some.inj hs
    refine ⟨le_rfl, fun id _ hid => ?_⟩
    rcases hid with hid | hid
    · exact absurd hid (AList.notMem_empty id)
    · exact absurd hid (AList.notMem_empty id)
  | reconnected link =>
    obtain rfl := Option.some.inj hs
    exact ⟨le_rfl, fun id _ hid => hid⟩
  | readerEnded link =>
    obtain rfl := Option.some.inj hs
    exact ⟨le_rfl, fun id _ hid => hid⟩
  | writerEnded link =>
    obtain rfl := Option.some.inj hs
    exact ⟨le_rfl, fun id _ hid => hid⟩

/-! ### What an event adds -/

/-- What an event adds to the commands taken and to the requests accepted. -/
lemma step_accepted {e : Event} (hs : t.step e = some t') :
    ∃ cmds sent, t'.taken = t.taken ++ cmds ∧ t'.accepted = t.accepted ++ sent ∧
      (sent.map Sent.cmd).Sublist cmds ∧ (∀ cmd ∈ cmds, ∃ now, e = .api now cmd) ∧
      ∀ s ∈ sent, s.link ∈ t.client.network.links := by
  cases e with
  | api now cmd =>
    obtain ⟨-, rfl⟩ := step_api hs
    obtain ⟨-, hlinks⟩ := t.client.network.links_send t.client.activeServer
    rw [← (handleApi_network t.client now cmd).2] at hlinks
    refine ⟨[cmd], _, rfl, rfl, ?_, ?_, ?_⟩
    · cases (t.client.handleApi now cmd).2.1 with
      | none => exact List.nil_sublist _
      | some r => exact List.Sublist.refl _
    · intro cmd' hcmd'
      exact ⟨now, by rw [List.mem_singleton.mp hcmd']⟩
    · intro s hsent
      obtain ⟨link, msg, hr, rfl⟩ : ∃ link msg,
          (t.client.handleApi now cmd).2.1 = some (link, msg) ∧ ⟨link, msg, cmd⟩ = s := by
        simpa using hsent
      exact hlinks link (by rw [hr]; rfl)
  | message now msg =>
    obtain ⟨-, c, answers, -, rfl⟩ := step_message hs
    exact ⟨[], [], by simp [Tracker.after]⟩
  | connectionLost =>
    obtain rfl := Option.some.inj hs
    exact ⟨[], [], by simp [Tracker.after]⟩
  | reconnected link =>
    obtain rfl := Option.some.inj hs
    exact ⟨[], [], by simp [Tracker.after]⟩
  | readerEnded link =>
    obtain rfl := Option.some.inj hs
    exact ⟨[], [], by simp [Tracker.after]⟩
  | writerEnded link =>
    obtain rfl := Option.some.inj hs
    exact ⟨[], [], by simp [Tracker.after]⟩

/-- The answers an event adds are given upon it. -/
lemma step_answers {e : Event} (hs : t.step e = some t') :
    ∃ answers : List (Sender × Reply),
      t'.answers = t.answers ++ answers.map fun a => ⟨e, a.1, a.2⟩ := by
  cases e with
  | api now cmd =>
    obtain ⟨-, rfl⟩ := step_api hs
    exact ⟨_, rfl⟩
  | message now msg =>
    obtain ⟨-, c, answers, -, rfl⟩ := step_message hs
    exact ⟨_, rfl⟩
  | connectionLost =>
    obtain rfl := Option.some.inj hs
    exact ⟨_, rfl⟩
  | reconnected link =>
    obtain rfl := Option.some.inj hs
    exact ⟨[], rfl⟩
  | readerEnded link =>
    obtain rfl := Option.some.inj hs
    exact ⟨[], rfl⟩
  | writerEnded link =>
    obtain rfl := Option.some.inj hs
    exact ⟨[], rfl⟩

/-- The replies the client gives upon an event. -/
def Event.Gives (e : Event) : Reply → Prop
  | .ok => ∃ now id, e = .message now (.Write id)
  | .read value => ∃ now id, e = .message now (.Read id value)
  | .error errorMsg =>
    (∃ now cmd, e = .api now cmd) ∧ errorMsg = "Error: server disconnected" ∨
      e = .connectionLost ∧ errorMsg = "Error: connection lost"

lemma step_gives {e : Event} (hs : t.step e = some t') {a : Answer} (ha : a ∈ t'.answers) :
    a ∈ t.answers ∨ e.Gives a.reply := by
  cases e with
  | api now cmd =>
    obtain ⟨-, rfl⟩ := step_api hs
    rcases handleApi_cases t.client now cmd with ⟨n, heq⟩ | ⟨n, link, d, puts, gets, -, heq, -⟩
    · rw [heq] at ha
      refine (List.mem_append.mp ha).imp_right fun hnew => ?_
      obtain rfl := List.mem_singleton.mp hnew
      exact Or.inl ⟨⟨now, cmd, rfl⟩, rfl⟩
    · rw [heq] at ha
      exact Or.inl (by simpa [Tracker.after] using ha)
  | message now msg =>
    obtain ⟨-, c, answers, hmsg, rfl⟩ := step_message hs
    refine (List.mem_append.mp ha).imp_right fun hnew => ?_
    obtain ⟨d, puts, gets, -, -, hcase⟩ := handleMessage_cases hmsg
    rcases hcase with ⟨-, -, rfl⟩ | ⟨id, tx, rfl, -, -, -, rfl⟩ |
      ⟨id, value, tx, rfl, -, -, -, rfl⟩
    · cases hnew
    · obtain rfl := List.mem_singleton.mp hnew
      exact ⟨now, id, rfl⟩
    · obtain rfl := List.mem_singleton.mp hnew
      exact ⟨now, id, rfl⟩
  | connectionLost =>
    obtain rfl := Option.some.inj hs
    refine (List.mem_append.mp ha).imp_right fun hnew => ?_
    obtain ⟨x, hx, rfl⟩ := List.mem_map.mp hnew
    obtain ⟨tx, -, rfl⟩ := List.mem_map.mp hx
    exact Or.inr ⟨rfl, rfl⟩
  | reconnected link =>
    obtain rfl := Option.some.inj hs
    exact Or.inl (by simpa [Tracker.after] using ha)
  | readerEnded link =>
    obtain rfl := Option.some.inj hs
    exact Or.inl (by simpa [Tracker.after] using ha)
  | writerEnded link =>
    obtain rfl := Option.some.inj hs
    exact Or.inl (by simpa [Tracker.after] using ha)

/-- Connections come in by reconnecting only. -/
lemma step_links {e : Event} (hs : t.step e = some t') {link : LinkId}
    (hlink : link ∈ t'.client.network.links) :
    link ∈ t.client.network.links ∨ e = .reconnected link := by
  cases e with
  | api now cmd =>
    obtain ⟨-, rfl⟩ := step_api hs
    simp only [Tracker.after, (handleApi_network t.client now cmd).1] at hlink
    exact Or.inl ((t.client.network.links_send _).1 hlink)
  | message now msg =>
    obtain ⟨-, c, answers, hmsg, rfl⟩ := step_message hs
    obtain ⟨d, puts, gets, -, rfl, -⟩ := handleMessage_cases hmsg
    exact Or.inl hlink
  | connectionLost =>
    obtain rfl := Option.some.inj hs
    rcases Network.links_set hlink with hold | hnone
    · exact Or.inl hold
    · cases hnone
  | reconnected link' =>
    obtain rfl := Option.some.inj hs
    rcases Network.links_set hlink with hold | hnew
    · exact Or.inl hold
    · obtain rfl : link' = link := by simpa [ServerConnection.new] using hnew
      exact Or.inr rfl
  | readerEnded link' =>
    obtain rfl := Option.some.inj hs
    have hsame : (t.client.network.readerEnded link').links = t.client.network.links :=
      Network.links_mapConnections fun c => by split_ifs <;> rfl
    exact Or.inl (hsame ▸ hlink)
  | writerEnded link' =>
    obtain rfl := Option.some.inj hs
    have hsame : (t.client.network.writerEnded link').links = t.client.network.links :=
      Network.links_mapConnections fun c => by split_ifs <;> rfl
    exact Or.inl (hsame ▸ hlink)

/-- **Request tracking loses, duplicates and mixes up nothing**, after any events. -/
theorem tracks_of_reachable {serverId : NodeId} (h : (system serverId).Reachable t) : Tracks t := by
  have hinv : Inv t := by
    refine h.invariant (I := Inv) ?_ ?_
    · rintro t ⟨link, rfl⟩
      exact inv_new serverId link
    · intro t e t' ht hs _
      exact step_inv ht hs
  exact hinv.tracks

/-- A put and a get are sent, the put is answered twice; the connection is lost, so the get
fails; what comes before the reconnection is refused, and the late response finds no caller. -/
def sampleEvents : List Event :=
  [.api 10 (.Put "x" "1" 0), .api 11 (.Get "x" 1), .message 12 (.Write 0), .message 13 (.Write 0),
    .readerEnded 5, .connectionLost, .api 14 (.Get "x" 2), .reconnected 6,
    .message 15 (.Read 1 (some "1")), .api 16 (.Get "x" 3)]

theorem tracks_of_reachable_sample :
    ∃ t, (system 1).run (Tracker.new 1 5) sampleEvents = some t ∧
      t.answers.map (fun a => (a.tx, a.reply.text)) =
        [(0, "Ok"), (1, "Error: connection lost"), (2, "Error: server disconnected")] ∧
      Tracks t := by
  refine ⟨_, rfl, by decide, ?_⟩
  have hinit : (system 1).init (Tracker.new 1 5) := ⟨5, rfl⟩
  exact tracks_of_reachable (System.Reachable.run (.init hinit) sampleEvents rfl)

end OmniPaxosKV.Tracking
