import OmniPaxosKV.Tracking

/-!
The HTTP shim of a client process: a handler for each request, and the client they share.

A handler puts its command into the client's channel and waits for the answer. Whatever comes
of it is returned as a bare text: a value, "Ok", "Key not found" or one of five error texts.
`determined_iff` says for which stored values the body of a GET still tells what came of it.
-/

namespace OmniPaxosKV.Shim

open Common TestClient Tracking TransSys

structure PutReq where
  key : String
  value : String
  deriving DecidableEq

/-- The command that `http_put` hands to the client; what both handlers do with the channels is
in the steps of the process. -/
def httpPut (payload : PutReq) (respTx : Sender) : ApiCommand :=
  .Put payload.key payload.value respTx

def httpGet (key : String) (respTx : Sender) : ApiCommand := .Get key respTx

/-- How the wait of a handler ends, in `http_put` and `http_get` alike. -/
inductive Ending
  /-- The client takes no more commands. -/
  | sendFailed
  | answered (val : Reply)
  /-- The other end is gone without an answer. -/
  | dropped
  | elapsed
  deriving DecidableEq

def Ending.body : Ending → String
  | .sendFailed => "Error: client unavailable"
  | .answered val => val.text
  | .dropped => "Error: request dropped"
  | .elapsed => "Error: timeout"

/-- What came of a request. -/
inductive Outcome
  | done
  | found (value : String)
  | absent
  | failed
  deriving DecidableEq

def Ending.outcome : Ending → Outcome
  | .answered .ok => .done
  | .answered (.read (some value)) => .found value
  | .answered (.read none) => .absent
  | .answered (.error _) => .failed
  | .sendFailed => .failed
  | .dropped => .failed
  | .elapsed => .failed

/-! ### The process -/

inductive Stage
  /-- Until there is room in the channel. -/
  | sending
  | waiting
  | returned (ending : Ending)
  deriving DecidableEq

structure Handler where
  cmd : ApiCommand
  stage : Stage
  deriving DecidableEq

/-- Where the task that runs the client is. -/
inductive Task
  | waitForStartSignal
  | run
  | reconnectLoop
  | panicked
  deriving DecidableEq

structure Process where
  tracker : Tracker
  task : Task
  httpRx : List ApiCommand
  /-- The handler of a sender is the one at its index. -/
  handlers : List Handler
  deriving DecidableEq

/-- The room in the channel. -/
def channelSize : ℕ := 100

inductive Action
  | httpPut (payload : PutReq)
  | httpGet (key : String)
  /-- A handler gets its command off its hands. -/
  | httpSends (tx : Sender)
  /-- A handler finds the receiver ready. -/
  | httpReturns (tx : Sender)
  | httpTimesOut (tx : Sender)
  | takeHttp (now : Timestamp)
  | takeMessage (now : Timestamp) (msg : ServerMessage)
  | timer
  | reconnected (link : LinkId)
  /-- The registration could not be sent, which `reconnect` does not survive. -/
  | registrationFails
  | readerEnds (link : LinkId)
  | writerEnds (link : LinkId)

namespace Process

def start (serverId : NodeId) (link : LinkId) : Process :=
  ⟨Tracker.new serverId link, .waitForStartSignal, [], []⟩

variable (s : Process)

/-- A request comes in. -/
def spawn (cmd : Sender → ApiCommand) : Process :=
  { s with handlers := s.handlers ++ [⟨cmd s.handlers.length, .sending⟩] }

def setStage (tx : Sender) (h : Handler) (stage : Stage) : Process :=
  { s with handlers := s.handlers.set tx { h with stage := stage } }

/-- The client meets an event. -/
def event (e : Event) : Option Process := (s.tracker.step e).map fun t => { s with tracker := t }

/-- The receiver of a handler: nothing yet, an answer, or the news that none will come, because
the client has gone with the channel and everyone waiting. -/
def poll (tx : Sender) : Option Ending :=
  match s.tracker.answers.find? fun a => a.tx = tx with
  | some a => some (.answered a.reply)
  | none => if s.task = .panicked then some .dropped else none

/-- A waiting handler returns. -/
def finish (tx : Sender) (ending : Ending) : Option Process :=
  match s.handlers[tx]? with
  | some h => if h.stage = .waiting then some (s.setStage tx h (.returned ending)) else none
  | none => none

def step (s : Process) : Action → Option Process
  | .httpPut payload => some (s.spawn (Shim.httpPut payload))
  | .httpGet key => some (s.spawn (Shim.httpGet key))
  | .httpSends tx =>
    match s.handlers[tx]? with
    | some h =>
      if h.stage = .sending then
        if s.task = .panicked then some (s.setStage tx h (.returned .sendFailed))
        else if s.httpRx.length < channelSize then
          some { s.setStage tx h .waiting with httpRx := s.httpRx ++ [h.cmd] }
        else none
      else none
    | none => none
  | .httpReturns tx => (s.poll tx).bind (s.finish tx)
  -- `timeout` looks at the receiver before it looks at the time
  | .httpTimesOut tx => s.finish tx ((s.poll tx).getD .elapsed)
  | .takeHttp now =>
    match s.task, s.httpRx with
    | .run, cmd :: rest => { s with httpRx := rest }.event (.api now cmd)
    | _, _ => none
  | .takeMessage now msg =>
    match s.task with
    | .waitForStartSignal =>
      match msg with
      | .StartSignal _ => some { s with task := .run }
      | .Write _ => some s
      | .Read _ _ => some s
    | .run =>
      match s.event (.message now msg) with
      | some s' => some s'
      -- `new_response` indexes out of bounds
      | none => some { s with task := .panicked }
    | .reconnectLoop => none
    | .panicked => none
  | .timer =>
    let client := s.tracker.client
    if s.task = .run then
      if client.network.isConnected client.activeServer then some s
      else { s with task := .reconnectLoop }.event .connectionLost
    else none
  | .reconnected link =>
    if s.task = .reconnectLoop then { s with task := .run }.event (.reconnected link) else none
  | .registrationFails =>
    if s.task = .reconnectLoop then some { s with task := .panicked } else none
  | .readerEnds link => s.event (.readerEnded link)
  | .writerEnds link => s.event (.writerEnded link)

end Process

def system : System Process Action where
  init s := ∃ serverId link, s = Process.start serverId link
  step := Process.step

/-- The values that reads find are in `V`. -/
def Serves (V : Set String) (_ : Process) : Action → Prop
  | .takeMessage _ (.Read _ (some value)) => value ∈ V
  | _ => True

/-- The wait of a GET has ended so. -/
def GetEnds (s : Process) (ending : Ending) : Prop :=
  ∃ h ∈ s.handlers, (∃ key tx, h.cmd = .Get key tx) ∧ h.stage = .returned ending

/-- Where the values stored are in `V`, GETs with the same body had the same outcome. -/
def Determined (V : Set String) : Prop :=
  ∀ s s' ending ending', system.Reaches (Serves V) s → system.Reaches (Serves V) s' →
    GetEnds s ending → GetEnds s' ending' → ending.body = ending'.body →
    ending.outcome = ending'.outcome

/-- The texts that a GET is answered with where it found no value. -/
def reserved : List String :=
  ["Key not found", "Error: server disconnected", "Error: connection lost",
    "Error: client unavailable", "Error: request dropped", "Error: timeout"]

/-! ### What every run keeps -/

/-- A value that was read is in `V`, and an error is one of the client's. -/
def Sound (V : Set String) : Reply → Prop
  | .ok => True
  | .read value => ∀ v ∈ value, v ∈ V
  | .error errorMsg => errorMsg = "Error: server disconnected" ∨ errorMsg = "Error: connection lost"

def Process.commands (s : Process) : List ApiCommand := s.handlers.map Handler.cmd

structure Inv (V : Set String) (s : Process) : Prop where
  tracked : Tracking.Inv s.tracker
  senders : s.commands.map ApiCommand.tx = List.range s.handlers.length
  queued : ∀ cmd ∈ s.httpRx, cmd ∈ s.commands
  taken : ∀ cmd ∈ s.tracker.taken, cmd ∈ s.commands
  replies : ∀ a ∈ s.tracker.answers, Sound V a.reply
  returned : ∀ h ∈ s.handlers, ∀ reply, h.stage = .returned (.answered reply) →
    ∃ a ∈ s.tracker.answers, a.tx = h.cmd.tx ∧ a.reply = reply

variable {V : Set String} {s s' : Process}

lemma inv_start (serverId : NodeId) (link : LinkId) : Inv V (.start serverId link) := by
  refine ⟨inv_new serverId link, rfl, ?_, ?_, ?_, ?_⟩ <;> simp [Process.start, Tracker.new]

lemma Inv.setTask (h : Inv V s) (task : Task) : Inv V { s with task := task } :=
  ⟨h.tracked, h.senders, h.queued, h.taken, h.replies, h.returned⟩

lemma Inv.spawn (h : Inv V s) {cmd : Sender → ApiCommand} (htx : ∀ tx, (cmd tx).tx = tx) :
    Inv V (s.spawn cmd) := by
  have hcommands : (s.spawn cmd).commands = s.commands ++ [cmd s.handlers.length] := by
    simp [Process.commands, Process.spawn]
  refine ⟨h.tracked, ?_, fun c hc => ?_, fun c hc => ?_, h.replies, fun hd hmem reply hst => ?_⟩
  · rw [hcommands, List.map_append, h.senders]
    simp [Process.spawn, List.range_succ, htx]
  · rw [hcommands]
    exact List.mem_append_left _ (h.queued c hc)
  · rw [hcommands]
    exact List.mem_append_left _ (h.taken c hc)
  · rcases List.mem_append.mp hmem with hold | hnew
    · exact h.returned hd hold reply hst
    · obtain rfl := List.mem_singleton.mp hnew
      cases hst

/-- A handler at another stage is still the handler of its command. -/
lemma commands_setStage {tx : Sender} {hd : Handler} (hget : s.handlers[tx]? = some hd)
    (stage : Stage) : (s.setStage tx hd stage).commands = s.commands := by
  have hcmd : s.commands[tx]? = some hd.cmd := by
    rw [Process.commands, List.getElem?_map, hget]
    rfl
  obtain ⟨hlt, hval⟩ := List.getElem?_eq_some_iff.mp hcmd
  rw [Process.commands, Process.setStage, List.map_set]
  change s.commands.set tx hd.cmd = s.commands
  rw [← hval, List.set_getElem_self]

lemma Inv.setStage (h : Inv V s) {tx : Sender} {hd : Handler} (hget : s.handlers[tx]? = some hd)
    {stage : Stage} (hst : ∀ reply, stage = .returned (.answered reply) →
      ∃ a ∈ s.tracker.answers, a.tx = hd.cmd.tx ∧ a.reply = reply) :
    Inv V (s.setStage tx hd stage) := by
  have hcommands := commands_setStage hget stage
  refine ⟨h.tracked, ?_, fun c hc => ?_, fun c hc => ?_, h.replies, fun hd' hmem reply heq => ?_⟩
  · rw [hcommands, h.senders]
    simp [Process.setStage]
  · rw [hcommands]
    exact h.queued c hc
  · rw [hcommands]
    exact h.taken c hc
  · rcases List.mem_or_eq_of_mem_set hmem with hold | rfl
    · exact h.returned hd' hold reply heq
    · exact hst reply heq

/-- The handler at an index has the index for a sender. -/
lemma Inv.tx_eq (h : Inv V s) {tx : Sender} {hd : Handler} (hget : s.handlers[tx]? = some hd) :
    hd.cmd.tx = tx := by
  have htx : (s.commands.map ApiCommand.tx)[tx]? = some hd.cmd.tx := by
    rw [Process.commands, List.getElem?_map, List.getElem?_map, hget]
    rfl
  have hlt : tx < s.handlers.length := (List.getElem?_eq_some_iff.mp hget).1
  rw [h.senders, List.getElem?_range hlt] at htx
  exact (Option.some.inj htx).symm

lemma Inv.finish (h : Inv V s) {tx : Sender} {ending : Ending}
    (hans : ∀ reply, ending = .answered reply →
      ∃ a ∈ s.tracker.answers, a.tx = tx ∧ a.reply = reply)
    (hs : s.finish tx ending = some s') : Inv V s' := by
  unfold Process.finish at hs
  split at hs
  · rename_i hd hget
    split_ifs at hs
    obtain rfl := Option.some.inj hs
    refine h.setStage hget fun reply heq => ?_
    rw [h.tx_eq hget]
    exact hans reply (Stage.returned.inj heq)
  · cases hs

lemma poll_answered {tx : Sender} {reply : Reply} (h : s.poll tx = some (.answered reply)) :
    ∃ a ∈ s.tracker.answers, a.tx = tx ∧ a.reply = reply := by
  unfold Process.poll at h
  split at h
  · rename_i a hfind
    obtain rfl := Ending.answered.inj (Option.some.inj h)
    exact ⟨a, List.mem_of_find?_eq_some hfind, by simpa using List.find?_some hfind, rfl⟩
  · split_ifs at h
    cases Option.some.inj h

/-- An event of the client: what it takes was queued, and its replies are sound. -/
lemma Inv.event (h : Inv V s) {e : Event} (hapi : ∀ now cmd, e = .api now cmd → cmd ∈ s.commands)
    (hread : ∀ now id v, e = .message now (.Read id (some v)) → v ∈ V)
    (hs : s.event e = some s') : Inv V s' := by
  obtain ⟨t, ht, rfl⟩ := Option.map_eq_some_iff.mp hs
  obtain ⟨cmds, sent, htaken, -, -, hcmds, -⟩ := step_accepted ht
  obtain ⟨answers, hanswers⟩ := step_answers ht
  refine ⟨Tracking.step_inv h.tracked ht, h.senders, h.queued, fun cmd hcmd => ?_, fun a ha => ?_,
    fun hd hmem reply hst => ?_⟩
  · rw [htaken] at hcmd
    rcases List.mem_append.mp hcmd with hold | hnew
    · exact h.taken cmd hold
    · obtain ⟨now, he⟩ := hcmds cmd hnew
      exact hapi now cmd he
  · rcases step_gives ht ha with hold | hgives
    · exact h.replies a hold
    · rcases hreply : a.reply with _ | value | errorMsg
      · trivial
      · rw [hreply] at hgives
        obtain ⟨now, id, rfl⟩ := hgives
        rintro v rfl
        exact hread now id v rfl
      · rw [hreply] at hgives
        exact hgives.imp And.right And.right
  · obtain ⟨a, ha, htx, hreply⟩ := h.returned hd hmem reply hst
    refine ⟨a, ?_, htx, hreply⟩
    rw [hanswers]
    exact List.mem_append_left _ ha

/-- **One step** of the process. -/
theorem step_inv {a : Action} (h : Inv V s) (hs : s.step a = some s') (hserves : Serves V s a) :
    Inv V s' := by
  cases a with
  | httpPut payload =>
    obtain rfl := Option.some.inj hs
    exact h.spawn fun tx => rfl
  | httpGet key =>
    obtain rfl := Option.some.inj hs
    exact h.spawn fun tx => rfl
  | httpSends tx =>
    simp only [Process.step] at hs
    split at hs
    · rename_i hd hget
      split_ifs at hs
      · obtain rfl := Option.some.inj hs
        exact h.setStage hget (by simp)
      · obtain rfl := Option.some.inj hs
        have hwaiting : Inv V (s.setStage tx hd .waiting) := h.setStage hget (by simp)
        refine ⟨hwaiting.tracked, hwaiting.senders, fun c hc => ?_, hwaiting.taken,
          hwaiting.replies, hwaiting.returned⟩
        rcases List.mem_append.mp hc with hold | hnew
        · exact hwaiting.queued c hold
        · change c ∈ (s.setStage tx hd .waiting).commands
          rw [commands_setStage hget, List.mem_singleton.mp hnew]
          exact List.mem_map_of_mem (List.mem_of_getElem? hget)
    · cases hs
  | httpReturns tx =>
    obtain ⟨ending, hpoll, hs⟩ := Option.bind_eq_some_iff.mp hs
    refine h.finish (fun reply heq => ?_) hs
    rw [heq] at hpoll
    exact poll_answered hpoll
  | httpTimesOut tx =>
    refine h.finish (fun reply heq => ?_) hs
    rcases hpoll : s.poll tx with _ | ending
    · rw [hpoll] at heq
      cases heq
    · rw [hpoll, Option.getD_some] at heq
      exact poll_answered (heq ▸ hpoll)
  | takeHttp now =>
    simp only [Process.step] at hs
    split at hs
    · rename_i cmd rest htask hrx
      have hrest : Inv V { s with httpRx := rest } :=
        ⟨h.tracked, h.senders, fun c hc => h.queued c (by simp [hrx, hc]), h.taken, h.replies,
          h.returned⟩
      refine hrest.event ?_ (by simp) hs
      rintro _ _ ⟨⟩
      exact h.queued cmd (by simp [hrx])
    · cases hs
  | takeMessage now msg =>
    simp only [Process.step] at hs
    split at hs
    · split at hs
      · obtain rfl := Option.some.inj hs
        exact h.setTask _
      · obtain rfl := Option.some.inj hs
        exact h
      · obtain rfl := Option.some.inj hs
        exact h
    · split at hs
      · rename_i s₁ hevent
        obtain rfl := Option.some.inj hs
        refine h.event (by simp) ?_ hevent
        rintro _ id v ⟨⟩
        exact hserves
      · obtain rfl := Option.some.inj hs
        exact h.setTask _
    · cases hs
    · cases hs
  | timer =>
    simp only [Process.step] at hs
    split_ifs at hs
    · obtain rfl := Option.some.inj hs
      exact h
    · exact (h.setTask .reconnectLoop).event (by simp) (by simp) hs
  | reconnected link =>
    simp only [Process.step] at hs
    split_ifs at hs
    exact (h.setTask .run).event (by simp) (by simp) hs
  | registrationFails =>
    simp only [Process.step] at hs
    split_ifs at hs
    obtain rfl := Option.some.inj hs
    exact h.setTask _
  | readerEnds link => exact h.event (by simp) (by simp) hs
  | writerEnds link => exact h.event (by simp) (by simp) hs

lemma inv_of_reaches (h : system.Reaches (Serves V) s) : Inv V s := by
  refine h.invariant (I := Inv V) ?_ ?_
  · rintro s ⟨serverId, link, rfl⟩
    exact inv_start serverId link
  · exact fun s a s' hi hs hserves => step_inv hi hs hserves

/-! ### Reading a body -/

/-- What a caller of a GET can make of the body. -/
def readBody (body : String) : Outcome :=
  if body = "Key not found" then .absent
  else if body ∈ reserved then .failed
  else .found body

/-- "Ok" is for PUTs only, so it is not among the answers of a GET. -/
lemma Inv.get_ne_ok (h : Inv V s) {reply : Reply} (hget : GetEnds s (.answered reply)) :
    reply ≠ .ok ∧ Sound V reply := by
  obtain ⟨hd, hmem, ⟨key, tx, hcmd⟩, hst⟩ := hget
  obtain ⟨a, ha, htx, rfl⟩ := h.returned hd hmem reply hst
  refine ⟨fun hok => ?_, h.replies a ha⟩
  obtain ⟨now, id, k, v, link, -, hsent⟩ := h.tracked.ok a ha hok
  have hput : ApiCommand.Put k v a.tx ∈ s.commands :=
    h.taken _ (h.tracked.sent _ hsent).1
  have hget : hd.cmd ∈ s.commands := List.mem_map_of_mem hmem
  have hnodup : (s.commands.map ApiCommand.tx).Nodup := by
    rw [h.senders]
    exact List.nodup_range
  have heq : ApiCommand.Put k v a.tx = hd.cmd :=
    List.inj_on_of_nodup_map hnodup hput hget htx
  rw [hcmd] at heq
  cases heq

/-- **The body can be read** where no stored value is a reserved text. -/
lemma outcome_eq_readBody (hV : ∀ value ∈ V, value ∉ reserved) (h : Inv V s) {ending : Ending}
    (hget : GetEnds s ending) : ending.outcome = readBody ending.body := by
  cases ending with
  | sendFailed => decide
  | dropped => decide
  | elapsed => decide
  | answered reply =>
    obtain ⟨hok, hsound⟩ := h.get_ne_ok hget
    rcases reply with _ | (_ | value) | errorMsg
    · exact absurd rfl hok
    · decide
    · have hvalue : value ∉ reserved := hV value (hsound value rfl)
      have hkey : value ≠ "Key not found" := fun heq => hvalue (by simp [heq, reserved])
      simp [Ending.outcome, Ending.body, Reply.text, readBody, hkey, hvalue]
    · rcases hsound with rfl | rfl
      · decide
      · decide

/-! ### The reserved texts -/

/-- A GET that the server answers with what the read gave. -/
def answeredGet (value : Option String) : List Action :=
  [.takeMessage 0 (.StartSignal 0), .httpGet "x", .httpSends 0, .takeHttp 1,
    .takeMessage 2 (.Read 0 value), .httpReturns 0]

lemma getEnds_answeredGet (value : Option String) :
    ∃ s, system.run (.start 1 5) (answeredGet value) = some s ∧
      GetEnds s (.answered (.read value)) :=
  ⟨_, rfl, ⟨.Get "x" 0, .returned (.answered (.read value))⟩, List.mem_cons_self, ⟨_, _, rfl⟩, rfl⟩

/-- For each reserved text, a GET that ends with it and found no value. -/
def endsReserved : List (Ending × List Action) :=
  [(.answered (.read none), answeredGet none),
    (.answered (.error "Error: server disconnected"),
      [.takeMessage 0 (.StartSignal 0), .writerEnds 5, .httpGet "x", .httpSends 0, .takeHttp 1,
        .httpReturns 0]),
    (.answered (.error "Error: connection lost"),
      [.takeMessage 0 (.StartSignal 0), .httpGet "x", .httpSends 0, .takeHttp 1, .writerEnds 5,
        .httpGet "y", .httpSends 1, .takeHttp 2, .timer, .httpReturns 0]),
    (.sendFailed,
      [.takeMessage 0 (.StartSignal 0), .takeMessage 1 (.Write 0), .httpGet "x", .httpSends 0]),
    (.dropped,
      [.takeMessage 0 (.StartSignal 0), .httpGet "x", .httpSends 0, .takeMessage 1 (.Write 0),
        .httpReturns 0]),
    (.elapsed, [.httpGet "x", .httpSends 0, .httpTimesOut 0])]

lemma body_endsReserved : (endsReserved.map fun e => e.1.body) = reserved := by decide

lemma getEnds_endsReserved {e : Ending × List Action} (he : e ∈ endsReserved) :
    ∃ s, system.run (.start 1 5) e.2 = some s ∧ GetEnds s e.1 := by
  have hfirst : ∀ e ∈ endsReserved, (system.run (.start 1 5) e.2).any fun s =>
      s.handlers.head? = some ⟨.Get "x" 0, .returned e.1⟩ := by
    decide
  obtain ⟨s, hrun, hhead⟩ := (Option.any_eq_true _ _).mp (hfirst e he)
  refine ⟨s, hrun, ⟨.Get "x" 0, .returned e.1⟩, ?_, ⟨_, _, rfl⟩, rfl⟩
  exact List.mem_of_mem_head? (by simpa using hhead)

lemma outcome_endsReserved {e : Ending × List Action} (he : e ∈ endsReserved) (value : String) :
    e.1.outcome ≠ .found value := by
  have hall : ∀ e ∈ endsReserved, e.1.outcome = .absent ∨ e.1.outcome = .failed := by decide
  rcases hall e he with heq | heq
  · simp [heq]
  · simp [heq]

lemma serves_endsReserved {e : Ending × List Action} (he : e ∈ endsReserved) :
    ∀ a ∈ e.2, ∀ s, Serves V s a := by
  revert e
  simp [endsReserved, answeredGet, Serves]

/-- **The body of a GET tells what came of it** exactly where no stored value is one of the
reserved texts. -/
theorem determined_iff (V : Set String) : Determined V ↔ ∀ value ∈ V, value ∉ reserved := by
  have hinit : system.init (.start 1 5) := ⟨1, 5, rfl⟩
  constructor
  · intro hdet value hvalue hres
    -- one GET finds the value, another ends with the text it is
    rw [← body_endsReserved] at hres
    obtain ⟨e, he, hbody⟩ := List.mem_map.mp hres
    obtain ⟨s, hrun, hget⟩ := getEnds_answeredGet (some value)
    obtain ⟨s', hrun', hget'⟩ := getEnds_endsReserved he
    have hserves : ∀ a ∈ answeredGet (some value), ∀ s, Serves V s a := by
      simp [answeredGet, Serves, hvalue]
    have hreach : system.Reaches (Serves V) s :=
      System.Reaches.run (.init hinit) _ hrun (System.meets_of_forall hserves _)
    have hreach' : system.Reaches (Serves V) s' :=
      System.Reaches.run (.init hinit) _ hrun'
        (System.meets_of_forall (serves_endsReserved he) _)
    have hsame := hdet s s' _ _ hreach hreach' hget hget' hbody.symm
    exact outcome_endsReserved he value hsame.symm
  · intro hV s s' ending ending' hreach hreach' hget hget' hbody
    calc ending.outcome
        = readBody ending.body := outcome_eq_readBody hV (inv_of_reaches hreach) hget
      _ = readBody ending'.body := by rw [hbody]
      _ = ending'.outcome := (outcome_eq_readBody hV (inv_of_reaches hreach') hget').symm

/-- The text for an absent key is put under one key; a GET of it and a GET of a key that is
absent return the same. -/
def ambiguousRun : List Action :=
  [.takeMessage 0 (.StartSignal 0), .httpPut ⟨"x", "Key not found"⟩, .httpSends 0, .takeHttp 1,
    .takeMessage 2 (.Write 0), .httpReturns 0, .httpGet "x", .httpSends 1, .takeHttp 3,
    .takeMessage 4 (.Read 1 (some "Key not found")), .httpReturns 1, .httpGet "y", .httpSends 2,
    .takeHttp 5, .takeMessage 6 (.Read 2 none), .httpReturns 2]

theorem body_ambiguous : ¬ Determined Set.univ := by
  intro hdet
  have hinit : system.init (.start 1 5) := ⟨1, 5, rfl⟩
  obtain ⟨s, hrun, hfound, habsent⟩ : ∃ s, system.run (.start 1 5) ambiguousRun = some s ∧
      GetEnds s (.answered (.read (some "Key not found"))) ∧ GetEnds s (.answered (.read none)) :=
    ⟨_, rfl, ⟨⟨.Get "x" 1, .returned (.answered (.read (some "Key not found")))⟩, by decide,
      ⟨_, _, rfl⟩, rfl⟩, ⟨⟨.Get "y" 2, .returned (.answered (.read none))⟩, by decide,
      ⟨_, _, rfl⟩, rfl⟩⟩
  have hserves : ∀ a ∈ ambiguousRun, ∀ s, Serves Set.univ s a := by simp [ambiguousRun, Serves]
  have hreach : system.Reaches (Serves Set.univ) s :=
    System.Reaches.run (.init hinit) _ hrun (System.meets_of_forall hserves _)
  have hsame := hdet s s _ _ hreach hreach hfound habsent rfl
  cases hsame

end OmniPaxosKV.Shim
