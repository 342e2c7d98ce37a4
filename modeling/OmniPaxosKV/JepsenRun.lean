import OmniPaxosKV.EndToEnd
import OmniPaxosKV.JepsenClient

/-!
What the Jepsen clients record of a run of the deployment.

Each call is a request at a client process, and every PUT of the key is one of the calls. A call
may not arrive, and its caller may not see the answer, or see it late. The callers see a register,
so by `recorded_of_reachable` no checker has a violation to report, unless one of the clients that
take every answer to a PUT for a success was answered with an error.
-/

namespace OmniPaxosKV.JepsenRun

open Common Linearize TestClient Tracking TransSys Cluster EndToEnd JepsenClient

variable {Text : Type} {cfg : Config Text} {s s' : State Text}

/-! ### How errors are worded -/

/-- The errors that a caller may be told. -/
def errors : List String :=
  httpErrors ++ ["Error: server disconnected", "Error: connection lost"]

def Worded (reply : Reply) : Prop := ∀ errorMsg, reply = .error errorMsg → errorMsg ∈ errors

lemma startsWith_of_mem_errors : ∀ errorMsg ∈ errors, startsWith errorMsg "Error" = true := by
  decide

lemma worded_of_gives {e : Event} {reply : Reply} (h : e.Gives reply) : Worded reply := by
  rintro errorMsg rfl
  rcases h with ⟨-, rfl⟩ | ⟨-, rfl⟩
  · decide
  · decide

/-- What a step makes of the client of a process. -/
def Moves (t t' : Tracker) : Prop := t' = t ∨ t'.answers = [] ∨ ∃ e, t.step e = some t'

lemma moves_event {p : ProcId} {e : Event} (hs : s.event p e = some s') (q : ProcId) :
    Moves (s.trackers q) (s'.trackers q) := by
  obtain ⟨-, t, -, -, ht, -, -, -, -, -, rfl⟩ := State.event_cases hs
  by_cases hq : q = p
  · subst hq
    exact Or.inr (Or.inr ⟨e, by simpa using ht⟩)
  · exact Or.inl (by simp [hq])

lemma moves_takeMessage {p : ProcId} {now : Timestamp} {msg : ServerMessage}
    (hs : s.takeMessage p now msg = some s') (q : ProcId) :
    Moves (s.trackers q) (s'.trackers q) := by
  unfold State.takeMessage at hs
  split at hs
  · split at hs
    · obtain rfl := Option.some.inj hs
      exact Or.inl rfl
    · obtain rfl := Option.some.inj hs
      exact Or.inl rfl
    · obtain rfl := Option.some.inj hs
      exact Or.inl rfl
  · split at hs
    · rename_i s₁ hevent
      obtain rfl := Option.some.inj hs
      exact moves_event hevent q
    · obtain rfl := Option.some.inj hs
      exact Or.inl rfl
  · cases hs
  · cases hs
  · cases hs
  · cases hs

lemma trackers_request {p : ProcId} {cmd : ApiCommand} (hs : s.request p cmd = some s') :
    s'.trackers = s.trackers := by
  unfold State.request at hs
  split_ifs at hs
  obtain rfl := Option.some.inj hs
  rfl

lemma trackers_respond {tx : Sender} {reply : Reply} (hs : s.respond tx reply = some s') :
    s'.trackers = s.trackers := by
  unfold State.respond at hs
  split at hs
  · split_ifs at hs
    obtain rfl := Option.some.inj hs
    rfl
  · cases hs

/-- **One step** of the deployment, as the client of a process sees it. -/
theorem step_moves {a : Action Text} (hs : step cfg s a = some s') (q : ProcId) :
    Moves (s.trackers q) (s'.trackers q) := by
  have hsame : s'.trackers = s.trackers → Moves (s.trackers q) (s'.trackers q) :=
    fun h => Or.inl (by rw [h])
  have hsilent : IsSilent a → Moves (s.trackers q) (s'.trackers q) := fun ha =>
    hsame (congrArg Ledger.trackers (silent_of_step ha hs).1)
  cases a with
  | procStarts p =>
    simp only [step] at hs
    split_ifs at hs
    obtain rfl := Option.some.inj hs
    by_cases hq : q = p
    · subst hq
      exact Or.inr (Or.inl (by simp [Tracker.new]))
    · exact Or.inl (by simp [hq])
  | procExits p =>
    simp only [step] at hs
    split_ifs at hs
    obtain rfl := Option.some.inj hs
    exact hsame rfl
  | httpPut p key value => exact hsame (trackers_request hs)
  | httpGet p key => exact hsame (trackers_request hs)
  | httpReturns tx =>
    simp only [step, Option.bind_eq_some_iff] at hs
    obtain ⟨r, -, a, -, hs⟩ := hs
    exact hsame (trackers_respond hs)
  | httpFails tx errorMsg =>
    simp only [step] at hs
    split_ifs at hs
    exact hsame (trackers_respond hs)
  | clientApi p i now =>
    simp only [step] at hs
    split at hs
    · split_ifs at hs
      exact moves_event hs q
    · cases hs
  | clientMessage link now =>
    simp only [step, Option.bind_eq_some_iff] at hs
    obtain ⟨p, -, hs⟩ := hs
    split at hs
    · exact moves_takeMessage hs q
    · cases hs
  | clientTimer p =>
    simp only [step] at hs
    split_ifs at hs
    obtain ⟨s₁, hevent, rfl⟩ := Option.map_eq_some_iff.mp hs
    exact moves_event hevent q
  | clientReconnects p =>
    simp only [step] at hs
    split_ifs at hs
    obtain ⟨s₁, hevent, rfl⟩ := Option.map_eq_some_iff.mp hs
    exact moves_event hevent q
  | clientReaderEnds link =>
    simp only [step, Option.bind_eq_some_iff] at hs
    obtain ⟨p, -, hs⟩ := hs
    exact moves_event hs q
  | clientWriterEnds link =>
    simp only [step, Option.bind_eq_some_iff] at hs
    obtain ⟨p, -, hs⟩ := hs
    exact moves_event hs q
  | register link => exact hsilent trivial
  | applyConnection n i => exact hsilent trivial
  | serverWriterEnds n client => exact hsilent trivial
  | handleClientMessage link =>
    simp only [step, Option.bind_eq_some_iff] at hs
    obtain ⟨p, -, hs⟩ := hs
    split at hs
    · obtain rfl := Option.some.inj hs
      exact hsame rfl
    · cases hs
    · cases hs
    · cases hs
  | loseUp link i =>
    obtain rfl := Option.some.inj hs
    exact hsame rfl
  | loseDown link i => exact hsilent trivial
  | decided i =>
    simp only [step] at hs
    split at hs
    · obtain rfl := Option.some.inj hs
      exact hsame rfl
    · cases hs
  | node n a => exact hsilent trivial
  | startSignals n startTime => exact hsilent trivial

/-- What is known of a reachable state. -/
structure Inv (cfg : Config Text) (s : State Text) : Prop where
  routed : Routing.Inv cfg s
  ok : (ledger s).Ok
  worded : ∀ p, ∀ a ∈ (s.trackers p).answers, Worded a.reply

lemma inv_of_reachable (hhome : Function.Injective cfg.home) (h : (system cfg).Reachable s) :
    Inv cfg s := by
  refine h.invariant (I := Inv cfg) ?_ ?_
  · rintro s ⟨files, hfiles, rfl⟩
    exact ⟨Routing.inv_start hfiles, ok_start files, by simp [start, Tracker.new]⟩
  · rintro s a s' ⟨hr, hok, hworded⟩ hs -
    refine ⟨Routing.system_step_inv hr hs (fresh_of_injective hhome hr a), ?_, fun p a ha => ?_⟩
    · obtain ⟨s₁, hstep, rfl⟩ := Option.map_eq_some_iff.mp hs
      have hok' := step_ok hr hok hstep
      exact ⟨hok'.queued, hok'.taken, hok'.accepted, hok'.once, hok'.upOnce, hok'.upNew,
        hok'.returned, fun r hmem => Nat.le_succ_of_le (hok'.called r hmem), hok'.order⟩
    · obtain ⟨s₁, hstep, rfl⟩ := Option.map_eq_some_iff.mp hs
      rcases step_moves hstep p with heq | hnil | ⟨e, he⟩
      · exact hworded p a (heq ▸ ha)
      · change a ∈ (s₁.trackers p).answers at ha
        rw [hnil] at ha
        cases ha
      · rcases step_gives he ha with hold | hgives
        · exact hworded p a hold
        · exact worded_of_gives hgives

/-- An error that a caller was told is one of five. -/
lemma Inv.worded_returned (h : Inv cfg s) {tx : Sender} {r : Request} {t : ℕ} {reply : Reply}
    (hr : s.requests[tx]? = some r) (hret : r.returned = some (t, reply)) : Worded reply := by
  rintro errorMsg rfl
  by_cases hmem : errorMsg ∈ httpErrors
  · exact List.mem_append_left _ hmem
  · have hclient : FromClient (.error errorMsg) := by
      intro e he heq
      exact hmem (Reply.error.inj heq ▸ he)
    obtain ⟨a, ha, -, hreply⟩ := h.ok.returned tx r t _ hr hret hclient
    exact h.worded r.proc a ha errorMsg hreply

/-! ### The calls on a key -/

/-- The command that a call asks for. -/
def command (key : String) : ShimCall → KVCommand
  | .put v _ => .Put key (toString v)
  | .get _ => .Get key

def Writes (key : String) : KVCommand → Prop
  | .Put k _ => k = key
  | .Delete k => k = key
  | .Get _ => False

/-- `h` is what callers saw of the requests that `call` says: a call that has none did not arrive.
No other request writes the key. -/
structure Observed (s : State Text) (key : String) (h : List ShimOp)
    (call : Sender → Option (Fin h.length)) : Prop where
  one : ∀ tx tx' i, call tx = some i → call tx' = some i → tx = tx'
  arrived : ∀ tx i, call tx = some i → ∃ r, s.requests[tx]? = some r ∧
    r.cmd = command key (h.get i).call ∧ (h.get i).called ≤ r.called
  answered : ∀ (i : Fin h.length) body, (h.get i).call.response = some body →
    ∃ tx r t reply, call tx = some i ∧ s.requests[tx]? = some r ∧
      r.returned = some (t, reply) ∧ reply.text = body ∧ t ≤ (h.get i).answered
  writes : ∀ tx r, s.requests[tx]? = some r → Writes key r.cmd → (call tx).isSome

/-- The register is the value of the key. -/
def View (key : String) (m : String → Option String) (v : Option Int32) : Prop :=
  m key = v.map toString

lemma view_outside {key : String} {cmd : KVCommand} (hcmd : ¬ Writes key cmd)
    {m : String → Option String} {v : Option Int32} (h : View key m v) :
    View key (store.step m cmd).1 v := by
  cases cmd with
  | Put k value =>
    have hk : key ≠ k := fun heq => hcmd heq.symm
    simpa [View, store, hk] using h
  | Delete k =>
    have hk : key ≠ k := fun heq => hcmd heq.symm
    simpa [View, store, hk] using h
  | Get k => exact h

lemma view_inside {key : String} (call : ShimCall) {m : String → Option String} {v : Option Int32}
    (h : View key m v) :
    View key (store.step m (command key call)).1 (register.step v call.access).1 := by
  cases call with
  | put n answer => simp [View, store, command, register, ShimCall.access]
  | get answer => exact h

lemma toString_injective : Function.Injective (toString : Int32 → String) := by
  intro n n' h
  have hn := parseInt_toString n
  rw [h, parseInt_toString] at hn
  exact (Option.some.inj hn).symm

/-- What a caller takes for certain is what the register gives. -/
lemma outcome_of_view {key : String} {call : ShimCall} {o : JepsenClient.Outcome} {body : String}
    {m : String → Option String} {v : Option Int32} (h : View key m v)
    (ho : call.outcome = some o) (hbody : call.response = some body)
    (hanswer : (store.step m (command key call)).2.text = body) :
    (register.step v call.access).2 = o := by
  rcases call with ⟨n, _ | _ | rest⟩ | _ | n | _ | rest
  · cases ho
  · exact Option.some.inj ho
  · cases ho
  · cases ho
  · obtain rfl := Option.some.inj ho
    obtain rfl := Option.some.inj hbody
    change (m key).getD "Key not found" = toString n at hanswer
    rw [h] at hanswer
    cases v with
    | none => exact absurd hanswer.symm (value_body n).2.1
    | some n' =>
      obtain rfl := toString_injective hanswer
      rfl
  · obtain rfl := Option.some.inj ho
    obtain rfl := Option.some.inj hbody
    change (m key).getD "Key not found" = "Key not found" at hanswer
    rw [h] at hanswer
    cases v with
    | none => rfl
    | some n' => exact absurd hanswer (value_body n').2.1
  · cases ho

/-- A caller that is certain of what came of its call was not told of an error. -/
lemma body_of_outcome {call : ShimCall} {o : JepsenClient.Outcome} (ho : call.outcome = some o) :
    ∃ body, call.response = some body ∧ startsWith body "Error" = false := by
  rcases call with ⟨n, _ | _ | rest⟩ | _ | n | _ | rest
  · cases ho
  · exact ⟨_, rfl, by decide⟩
  · cases ho
  · cases ho
  · exact ⟨_, rfl, (value_body n).2.2⟩
  · exact ⟨_, rfl, by decide⟩
  · cases ho

lemma resultOf_of_worded {r : Request} {t : ℕ} {reply : Reply} (hret : r.returned = some (t, reply))
    (hworded : Worded reply) (herror : startsWith reply.text "Error" = false) :
    resultOf r = some reply := by
  unfold resultOf
  rw [hret]
  cases reply with
  | ok => rfl
  | read value => rfl
  | error errorMsg =>
    have hstart := startsWith_of_mem_errors errorMsg (hworded errorMsg rfl)
    cases hstart.symm.trans herror

variable {key : String} {h : List ShimOp} {call : Sender → Option (Fin h.length)}

/-- What a call was answered for certain is the result of its request. -/
lemma Observed.result (ho : Observed s key h call) (hinv : Inv cfg s) {i : Fin h.length}
    {o : JepsenClient.Outcome} (hi : (h.get i).call.outcome = some o) :
    ∃ tx r t reply, call tx = some i ∧ s.requests[tx]? = some r ∧
      r.returned = some (t, reply) ∧ (h.get i).call.response = some reply.text ∧
      t ≤ (h.get i).answered ∧ resultOf r = some reply := by
  obtain ⟨body, hbody, herror⟩ := body_of_outcome hi
  obtain ⟨tx, r, t, reply, htx, hr, hret, rfl, ht⟩ := ho.answered i body hbody
  exact ⟨tx, r, t, reply, htx, hr, hret, hbody, ht,
    resultOf_of_worded hret (hinv.worded_returned hr hret) herror⟩

/-- The calls on a key are a part of what the handlers saw. -/
lemma Observed.isPart (ho : Observed s key h call) (hinv : Inv cfg s) :
    IsPart store (EndToEnd.history s.requests) register (shimLevel h) call (View key) where
  one := ho.one
  start := rfl
  outside tx hinvoked hnone m v hview := by
    obtain ⟨r, hr, -⟩ := hinvoked
    have hinput : (EndToEnd.history s.requests).input tx = r.cmd := by simp [EndToEnd.history, hr]
    rw [hinput]
    refine view_outside (fun hwrites => ?_) hview
    have hsome := ho.writes tx r hr hwrites
    rw [hnone] at hsome
    cases hsome
  inside tx i _ hi := by
    obtain ⟨r, hr, hcmd, -⟩ := ho.arrived tx i hi
    have hinput : (EndToEnd.history s.requests).input tx = command key (h.get i).call := by
      simp [EndToEnd.history, hr, hcmd]
    rw [hinput]
    exact ⟨trivial, fun m v hview => view_inside _ hview⟩
  before tx tx' i j hi hj hbefore := by
    obtain ⟨hsome, hlt⟩ := hbefore
    obtain ⟨o, houtcome⟩ := Option.isSome_iff_exists.mp hsome
    obtain ⟨tx₁, r, t, reply, htx₁, hr, hret, -, ht, hres⟩ := ho.result hinv houtcome
    obtain rfl := ho.one tx tx₁ i hi htx₁
    obtain ⟨r', hr', -, hcalled⟩ := ho.arrived tx' j hj
    exact ⟨r, r', t, reply, hr, hr', hret, hres, lt_of_le_of_lt ht (lt_of_lt_of_le hlt hcalled)⟩
  complete i o _ houtcome := by
    obtain ⟨tx, r, t, reply, htx, hr, hret, hbody, -, hres⟩ := ho.result hinv houtcome
    obtain ⟨r', hr', hcmd, -⟩ := ho.arrived tx i htx
    obtain rfl : r = r' := Option.some.inj (hr.symm.trans hr')
    have hinput : (EndToEnd.history s.requests).input tx = command key (h.get i).call := by
      simp [EndToEnd.history, hr, hcmd]
    have hnot : ¬ Refused r := by
      rintro ⟨t', hret'⟩
      rw [resultOf, hret'] at hres
      cases hres
    refine ⟨tx, reply, htx, ⟨r, hr, hnot⟩, by simpa [EndToEnd.history, hr] using hres, ?_⟩
    intro m v hview hstep
    rw [hinput] at hstep
    exact outcome_of_view hview houtcome hbody (congrArg Reply.text hstep)

/-- **No false alarms.** Where each server has one client process, whatever crashes, is lost or
comes late: what the nemesis clients record of the calls on a key is linearizable, and what the
others record is if no PUT was answered with an error. -/
theorem recorded_of_reachable (hhome : Function.Injective cfg.home)
    (hs : (system cfg).Reachable s) (ho : Observed s key h call) (c : PaxosClient)
    (hc : c = .nemesis ∨ ∀ op ∈ h, ¬ op.call.ErrorPut) :
    Linearizable register (recorded c h) := by
  have hinv := inv_of_reachable hhome hs
  have hlin : Linearizable register (shimLevel h) :=
    (ho.isPart hinv).linearizable (linearizable_of_ok hinv.routed hinv.ok)
  by_cases hnemesis : c = .nemesis
  · subst hnemesis
    exact recorded_nemesis_iff.mpr (shimLevel_iff.mp hlin).1
  · obtain ⟨S, hS⟩ := hlin
    have hnone := hc.resolve_left hnemesis
    refine (recorded_other_iff hnemesis).mpr ⟨S, hS, fun i herr => ?_, hS.order.imp ?_⟩
    · exact absurd herr (hnone _ (h.get_mem i))
    · rintro a b - ⟨herr, -⟩
      exact hnone _ (h.get_mem b.1) herr

/-- A PUT times out before it is sent; a GET then finds no key. -/
def timedOut : List (Action (Option Store.DatabaseSnapshot)) :=
  [.node 1 (.restart 0 true), .node 2 (.restart 0 true), .procStarts 0, .procStarts 1, .register 0,
    .register 1, .applyConnection 1 0, .applyConnection 2 0, .startSignals 1 5, .startSignals 2 5,
    .clientMessage 0 6, .clientMessage 1 6, .httpPut 0 "x" "1", .httpFails 0 "Error: timeout",
    .httpGet 1 "x", .clientApi 1 0 7, .handleClientMessage 1, .decided 0, .node 2 (.decide 1),
    .node 2 .handle, .node 2 .entry, .clientMessage 1 8, .httpReturns 1]

def seen : List ShimOp :=
  [⟨12, .put 1 (some (.error ": timeout")), 13, by decide⟩,
    ⟨14, .get (some .keyNotFound), 22, by decide⟩]

/-- The first two requests are the calls. -/
def firstTwo (tx : Sender) : Option (Fin seen.length) := if h : tx < 2 then some ⟨tx, h⟩ else none

lemma observed_seen {s : State Text} {p q : ProcId}
    (hs : s.requests = [⟨p, .Put "x" "1", 12, some (13, .error "Error: timeout")⟩,
      ⟨q, .Get "x", 14, some (22, .read none)⟩]) : Observed s "x" seen firstTwo := by
  have hlt : ∀ {tx i}, firstTwo tx = some i → tx = i.val := by
    intro tx i h
    unfold firstTwo at h
    split_ifs at h
    exact congrArg Fin.val (Option.some.inj h)
  refine ⟨fun tx tx' i h h' => (hlt h).trans (hlt h').symm, fun tx i h => ?_, fun i body h => ?_,
    fun tx r hr _ => ?_⟩
  · obtain rfl := hlt h
    match i with
    | ⟨0, _⟩ =>
      have hcmd : KVCommand.Put "x" "1" = command "x" (.put 1 (some (.error ": timeout"))) := by
        decide
      exact ⟨_, by rw [hs]; rfl, hcmd, le_refl _⟩
    | ⟨1, _⟩ => exact ⟨_, by rw [hs]; rfl, rfl, le_refl _⟩
  · match i with
    | ⟨0, _⟩ =>
      obtain rfl := Option.some.inj h
      exact ⟨0, _, 13, _, rfl, by rw [hs]; rfl, rfl, by decide, le_refl _⟩
    | ⟨1, _⟩ =>
      obtain rfl := Option.some.inj h
      exact ⟨1, _, 22, _, rfl, by rw [hs]; rfl, rfl, by decide, le_refl _⟩
  · have htx : tx < 2 := by
      have := (List.getElem?_eq_some_iff.mp hr).1
      rwa [hs] at this
    simp [firstTwo, htx]

/-- A client that takes every answer to a PUT for a success does raise a false alarm. -/
lemma falseAlarm_seen : ¬ Linearizable register (recorded .testLin seen) := by
  rintro ⟨S, hS⟩
  have hother : PaxosClient.testLin ≠ .nemesis := by decide
  have hput : (recorded .testLin seen).result ⟨0, by decide⟩ = some .ack :=
    (other_record hother _).2.2 ⟨1, ": timeout", rfl⟩
  have hget : (recorded .testLin seen).result ⟨1, by decide⟩ = some (.got none) :=
    (other_record hother (.get (some .keyNotFound))).2.1 (by rintro ⟨v, rest, ⟨⟩⟩)
  have hputS := hS.complete _ _ (other_record hother _).1 hput
  have hgetS := hS.complete _ _ (other_record hother _).1 hget
  have hnot := absent_not_after hS hgetS rfl hputS (Or.inl ⟨1, rfl⟩)
  exact hnot ⟨Option.isSome_iff_exists.mpr ⟨_, hput⟩, by decide⟩

theorem recorded_of_reachable_timedOut : ∃ s,
    (system twoServers).run (start twoServers fun _ _ => none) timedOut = some s ∧
      Observed s "x" seen firstTwo ∧ Linearizable register (recorded .nemesis seen) ∧
      ¬ Linearizable register (recorded .testLin seen) := by
  have hhome : Function.Injective twoServers.home := fun p q h => Nat.succ.inj h
  have hinit : (system twoServers).init (start twoServers fun _ _ => none) :=
    ⟨fun _ _ => none, by simp, rfl⟩
  obtain ⟨s, hrun, hreqs⟩ : ∃ s,
      (system twoServers).run (start twoServers fun _ _ => none) timedOut = some s ∧
      s.requests = [⟨0, .Put "x" "1", 12, some (13, .error "Error: timeout")⟩,
        ⟨1, .Get "x", 14, some (22, .read none)⟩] := ⟨_, rfl, by decide⟩
  have ho := observed_seen hreqs
  have hreach := System.Reachable.run (.init hinit) timedOut hrun
  exact ⟨s, hrun, ho, recorded_of_reachable hhome hreach ho .nemesis (Or.inl rfl), falseAlarm_seen⟩

end OmniPaxosKV.JepsenRun
