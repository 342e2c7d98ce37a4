import OmniPaxosKV.LoopRuns

/-!
The loops of the server as the caller of OmniPaxos.

`OmniPaxos.api` is the library by itself, under any calls. `driven_of_run` says that a run of the
loops is a run of it, which calls it with what arrived and appends what clients sent, in order, and
that all it gave out to be sent was handed to the network.
-/

namespace OmniPaxosKV.ServerLoop

open Common Store Server ServerNetwork TransSys

/-- OmniPaxos, with all the messages it has given out to be sent. -/
structure Driven (Ω Msg : Type*) where
  omnipaxos : Ω
  out : List Msg

section Api

variable {Ω Msg : Type*} (op : OmniPaxos Ω Msg)

def OmniPaxos.call (d : Driven Ω Msg) : Input Msg → Option (Driven Ω Msg)
  | .tick => some { d with omnipaxos := op.tick d.omnipaxos }
  | .tryBecomeLeader => some { d with omnipaxos := op.tryBecomeLeader d.omnipaxos }
  | .handleIncoming m => some { d with omnipaxos := op.handleIncoming d.omnipaxos m }
  | .append command => (op.append d.omnipaxos command).map fun ω => { d with omnipaxos := ω }
  | .takeOutgoingMessages =>
    let (ω, msgs) := op.takeOutgoingMessages d.omnipaxos
    some ⟨ω, d.out ++ msgs⟩

def OmniPaxos.api (ω : Ω) : System (Driven Ω Msg) (Input Msg) where
  init d := d = ⟨ω, []⟩
  step := op.call

/-- Where the messages of OmniPaxos go. -/
def OmniPaxos.route (msgs : List Msg) : List (NodeId × Msg) :=
  msgs.map fun msg => (op.getReceiver msg, msg)

/-- Right after OmniPaxos's messages were taken there are none to take. -/
def OmniPaxos.TakesAll : Prop :=
  ∀ ω, (op.takeOutgoingMessages (op.takeOutgoingMessages ω).1).2 = []

end Api

variable {Ω Msg : Type*} {op : OmniPaxos Ω Msg} {cfg : OmniPaxosKVConfig} {L : List Command}
  {S : ℕ} {path : Option String} {ω : Ω} {c c' : Core Ω Msg} {s s' : State Ω Msg}

def Input.appended? : Input Msg → Option Command
  | .append command => some command
  | .tick => none
  | .tryBecomeLeader => none
  | .handleIncoming _ => none
  | .takeOutgoingMessages => none

/-- The message of OmniPaxos that a call hands to the network, and for which peer. -/
def Call.handed? : Call Msg → Option (NodeId × Msg)
  | .sendToCluster peer (.OmniPaxosMessage msg) => some (peer, msg)
  | .sendToCluster _ (.LeaderStartSignal _) => none
  | .append _ => none
  | .applyConnection _ => none
  | .sendToClient _ _ => none
  | .saveSnapshot _ => none

/-- The server has OmniPaxos as in `d`, and has handed to the network what it gave out. -/
structure Holds (op : OmniPaxos Ω Msg) (c : Core Ω Msg) (d : Driven Ω Msg) : Prop where
  omnipaxos : d.omnipaxos = c.omnipaxos
  handed : c.calls.filterMap Call.handed? = op.route d.out

/-- From `c` to `c'` the server calls OmniPaxos with `ins`, and hands on what it gives out. -/
structure Drives (op : OmniPaxos Ω Msg) (ω : Ω) (c : Core Ω Msg) (ins : List (Input Msg))
    (c' : Core Ω Msg) : Prop where
  appended : c'.calls.filterMap Call.appended? =
    c.calls.filterMap Call.appended? ++ ins.filterMap Input.appended?
  driven : ∀ d, Holds op c d → ∃ d', (op.api ω).run d ins = some d' ∧ Holds op c' d'

namespace Drives

variable {P : Ω → Prop} {c'' : Core Ω Msg} {ins ins' : List (Input Msg)}

lemma refl (c : Core Ω Msg) : Drives op ω c [] c :=
  ⟨(List.append_nil _).symm, fun d hd => ⟨d, rfl, hd⟩⟩

lemma trans (h : Drives op ω c ins c') (h' : Drives op ω c' ins' c'') :
    Drives op ω c (ins ++ ins') c'' := by
  refine ⟨?_, fun d hd => ?_⟩
  · rw [h'.appended, h.appended, List.append_assoc, List.filterMap_append]
  · obtain ⟨d', hr, hd'⟩ := h.driven d hd
    obtain ⟨d'', hr', hd''⟩ := h'.driven d' hd'
    exact ⟨d'', System.run_append hr hr', hd''⟩

/-- Calls of others leave OmniPaxos alone. -/
lemma call (c : Core Ω Msg) {calls : List (Call Msg)}
    (happended : calls.filterMap Call.appended? = []) (hhanded : calls.filterMap Call.handed? = []) :
    Drives op ω c [] (c.call calls) := by
  refine ⟨?_, fun d hd => ⟨d, rfl, hd.omnipaxos, ?_⟩⟩
  · rw [Core.call, List.filterMap_append, happended]
    rfl
  · rw [Core.call, List.filterMap_append, hhanded, List.append_nil]
    exact hd.handed

/-- A call that gives nothing out. -/
lemma work {x : Input Msg} {ω' : Ω} (hx : x.appended? = none)
    (hcall : ∀ d : Driven Ω Msg, d.omnipaxos = c.omnipaxos →
      op.call d x = some { d with omnipaxos := ω' }) :
    Drives op ω c [x] { c with omnipaxos := ω' } := by
  refine ⟨?_, fun d hd => ⟨{ d with omnipaxos := ω' }, ?_, rfl, hd.handed⟩⟩
  · simp [hx]
  · have hstep : (op.api ω).step d x = some { d with omnipaxos := ω' } := hcall d hd.omnipaxos
    simp [System.run, hstep]

lemma append {command : Command} {ω' : Ω} (h : op.append c.omnipaxos command = some ω') :
    Drives op ω c [.append command] ({ c with omnipaxos := ω' }.call [.append command]) := by
  refine ⟨?_, fun d hd => ⟨{ d with omnipaxos := ω' }, ?_, rfl, ?_⟩⟩
  · rw [Core.call, List.filterMap_append]
    rfl
  · have hstep : (op.api ω).step d (.append command) = some { d with omnipaxos := ω' } := by
      have hcall : op.call d (.append command) =
          (op.append d.omnipaxos command).map fun ω => { d with omnipaxos := ω } := rfl
      rw [hd.omnipaxos, h] at hcall
      exact hcall
    simp [System.run, hstep]
  · rw [Core.call, List.filterMap_append]
    exact (List.append_nil _).trans hd.handed

/-- What was taken is handed to the network. -/
lemma flush (c : Core Ω Msg) : Drives op ω c [.takeOutgoingMessages] (c.sendOutgoingMsgs op) := by
  set msgs := (op.takeOutgoingMessages c.omnipaxos).2 with hmsgs
  have hcalls : (c.sendOutgoingMsgs op).calls = c.calls ++
      msgs.map fun msg => .sendToCluster (op.getReceiver msg) (.OmniPaxosMessage msg) := rfl
  refine ⟨?_, fun d hd => ⟨⟨(op.takeOutgoingMessages c.omnipaxos).1, d.out ++ msgs⟩, ?_, rfl, ?_⟩⟩
  · rw [hcalls, List.filterMap_append]
    simp [List.filterMap_map, Function.comp_def, Call.appended?, Input.appended?]
  · have hstep : (op.api ω).step d .takeOutgoingMessages =
        some ⟨(op.takeOutgoingMessages c.omnipaxos).1, d.out ++ msgs⟩ := by
      rw [hmsgs, ← hd.omnipaxos]
      rfl
    simp [System.run, hstep]
  · rw [hcalls, List.filterMap_append, hd.handed]
    simp [OmniPaxos.route, List.filterMap_map, Function.comp_def, Call.handed?]

lemma part (h : Part op cfg P c ins c') : Drives op ω c ins c' := by
  have hsignals : ∀ (c : Core Ω Msg) startTime,
      Drives op ω c [] (c.sendClientStartSignals cfg startTime) := by
    intro c startTime
    refine call c ?_ ?_
    · simp [List.filterMap_map, Function.comp_def, Call.appended?]
    · simp [List.filterMap_map, Function.comp_def, Call.handed?]
  cases h with
  | tick => exact work rfl fun d hd => by rw [← hd]; rfl
  | tryBecomeLeader => exact work rfl fun d hd => by rw [← hd]; rfl
  | handleIncoming m => exact work rfl fun d hd => by rw [← hd]; rfl
  | append command ω' happend => exact append happend
  | flush => exact flush c
  | applyConnection connection => exact call c rfl rfl
  | announce startTime =>
    have hcluster : Drives op ω c [] (c.sendClusterStartSignals cfg startTime) := by
      refine call c ?_ ?_
      · simp [List.filterMap_map, Function.comp_def, Call.appended?]
      · simp [List.filterMap_map, Function.comp_def, Call.handed?]
    exact hcluster.trans (hsignals _ startTime)
  | relay startTime => exact hsignals c startTime
  | decided =>
    obtain ⟨server, sent, saved, -, -, heq⟩ := handleDecidedEntries_calls op cfg c
    have hserver : Drives op ω c [] { c with server := server } :=
      ⟨(List.append_nil _).symm, fun d hd => ⟨d, rfl, hd.omnipaxos, hd.handed⟩⟩
    rw [heq]
    exact hserver.trans (call _ (filterMap_respond (fun _ _ => rfl) (fun _ => rfl) saved)
      (filterMap_respond (fun _ _ => rfl) (fun _ => rfl) saved))

lemma parts (h : Parts op cfg P c ins c') : Drives op ω c ins c' := by
  induction h with
  | refl => exact refl c
  | tail _ hp ih => exact ih.trans (part hp)

end Drives

/-! ### Whole runs -/

/-- What arrived from peers is what was taken and what waits. -/
lemma batch_of_step {a : Action Msg} (hs : step op cfg s a = some s') :
    s.clusterMessages ++ a.cluster?.toList = s.batch a ++ s'.clusterMessages := by
  cases a with
  | clusterArrives source msg =>
    obtain rfl := Option.some.inj hs
    rfl
  | clientArrives client msg =>
    obtain rfl := Option.some.inj hs
    exact List.append_nil _
  | connectionArrives connection =>
    obtain rfl := Option.some.inj hs
    exact List.append_nil _
  | electionTick =>
    simp only [step] at hs
    split at hs
    · obtain rfl := Option.some.inj hs
      exact List.append_nil _
    · cases hs
  | leaderTick now =>
    simp only [step] at hs
    split at hs
    · obtain rfl := Option.some.inj hs
      exact List.append_nil _
    · cases hs
  | clusterMessages k =>
    simp only [step] at hs
    split at hs
    · obtain rfl := Option.some.inj hs
      exact (List.append_nil _).trans (List.take_append_drop k _).symm
    · cases hs
  | clientMessages k =>
    simp only [step] at hs
    split at hs
    · obtain ⟨core, -, rfl⟩ := Option.map_eq_some_iff.mp hs
      exact List.append_nil _
    · cases hs
  | recovery now =>
    simp only [step] at hs
    split at hs
    · obtain rfl := Option.some.inj hs
      exact List.append_nil _
    · cases hs

lemma omniPaxosMessages_append (l l' : List (NodeId × ClusterMessage Msg)) :
    omniPaxosMessages (l ++ l') = omniPaxosMessages l ++ omniPaxosMessages l' :=
  List.filterMap_append

/-- **The loops drive OmniPaxos**: every run of the loops is a run of the library, which is handed
the messages of peers that arrived, each once and in order, up to those that still wait, and given
the commands to append. All messages that it gives out are handed to the network, each once, in
order and for its receiver. If taking them leaves none to take, none waits between two iterations
once the library was called. -/
theorem driven_of_run {as : List (Action Msg)}
    (hr : (system op cfg L S path ω).run (start cfg L S path ω) as = some s) :
    ∃ ins out, (op.api ω).run ⟨ω, []⟩ ins = some ⟨s.core.omnipaxos, out⟩ ∧
      omniPaxosMessages (as.filterMap Action.cluster?) =
        ins.filterMap Input.incoming? ++ omniPaxosMessages s.clusterMessages ∧
      s.core.calls.filterMap Call.appended? = ins.filterMap Input.appended? ∧
      s.core.calls.filterMap Call.handed? = op.route out ∧
      (op.TakesAll → ins = [] ∨ (op.takeOutgoingMessages s.core.omnipaxos).2 = []) := by
  have hhistory : ∃ ins d, (op.api ω).run ⟨ω, []⟩ ins = some d ∧ Holds op s.core d ∧
      omniPaxosMessages (as.filterMap Action.cluster?) =
        ins.filterMap Input.incoming? ++ omniPaxosMessages s.clusterMessages ∧
      s.core.calls.filterMap Call.appended? = ins.filterMap Input.appended? ∧
      (ins = [] ∨ ∃ ins', ins = ins' ++ [.takeOutgoingMessages]) := by
    refine System.run_history (I := fun as (s : State Ω Msg) => ∃ ins d,
      (op.api ω).run ⟨ω, []⟩ ins = some d ∧ Holds op s.core d ∧
      omniPaxosMessages (as.filterMap Action.cluster?) =
        ins.filterMap Input.incoming? ++ omniPaxosMessages s.clusterMessages ∧
      s.core.calls.filterMap Call.appended? = ins.filterMap Input.appended? ∧
      (ins = [] ∨ ∃ ins', ins = ins' ++ [.takeOutgoingMessages])) ?_ ?_ hr
    · exact ⟨[], _, rfl, ⟨rfl, rfl⟩, rfl, rfl, .inl rfl⟩
    · rintro as s a s' - ⟨ins, d, hdriven, hholds, harrived, happended, hflushed⟩ hs
      obtain ⟨ins', hiter⟩ := parts_of_step (P := fun _ => True) hs fun _ _ => trivial
      have hdrives : Drives op ω s.core ins' s'.core := .parts hiter.parts
      obtain ⟨d', hr', hholds'⟩ := hdrives.driven d hholds
      refine ⟨ins ++ ins', d', System.run_append hdriven hr', hholds', ?_, ?_, ?_⟩
      · rw [filterMap_concat, omniPaxosMessages_append, harrived, List.append_assoc,
          ← omniPaxosMessages_append, batch_of_step hs, omniPaxosMessages_append,
          List.filterMap_append, hiter.incoming, List.append_assoc]
      · rw [hdrives.appended, happended, List.filterMap_append]
      · rcases hiter.flushed with rfl | ⟨ins'', rfl⟩
        · rwa [List.append_nil]
        · exact .inr ⟨ins ++ ins'', (List.append_assoc _ _ _).symm⟩
  obtain ⟨ins, ⟨omnipaxos, out⟩, hdriven, hholds, harrived, happended, hflushed⟩ := hhistory
  have homnipaxos : omnipaxos = s.core.omnipaxos := hholds.omnipaxos
  subst homnipaxos
  refine ⟨ins, out, hdriven, harrived, happended, hholds.handed, fun htakes => ?_⟩
  rcases hflushed with hnone | ⟨ins', rfl⟩
  · exact .inl hnone
  · obtain ⟨d, -, hlast⟩ := System.run_last hdriven
    have htaken : (op.takeOutgoingMessages d.omnipaxos).1 = s.core.omnipaxos :=
      congrArg Driven.omnipaxos (Option.some.inj hlast)
    refine .inr ?_
    rw [← htaken]
    exact htakes d.omnipaxos

theorem driven_takesOver : ∃ s,
    (system (paxos 2) pair putThenGet 0 none fresh).run
      (start pair putThenGet 0 none fresh) takesOver = some s ∧
    s.core.calls.filterMap Call.handed? = [(2, 0), (2, 2)] ∧
    ∃ ins out, ((paxos 2).api fresh).run ⟨fresh, []⟩ ins = some ⟨s.core.omnipaxos, out⟩ ∧
      omniPaxosMessages (takesOver.filterMap Action.cluster?) =
        ins.filterMap Input.incoming? ++ omniPaxosMessages s.clusterMessages ∧
      s.core.calls.filterMap Call.appended? = ins.filterMap Input.appended? ∧
      s.core.calls.filterMap Call.handed? = (paxos 2).route out ∧
      (ins = [] ∨ ((paxos 2).takeOutgoingMessages s.core.omnipaxos).2 = []) := by
  have htakes : (paxos 2).TakesAll := fun _ => rfl
  obtain ⟨s, hr, hsent⟩ : ∃ s, (system (paxos 2) pair putThenGet 0 none fresh).run
      (start pair putThenGet 0 none fresh) takesOver = some s ∧
      s.core.calls.filterMap Call.handed? = [(2, 0), (2, 2)] := ⟨_, rfl, by decide⟩
  obtain ⟨ins, out, hdriven, harrived, happended, hhanded, hwaits⟩ := driven_of_run hr
  exact ⟨s, hr, hsent, ins, out, hdriven, harrived, happended, hhanded, hwaits htakes⟩

end OmniPaxosKV.ServerLoop
