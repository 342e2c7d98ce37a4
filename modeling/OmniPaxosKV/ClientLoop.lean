import OmniPaxosKV.Tracking

/-!
The client's loop with a clock.

Each iteration starts a sleep of two seconds and waits for the first of a command from the
shim, a message from the server, and the end of the sleep; time passes only while none of them
is ready. At the end of a sleep the loop looks at the slot of the connection and, if that is
empty, fails every waiting caller. The end of the reader task does not empty the slot, only a
failed send does. `detected_iff_attended` says what it takes for the callers that wait when the
reader ends to be answered within two seconds.
-/

namespace OmniPaxosKV.ClientLoop

open Common TestClient Tracking TransSys

/-- The sleep of an iteration, in milliseconds. -/
def sleep : ℕ := 2000

inductive Mode
  /-- In the `select!`, with the end of the running sleep. -/
  | select (deadline : ℕ)
  /-- In `reconnect_loop`. -/
  | reconnecting
  deriving DecidableEq

/-- The end of the reader task of the active connection: when it was, and who was waiting. -/
structure ReaderEnd where
  time : ℕ
  waiting : List CommandId
  deriving DecidableEq

structure State where
  tracker : Tracker
  clock : ℕ
  mode : Mode
  httpRx : List ApiCommand
  serverMessages : List ServerMessage
  /-- The connection made last. -/
  active : LinkId
  readerEnd : Option ReaderEnd
  deriving DecidableEq

inductive Action
  | httpArrives (cmd : ApiCommand)
  | messageArrives (msg : ServerMessage)
  | readerEnds
  | writerEnds
  | takeHttp
  | takeMessage
  | timer
  | reconnected (link : LinkId)
  | advance (dt : ℕ)
  deriving DecidableEq

def State.client (s : State) : Client := s.tracker.client

def State.isConnected (s : State) : Bool := s.client.network.isConnected s.client.activeServer

/-- The next iteration, with a fresh sleep. -/
def State.iterate (s : State) (t : Tracker) : State :=
  { s with tracker := t, mode := .select (s.clock + sleep) }

def State.step (s : State) : Action → Option State
  | .httpArrives cmd => some { s with httpRx := s.httpRx ++ [cmd] }
  | .messageArrives msg => some { s with serverMessages := s.serverMessages ++ [msg] }
  | .readerEnds =>
    if s.readerEnd.isNone then
      (s.tracker.step (.readerEnded s.active)).map fun t =>
        { s with
          tracker := t
          readerEnd := some ⟨s.clock, s.client.pendingPuts.keys ++ s.client.pendingGets.keys⟩ }
    else none
  | .writerEnds =>
    (s.tracker.step (.writerEnded s.active)).map fun t => { s with tracker := t }
  | .takeHttp =>
    match s.mode, s.httpRx with
    | .select _, cmd :: rest =>
      (s.tracker.step (.api s.clock cmd)).map fun t => { s.iterate t with httpRx := rest }
    | _, _ => none
  | .takeMessage =>
    match s.mode, s.serverMessages with
    | .select _, msg :: rest =>
      (s.tracker.step (.message s.clock msg)).map fun t =>
        { s.iterate t with serverMessages := rest }
    | _, _ => none
  | .timer =>
    match s.mode with
    | .select deadline =>
      if s.clock = deadline then
        if s.isConnected then some (s.iterate s.tracker)
        else (s.tracker.step .connectionLost).map fun t =>
          { s with tracker := t, mode := .reconnecting }
      else none
    | .reconnecting => none
  | .reconnected link =>
    match s.mode with
    | .reconnecting =>
      (s.tracker.step (.reconnected link)).map fun t =>
        { s.iterate t with active := link, readerEnd := none }
    | .select _ => none
  | .advance dt =>
    match s.mode with
    | .select deadline =>
      -- no branch of the `select!` is ready before the clock has moved
      if 0 < dt ∧ s.httpRx = [] ∧ s.serverMessages = [] ∧ s.clock + dt ≤ deadline then
        some { s with clock := s.clock + dt }
      else none
    | .reconnecting => if 0 < dt then some { s with clock := s.clock + dt } else none

def system (serverId : NodeId) : System State Action where
  init s :=
    s.tracker = Tracker.new serverId s.active ∧ s.mode = .select (s.clock + sleep) ∧
      s.readerEnd = none
  step := State.step

/-- Who waited when the reader ended no longer waits two seconds later. -/
def Detected (s : State) : Prop :=
  ∀ e ∈ s.readerEnd, e.time + sleep < s.clock → ∀ id ∈ e.waiting, ¬ Waiting s.tracker id

/-- A caller that waited when the reader ended still waits. -/
def Stranded (s : State) (e : ReaderEnd) : Prop := ∃ id ∈ e.waiting, Waiting s.tracker id

/-- While a caller is stranded, time passes only with the slot emptied and a sleep running that
ends within two seconds of the end of the reader. -/
def Attended (s : State) : Action → Prop
  | .advance _ => ∀ e ∈ s.readerEnd, Stranded s e →
      s.isConnected = false ∧ ∀ deadline, s.mode = .select deadline → deadline ≤ e.time + sleep
  | _ => True

/-- Nothing happens but time passing and sleeps ending. -/
def Idle : Action → Prop
  | .advance _ => True
  | .timer => True
  | _ => False

/-! ### What every run keeps -/

structure Inv (s : State) : Prop where
  tracker : Tracking.Inv s.tracker
  past : ∀ e ∈ s.readerEnd, e.time ≤ s.clock
  given : ∀ e ∈ s.readerEnd, ∀ id ∈ e.waiting, id < s.client.nextRequestId
  reconnecting : s.mode = .reconnecting → ∀ id, ¬ Waiting s.tracker id
  deadline : ∀ deadline, s.mode = .select deadline → s.clock ≤ deadline

variable {s s' : State}

lemma inv_init {serverId : NodeId} (h : (system serverId).init s) : Inv s := by
  obtain ⟨ht, hm, he⟩ := h
  refine ⟨ht ▸ inv_new _ _, by simp [he], by simp [he], by simp [hm], ?_⟩
  intro deadline hd
  rw [hm] at hd
  obtain rfl := Mode.select.inj hd
  exact Nat.le_add_right _ _

/-- An event of the client adds nobody to those that waited when the reader ended. -/
lemma Inv.client_step (h : Inv s) {e : Event} {t : Tracker} (ht : s.tracker.step e = some t) :
    Tracking.Inv t ∧ (∀ e ∈ s.readerEnd, ∀ id ∈ e.waiting, id < t.client.nextRequestId) ∧
      ∀ e ∈ s.readerEnd, ∀ id ∈ e.waiting, Waiting t id → Waiting s.tracker id := by
  obtain ⟨hle, hwait⟩ := step_waiting ht
  refine ⟨step_inv h.tracker ht, fun e he id hid => ?_, fun e he id hid => ?_⟩
  · exact (h.given e he id hid).trans_le hle
  · exact hwait id (h.given e he id hid)

lemma not_waiting_of_connectionLost {t t' : Tracker} (h : t.step .connectionLost = some t')
    (id : CommandId) : ¬ Waiting t' id := by
  obtain rfl := Option.some.inj h
  rintro (hid | hid)
  · exact absurd hid (AList.notMem_empty id)
  · exact absurd hid (AList.notMem_empty id)

/-- How the clock moves in a step: not at all, or to a time the running sleep reaches. -/
def Passes (s s' : State) (a : Action) : Prop :=
  s'.clock = s.clock ∨ ∃ dt, a = .advance dt ∧
    ∀ deadline, s.mode = .select deadline → s'.clock ≤ deadline

lemma Inv.arrives (h : Inv s) (httpRx : List ApiCommand) (serverMessages : List ServerMessage) :
    Inv { s with httpRx := httpRx, serverMessages := serverMessages } :=
  ⟨h.tracker, h.past, h.given, h.reconnecting, h.deadline⟩

/-- A fresh sleep ends after the clock. -/
lemma Inv.iterate (h : Inv s) {t : Tracker} (ht : Tracking.Inv t)
    (hgiven : ∀ e ∈ s.readerEnd, ∀ id ∈ e.waiting, id < t.client.nextRequestId) :
    Inv (s.iterate t) := by
  refine ⟨ht, h.past, hgiven, fun hm => ?_, fun deadline hm => ?_⟩
  · cases hm
  · obtain rfl := Mode.select.inj hm
    exact Nat.le_add_right _ _

lemma step_advance {dt : ℕ} (hs : s.step (.advance dt) = some s') :
    (∀ deadline, s.mode = .select deadline → s.clock + dt ≤ deadline) ∧
      s' = { s with clock := s.clock + dt } := by
  simp only [State.step] at hs
  split at hs
  case h_1 _ deadline hmode =>
    split_ifs at hs with hadv
    refine ⟨fun deadline' hm => ?_, (Option.some.inj hs).symm⟩
    rw [hmode] at hm
    obtain rfl := Mode.select.inj hm
    exact hadv.2.2.2
  case h_2 _ hmode =>
    split_ifs at hs
    refine ⟨fun deadline' hm => ?_, (Option.some.inj hs).symm⟩
    rw [hmode] at hm
    cases hm

/-- **One step** keeps the invariant. The reader ends now, or who waits of those that waited
when it ended waited before the step. -/
lemma step_cases {a : Action} (h : Inv s) (hs : s.step a = some s') :
    Inv s' ∧ ∀ e ∈ s'.readerEnd, e.time = s'.clock ∨
      e ∈ s.readerEnd ∧ (∀ id ∈ e.waiting, Waiting s'.tracker id → Waiting s.tracker id) ∧
        Passes s s' a := by
  cases a with
  | httpArrives cmd =>
    obtain rfl := Option.some.inj hs
    exact ⟨h.arrives _ _, fun e he => Or.inr ⟨he, fun _ _ hw => hw, Or.inl rfl⟩⟩
  | messageArrives msg =>
    obtain rfl := Option.some.inj hs
    exact ⟨h.arrives _ _, fun e he => Or.inr ⟨he, fun _ _ hw => hw, Or.inl rfl⟩⟩
  | readerEnds =>
    simp only [State.step] at hs
    split_ifs at hs
    obtain ⟨t, ht, rfl⟩ := Option.map_eq_some_iff.mp hs
    obtain ⟨hinv, -, -⟩ := h.client_step ht
    obtain rfl := Option.some.inj ht
    refine ⟨⟨hinv, ?_, ?_, h.reconnecting, h.deadline⟩, fun e he => Or.inl ?_⟩
    · rintro e he
      obtain rfl := Option.some.inj he
      exact le_rfl
    · rintro e he id hid
      obtain rfl := Option.some.inj he
      rcases List.mem_append.mp hid with hid | hid
      · exact h.tracker.put_lt (AList.mem_keys.mpr hid)
      · exact h.tracker.get_lt (AList.mem_keys.mpr hid)
    · obtain rfl := Option.some.inj he
      rfl
  | writerEnds =>
    simp only [State.step] at hs
    obtain ⟨t, ht, rfl⟩ := Option.map_eq_some_iff.mp hs
    obtain ⟨hinv, hgiven, hwait⟩ := h.client_step ht
    obtain rfl := Option.some.inj ht
    exact ⟨⟨hinv, h.past, hgiven, h.reconnecting, h.deadline⟩,
      fun e he => Or.inr ⟨he, hwait e he, Or.inl rfl⟩⟩
  | takeHttp =>
    simp only [State.step] at hs
    split at hs
    case h_2 => cases hs
    case h_1 _ _ deadline cmd rest hmode hrx =>
    obtain ⟨t, ht, rfl⟩ := Option.map_eq_some_iff.mp hs
    obtain ⟨hinv, hgiven, hwait⟩ := h.client_step ht
    exact ⟨(h.iterate hinv hgiven).arrives _ _,
      fun e he => Or.inr ⟨he, hwait e he, Or.inl rfl⟩⟩
  | takeMessage =>
    simp only [State.step] at hs
    split at hs
    case h_2 => cases hs
    case h_1 _ _ deadline msg rest hmode hrx =>
    obtain ⟨t, ht, rfl⟩ := Option.map_eq_some_iff.mp hs
    obtain ⟨hinv, hgiven, hwait⟩ := h.client_step ht
    exact ⟨(h.iterate hinv hgiven).arrives _ _,
      fun e he => Or.inr ⟨he, hwait e he, Or.inl rfl⟩⟩
  | timer =>
    simp only [State.step] at hs
    split at hs
    case h_2 => cases hs
    case h_1 _ deadline hmode =>
    split_ifs at hs with hclock hconn
    · obtain rfl := Option.some.inj hs
      exact ⟨h.iterate h.tracker h.given,
        fun e he => Or.inr ⟨he, fun _ _ hw => hw, Or.inl rfl⟩⟩
    · obtain ⟨t, ht, rfl⟩ := Option.map_eq_some_iff.mp hs
      obtain ⟨hinv, hgiven, hwait⟩ := h.client_step ht
      refine ⟨⟨hinv, h.past, hgiven, fun _ => not_waiting_of_connectionLost ht, ?_⟩,
        fun e he => Or.inr ⟨he, hwait e he, Or.inl rfl⟩⟩
      intro deadline' hm
      cases hm
  | reconnected link =>
    simp only [State.step] at hs
    split at hs
    case h_2 => cases hs
    case h_1 _ hmode =>
    obtain ⟨t, ht, rfl⟩ := Option.map_eq_some_iff.mp hs
    obtain ⟨hinv, hgiven, hwait⟩ := h.client_step ht
    have hi := h.iterate hinv hgiven
    exact ⟨⟨hi.tracker, by simp, by simp, hi.reconnecting, hi.deadline⟩, by simp⟩
  | advance dt =>
    obtain ⟨hdeadline, rfl⟩ := step_advance hs
    refine ⟨⟨h.tracker, fun e he => ?_, h.given, h.reconnecting, hdeadline⟩,
      fun e he => Or.inr ⟨he, fun _ _ hw => hw, Or.inr ⟨dt, rfl, hdeadline⟩⟩⟩
    exact (h.past e he).trans (Nat.le_add_right _ _)

/-! ### Detection -/

lemma inv_of_reaches {serverId : NodeId} {C : State → Action → Prop}
    (h : (system serverId).Reaches C s) : Inv s := by
  refine h.invariant (I := Inv) (fun _ => inv_init) ?_
  intro s a s' hi hs _
  exact (step_cases hi hs).1

/-- An attended step leaves nobody stranded for more than two seconds. -/
lemma step_detected {a : Action} (h : Inv s) (hd : Detected s) (hs : s.step a = some s')
    (ha : Attended s a) : Detected s' := by
  intro e he hlate id hid hwaiting
  have hpos : 0 < sleep := by decide
  obtain ⟨-, hcases⟩ := step_cases h hs
  rcases hcases e he with hnow | ⟨he', hwait, hpass⟩
  · omega
  have hbefore := hwait id hid hwaiting
  rcases hpass with hclock | ⟨dt, rfl, hclock⟩
  · rw [hclock] at hlate
    exact hd e he' hlate id hid hbefore
  · obtain ⟨-, hdeadline⟩ := ha e he' ⟨id, hid, hbefore⟩
    rcases hmode : s.mode with deadline | _
    · have h1 := hclock deadline hmode
      have h2 := hdeadline deadline hmode
      omega
    · exact h.reconnecting hmode id hbefore

/-- A sleep that ends with the slot full is followed by another. -/
lemma step_timer {deadline : ℕ} (hmode : s.mode = .select deadline) (hclock : s.clock = deadline)
    (hconn : s.isConnected = true) : s.step .timer = some (s.iterate s.tracker) := by
  simp only [State.step, hmode]
  rw [if_pos hclock, if_pos hconn]

/-- Where the loop is not attended when time passes, it leaves a caller stranded for more than
two seconds if nothing else happens. -/
lemma idle_undetected {dt : ℕ} (h : Inv s) (hs : (s.step (.advance dt)).isSome)
    (ha : ¬ Attended s (.advance dt)) :
    ∃ (as : List Action) (s' : State),
      (∀ a ∈ as, Idle a) ∧ as.foldlM State.step s = some s' ∧ ¬ Detected s' := by
  have hex : ∃ e ∈ s.readerEnd, Stranded s e ∧ ¬ (s.isConnected = false ∧
      ∀ deadline, s.mode = .select deadline → deadline ≤ e.time + sleep) := by
    simpa [Attended] using ha
  obtain ⟨e, he, hstranded, hnot⟩ := hex
  obtain ⟨id, hid, hwaiting⟩ := hstranded
  have hpast := h.past e he
  rcases hmode : s.mode with deadline | _
  · -- the running sleep is slept to its end
    obtain ⟨s₁, hs₁⟩ := Option.isSome_iff_exists.mp hs
    simp only [State.step, hmode] at hs₁
    split_ifs at hs₁ with hadv
    obtain ⟨hpos, hrx, hmsgs, hle⟩ := hadv
    have hlt : s.clock < deadline := by omega
    have hend : s.step (.advance (deadline - s.clock)) = some { s with clock := deadline } := by
      simp only [State.step, hmode]
      rw [if_pos ⟨by omega, hrx, hmsgs, by omega⟩, Nat.add_sub_cancel' hlt.le]
    by_cases hlate : e.time + sleep < deadline
    · refine ⟨[.advance (deadline - s.clock)], { s with clock := deadline }, ?_, ?_, ?_⟩
      · intro a ha
        obtain rfl := List.mem_singleton.mp ha
        trivial
      · rw [List.foldlM_cons, hend]
        rfl
      · intro hd
        exact hd e he hlate id hid hwaiting
    · -- the slot is not empty, so the loop sleeps once more
      have hconn : s.isConnected = true := by
        by_contra hc
        refine hnot ⟨by simpa using hc, fun deadline' hm => ?_⟩
        rw [hmode] at hm
        obtain rfl := Mode.select.inj hm
        omega
      have htimer : ({ s with clock := deadline } : State).step .timer =
          some { s with clock := deadline, mode := .select (deadline + sleep) } :=
        step_timer (s := { s with clock := deadline }) hmode rfl hconn
      have hsleep : ({ s with clock := deadline, mode := .select (deadline + sleep) } : State).step
          (.advance sleep) = some { s with
            clock := deadline + sleep, mode := .select (deadline + sleep) } := by
        simp only [State.step]
        rw [if_pos ⟨by decide, hrx, hmsgs, le_rfl⟩]
      refine ⟨[.advance (deadline - s.clock), .timer, .advance sleep],
        { s with clock := deadline + sleep, mode := .select (deadline + sleep) }, ?_, ?_, ?_⟩
      · simp [Idle]
      · rw [List.foldlM_cons, hend]
        simp only [Option.bind_eq_bind, Option.bind_some, List.foldlM_cons, htimer, hsleep,
          List.foldlM_nil]
        rfl
      · intro hd
        have hlate' : e.time + sleep < deadline + sleep := by omega
        exact hd e he hlate' id hid hwaiting
  · exact absurd hwaiting (h.reconnecting hmode id)

/-- **Detection within two seconds** holds in every run that is attended, and no other
condition on the moments at which time passes is enough: where one is not attended, idling
from there breaks it. -/
theorem detected_iff_attended (serverId : NodeId) :
    (∀ s, (system serverId).Reaches Attended s → Detected s) ∧
      ∀ s a, (system serverId).Reachable s → (s.step a).isSome → ¬ Attended s a →
        ∃ as s', (∀ a ∈ as, Idle a) ∧ (system serverId).run s as = some s' ∧ ¬ Detected s' := by
  refine ⟨fun s h => ?_, fun s a h hs ha => ?_⟩
  · have key : Inv s ∧ Detected s := by
      refine h.invariant (I := fun s => Inv s ∧ Detected s) ?_ ?_
      · intro s hinit
        have hnone : s.readerEnd = none := hinit.2.2
        refine ⟨inv_init hinit, fun e he => ?_⟩
        rw [hnone] at he
        cases he
      · rintro s a s' ⟨hi, hd⟩ hs ha
        exact ⟨(step_cases hi hs).1, step_detected hi hd hs ha⟩
    exact key.2
  · cases a with
    | advance dt => exact idle_undetected (inv_of_reaches h) hs ha
    | _ => exact absurd trivial ha

instance (s : State) (e : ReaderEnd) : Decidable (Stranded s e) :=
  inferInstanceAs (Decidable (∃ id ∈ e.waiting, Waiting s.tracker id))

instance decidableEndsBy (m : Mode) (n : ℕ) :
    Decidable (∀ deadline, m = .select deadline → deadline ≤ n) :=
  match m with
  | .select deadline => decidable_of_iff (deadline ≤ n) (by simp)
  | .reconnecting => isTrue (by simp)

instance : ∀ (s : State) (a : Action), Decidable (Attended s a)
  | s, .advance _ =>
    match h : s.readerEnd with
    | none => isTrue (by simp [Attended, h])
    | some e => decidable_of_iff (Stranded s e → s.isConnected = false ∧
        ∀ deadline, s.mode = .select deadline → deadline ≤ e.time + sleep) (by simp [Attended, h])
  | _, .httpArrives _ => isTrue trivial
  | _, .messageArrives _ => isTrue trivial
  | _, .readerEnds => isTrue trivial
  | _, .writerEnds => isTrue trivial
  | _, .takeHttp => isTrue trivial
  | _, .takeMessage => isTrue trivial
  | _, .timer => isTrue trivial
  | _, .reconnected _ => isTrue trivial

/-- A put is sent and the server goes away; the second command finds the writer gone and
empties the slot, so the sleep that follows ends with the first caller told. -/
def detectedRun : List Action :=
  [.httpArrives (.Put "x" "1" 0), .takeHttp, .readerEnds, .writerEnds,
    .httpArrives (.Put "x" "2" 1), .takeHttp, .advance 2000, .timer, .advance 2000,
    .reconnected 6, .advance 500]

def start : State := ⟨Tracker.new 1 5, 0, .select 2000, [], [], 5, none⟩

lemma init_start : (system 1).init start := ⟨rfl, rfl, rfl⟩

theorem detected_iff_attended_run :
    ∃ s, (system 1).run start detectedRun = some s ∧ s.clock = 4500 ∧
      s.tracker.answers.map (fun a => (a.tx, a.reply.text)) =
        [(1, "Error: server disconnected"), (0, "Error: connection lost")] ∧
      Detected s := by
  refine ⟨_, rfl, by decide, by decide, ?_⟩
  exact (detected_iff_attended 1).1 _ (System.Reaches.run (.init init_start) detectedRun rfl
    (by decide))

/-- A put is sent and the reader ends; the writer task has nothing to write, so the slot stays
full and the loop sleeps on. -/
def strandedRun : List Action :=
  [.httpArrives (.Put "x" "1" 0), .takeHttp, .readerEnds, .advance 2000, .timer, .advance 2000,
    .timer, .advance 2000]

theorem stranded_undetected : ¬ ∀ s, (system 1).Reachable s → Detected s := by
  intro hall
  have hreach := System.Reachable.run (.init init_start) strandedRun rfl
  have hwaiting := hall _ hreach ⟨0, [0]⟩ rfl (by decide) 0 (by decide)
  revert hwaiting
  decide

end OmniPaxosKV.ClientLoop
