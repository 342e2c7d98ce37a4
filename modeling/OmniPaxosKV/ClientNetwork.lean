import OmniPaxosKV.ConnectionTasks
import OmniPaxosKV.TestClient

/-!
The connections of the client.

There is a slot for each server, which a connection is put in when it has been established. What
`reconnect` finds in the slot it closes; a send that fails only empties it. `slots_of_run` says
which runs of these operations close all that leaves a slot. The loop of the client reconnects only
when the slot is empty, so `loop_closes_nothing`: none of its connections is ever closed.
-/

namespace OmniPaxosKV.ClientNetwork

open Common Slots TestClient TransSys

open ConnectionTasks (Tasks)

open Function (update update_self update_of_ne)

structure State (Addr : Type) where
  net : TestClient.Network
  /-- The connections that are awaited, with their servers. -/
  establishing : List (NodeId × Addr)
  /-- Every connection there has been, by its link. -/
  made : List (NodeId × Addr)
  tasks : LinkId → Tasks
  /-- The connections whose readers put a message into `server_messages`, in order. -/
  fed : List LinkId

inductive Action
  /-- The first of the connections awaited is there. -/
  | established
  | reconnect (serverId : NodeId)
  | spawnReconnect (serverId : NodeId)
  | send (target : NodeId)
  | shutdown
  | readerFeeds (link : LinkId)
  | readerEnds (link : LinkId)
  | writerEnds (link : LinkId)
  deriving DecidableEq

section Step

variable {Addr : Type} (resolve : String → Option (List Addr)) (servers : List (NodeId × String))

/-- The first address of a name. -/
def address (name : String) : Option Addr := (resolve name).bind List.head?

/-- All servers are connected to before anything else; a name that is not resolved panics. -/
def new : Option (State Addr) := do
  let maxServerId ← (servers.map Prod.fst).max?
  let establishing ← servers.mapM fun x => (address resolve x.2).map fun a => (x.1, a)
  return ⟨⟨List.replicate (maxServerId + 1) none⟩, establishing, [], fun _ => .spawned, []⟩

/-- The connection in a slot. -/
def linkAt (n : TestClient.Network) (serverId : NodeId) : Option LinkId :=
  n.serverConnections[serverId]?.join.map ServerConnection.link

namespace State

variable (s : State Addr)

/-- Closes connections. -/
def close (links : List LinkId) : State Addr :=
  { s with tasks := fun l => if l ∈ links then (s.tasks l).close else s.tasks l }

/-- What was in the slot is closed. -/
def takeSlot (serverId : NodeId) : State Addr :=
  { s.close (linkAt s.net serverId).toList with net := s.net.disconnect serverId }

def store (serverId : NodeId) (addr : Addr) : State Addr :=
  { s with
    net := s.net.connect serverId (.new s.made.length)
    made := s.made ++ [(serverId, addr)] }

/-- `None` of the source's slots. -/
def emptied : TestClient.Network :=
  ⟨List.replicate s.net.serverConnections.length none⟩

end State

def step (s : State Addr) : Action → Option (State Addr)
  | .established =>
    match s.establishing with
    | (serverId, addr) :: rest => some { s.store serverId addr with establishing := rest }
    | [] => none
  -- an index out of bounds panics
  | .reconnect serverId =>
    if s.establishing = [] ∧ serverId < s.net.serverConnections.length then
      let s := s.takeSlot serverId
      match (servers.find? fun x => x.1 = serverId).bind fun x => address resolve x.2 with
      | some addr => some { s with establishing := [(serverId, addr)] }
      | none => some s
    else none
  | .spawnReconnect serverId =>
    if s.establishing = [] ∧ serverId < s.net.serverConnections.length then
      some (s.takeSlot serverId)
    else none
  | .send target =>
    if s.establishing = [] then some { s with net := (s.net.send target).1 } else none
  | .shutdown =>
    if s.establishing = [] then
      some { s.close s.net.links with net := s.emptied }
    else none
  | .readerFeeds l =>
    if l < s.made.length ∧ (s.tasks l).readerRuns then some { s with fed := s.fed ++ [l] }
    else none
  | .readerEnds l =>
    if l < s.made.length then
      some { s with
        net := s.net.readerEnded l
        tasks := update s.tasks l { s.tasks l with readerEnded := true } }
    else none
  | .writerEnds l => some { s with net := s.net.writerEnded l }

def system : System (State Addr) Action where
  init s := new resolve servers = some s
  step := step resolve servers

end Step

variable {Addr : Type} {resolve : String → Option (List Addr)} {servers : List (NodeId × String)}
  {s s' : State Addr}

/-- A connection that is in no slot any more. -/
def Gone (s : State Addr) (l : LinkId) : Prop :=
  l < s.made.length ∧ ∀ serverId, linkAt s.net serverId ≠ some l

/-- Every connection that has left its slot has been closed. -/
def NoLeak (s : State Addr) : Prop := ∀ l, Gone s l → (s.tasks l).Closed

/-- The step does not empty a slot without closing what is in it: the writer that a message is
handed to takes it, and a connection is put in an empty slot. -/
def Closes (s : State Addr) : Action → Prop
  | .established => ∀ x ∈ s.establishing.head?, linkAt s.net x.1 = none
  | .send target => ∀ c ∈ s.net.serverConnections[target]?.join, c.writerTask = true
  | _ => True

instance : ∀ (s : State Addr) (a : Action), Decidable (Closes s a)
  | s, .established =>
    inferInstanceAs (Decidable (∀ x ∈ s.establishing.head?, linkAt s.net x.1 = none))
  | s, .send target =>
    inferInstanceAs (Decidable (∀ c ∈ s.net.serverConnections[target]?.join, c.writerTask = true))
  | _, .reconnect _ => isTrue trivial
  | _, .spawnReconnect _ => isTrue trivial
  | _, .shutdown => isTrue trivial
  | _, .readerFeeds _ => isTrue trivial
  | _, .readerEnds _ => isTrue trivial
  | _, .writerEnds _ => isTrue trivial

/-! ### The slots -/

def State.table (s : State Addr) : Table NodeId LinkId :=
  ⟨linkAt s.net, {l | l < s.made.length}, {l | (s.tasks l).Closed}⟩

lemma tight_iff : s.table.Tight ↔ NoLeak s := by
  refine forall_congr' fun l => ?_
  simp only [Gone, Table.Held, not_exists]
  exact and_imp.symm

lemma closed_close (links : List LinkId) (l : LinkId) :
    ((s.close links).tasks l).Closed ↔ (s.tasks l).Closed ∨ l ∈ links := by
  by_cases hl : l ∈ links
  · simp [State.close, hl, Tasks.Closed, Tasks.close]
  · simp [State.close, hl]

lemma linkAt_set {n : TestClient.Network} {serverId : NodeId}
    (hlt : serverId < n.serverConnections.length) (x : Option ServerConnection) :
    linkAt ⟨n.serverConnections.set serverId x⟩ =
      update (linkAt n) serverId (x.map ServerConnection.link) := by
  funext i
  by_cases hi : i = serverId
  · subst hi
    simp [linkAt, List.getElem?_set_self hlt]
  · rw [update_of_ne hi]
    simp [linkAt, List.getElem?_set_ne (Ne.symm hi)]

lemma linkAt_mapConnections {n : TestClient.Network} {f : ServerConnection → ServerConnection}
    (hf : ∀ c, (f c).link = c.link) : linkAt (n.mapConnections f) = linkAt n := by
  funext i
  simp only [linkAt, TestClient.Network.mapConnections, List.getElem?_map]
  rcases n.serverConnections[i]? with _ | _ | c
  · rfl
  · rfl
  · exact congrArg some (hf c)

lemma linkAt_readerEnded (n : TestClient.Network) (l : LinkId) :
    linkAt (n.readerEnded l) = linkAt n :=
  linkAt_mapConnections fun c => by split <;> rfl

lemma linkAt_writerEnded (n : TestClient.Network) (l : LinkId) :
    linkAt (n.writerEnded l) = linkAt n :=
  linkAt_mapConnections fun c => by split <;> rfl

lemma linkAt_new (n : ℕ) : linkAt ⟨List.replicate n none⟩ = fun _ => none := by
  funext i
  simp only [linkAt, List.getElem?_replicate]
  split <;> rfl

lemma mem_links {l : LinkId} : l ∈ s.net.links ↔ s.table.Held l := by
  constructor
  · intro hl
    obtain ⟨c, hc, hlink⟩ := List.mem_filterMap.mp hl
    obtain ⟨i, hi⟩ := List.mem_iff_getElem?.mp hc
    refine ⟨i, ?_⟩
    simp [State.table, linkAt, hi, hlink]
  · rintro ⟨i, hi⟩
    obtain ⟨c, hc, hlink⟩ := Option.map_eq_some_iff.mp hi
    refine List.mem_filterMap.mpr ⟨some c, ?_, by simpa using hlink⟩
    exact List.mem_of_getElem? (Option.join_eq_some_iff.mp hc)

/-- What is in a slot was made for its server. -/
structure Inv (resolve : String → Option (List Addr)) (servers : List (NodeId × String))
    (s : State Addr) : Prop where
  table : s.table.WellFormed
  held : ∀ i l, linkAt s.net i = some l → ∃ addr, s.made[l]? = some (i, addr)
  made : ∀ x ∈ s.establishing ++ s.made, ∃ name, (x.1, name) ∈ servers ∧
    address resolve name = some x.2
  slots : ∀ x ∈ servers, x.1 < s.net.serverConnections.length

lemma table_takeSlot {serverId : NodeId} (hlt : serverId < s.net.serverConnections.length) :
    (s.takeSlot serverId).table = s.table.put serverId none true := by
  refine Table.ext (linkAt_set hlt none) ?_ ?_
  · simp [State.table, State.takeSlot, State.close, Table.put]
  · ext l
    refine (closed_close _ l).trans (or_congr_right ?_)
    simp [State.table]

/-- A message is taken by the writer of the slot, or the slot is emptied, or there is nothing in
it. -/
lemma send_cases (n : TestClient.Network) (target : NodeId) :
    ((n.send target).1 = n ∧ ∀ c ∈ n.serverConnections[target]?.join, c.writerTask = true) ∨
      ∃ c, n.serverConnections[target]? = some (some c) ∧ c.writerTask = false ∧
        (n.send target).1 = ⟨n.serverConnections.set target none⟩ := by
  rcases hslot : n.serverConnections[target]? with _ | _ | c
  · exact .inl ⟨by simp only [TestClient.Network.send, hslot], fun c hc => by simp at hc⟩
  · exact .inl ⟨by simp only [TestClient.Network.send, hslot], fun c hc => by simp at hc⟩
  · rcases hw : c.writerTask with _ | _
    · exact .inr ⟨c, rfl, hw, by simp [TestClient.Network.send, hslot, hw]⟩
    · refine .inl ⟨by simp [TestClient.Network.send, hslot, hw], fun c' hc' => ?_⟩
      obtain rfl : c = c' := by simpa using hc'
      exact hw

/-- What a step does to the slots, and whether it closes what it removes. -/
lemma step_table {a : Action} (h : Inv resolve servers s)
    (hs : step resolve servers s a = some s') :
    (s'.table = s.table ∧ Closes s a) ∨ (s'.table = s.table.clear ∧ Closes s a) ∨
    ∃ k x release, s'.table = s.table.put k x release ∧ (∀ l, x = some l → l ∉ s.table.ever) ∧
      (Closes s a ↔ s.table.held k = none ∨ release = true) := by
  cases a with
  | established =>
    simp only [step] at hs
    split at hs
    · rename_i serverId addr rest hest
      obtain rfl := Option.some.inj hs
      obtain ⟨name, hmem, -⟩ := h.made (serverId, addr) (by simp [hest])
      right; right
      refine ⟨serverId, some s.made.length, false, ?_, ?_, ?_⟩
      · refine Table.ext (linkAt_set (h.slots _ hmem) _) ?_ ?_
        · ext l
          change l < (s.made ++ [(serverId, addr)]).length ↔
            l < s.made.length ∨ some s.made.length = some l
          rw [List.length_append, List.length_singleton, @Option.some.injEq ℕ, eq_comm]
          exact Nat.lt_succ_iff_lt_or_eq
        · simp [State.table, State.store, Table.put]
      · rintro l ⟨⟩ hmem
        exact lt_irrefl s.made.length hmem
      · simp [Closes, hest, State.table]
    · cases hs
  | reconnect serverId =>
    simp only [step] at hs
    split at hs
    · rename_i hready
      right; right
      refine ⟨serverId, none, true, ?_, by simp, by simp [Closes]⟩
      rw [← table_takeSlot hready.2]
      split at hs <;> obtain rfl := Option.some.inj hs <;> rfl
    · cases hs
  | spawnReconnect serverId =>
    simp only [step] at hs
    split at hs
    · rename_i hready
      obtain rfl := Option.some.inj hs
      exact .inr (.inr ⟨serverId, none, true, table_takeSlot hready.2, by simp, by simp [Closes]⟩)
    · cases hs
  | send target =>
    simp only [step] at hs
    split at hs
    · obtain rfl := Option.some.inj hs
      rcases send_cases s.net target with ⟨heq, hw⟩ | ⟨c, hslot, hw, heq⟩
      · exact .inl ⟨by rw [heq], hw⟩
      · right; right
        have hlt : target < s.net.serverConnections.length :=
          (List.getElem?_eq_some_iff.mp hslot).1
        refine ⟨target, none, false, ?_, by simp, ?_⟩
        · rw [heq]
          refine Table.ext (linkAt_set hlt none) ?_ ?_
          · simp [State.table, Table.put]
          · simp [State.table, Table.put]
        · simp [Closes, hslot, hw, State.table, linkAt]
    · cases hs
  | shutdown =>
    simp only [step] at hs
    split at hs
    · obtain rfl := Option.some.inj hs
      refine .inr (.inl ⟨Table.ext (linkAt_new _) rfl ?_, trivial⟩)
      ext l
      exact (closed_close _ l).trans (or_congr_right mem_links)
    · cases hs
  | readerFeeds l =>
    simp only [step] at hs
    split at hs
    · obtain rfl := Option.some.inj hs
      exact .inl ⟨rfl, trivial⟩
    · cases hs
  | readerEnds l =>
    simp only [step] at hs
    split at hs
    · obtain rfl := Option.some.inj hs
      refine .inl ⟨Table.ext (linkAt_readerEnded _ _) rfl ?_, trivial⟩
      ext l'
      by_cases hl : l' = l
      · subst hl
        simp [State.table, Tasks.Closed]
      · simp [State.table, hl]
    · cases hs
  | writerEnds l =>
    obtain rfl := Option.some.inj hs
    exact .inl ⟨Table.ext (linkAt_writerEnded _ _) rfl rfl, trivial⟩

/-- Only what has been established comes into a slot. -/
lemma step_frame {a : Action} (ha : a ≠ .established) (hs : step resolve servers s a = some s') :
    s'.made = s.made ∧
      (∀ i l, linkAt s'.net i = some l → linkAt s.net i = some l) ∧
      s'.net.serverConnections.length = s.net.serverConnections.length ∧
      ∀ x ∈ s'.establishing, x ∈ s.establishing ∨
        ∃ name, (x.1, name) ∈ servers ∧ address resolve name = some x.2 := by
  have hset : ∀ target i l, linkAt ⟨s.net.serverConnections.set target none⟩ i = some l →
      linkAt s.net i = some l := by
    intro target i l hl
    by_cases hlt : target < s.net.serverConnections.length
    · rw [linkAt_set hlt] at hl
      by_cases hi : i = target
      · subst hi
        simp at hl
      · rwa [update_of_ne hi] at hl
    · rwa [List.set_eq_of_length_le (Nat.le_of_not_lt hlt)] at hl
  cases a with
  | established => exact absurd rfl ha
  | reconnect serverId =>
    simp only [step] at hs
    split at hs
    · split at hs
      · rename_i addr haddr
        obtain rfl := Option.some.inj hs
        refine ⟨rfl, hset serverId, List.length_set, fun x hx => .inr ?_⟩
        obtain rfl := List.mem_singleton.mp hx
        obtain ⟨⟨id, name⟩, hfind, hresolve⟩ := Option.bind_eq_some_iff.mp haddr
        obtain rfl : id = serverId := by simpa using List.find?_some hfind
        exact ⟨name, List.mem_of_find?_eq_some hfind, hresolve⟩
      · obtain rfl := Option.some.inj hs
        exact ⟨rfl, hset serverId, List.length_set, fun x hx => .inl hx⟩
    · cases hs
  | spawnReconnect serverId =>
    simp only [step] at hs
    split at hs
    · obtain rfl := Option.some.inj hs
      exact ⟨rfl, hset serverId, List.length_set, fun x hx => .inl hx⟩
    · cases hs
  | send target =>
    simp only [step] at hs
    split at hs
    · obtain rfl := Option.some.inj hs
      refine ⟨rfl, ?_, ?_, fun x hx => .inl hx⟩
      · rcases send_cases s.net target with ⟨heq, -⟩ | ⟨c, -, -, heq⟩
        · simp only [heq]
          exact fun i l hl => hl
        · simp only [heq]
          exact hset target
      · rcases send_cases s.net target with ⟨heq, -⟩ | ⟨c, -, -, heq⟩
        · simp only [heq]
        · simp only [heq]
          exact List.length_set
    · cases hs
  | shutdown =>
    simp only [step] at hs
    split at hs
    · obtain rfl := Option.some.inj hs
      refine ⟨rfl, fun i l hl => ?_, by simp [State.emptied], fun x hx => .inl hx⟩
      have hnone : linkAt s.emptied i = none := congrFun (linkAt_new _) i
      cases hnone.symm.trans hl
    · cases hs
  | readerFeeds l =>
    simp only [step] at hs
    split at hs
    · obtain rfl := Option.some.inj hs
      exact ⟨rfl, fun i l hl => hl, rfl, fun x hx => .inl hx⟩
    · cases hs
  | readerEnds l =>
    simp only [step] at hs
    split at hs
    · obtain rfl := Option.some.inj hs
      refine ⟨rfl, fun i l' hl => ?_, by simp [TestClient.Network.readerEnded,
        TestClient.Network.mapConnections], fun x hx => .inl hx⟩
      rwa [linkAt_readerEnded] at hl
    · cases hs
  | writerEnds l =>
    obtain rfl := Option.some.inj hs
    refine ⟨rfl, fun i l' hl => ?_, by simp [TestClient.Network.writerEnded,
      TestClient.Network.mapConnections], fun x hx => .inl hx⟩
    rwa [linkAt_writerEnded] at hl

theorem step_inv {a : Action} (h : Inv resolve servers s)
    (hs : step resolve servers s a = some s') : Inv resolve servers s' := by
  have htable : s'.table.WellFormed := by
    rcases step_table h hs with ⟨heq, -⟩ | ⟨heq, -⟩ | ⟨k, x, release, heq, hx, -⟩
    · rw [heq]
      exact h.table
    · rw [heq]
      exact h.table.clear
    · rw [heq]
      exact h.table.put hx
  by_cases ha : a = .established
  · subst ha
    simp only [step] at hs
    split at hs
    · rename_i serverId addr rest hest
      obtain rfl := Option.some.inj hs
      obtain ⟨name, hmem, haddr⟩ := h.made (serverId, addr) (by simp [hest])
      refine ⟨htable, fun i l hl => ?_, fun x hx => ?_, fun x hx => ?_⟩
      · have hlink : linkAt (s.store serverId addr).net = _ := linkAt_set (h.slots _ hmem) _
        change linkAt (s.store serverId addr).net i = some l at hl
        rw [hlink] at hl
        by_cases hi : i = serverId
        · subst hi
          rw [update_self] at hl
          obtain rfl := Option.some.inj hl
          exact ⟨addr, List.getElem?_concat_length⟩
        · rw [update_of_ne hi] at hl
          obtain ⟨addr', hmade⟩ := h.held i l hl
          refine ⟨addr', ?_⟩
          exact (List.getElem?_append_left (List.getElem?_eq_some_iff.mp hmade).1).trans hmade
      · refine h.made x ?_
        simp only [State.store, List.mem_append, List.mem_singleton] at hx
        rcases hx with hx | hx | rfl
        · simp [hest, hx]
        · simp [hx]
        · simp [hest]
      · have hlt := h.slots x hx
        simpa [State.store, TestClient.Network.connect] using hlt
    · cases hs
  · obtain ⟨hmade, hlink, hlength, hest⟩ := step_frame ha hs
    refine ⟨htable, fun i l hl => ?_, fun x hx => ?_, fun x hx => ?_⟩
    · rw [hmade]
      exact h.held i l (hlink i l hl)
    · rw [hmade] at hx
      rcases List.mem_append.mp hx with hx | hx
      · rcases hest x hx with hx | hname
        · exact h.made x (List.mem_append_left _ hx)
        · exact hname
      · exact h.made x (List.mem_append_right _ hx)
    · rw [hlength]
      exact h.slots x hx

/-- **One step** leaves nothing behind exactly where it closes what it removes. -/
theorem step_noLeak {a : Action} (h : Inv resolve servers s)
    (hs : step resolve servers s a = some s') : NoLeak s' ↔ NoLeak s ∧ Closes s a := by
  rw [← tight_iff, ← tight_iff]
  rcases step_table h hs with ⟨heq, hc⟩ | ⟨heq, hc⟩ | ⟨k, x, release, heq, hx, hc⟩
  · rw [heq, and_iff_left hc]
  · rw [heq, Table.tight_clear_iff, and_iff_left hc]
  · rw [heq, Table.tight_put_iff h.table hx, hc]

lemma exists_of_mem_mapM {α β : Type} {f : α → Option β} {l : List α} {l' : List β}
    (h : l.mapM f = some l') {y : β} (hy : y ∈ l') : ∃ x ∈ l, f x = some y := by
  induction l generalizing l' with
  | nil =>
    obtain rfl : [] = l' := by simpa using h
    cases hy
  | cons x l ih =>
    simp only [List.mapM_cons, Option.bind_eq_bind, Option.bind_eq_some_iff, Option.pure_def,
      Option.some.injEq] at h
    obtain ⟨z, hz, rest, hrest, rfl⟩ := h
    rcases List.mem_cons.mp hy with rfl | hy
    · exact ⟨x, List.mem_cons_self, hz⟩
    · obtain ⟨x', hx', hy⟩ := ih hrest hy
      exact ⟨x', List.mem_cons_of_mem x hx', hy⟩

lemma inv_new (h : new resolve servers = some s) : Inv resolve servers s ∧ NoLeak s := by
  simp only [new, Option.bind_eq_bind, Option.bind_eq_some_iff, Option.pure_def,
    Option.some.injEq] at h
  obtain ⟨maxServerId, hmax, establishing, hest, rfl⟩ := h
  have hnone := linkAt_new (maxServerId + 1)
  have hslot : ∀ i l, linkAt ⟨List.replicate (maxServerId + 1) none⟩ i ≠ some l := by
    intro i l hl
    rw [hnone] at hl
    cases hl
  refine ⟨⟨⟨?_, ?_, ?_, ?_⟩, fun i l hl => absurd hl (hslot i l), fun x hx => ?_, fun x hx => ?_⟩,
    fun l hl => absurd hl.1 (Nat.not_lt_zero l)⟩
  · exact fun i j l hl => absurd hl (hslot i l)
  · rintro l ⟨i, hl⟩
    exact absurd hl (hslot i l)
  · rintro l ⟨i, hl⟩
    exact absurd hl (hslot i l)
  · rintro l ⟨⟨⟩, -⟩
  · rw [List.append_nil] at hx
    obtain ⟨y, hy, hpair⟩ := exists_of_mem_mapM hest hx
    obtain ⟨addr, haddr, rfl⟩ := Option.map_eq_some_iff.mp hpair
    exact ⟨y.2, hy, haddr⟩
  · simpa using Nat.lt_succ_of_le ((List.max?_eq_some_iff.mp hmax).2 x.1 (List.mem_map_of_mem hx))

/-- **The slots of the client** after any run: what is in a slot was established to an address of
its server, and every connection that has left its slot is closed exactly where no send failed on
the way and no connection was put in a slot in use. -/
theorem slots_of_run {s₀ : State Addr} {as : List Action} (hnew : new resolve servers = some s₀)
    (hr : (system resolve servers).run s₀ as = some s) :
    (∀ serverId l, linkAt s.net serverId = some l → ∃ addr name,
      s.made[l]? = some (serverId, addr) ∧ (serverId, name) ∈ servers ∧
        address resolve name = some addr) ∧
    (NoLeak s ↔ (system resolve servers).Meets Closes s₀ as) := by
  obtain ⟨hinv₀, hstart⟩ := inv_new hnew
  obtain ⟨hinv, hiff⟩ := System.run_iff_meets (T := system resolve servers)
    (I := Inv resolve servers) (P := NoLeak) (fun s a s' hi hs => step_inv hi hs)
    (fun s a s' hi hs => step_noLeak hi hs) hinv₀ hr
  refine ⟨fun serverId l hl => ?_, by rw [hiff, and_iff_right hstart]⟩
  obtain ⟨addr, hmade⟩ := hinv.held serverId l hl
  obtain ⟨name, hname, haddr⟩ := hinv.made (serverId, addr)
    (List.mem_append_right _ (List.mem_of_getElem? hmade))
  exact ⟨addr, name, hmade, hname, haddr⟩

/-- Every name is its own address. -/
def literal (name : String) : Option (List String) := some [name]

def twoServers : List (NodeId × String) := [(2, "s2:8000"), (1, "s1:8000")]

/-- A connection in use is closed and replaced; another one is dropped by a send that fails. -/
def replaced : List Action :=
  [.established, .established, .send 1, .reconnect 1, .established, .writerEnds 0, .send 2]

theorem slots_replaced : ∃ s₀ s : State String, new literal twoServers = some s₀ ∧
    (system literal twoServers).run s₀ replaced = some s ∧
    s.made = [(2, "s2:8000"), (1, "s1:8000"), (1, "s1:8000")] ∧ linkAt s.net 1 = some 2 ∧
    ¬ NoLeak s := by
  obtain ⟨s₀, hnew, s, hr, hmeets, hmade, hlink⟩ : ∃ s₀ : State String,
      new literal twoServers = some s₀ ∧ ∃ s,
      (system literal twoServers).run s₀ replaced = some s ∧
      ¬ (system literal twoServers).Meets Closes s₀ replaced ∧
      s.made = [(2, "s2:8000"), (1, "s1:8000"), (1, "s1:8000")] ∧ linkAt s.net 1 = some 2 :=
    ⟨_, rfl, _, rfl, by decide, by decide, by decide⟩
  exact ⟨s₀, s, hnew, hr, hmade, hlink, (slots_of_run hnew hr).2.not.mpr hmeets⟩

/-! ### The loop of the client -/

/-- What `Client::run` does with its connection, and what happens to it. -/
inductive Arm
  | established
  /-- A command of the shim is sent. -/
  | command
  /-- At the end of the sleep, and in each round of `reconnect_loop`. -/
  | check
  | readerFeeds (link : LinkId)
  | readerEnds (link : LinkId)
  | writerEnds (link : LinkId)
  deriving DecidableEq

section Run

variable (resolve : String → Option (List Addr)) (serverId : NodeId) (serverAddress : String)

def runStep (s : State Addr) : Arm → Option (State Addr)
  | .established => step resolve [(serverId, serverAddress)] s .established
  | .command => step resolve [(serverId, serverAddress)] s (.send serverId)
  | .check =>
    if s.net.isConnected serverId then some s
    else step resolve [(serverId, serverAddress)] s (.reconnect serverId)
  | .readerFeeds l => step resolve [(serverId, serverAddress)] s (.readerFeeds l)
  | .readerEnds l => step resolve [(serverId, serverAddress)] s (.readerEnds l)
  | .writerEnds l => step resolve [(serverId, serverAddress)] s (.writerEnds l)

def loop : System (State Addr) Arm where
  init s := new resolve [(serverId, serverAddress)] = some s
  step := runStep resolve serverId serverAddress

end Run

variable {serverId : NodeId} {serverAddress : String}

/-- No task is ever aborted, and only the newest connection is in the slot. -/
structure Unclosed (serverId : NodeId) (s : State Addr) : Prop where
  tasks : ∀ l, (s.tasks l).readerAborted = false ∧ (s.tasks l).writerAborted = false
  newest : ∀ i l, linkAt s.net i = some l → l + 1 = s.made.length
  establishing : s.establishing = [] ∨ ∃ addr, s.establishing = [(serverId, addr)] ∧
    ∀ i, linkAt s.net i = none

lemma isConnected_eq (n : TestClient.Network) (serverId : NodeId) :
    n.isConnected serverId = (linkAt n serverId).isSome := by
  rcases hslot : n.serverConnections[serverId]? with _ | _ | c <;>
    simp [TestClient.Network.isConnected, linkAt, hslot]

lemma Inv.linkAt_eq (h : Inv resolve [(serverId, serverAddress)] s) {i l : ℕ}
    (hl : linkAt s.net i = some l) : i = serverId := by
  obtain ⟨addr, hmade⟩ := h.held i l hl
  obtain ⟨name, hname, -⟩ := h.made (i, addr)
    (List.mem_append_right _ (List.mem_of_getElem? hmade))
  exact (Prod.mk.inj (List.mem_singleton.mp hname)).1

/-- The actions that neither close a connection nor wait for one. -/
def Action.quiet : Action → Bool
  | .send _ => true
  | .readerFeeds _ => true
  | .readerEnds _ => true
  | .writerEnds _ => true
  | _ => false

lemma step_quiet {a : Action} (ha : a.quiet) (hs : step resolve servers s a = some s') :
    s'.establishing = s.establishing ∧
      ∀ l, (s'.tasks l).readerAborted = (s.tasks l).readerAborted ∧
        (s'.tasks l).writerAborted = (s.tasks l).writerAborted := by
  cases a with
  | established => cases ha
  | reconnect => cases ha
  | spawnReconnect => cases ha
  | shutdown => cases ha
  | send target =>
    simp only [step] at hs
    split at hs
    · obtain rfl := Option.some.inj hs
      exact ⟨rfl, fun l => ⟨rfl, rfl⟩⟩
    · cases hs
  | readerFeeds l =>
    simp only [step] at hs
    split at hs
    · obtain rfl := Option.some.inj hs
      exact ⟨rfl, fun l => ⟨rfl, rfl⟩⟩
    · cases hs
  | readerEnds l =>
    simp only [step] at hs
    split at hs
    · obtain rfl := Option.some.inj hs
      refine ⟨rfl, fun l' => ?_⟩
      by_cases hl : l' = l
      · subst hl
        simp
      · simp [hl]
    · cases hs
  | writerEnds l =>
    obtain rfl := Option.some.inj hs
    exact ⟨rfl, fun l => ⟨rfl, rfl⟩⟩

lemma Unclosed.quiet {a : Action} (h : Unclosed serverId s) (ha : a.quiet)
    (hs : step resolve [(serverId, serverAddress)] s a = some s') : Unclosed serverId s' := by
  obtain ⟨hest, htasks⟩ := step_quiet ha hs
  obtain ⟨hmade, hlink, -⟩ := step_frame (by rintro rfl; cases ha) hs
  refine ⟨fun l => ?_, fun i l hl => ?_, ?_⟩
  · rw [(htasks l).1, (htasks l).2]
    exact h.tasks l
  · rw [hmade]
    exact h.newest i l (hlink i l hl)
  · rw [hest]
    rcases h.establishing with hnil | ⟨addr, heq, hnone⟩
    · exact .inl hnil
    · refine .inr ⟨addr, heq, fun i => ?_⟩
      by_contra hne
      obtain ⟨l, hl⟩ := Option.ne_none_iff_exists'.mp hne
      cases (hnone i).symm.trans (hlink i l hl)

lemma Unclosed.established (hinv : Inv resolve [(serverId, serverAddress)] s)
    (h : Unclosed serverId s)
    (hs : step resolve [(serverId, serverAddress)] s .established = some s') :
    Unclosed serverId s' := by
  simp only [step] at hs
  split at hs
  · rename_i id addr rest hest
    obtain rfl := Option.some.inj hs
    rcases h.establishing with hnil | ⟨addr', heq, hnone⟩
    · cases hest.symm.trans hnil
    · obtain ⟨hhead, rfl⟩ := List.cons.inj (hest.symm.trans heq)
      obtain ⟨rfl, rfl⟩ := Prod.mk.inj hhead
      refine ⟨h.tasks, fun i l hl => ?_, .inl rfl⟩
      have hlink : linkAt (s.store id addr).net = _ :=
        linkAt_set (hinv.slots _ List.mem_cons_self) _
      change linkAt (s.store id addr).net i = some l at hl
      rw [hlink] at hl
      by_cases hi : i = id
      · subst hi
        rw [update_self] at hl
        obtain rfl := Option.some.inj hl
        simp [State.store, ServerConnection.new]
      · rw [update_of_ne hi, hnone] at hl
        cases hl
  · cases hs

/-- There is nothing in the slot to be closed. -/
lemma Unclosed.reconnect (hinv : Inv resolve [(serverId, serverAddress)] s)
    (h : Unclosed serverId s) (hnone : linkAt s.net serverId = none)
    (hs : step resolve [(serverId, serverAddress)] s (.reconnect serverId) = some s') :
    Unclosed serverId s' := by
  have htake : (s.takeSlot serverId).tasks = s.tasks := by
    funext l
    simp [State.takeSlot, State.close, hnone]
  obtain ⟨-, hlink, -⟩ := step_frame (by simp) hs
  have hempty : ∀ i, linkAt s'.net i = none := by
    intro i
    by_contra hne
    obtain ⟨l, hl⟩ := Option.ne_none_iff_exists'.mp hne
    have hl := hlink i l hl
    obtain rfl := hinv.linkAt_eq hl
    cases hnone.symm.trans hl
  have hnewest : ∀ i l, linkAt s'.net i = some l → l + 1 = s'.made.length := by
    intro i l hl
    cases (hempty i).symm.trans hl
  simp only [step] at hs
  split at hs
  · rename_i hready
    split at hs
    · rename_i addr haddr
      obtain rfl := Option.some.inj hs
      refine ⟨fun l => ?_, hnewest, .inr ⟨addr, rfl, hempty⟩⟩
      change ((s.takeSlot serverId).tasks l).readerAborted = false ∧ _
      rw [htake]
      exact h.tasks l
    · obtain rfl := Option.some.inj hs
      refine ⟨fun l => ?_, hnewest, .inl hready.1⟩
      rw [htake]
      exact h.tasks l
  · cases hs

lemma runStep_unclosed {a : Arm} (hinv : Inv resolve [(serverId, serverAddress)] s)
    (h : Unclosed serverId s) (hs : runStep resolve serverId serverAddress s a = some s') :
    Inv resolve [(serverId, serverAddress)] s' ∧ Unclosed serverId s' := by
  have hquiet (act : Action) (hq : act.quiet)
      (hs : step resolve [(serverId, serverAddress)] s act = some s') :
      Inv resolve [(serverId, serverAddress)] s' ∧ Unclosed serverId s' :=
    ⟨step_inv hinv hs, h.quiet hq hs⟩
  cases a with
  | established => exact ⟨step_inv (a := .established) hinv hs, h.established hinv hs⟩
  | command => exact hquiet (.send serverId) rfl hs
  | check =>
    simp only [runStep] at hs
    split at hs
    · obtain rfl := Option.some.inj hs
      exact ⟨hinv, h⟩
    · rename_i hconn
      rw [isConnected_eq] at hconn
      exact ⟨step_inv hinv hs, h.reconnect hinv (by simpa using hconn) hs⟩
  | readerFeeds l => exact hquiet (.readerFeeds l) rfl hs
  | readerEnds l => exact hquiet (.readerEnds l) rfl hs
  | writerEnds l => exact hquiet (.writerEnds l) rfl hs

lemma unclosed_new (h : new resolve [(serverId, serverAddress)] = some s) :
    Unclosed serverId s := by
  simp only [new, Option.bind_eq_bind, Option.bind_eq_some_iff, Option.pure_def,
    Option.some.injEq] at h
  obtain ⟨maxServerId, -, establishing, hest, rfl⟩ := h
  obtain ⟨addr, -, rfl⟩ : ∃ addr, address resolve serverAddress = some addr ∧
      establishing = [(serverId, addr)] := by
    rcases haddr : address resolve serverAddress with _ | addr <;>
      simp [List.mapM_cons, haddr] at hest
    exact ⟨addr, rfl, hest.symm⟩
  have hnone := linkAt_new (maxServerId + 1)
  refine ⟨fun l => ⟨rfl, rfl⟩, fun i l hl => ?_, .inr ⟨addr, rfl, congrFun hnone⟩⟩
  cases (congrFun hnone i).symm.trans hl

/-- **No connection of the client is ever closed**: the slot holds the newest one or nothing, and
the reader of every other one feeds the loop until its connection ends. -/
theorem loop_closes_nothing (h : (loop resolve serverId serverAddress).Reachable s) :
    (∀ l, ¬ (s.tasks l).Closed) ∧
    (∀ i l, linkAt s.net i = some l → i = serverId ∧ l + 1 = s.made.length) ∧
    ∀ l < s.made.length, (s.tasks l).readerEnded = false →
      (runStep resolve serverId serverAddress s (.readerFeeds l)).isSome := by
  have hboth : Inv resolve [(serverId, serverAddress)] s ∧ Unclosed serverId s := by
    refine System.Reaches.invariant
      (I := fun s => Inv resolve [(serverId, serverAddress)] s ∧ Unclosed serverId s) ?_ ?_ h
    · exact fun s hnew => ⟨(inv_new hnew).1, unclosed_new hnew⟩
    · intro s a s' hboth hs _
      exact runStep_unclosed hboth.1 hboth.2 hs
  obtain ⟨hinv, hunclosed⟩ := hboth
  refine ⟨fun l hclosed => ?_, fun i l hl => ⟨hinv.linkAt_eq hl, hunclosed.newest i l hl⟩,
    fun l hl hended => ?_⟩
  · cases (hunclosed.tasks l).1.symm.trans hclosed.1
  · simp [runStep, step, hl, Tasks.readerRuns, hended, (hunclosed.tasks l).1]

/-- After a send has failed the client connects again, and the first reader goes on. -/
def bothRead : List Arm :=
  [.established, .check, .writerEnds 0, .command, .check, .established, .readerFeeds 1,
    .readerFeeds 0]

theorem loop_bothRead : ∃ s₀ s : State String, new literal [(1, "s1:8000")] = some s₀ ∧
    (loop literal 1 "s1:8000").run s₀ bothRead = some s ∧ linkAt s.net 1 = some 1 ∧
    s.fed = [1, 0] ∧ ∀ l, ¬ (s.tasks l).Closed := by
  obtain ⟨s₀, hnew, s, hr, hlink, hfed⟩ : ∃ s₀ : State String,
      new literal [(1, "s1:8000")] = some s₀ ∧ ∃ s,
      (loop literal 1 "s1:8000").run s₀ bothRead = some s ∧ linkAt s.net 1 = some 1 ∧
      s.fed = [1, 0] :=
    ⟨_, rfl, _, rfl, by decide, by decide⟩
  have hreach := System.Reachable.run (.init hnew) bothRead hr
  exact ⟨s₀, s, hnew, hr, hlink, hfed, (loop_closes_nothing hreach).1⟩

end OmniPaxosKV.ClientNetwork
