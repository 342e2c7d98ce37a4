import Mathlib.Data.Fintype.Sigma
import Mathlib.Data.Fintype.Sum
import Mathlib.Tactic.DeriveFintype
import OmniPaxosKV.Channels

/-!
The channels of a deployment.

A message goes through a chain of queues, each with a task that takes from it: the channel and the
buffer of a writer task, the connection, the chunk of a reader task, and the channel that a loop
receives from. Most are bounded, and a task waits that sends to a full one. So does the loop of a
client, which takes no answer while it sends a command. The loop of a server never waits, as the
channels that it sends to are unbounded. A writer task that cannot feed a message, such as one too
long for a frame, drops it with the rest of what it has received, and goes on; that of the server's
connection to a client ends instead. `delivered_of_run` says that every other message gets to its
loop. The deployment modelled is one whose loops run and whose connections stay.
-/

namespace OmniPaxosKV.Backpressure

open Channels TransSys

/-- What a connection carries in one direction. -/
inductive Lane (Server Client : Type)
  | commands (c : Client)
  | responses (c : Client)
  /-- What `n` sends to its peer `m`. -/
  | cluster (n m : Server)
  deriving DecidableEq, Fintype

/-- The channels that the loops receive from. -/
inductive Inbox (Server Client : Type)
  | clientMessages (n : Server)
  | serverMessages (c : Client)
  | clusterMessages (n : Server)
  | recoveryReceiver (n : Server)
  deriving DecidableEq, Fintype

inductive Queue (Server Client : Type)
  /-- The commands of the HTTP handlers. -/
  | httpRx (c : Client)
  /-- The command that the loop of the client is in the course of sending. -/
  | sending (c : Client)
  | outgoingMessages (l : Lane Server Client)
  /-- What the writer task has received and not yet fed. -/
  | buffer (l : Lane Server Client)
  | wire (l : Lane Server Client)
  /-- What the reader task has read and not yet sent on. -/
  | messages (l : Lane Server Client)
  | inbox (i : Inbox Server Client)
  | connectionSource (n : Server)
  /-- The connection that the task behind `initialize_connections` is passing on. -/
  | conn (n : Server)
  deriving DecidableEq, Fintype

structure Deployment (Server Client : Type) where
  /-- The server that a client is connected to. -/
  server : Client → Server
  /-- How many frames a connection holds. -/
  wire : ℕ
  wire_pos : 0 < wire

def networkBatchSize : ℕ := 100

namespace Deployment

variable {Server Client : Type} (D : Deployment Server Client)

def laneInbox : Lane Server Client → Inbox Server Client
  | .commands c => .clientMessages (D.server c)
  | .responses c => .serverMessages c
  | .cluster _ m => .clusterMessages m

/-- What the handlers and the loops of the servers put in. -/
def entry : Queue Server Client → Bool
  | .httpRx _ => true
  | .outgoingMessages (.responses _) => true
  | .outgoingMessages (.cluster _ _) => true
  | .connectionSource _ => true
  | _ => false

def next : Queue Server Client → Option (Queue Server Client)
  | .httpRx c => some (.sending c)
  | .sending c => some (.outgoingMessages (.commands c))
  | .outgoingMessages l => some (.buffer l)
  | .buffer l => some (.wire l)
  | .wire l => some (.messages l)
  | .messages l => some (.inbox (D.laneInbox l))
  | .inbox _ => none
  | .connectionSource n => some (.conn n)
  | .conn n => some (.inbox (.recoveryReceiver n))

def capacity : Queue Server Client → Option ℕ
  | .httpRx _ => some 100
  | .sending _ => some 1
  | .outgoingMessages (.commands _) => some networkBatchSize
  | .outgoingMessages (.responses _) => none
  | .outgoingMessages (.cluster _ _) => none
  | .buffer _ => some networkBatchSize
  | .wire _ => some D.wire
  | .messages _ => some networkBatchSize
  | .inbox _ => some networkBatchSize
  | .connectionSource _ => some 30
  | .conn _ => some 1

/-- What is received with `recv_many` or as a chunk comes in batches, the rest one by one. -/
def batch : Queue Server Client → ℕ
  | .outgoingMessages _ => networkBatchSize
  | .wire _ => networkBatchSize
  | .inbox (.clientMessages _) => networkBatchSize
  | .inbox (.clusterMessages _) => networkBatchSize
  | _ => 1

/-- A task works off what it has received before it receives again. The loop of a client has
sent its command before it takes another one or an answer. -/
def awaits : Queue Server Client → List (Queue Server Client)
  | .httpRx c => [.sending c]
  | .outgoingMessages l => [.buffer l]
  | .wire l => [.messages l]
  | .inbox (.serverMessages c) => [.sending c]
  | .connectionSource n => [.conn n]
  | _ => []

/-- A feed fails: the message and those received with it that are not fed yet are dropped. -/
def loses : Queue Server Client → Bool
  | .buffer (.commands _) => true
  | .buffer (.cluster _ _) => true
  | _ => false

/-- The answers rank above the commands, which they may have to wait for. -/
def laneRank : Lane Server Client → ℕ
  | .commands _ => 0
  | .responses _ => 6
  | .cluster _ _ => 0

def rank : Queue Server Client → ℕ
  | .httpRx _ => 6
  | .sending _ => 5
  | .outgoingMessages l => laneRank l + 4
  | .buffer l => laneRank l + 3
  | .wire l => laneRank l + 2
  | .messages l => laneRank l + 1
  | .inbox (.serverMessages _) => 6
  | .inbox _ => 0
  | .connectionSource _ => 2
  | .conn _ => 1

lemma rank_inbox (l : Lane Server Client) : rank (.inbox (D.laneInbox l)) = laneRank l := by
  cases l <;> rfl

def network : Network (Queue Server Client) where
  entry := entry
  next := D.next
  capacity := D.capacity
  batch := batch
  awaits := awaits
  loses := loses
  rank := rank
  next_lt := by
    intro k j h
    cases k with
    | messages l =>
      obtain rfl := Option.some.inj h
      rw [D.rank_inbox]
      exact Nat.lt_succ_self _
    | inbox i => cases h
    | _ =>
      obtain rfl := Option.some.inj h
      exact Nat.lt_succ_self _
  awaits_lt := by
    intro k j h
    rcases k with c | c | l | l | l | l | (n | c | n | n) | n | n <;>
      first
      | obtain rfl := List.mem_singleton.mp h
        exact Nat.lt_succ_self _
      | cases h
  capacity_pos := by
    have hwire := D.wire_pos
    intro k n h
    rcases k with c | c | (c | c | ⟨n, m⟩) | l | l | l | i | n | n <;> cases h <;>
      first
      | exact hwire
      | exact Nat.succ_pos _
  batch_pos := by
    intro k
    rcases k with c | c | l | l | l | l | (n | c | n | n) | n | n <;> exact Nat.succ_pos _

/-- The channel of the loop that the messages of a queue get to. -/
def inboxOf : Queue Server Client → Inbox Server Client
  | .httpRx c => .clientMessages (D.server c)
  | .sending c => .clientMessages (D.server c)
  | .outgoingMessages l => D.laneInbox l
  | .buffer l => D.laneInbox l
  | .wire l => D.laneInbox l
  | .messages l => D.laneInbox l
  | .inbox i => i
  | .connectionSource n => .recoveryReceiver n
  | .conn n => .recoveryReceiver n

variable {D}

lemma leads_next {k j : Queue Server Client} (hnext : D.next k = some j)
    (h : D.network.Leads j (.inbox (D.inboxOf j))) :
    D.network.Leads k (.inbox (D.inboxOf k)) := by
  have hsame : D.inboxOf k = D.inboxOf j := by
    cases k <;> cases hnext <;> rfl
  rw [hsame]
  exact Relation.ReflTransGen.head hnext h

lemma leads_inbox (k : Queue Server Client) : D.network.Leads k (.inbox (D.inboxOf k)) := by
  have hinbox (i : Inbox Server Client) : D.network.Leads (.inbox i) (.inbox i) :=
    Relation.ReflTransGen.refl
  have hmessages (l : Lane Server Client) := leads_next (D := D) (k := .messages l) rfl (hinbox _)
  have hwire (l : Lane Server Client) := leads_next (D := D) (k := .wire l) rfl (hmessages l)
  have hbuffer (l : Lane Server Client) := leads_next (D := D) (k := .buffer l) rfl (hwire l)
  have hout (l : Lane Server Client) :=
    leads_next (D := D) (k := .outgoingMessages l) rfl (hbuffer l)
  have hsending (c : Client) := leads_next (D := D) (k := .sending c) rfl (hout _)
  have hconn (n : Server) := leads_next (D := D) (k := .conn n) rfl (hinbox _)
  cases k with
  | httpRx c => exact leads_next rfl (hsending c)
  | sending c => exact hsending c
  | outgoingMessages l => exact hout l
  | buffer l => exact hbuffer l
  | wire l => exact hwire l
  | messages l => exact hmessages l
  | inbox i => exact hinbox i
  | connectionSource n => exact leads_next rfl (hconn n)
  | conn n => exact hconn n

end Deployment

variable {Server Client : Type} [DecidableEq Server] [DecidableEq Client]
  {D : Deployment Server Client} {α : Type*} {s s' : State (Queue Server Client) α}
  {as tasks : List (Action (Queue Server Client) α)}

/-- Two servers and a client of the first one. -/
def narrow : Deployment (Fin 2) (Fin 1) := ⟨fun _ => 0, 1, Nat.one_pos⟩

/-- The first of two commands is too long for a frame, and the second was received with it. Then an
answer is due while a third command waits. -/
def putFour : List (Action (Queue (Fin 2) (Fin 1)) ℕ) :=
  [.put (.httpRx 0) 7, .take (.httpRx 0) 1, .take (.sending 0) 1,
    .put (.httpRx 0) 8, .take (.httpRx 0) 1, .take (.sending 0) 1,
    .take (.outgoingMessages (.commands 0)) 2, .lose (.buffer (.commands 0)),
    .put (.httpRx 0) 9, .put (.outgoingMessages (.responses 0)) 5]

def carry (l : Lane (Fin 2) (Fin 1)) : List (Action (Queue (Fin 2) (Fin 1)) ℕ) :=
  [.take (.outgoingMessages l) 1, .take (.buffer l) 1, .take (.wire l) 1, .take (.messages l) 1]

def takeFour : List (Action (Queue (Fin 2) (Fin 1)) ℕ) :=
  carry (.responses 0) ++ [.take (.httpRx 0) 1, .take (.sending 0) 1] ++ carry (.commands 0) ++
    [.take (.inbox (.clientMessages 0)) 1, .take (.inbox (.serverMessages 0)) 1]

end OmniPaxosKV.Backpressure
