import Mathlib.Data.Finmap

/-!
The messages and commands of the store.
-/

namespace OmniPaxosKV.Common

abbrev CommandId := ℕ
abbrev ClientId := ℕ
abbrev NodeId := ℕ
abbrev Timestamp := ℤ

/-- A run of a client program; a restarted client is another process. -/
abbrev ProcId := ℕ

/-- A TCP connection. -/
abbrev LinkId := ℕ

inductive KVCommand
  | Put (key value : String)
  | Delete (key : String)
  | Get (key : String)
  deriving DecidableEq

/-- An entry of the replicated log: a command, who sent it and under which id, and the
server that appended it. -/
structure Command where
  clientId : ClientId
  coordinatorId : NodeId
  id : CommandId
  kvCmd : KVCommand
  deriving DecidableEq

inductive ClientMessage
  | Append (id : CommandId) (cmd : KVCommand)
  deriving DecidableEq

inductive ServerMessage
  | Write (id : CommandId)
  | Read (id : CommandId) (value : Option String)
  | StartSignal (time : Timestamp)
  deriving DecidableEq

/-- The id a response carries; a start signal has none. -/
def ServerMessage.commandId : ServerMessage → Option CommandId
  | .Write id => some id
  | .Read id _ => some id
  | .StartSignal _ => none

/-- A message between servers, for any type of messages of OmniPaxos. -/
inductive ClusterMessage (Msg : Type*)
  | OmniPaxosMessage (msg : Msg)
  | LeaderStartSignal (startTime : Timestamp)
  deriving DecidableEq

namespace ClusterMessage

variable {Msg : Type*}

def isStart : ClusterMessage Msg → Bool
  | .OmniPaxosMessage _ => false
  | .LeaderStartSignal _ => true

def startTime? : ClusterMessage Msg → Option Timestamp
  | .OmniPaxosMessage _ => none
  | .LeaderStartSignal startTime => some startTime

def omniPaxosMessage? : ClusterMessage Msg → Option Msg
  | .OmniPaxosMessage msg => some msg
  | .LeaderStartSignal _ => none

lemma startTime?_of_isStart {msg : ClusterMessage Msg} (h : msg.isStart) :
    ∃ startTime, msg.startTime? = some startTime := by
  cases msg with
  | OmniPaxosMessage m => cases h
  | LeaderStartSignal startTime => exact ⟨startTime, rfl⟩

end ClusterMessage

/-- A list that grows at its end keeps its entries. -/
lemma getElem?_append_some {α : Type*} {l l' : List α} {i : ℕ} {a : α} (h : l[i]? = some a) :
    (l ++ l')[i]? = some a := by
  rw [List.getElem?_append_left (List.getElem?_eq_some_iff.mp h).1, h]

end OmniPaxosKV.Common
