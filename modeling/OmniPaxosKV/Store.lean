import Mathlib.Data.Finmap
import OmniPaxosKV.Common
import OmniPaxosKV.Replay

/-!
The database: commands on a map, and the snapshot file it is saved to and recovered from.

A snapshot is written to a temporary file that is then renamed over the old one. The file
system is a map from paths to texts, and `serde_json` is a pair of functions that round-trip.
-/

namespace OmniPaxosKV.Store

open Common Replay

abbrev Map := Finmap fun _ : String => String

structure DatabaseSnapshot where
  db : Map
  decidedIdx : ℕ

structure Database where
  db : Map
  snapshotPath : Option String

namespace Database

def new : Database := ⟨∅, none⟩

def setSnapshotPath (d : Database) (path : String) : Database :=
  { d with snapshotPath := some path }

def handleCommand (d : Database) : KVCommand → Database × Option (Option String)
  | .Put key value => ({ d with db := d.db.insert key value }, none)
  | .Delete key => ({ d with db := d.db.erase key }, none)
  | .Get key => (d, some (d.db.lookup key))

end Database

/-- The store as a machine: what `handleCommand` does to the map and what it answers. -/
def kv : Machine Map KVCommand (Option (Option String)) where
  start := Database.new.db
  step m c :=
    (((Database.mk m none).handleCommand c).1.db, ((Database.mk m none).handleCommand c).2)

@[simp] lemma kv_start : kv.start = ∅ := rfl

lemma Database.handleCommand_eq (d : Database) (c : KVCommand) :
    d.handleCommand c = ({ d with db := (kv.step d.db c).1 }, (kv.step d.db c).2) := by
  cases c <;> rfl

/-- The map left by replaying a log from the empty database. -/
def replay (l : List Command) : Map := kv.replay (l.map Command.kvCmd)

@[simp] lemma replay_nil : replay [] = ∅ := rfl

lemma replay_append (l l' : List Command) :
    replay (l ++ l') = kv.replayFrom (replay l) (l'.map Command.kvCmd) := by
  rw [replay, List.map_append, kv.replay_append]; rfl

lemma replay_take_succ {L : List Command} {i : ℕ} {c : Command} (h : L[i]? = some c) :
    replay (L.take (i + 1)) = (kv.step (replay (L.take i)) c.kvCmd).1 := by
  rw [List.take_add_one, h, replay_append]; rfl

/-- `handleCommand` on the commands of a log, one after the other. -/
def Database.handleCommands (d : Database) (entries : List Command) : Database :=
  entries.foldl (fun d e => (d.handleCommand e.kvCmd).1) d

lemma Database.handleCommands_db (d : Database) (entries : List Command) :
    (d.handleCommands entries).db = kv.replayFrom d.db (entries.map Command.kvCmd) := by
  induction entries generalizing d with
  | nil => rfl
  | cons e entries ih =>
    rw [Database.handleCommands, List.foldl_cons, ← Database.handleCommands, ih,
      Database.handleCommand_eq]
    rfl

/-! ### Files -/

/-- `serde_json` on snapshots. `empty` is the text of a file just created. -/
structure SerdeJson (Text : Type) where
  empty : Text
  toString : DatabaseSnapshot → Text
  fromStr : Text → Option DatabaseSnapshot
  round_trip : ∀ snap, fromStr (toString snap) = some snap

abbrev Files (Text : Type) := String → Option Text

def tmpPath (path : String) : String := s!"{path}.tmp"

lemma tmpPath_ne (path : String) : tmpPath path ≠ path := by
  intro h
  have hl : (path ++ ".tmp").length = path.length := congrArg String.length h
  simp [String.length_append] at hl

variable {Text : Type} (serde : SerdeJson Text)

/-- Loads the snapshot at `path`. The read itself may fail: `readable` says whether it
succeeds. -/
def Database.recover (files : Files Text) (readable : Bool) (path : String) :
    Option (Database × ℕ) :=
  match files path with
  | none => none
  | some json =>
    if readable then
      match serde.fromStr json with
      | some snap => some (⟨snap.db, some path⟩, snap.decidedIdx)
      | none => none
    else none

lemma Database.recover_cases (files : Files Text) (readable : Bool) (path : String) :
    Database.recover serde files readable path = none ∨
      ∃ json snap, files path = some json ∧ serde.fromStr json = some snap ∧
        Database.recover serde files readable path =
          some (⟨snap.db, some path⟩, snap.decidedIdx) := by
  unfold Database.recover
  rcases hf : files path with _ | json
  · exact Or.inl rfl
  cases readable with
  | false => exact Or.inl rfl
  | true =>
    rcases hs : serde.fromStr json with _ | snap
    · exact Or.inl (by simp [hs])
    · exact Or.inr ⟨json, snap, rfl, hs, by simp [hs]⟩

/-- The steps of `save_snapshot` that touch the file system and can fail. -/
inductive SaveStage
  | create | write | flush | syncAll | rename
  deriving DecidableEq

def SaveStage.all : List SaveStage := [.create, .write, .flush, .syncAll, .rename]

/-- What a step of `save_snapshot` does when it succeeds. -/
def SaveStage.effect (path : String) (json : Text) (files : Files Text) : SaveStage → Files Text
  | .create => Function.update files (tmpPath path) (some serde.empty)
  | .write => Function.update files (tmpPath path) (some json)
  | .flush => files
  | .syncAll => files
  | .rename =>
    match files (tmpPath path) with
    | some text => Function.update (Function.update files path (some text)) (tmpPath path) none
    | none => files

/-- A step before the renaming leaves the snapshot itself alone. -/
lemma SaveStage.effect_path {path : String} {json : Text} {files : Files Text} {stage : SaveStage}
    (h : stage ≠ .rename) : stage.effect serde path json files path = files path := by
  cases stage <;> simp_all [SaveStage.effect, (tmpPath_ne path).symm]

lemma SaveStage.effect_rename_path {path : String} {json text : Text} {files : Files Text}
    (h : files (tmpPath path) = some text) :
    SaveStage.rename.effect serde path json files path = some text := by
  simp [SaveStage.effect, h, (tmpPath_ne path).symm]

end OmniPaxosKV.Store
