import OmniPaxosKV.Store

/-!
The server: recovery of its state, and the handling of newly decided entries.

A call of `handleDecidedEntries` reads the entries decided since the last call, skips the ones
the snapshot loaded at startup already holds, applies the others and answers those this server
appended. `handle_runs` says what any sequence of calls sends, whatever the batches.
-/

namespace OmniPaxosKV.Server

open Common Replay Store

structure OmniPaxosServer where
  id : NodeId
  database : Database
  currentDecidedIdx : ℕ
  entriesSinceSnapshot : ℕ
  snapshotDecidedIdx : ℕ

def snapshotPath (id : NodeId) : String := s!"/app/logs/server-{id}-snapshot.json"

/-- The entries at the positions after `i` up to the decided index, all of them decided. -/
def readDecidedSuffix (L : List Command) (decidedIdx i : ℕ) : List Command :=
  (L.take decidedIdx).drop i

/-- A call of `send_to_client`. -/
abbrev Send := ClientId × ServerMessage

/-- The response to a command, given what `handle_command` answered. -/
def responseTo (command : Command) : Option (Option String) → ServerMessage
  | some readResult => .Read command.id readResult
  | none => .Write command.id

namespace OmniPaxosServer

def new {Text : Type} (serde : SerdeJson Text) (files : Files Text) (readable : Bool)
    (id : NodeId) : OmniPaxosServer :=
  let path := snapshotPath id
  let recovered := (Database.recover serde files readable path).getD (Database.new, 0)
  { id := id
    database := recovered.1.setSnapshotPath path
    currentDecidedIdx := 0
    entriesSinceSnapshot := 0
    snapshotDecidedIdx := recovered.2 }

/-- The body of the loop over the decided commands, at the 1-indexed position `entryIdx`: the
server after it, how many entries it applied and what it sent. -/
def applyEntry (s : OmniPaxosServer) (entryIdx : ℕ) (command : Command) :
    OmniPaxosServer × ℕ × List Send :=
  if entryIdx ≤ s.snapshotDecidedIdx then (s, 0, [])
  else
    let (database, read) := s.database.handleCommand command.kvCmd
    ({ s with database := database }, 1,
      if command.coordinatorId = s.id then [(command.clientId, responseTo command read)] else [])

/-- The loop over the decided commands, from position `idx`. -/
def applyEntries (s : OmniPaxosServer) (idx : ℕ) : List Command → OmniPaxosServer × ℕ × List Send
  | [] => (s, 0, [])
  | command :: commands =>
    let (s', n, sent) := s.applyEntry (idx + 1) command
    let (s'', n', sent') := s'.applyEntries (idx + 1) commands
    (s'', n + n', sent ++ sent')

/-- After the loop: whether to save a snapshot. -/
def afterEntries (interval : ℕ) (s : OmniPaxosServer) (newEntriesApplied : ℕ) :
    OmniPaxosServer × Option DatabaseSnapshot :=
  if 0 < newEntriesApplied then
    if interval ≤ s.entriesSinceSnapshot + newEntriesApplied then
      ({ s with entriesSinceSnapshot := 0 }, some ⟨s.database.db, s.currentDecidedIdx⟩)
    else
      ({ s with entriesSinceSnapshot := s.entriesSinceSnapshot + newEntriesApplied }, none)
  else (s, none)

/-- One call, with the decided index it reads: the server after it, what it sent and the
snapshot it saved. -/
def handleDecidedEntries (interval : ℕ) (L : List Command) (s : OmniPaxosServer)
    (newDecidedIdx : ℕ) : OmniPaxosServer × List Send × Option DatabaseSnapshot :=
  if s.currentDecidedIdx < newDecidedIdx then
    let decided := readDecidedSuffix L newDecidedIdx s.currentDecidedIdx
    let (s', n, sent) :=
      { s with currentDecidedIdx := newDecidedIdx }.applyEntries s.currentDecidedIdx decided
    let (s'', saved) := s'.afterEntries interval n
    (s'', sent, saved)
  else (s, [], none)

end OmniPaxosServer

/-! ### What plain replay answers -/

/-- What the entry at index `i` of the log should be answered, if `id` appended it: a read
gets the value its key has after everything before it. -/
def response (id : NodeId) (L : List Command) (i : ℕ) : Option Send :=
  L[i]?.bind fun c =>
    if c.coordinatorId = id then
      some (c.clientId, match c.kvCmd with
        | .Get key => .Read c.id ((replay (L.take i)).lookup key)
        | _ => .Write c.id)
    else none

/-- The responses due for the entries after the first `S` up to index `d`. -/
def responses (id : NodeId) (L : List Command) (S d : ℕ) : List Send :=
  (List.range' S (d - S)).filterMap (response id L)

/-- A response is for an entry of its server, under the ids of the entry. -/
lemma response_spec {id : NodeId} {L : List Command} {i : ℕ} {x : Send}
    (h : response id L i = some x) :
    ∃ c, L[i]? = some c ∧ c.coordinatorId = id ∧ x.1 = c.clientId ∧
      x.2.commandId = some c.id := by
  obtain ⟨c, hc, hx⟩ := Option.bind_eq_some_iff.mp h
  split_ifs at hx with hid
  obtain rfl := Option.some.inj hx
  refine ⟨c, hc, hid, rfl, ?_⟩
  rcases c with ⟨client, coord, id, cmd⟩
  cases cmd <;> rfl

lemma responses_self (id : NodeId) (L : List Command) {S d : ℕ} (h : d ≤ S) :
    responses id L S d = [] := by
  simp [responses, Nat.sub_eq_zero_of_le h]

lemma responses_append (id : NodeId) (L : List Command) {S d e : ℕ} (h1 : S ≤ d) (h2 : d ≤ e) :
    responses id L S d ++ responses id L d e = responses id L S e := by
  unfold responses
  rw [← List.filterMap_append]
  congr 1
  obtain ⟨a, rfl⟩ := Nat.exists_eq_add_of_le h1
  obtain ⟨b, rfl⟩ := Nat.exists_eq_add_of_le h2
  rw [show S + a + b - S = a + b by omega, Nat.add_sub_cancel_left, Nat.add_sub_cancel_left,
    List.range'_append_1]

lemma responses_succ (id : NodeId) (L : List Command) (d : ℕ) :
    responses id L d (d + 1) = (response id L d).toList := by
  rcases h : response id L d with _ | r <;> simp [responses, h]

/-! ### One entry, one batch -/

/-- The database of a server that has passed the first `pos` entries of the log. -/
def UpTo (L : List Command) (s : OmniPaxosServer) (pos : ℕ) : Prop :=
  s.database.db = replay (L.take (max pos s.snapshotDecidedIdx))

/-- What the loop leaves alone. -/
def Same (s s' : OmniPaxosServer) : Prop :=
  s'.id = s.id ∧ s'.currentDecidedIdx = s.currentDecidedIdx ∧
    s'.entriesSinceSnapshot = s.entriesSinceSnapshot ∧
    s'.snapshotDecidedIdx = s.snapshotDecidedIdx ∧
    s'.database.snapshotPath = s.database.snapshotPath

lemma Same.refl (s : OmniPaxosServer) : Same s s := ⟨rfl, rfl, rfl, rfl, rfl⟩

lemma Same.trans {s s' s'' : OmniPaxosServer} (h : Same s s') (h' : Same s' s'') : Same s s'' := by
  obtain ⟨a, b, c, d, e⟩ := h
  obtain ⟨a', b', c', d', e'⟩ := h'
  exact ⟨a'.trans a, b'.trans b, c'.trans c, d'.trans d, e'.trans e⟩

lemma responseTo_answer (L : List Command) (c : Command) (i : ℕ) :
    responseTo c (kv.step (replay (L.take i)) c.kvCmd).2 =
      match c.kvCmd with
      | .Get key => .Read c.id ((replay (L.take i)).lookup key)
      | _ => .Write c.id := by
  rcases c with ⟨client, coord, id, cmd⟩
  cases cmd <;> rfl

/-- **One entry.** Passing the entry at index `pos` keeps the database in step with the
replay, and sends the response due unless the snapshot already held the entry. -/
lemma applyEntry_spec {L : List Command} {s : OmniPaxosServer} {pos : ℕ} {c : Command}
    (hc : L[pos]? = some c) (hs : UpTo L s pos) :
    Same s (s.applyEntry (pos + 1) c).1 ∧ UpTo L (s.applyEntry (pos + 1) c).1 (pos + 1) ∧
      (s.applyEntry (pos + 1) c).2.1 = (if pos < s.snapshotDecidedIdx then 0 else 1) ∧
      (s.applyEntry (pos + 1) c).2.2 =
        (if pos < s.snapshotDecidedIdx then [] else responses s.id L pos (pos + 1)) := by
  unfold UpTo at hs
  by_cases hsnap : pos < s.snapshotDecidedIdx
  · have hle : pos + 1 ≤ s.snapshotDecidedIdx := hsnap
    simp only [OmniPaxosServer.applyEntry, hle, hsnap, if_true]
    refine ⟨Same.refl s, ?_, trivial, trivial⟩
    unfold UpTo
    rw [hs, max_eq_right (by omega), max_eq_right hle]
  · have hle : ¬ pos + 1 ≤ s.snapshotDecidedIdx := by omega
    rw [max_eq_left (by omega)] at hs
    simp only [OmniPaxosServer.applyEntry, hle, hsnap, if_false, Database.handleCommand_eq, hs]
    refine ⟨⟨rfl, rfl, rfl, rfl, rfl⟩, ?_, trivial, ?_⟩
    · unfold UpTo
      rw [max_eq_left (by simp only; omega), replay_take_succ hc]
    · rw [responses_succ, responseTo_answer, response, hc, Option.bind_some]
      split_ifs <;> rfl

/-- The head of the rest of a list, and the rest after it. -/
lemma drop_cons {α : Type*} {l rest : List α} {k : ℕ} {a : α} (h : l.drop k = a :: rest) :
    l[k]? = some a ∧ l.drop (k + 1) = rest := by
  have hhead := congrArg List.head? h
  have htail := congrArg List.tail h
  exact ⟨by simpa using hhead, by simpa [List.tail_drop] using htail⟩

/-- **One batch**, by induction on its entries. -/
lemma applyEntries_spec {L : List Command} (l : List Command) :
    ∀ {s : OmniPaxosServer} {pos : ℕ}, l <+: L.drop pos → UpTo L s pos →
      Same s (s.applyEntries pos l).1 ∧ UpTo L (s.applyEntries pos l).1 (pos + l.length) ∧
        (s.applyEntries pos l).2.1 = pos + l.length - max pos s.snapshotDecidedIdx ∧
        (s.applyEntries pos l).2.2 =
          responses s.id L (max pos s.snapshotDecidedIdx) (pos + l.length) := by
  induction l with
  | nil =>
    intro s pos _ hs
    refine ⟨Same.refl s, hs, ?_, ?_⟩
    · simp only [OmniPaxosServer.applyEntries, List.length_nil]; omega
    · exact (responses_self _ _ (le_max_left _ _)).symm
  | cons c l ih =>
    intro s pos hpre hs
    obtain ⟨t, ht⟩ := hpre
    obtain ⟨hc, hrest⟩ := drop_cons ht.symm
    have hpre' : l <+: L.drop (pos + 1) := ⟨t, hrest.symm⟩
    obtain ⟨hsame, hup, hn, hsent⟩ := applyEntry_spec hc hs
    obtain ⟨hsame', hup', hn', hsent'⟩ := ih hpre' hup
    rw [hsame.1, hsame.2.2.2.1] at hsent'
    rw [hsame.2.2.2.1] at hn'
    have hlen : pos + (c :: l).length = pos + 1 + l.length := by simp; omega
    rw [hlen]
    refine ⟨hsame.trans hsame', hup', ?_, ?_⟩
    · simp only [OmniPaxosServer.applyEntries, hn, hn']
      split_ifs <;> omega
    · simp only [OmniPaxosServer.applyEntries, hsent, hsent']
      split_ifs with hlt
      · rw [List.nil_append, max_eq_right (by omega), max_eq_right (by omega)]
      · rw [max_eq_left (by omega), max_eq_left (by omega)]
        exact responses_append _ _ (by omega) (by omega)

lemma readDecidedSuffix_isPrefix (L : List Command) (d i : ℕ) :
    readDecidedSuffix L d i <+: L.drop i := by
  unfold readDecidedSuffix
  rw [List.drop_take]
  exact List.take_prefix _ _

/-! ### Calls and runs of calls -/

/-- The state between two calls. -/
structure Settled (L : List Command) (s : OmniPaxosServer) : Prop where
  upTo : UpTo L s s.currentDecidedIdx
  le : s.currentDecidedIdx ≤ L.length

lemma afterEntries_fields (interval : ℕ) (s : OmniPaxosServer) (n : ℕ) :
    (s.afterEntries interval n).1.id = s.id ∧
      (s.afterEntries interval n).1.database = s.database ∧
      (s.afterEntries interval n).1.currentDecidedIdx = s.currentDecidedIdx ∧
      (s.afterEntries interval n).1.snapshotDecidedIdx = s.snapshotDecidedIdx := by
  unfold OmniPaxosServer.afterEntries
  split_ifs <;> exact ⟨rfl, rfl, rfl, rfl⟩

/-- **One call** answers the entries decided since the last one that no snapshot holds. -/
theorem handle_spec (interval : ℕ) {L : List Command} {s : OmniPaxosServer} {d : ℕ}
    (hs : Settled L s) (hd : d ≤ L.length) :
    Settled L (s.handleDecidedEntries interval L d).1 ∧
      (s.handleDecidedEntries interval L d).1.id = s.id ∧
      (s.handleDecidedEntries interval L d).1.snapshotDecidedIdx = s.snapshotDecidedIdx ∧
      (s.handleDecidedEntries interval L d).1.currentDecidedIdx = max s.currentDecidedIdx d ∧
      (s.handleDecidedEntries interval L d).2.1 =
        responses s.id L (max s.currentDecidedIdx s.snapshotDecidedIdx) d := by
  by_cases hlt : s.currentDecidedIdx < d
  · have hlen : s.currentDecidedIdx +
        (readDecidedSuffix L d s.currentDecidedIdx).length = d := by
      simp [readDecidedSuffix]; omega
    obtain ⟨hsame, hup, -, hsent⟩ := applyEntries_spec
      (s := { s with currentDecidedIdx := d }) _ (readDecidedSuffix_isPrefix L d _) hs.upTo
    rw [hlen] at hup hsent
    set r := OmniPaxosServer.applyEntries { s with currentDecidedIdx := d }
      s.currentDecidedIdx (readDecidedSuffix L d s.currentDecidedIdx) with hr
    obtain ⟨hid, hdb, hcur, hsnap⟩ := afterEntries_fields interval r.1 r.2.1
    have hcall : s.handleDecidedEntries interval L d =
        ((r.1.afterEntries interval r.2.1).1, r.2.2, (r.1.afterEntries interval r.2.1).2) := by
      simp only [OmniPaxosServer.handleDecidedEntries, hlt, if_true, ← hr]
    rw [hcall]
    have hcur' : r.1.currentDecidedIdx = d := hsame.2.1
    refine ⟨⟨?_, ?_⟩, hid.trans hsame.1, hsnap.trans hsame.2.2.2.1, ?_, hsent⟩
    · unfold UpTo
      rw [hdb, hcur, hsnap, hcur']
      exact hup
    · rw [hcur, hcur']; exact hd
    · rw [hcur, hcur', max_eq_right hlt.le]
  · have hcall : s.handleDecidedEntries interval L d = (s, [], none) := by
      simp only [OmniPaxosServer.handleDecidedEntries, hlt, if_false]
    rw [hcall]
    refine ⟨hs, rfl, rfl, ?_, ?_⟩
    · rw [max_eq_left (by omega)]
    · exact (responses_self _ _ (by omega)).symm

/-- Calls with the decided indices `ds`: the last state and everything sent. -/
def runCalls (interval : ℕ) (L : List Command) (s : OmniPaxosServer) :
    List ℕ → OmniPaxosServer × List Send
  | [] => (s, [])
  | d :: ds =>
    let (s', sent, _) := s.handleDecidedEntries interval L d
    let (s'', sent') := runCalls interval L s' ds
    (s'', sent ++ sent')

lemma le_foldl_max (ds : List ℕ) (c : ℕ) : c ≤ ds.foldl max c := by
  induction ds generalizing c with
  | nil => exact le_rfl
  | cons d ds ih => exact (le_max_left c d).trans (ih _)

/-- In a nondecreasing sequence the highest index is the last. -/
lemma foldl_max_eq_last {ds : List ℕ} {c : ℕ} (h : (c :: ds).Pairwise (· ≤ ·)) :
    ds.foldl max c = ds.getLast?.getD c := by
  induction ds generalizing c with
  | nil => rfl
  | cons d ds ih =>
    obtain ⟨hc, hd⟩ := List.pairwise_cons.mp h
    rw [List.foldl_cons, max_eq_right (hc d (by simp)), ih hd]
    rcases hl : ds.getLast? with _ | e
    · rw [List.getLast?_eq_none_iff.mp hl]; rfl
    · rw [List.getLast?_cons, hl]; rfl

/-- **A run of calls**, by induction on the calls: the batches do not matter, only the
highest decided index does. -/
lemma runCalls_spec (interval : ℕ) {L : List Command} (ds : List ℕ) :
    ∀ {s : OmniPaxosServer}, Settled L s → (∀ d ∈ ds, d ≤ L.length) →
      Settled L (runCalls interval L s ds).1 ∧
        (runCalls interval L s ds).1.snapshotDecidedIdx = s.snapshotDecidedIdx ∧
        (runCalls interval L s ds).1.currentDecidedIdx = ds.foldl max s.currentDecidedIdx ∧
        (runCalls interval L s ds).2 =
          responses s.id L (max s.currentDecidedIdx s.snapshotDecidedIdx)
            (ds.foldl max s.currentDecidedIdx) := by
  induction ds with
  | nil =>
    intro s hs _
    exact ⟨hs, rfl, rfl, (responses_self _ _ (le_max_left _ _)).symm⟩
  | cons d ds ih =>
    intro s hs hle
    obtain ⟨hset, hid, hsnap, hcur, hsent⟩ := handle_spec interval hs (hle d (by simp))
    obtain ⟨hset', hsnap', hcur', hsent'⟩ := ih hset fun e he => hle e (by simp [he])
    rw [hcur] at hcur'
    rw [hid, hsnap, hcur] at hsent'
    refine ⟨hset', hsnap'.trans hsnap, hcur', ?_⟩
    simp only [runCalls, hsent, hsent', List.foldl_cons]
    have hmono := le_foldl_max ds (max s.currentDecidedIdx d)
    rcases le_total (max s.currentDecidedIdx s.snapshotDecidedIdx) d with h | h
    · rw [show max (max s.currentDecidedIdx d) s.snapshotDecidedIdx = d by omega]
      exact responses_append _ _ h (by omega)
    · rw [responses_self _ _ h, List.nil_append]
      by_cases hd : d ≤ s.currentDecidedIdx
      · rw [max_eq_left hd]
      · rw [show max (max s.currentDecidedIdx d) s.snapshotDecidedIdx =
          max s.currentDecidedIdx s.snapshotDecidedIdx by omega]

/-- A server just started with a snapshot of the first `S` entries. -/
def started (id : NodeId) (L : List Command) (S : ℕ) (path : Option String) : OmniPaxosServer where
  id := id
  database := ⟨replay (L.take S), path⟩
  currentDecidedIdx := 0
  entriesSinceSnapshot := 0
  snapshotDecidedIdx := S

lemma started_settled (id : NodeId) (L : List Command) (S : ℕ) (path : Option String) :
    Settled L (started id L S path) :=
  ⟨by simp [UpTo, started], Nat.zero_le _⟩

/-- **Responses**: over any nondecreasing decided indices, one incarnation sends exactly the
responses due after its snapshot, in log order; and the batches change neither what is sent
nor the map at the end. -/
theorem responses_of_calls (interval : ℕ) (L : List Command) (id : NodeId) (S : ℕ)
    (path : Option String) (ds : List ℕ) (hsorted : ds.Pairwise (· ≤ ·))
    (hle : ∀ d ∈ ds, d ≤ L.length) :
    (runCalls interval L (started id L S path) ds).2 = responses id L S (ds.getLast?.getD 0) ∧
      ∀ ds' : List ℕ, ds'.Pairwise (· ≤ ·) → (∀ d ∈ ds', d ≤ L.length) →
        ds'.getLast?.getD 0 = ds.getLast?.getD 0 →
        (runCalls interval L (started id L S path) ds').2 =
            (runCalls interval L (started id L S path) ds).2 ∧
          (runCalls interval L (started id L S path) ds').1.database.db =
            (runCalls interval L (started id L S path) ds).1.database.db := by
  have key : ∀ es : List ℕ, es.Pairwise (· ≤ ·) → (∀ d ∈ es, d ≤ L.length) →
      (runCalls interval L (started id L S path) es).2 = responses id L S (es.getLast?.getD 0) ∧
        (runCalls interval L (started id L S path) es).1.database.db =
          replay (L.take (max (es.getLast?.getD 0) S)) := by
    intro es hes hb
    obtain ⟨hset, hsnap, hcur, hsent⟩ :=
      runCalls_spec interval es (started_settled id L S path) hb
    have hlast := foldl_max_eq_last (c := 0) (List.pairwise_cons.mpr ⟨by simp, hes⟩)
    have hup := hset.upTo
    unfold UpTo at hup
    rw [show (started id L S path).currentDecidedIdx = 0 from rfl, hlast] at hcur hsent
    rw [hcur, hsnap] at hup
    exact ⟨by simpa [started] using hsent, hup⟩
  obtain ⟨hsent, hmap⟩ := key ds hsorted hle
  refine ⟨hsent, fun ds' hsorted' hle' hlast => ?_⟩
  obtain ⟨hsent', hmap'⟩ := key ds' hsorted' hle'
  rw [hsent, hsent', hmap, hmap', hlast]
  exact ⟨rfl, rfl⟩

/-- One batch across the snapshot boundary: the entry in the snapshot is skipped, the read
after it is answered with its value. -/
theorem responses_of_calls_straddle :
    (runCalls 1 [⟨7, 1, 0, .Put "x" "1"⟩, ⟨7, 1, 1, .Get "x"⟩]
      (started 1 [⟨7, 1, 0, .Put "x" "1"⟩, ⟨7, 1, 1, .Get "x"⟩] 1 none) [2]).2 =
      [(7, .Read 1 (some "1"))] := by
  rw [(responses_of_calls 1 _ 1 1 none [2] (by decide) (by decide)).1]
  decide

end OmniPaxosKV.Server
