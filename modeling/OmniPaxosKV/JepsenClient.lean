import Mathlib.Algebra.Group.Int.Defs
import Mathlib.Data.List.FinRange
import OmniPaxosKV.Linearize

/-!
The Jepsen clients: how an HTTP answer becomes an operation of the recorded history.

A history of PUTs and GETs at the shim says what each caller was told. The clients read the
body of each answer and record the operation as `:ok`, `:info` or `:fail`. They differ in what
they make of "Key not found" and of an error body: the nemesis clients record a read of an
absent key as `:fail`, the other two record every answered PUT as `:ok`.
`faithful_of_keeps` says which answers, told when, keep the verdict.
-/

namespace OmniPaxosKV.JepsenClient

open Replay Linearize

/-! ### The answers of the shim -/

inductive PutAnswer
  | ok
  | error (rest : String)
  deriving DecidableEq

/-- The values are those of `rand-int`, which are 32-bit. -/
inductive GetAnswer
  | value (n : Int32)
  | keyNotFound
  | error (rest : String)
  deriving DecidableEq

def PutAnswer.body : PutAnswer → String
  | .ok => "Ok"
  | .error rest => "Error" ++ rest

def GetAnswer.body : GetAnswer → String
  | .value n => toString n
  | .keyNotFound => "Key not found"
  | .error rest => "Error" ++ rest

/-- A request with its answer, if one arrived. -/
inductive ShimCall
  | put (v : Int32) (answer : Option PutAnswer)
  | get (answer : Option GetAnswer)
  deriving DecidableEq

structure ShimOp where
  called : ℕ
  call : ShimCall
  answered : ℕ
  called_le : called ≤ answered

/-! ### `invoke!` -/

inductive F
  | read | write
  deriving DecidableEq

inductive OpType
  | invoke | ok | info | fail
  deriving DecidableEq

structure Op where
  type : OpType
  f : F
  value : Option Int32
  deriving DecidableEq

def startsWith (body start : String) : Bool := start.toList.isPrefixOf body.toList

def parseDigits (digits : List Char) : Option ℕ :=
  if digits ≠ [] ∧ digits.all Char.isDigit then some (Nat.ofDigitChars 10 digits 0) else none

/-- A sign, or none, and digits. -/
def parseNumber : List Char → Option ℤ
  | '-' :: digits => (parseDigits digits).map fun n : ℕ => -(n : ℤ)
  | '+' :: digits => (parseDigits digits).map fun n : ℕ => (n : ℤ)
  | digits => (parseDigits digits).map fun n : ℕ => (n : ℤ)

/-- `Integer/parseInt`, which throws on what is not a number of 32 bits. -/
def parseInt (body : String) : Option Int32 :=
  (parseNumber body.toList).bind fun z =>
    if -2 ^ 31 ≤ z ∧ z < 2 ^ 31 then some (Int32.ofInt z) else none

/-- An exception leaves the operation indeterminate. -/
def orInfo (op : Op) (result : Option Op) : Op := result.getD { op with type := .info }

/-- `invoke!` of the nemesis clients; no response is an exception of the HTTP client. -/
def nemesisInvoke (op : Op) (response : Option String) : Op :=
  orInfo op <| response.bind fun body =>
    match op.f with
    | .read =>
      if body = "" ∨ body = "Key not found" ∨ startsWith body "Error" then
        some { op with type := .fail }
      else (parseInt body).map fun n => { op with type := .ok, value := some n }
    | .write =>
      if startsWith body "Error" then some { op with type := .info }
      else some { op with type := .ok }

def testLinInvoke (op : Op) (response : Option String) : Op :=
  orInfo op <| response.bind fun body =>
    match op.f with
    | .read =>
      if ¬ (body = "" ∨ body = "Key not found") then
        (parseInt body).map fun n => { op with type := .ok, value := some n }
      else some { op with type := .ok, value := none }
    | .write => some { op with type := .ok }

/-- The value a body stands for, or nothing where `parseInt` throws. -/
def getVal (body : String) : Option (Option Int32) :=
  if body = "" ∨ "Key not found" = body then some none else (parseInt body).map some

def paxosShimInvoke (op : Op) (response : Option String) : Op :=
  orInfo op <| response.bind fun body =>
    match op.f with
    | .read => (getVal body).map fun res => { op with type := .ok, value := res }
    | .write => some { op with type := .ok }

inductive PaxosClient
  | nemesis | testLin | paxosShim
  deriving DecidableEq

def PaxosClient.invoke : PaxosClient → Op → Option String → Op
  | .nemesis => nemesisInvoke
  | .testLin => testLinInvoke
  | .paxosShim => paxosShimInvoke

def ShimCall.op : ShimCall → Op
  | .put v _ => ⟨.invoke, .write, some v⟩
  | .get _ => ⟨.invoke, .read, none⟩

def ShimCall.response : ShimCall → Option String
  | .put _ answer => answer.map PutAnswer.body
  | .get answer => answer.map GetAnswer.body

def PaxosClient.record (c : PaxosClient) (call : ShimCall) : Op := c.invoke call.op call.response

/-! ### The two histories -/

inductive Access
  | read
  | write (v : Int32)

inductive Outcome
  | got (value : Option Int32)
  | ack
  deriving DecidableEq

/-- A register that starts absent. -/
def register : Machine (Option Int32) Access Outcome where
  start := none
  step s
    | .read => (s, .got s)
    | .write v => (some v, .ack)

def ShimCall.access : ShimCall → Access
  | .put v _ => .write v
  | .get _ => .read

/-- What the caller was told for certain. -/
def ShimCall.outcome : ShimCall → Option Outcome
  | .put _ none => none
  | .put _ (some .ok) => some .ack
  | .put _ (some (.error _)) => none
  | .get none => none
  | .get (some (.value n)) => some (.got (some n))
  | .get (some .keyNotFound) => some (.got none)
  | .get (some (.error _)) => none

def Op.outcome (op : Op) : Option Outcome :=
  if op.type = .ok then
    match op.f with
    | .read => some (.got op.value)
    | .write => some .ack
  else none

/-- The operations of `h` that `keep` holds of, completed with the outcomes given. -/
def history (h : List ShimOp) (keep : ShimCall → Prop) (outcome : ShimCall → Option Outcome) :
    History (Fin h.length) Access Outcome where
  invoked i := keep h[i].call
  input i := h[i].call.access
  result i := outcome h[i].call
  before i j := (outcome h[i].call).isSome ∧ h[i].answered < h[j].called

def shimLevel (h : List ShimOp) : History (Fin h.length) Access Outcome :=
  history h (fun _ => True) ShimCall.outcome

/-- What the checker is given: an operation recorded as `:fail` is removed, one recorded as
`:info` stays indeterminate. -/
def recorded (c : PaxosClient) (h : List ShimOp) : History (Fin h.length) Access Outcome :=
  history h (fun call => (c.record call).type ≠ .fail) fun call => (c.record call).outcome

/-- The verdict on the recorded history is the one on what the callers were told. -/
def Faithful (c : PaxosClient) (h : List ShimOp) : Prop :=
  Linearizable register (recorded c h) ↔ Linearizable register (shimLevel h)

/-! ### How bodies are classified -/

lemma parseDigits_toDigits (n : ℕ) : parseDigits (Nat.toDigits 10 n) = some n := by
  have hne : Nat.toDigits 10 n ≠ [] := Nat.toDigits_ne_nil
  have hall : (Nat.toDigits 10 n).all Char.isDigit = true :=
    List.all_eq_true.mpr fun c hc => Nat.isDigit_of_mem_toDigits (by decide) (by decide) hc
  rw [parseDigits, if_pos ⟨hne, hall⟩, Nat.ofDigitChars_ten_toDigits]

lemma parseNumber_toDigits (n : ℕ) : parseNumber (Nat.toDigits 10 n) = some (n : ℤ) := by
  have hdig : ∀ c ∈ Nat.toDigits 10 n, c.isDigit = true := fun c hc =>
    Nat.isDigit_of_mem_toDigits (by decide) (by decide) hc
  unfold parseNumber
  split
  · rename_i digits heq
    have hsign : ('-').isDigit = true := hdig '-' (by simp [heq])
    cases hsign
  · rename_i digits heq
    have hsign : ('+').isDigit = true := hdig '+' (by simp [heq])
    cases hsign
  · rw [parseDigits_toDigits, Option.map_some]

lemma parseNumber_repr (z : ℤ) : parseNumber z.repr.toList = some z := by
  cases z with
  | ofNat m =>
    have hdigits : (Int.ofNat m).repr.toList = Nat.toDigits 10 m := Nat.toList_repr
    rw [hdigits]
    exact parseNumber_toDigits m
  | negSucc m =>
    have hdigits : (Int.negSucc m).repr.toList = '-' :: Nat.toDigits 10 (m + 1) := by
      have hrepr : (Int.negSucc m).repr = "-" ++ (m + 1).repr := rfl
      rw [hrepr, String.toList_append, Nat.toList_repr]
      rfl
    rw [hdigits, parseNumber, parseDigits_toDigits, Option.map_some]
    rfl

/-- Reading a number that was printed gives it back. -/
lemma parseInt_toString (n : Int32) : parseInt (toString n) = some n := by
  have hlo : -2 ^ 31 ≤ n.toInt := n.le_toInt
  have hhi : n.toInt < 2 ^ 31 := n.toInt_lt
  have htext : toString n = n.toInt.repr := rfl
  rw [parseInt, htext, parseNumber_repr, Option.bind_some, if_pos ⟨hlo, hhi⟩, Int32.ofInt_toInt]

/-- What starts with neither a sign nor a digit is not a number. -/
lemma parseInt_eq_none {body : String} {c : Char} {rest : List Char} (h : body.toList = c :: rest)
    (hminus : c ≠ '-') (hplus : c ≠ '+') (hc : c.isDigit = false) : parseInt body = none := by
  have hdigits : parseDigits (c :: rest) = none := by simp [parseDigits, hc]
  have hnumber : parseNumber (c :: rest) = none := by
    unfold parseNumber
    split <;> simp_all
  rw [parseInt, h, hnumber, Option.bind_none]

lemma startsWith_append (start rest : String) : startsWith (start ++ rest) start = true := by
  rw [startsWith, String.toList_append]
  exact List.isPrefixOf_iff_prefix.mpr (List.prefix_append _ _)

/-- An error body is not a number, and none of the other texts. -/
lemma error_body (rest : String) : "Error" ++ rest ≠ "" ∧ "Error" ++ rest ≠ "Key not found" ∧
    parseInt ("Error" ++ rest) = none := by
  have htext : ("Error" ++ rest).toList = 'E' :: ("rror".toList ++ rest.toList) := by
    rw [String.toList_append]; rfl
  refine ⟨?_, ?_, parseInt_eq_none htext (by decide) (by decide) (by decide)⟩
  · intro h
    rw [h] at htext
    cases htext
  · intro h
    rw [h] at htext
    have hhead : some 'K' = some 'E' := congrArg List.head? htext
    cases hhead

/-- The text of a number is none of the texts the clients test for. -/
lemma value_body (n : Int32) : toString n ≠ "" ∧ toString n ≠ "Key not found" ∧
    startsWith (toString n) "Error" = false := by
  have hn := parseInt_toString n
  refine ⟨?_, ?_, ?_⟩
  · intro h
    have hnone : parseInt "" = none := by decide
    rw [h, hnone] at hn
    cases hn
  · intro h
    have hnone : parseInt "Key not found" = none :=
      parseInt_eq_none (c := 'K') rfl (by decide) (by decide) (by decide)
    rw [h, hnone] at hn
    cases hn
  · rw [← Bool.not_eq_true]
    intro h
    obtain ⟨rest, hrest⟩ := List.isPrefixOf_iff_prefix.mp h
    have hnone : parseInt (toString n) = none :=
      parseInt_eq_none (c := 'E') hrest.symm (by decide) (by decide) (by decide)
    rw [hnone] at hn
    cases hn

/-- A PUT that was answered with an error. -/
def ShimCall.ErrorPut (call : ShimCall) : Prop := ∃ v rest, call = .put v (some (.error rest))

section Record

-- what a client records is computed from the text of the body
attribute [local simp] PaxosClient.record PaxosClient.invoke orInfo ShimCall.response ShimCall.op
  Op.outcome ShimCall.outcome PutAnswer.body GetAnswer.body

/-- What the nemesis clients record: they leave out the reads that found no key. -/
lemma nemesis_record (call : ShimCall) :
    let op := PaxosClient.nemesis.record call
    (op.type = .fail ↔ call = .get (some .keyNotFound) ∨ ∃ rest, call = .get (some (.error rest))) ∧
      (call ≠ .get (some .keyNotFound) → op.outcome = call.outcome) ∧
      (call = .get (some .keyNotFound) → op.outcome = none) := by
  rcases call with ⟨v, _ | _ | rest⟩ | _ | n | _ | rest
  · simp [nemesisInvoke]
  · have hok : startsWith "Ok" "Error" = false := by decide
    simp [nemesisInvoke, hok]
  · simp [nemesisInvoke, startsWith_append]
  · simp [nemesisInvoke]
  · obtain ⟨hempty, hkey, herr⟩ := value_body n
    simp [nemesisInvoke, hempty, hkey, herr, parseInt_toString]
  · simp [nemesisInvoke]
  · simp [nemesisInvoke, startsWith_append]

/-- What the other two clients record: every answered PUT is `:ok`. -/
lemma other_record {c : PaxosClient} (hc : c ≠ .nemesis) (call : ShimCall) :
    let op := c.record call
    op.type ≠ .fail ∧ (¬ call.ErrorPut → op.outcome = call.outcome) ∧
      (call.ErrorPut → op.outcome = some .ack) := by
  rcases call with ⟨v, _ | _ | rest⟩ | _ | n | _ | rest
  · cases c <;> simp [testLinInvoke, paxosShimInvoke, ShimCall.ErrorPut] at hc ⊢
  · cases c <;> simp [testLinInvoke, paxosShimInvoke, ShimCall.ErrorPut] at hc ⊢
  · cases c <;> simp [testLinInvoke, paxosShimInvoke, ShimCall.ErrorPut] at hc ⊢
  · cases c <;> simp [testLinInvoke, paxosShimInvoke, ShimCall.ErrorPut] at hc ⊢
  · obtain ⟨hempty, hkey, -⟩ := value_body n
    cases c <;> simp [testLinInvoke, paxosShimInvoke, getVal, ShimCall.ErrorPut, hempty, hkey,
      hkey.symm, parseInt_toString] at hc ⊢
  · cases c <;> simp [testLinInvoke, paxosShimInvoke, getVal, ShimCall.ErrorPut] at hc ⊢
  · obtain ⟨hempty, hkey, hparse⟩ := error_body rest
    cases c <;> simp [testLinInvoke, paxosShimInvoke, getVal, ShimCall.ErrorPut, hempty, hkey,
      hkey.symm, hparse] at hc ⊢

end Record

/-! ### Reads of an absent key -/

lemma read_pure : Pure register .read := fun _ => rfl

/-- Once written, the register is never found absent. -/
lemma no_absent_read {s : Option Int32} {l : List (Access × Outcome)} (hs : s.isSome)
    (h : Accepts register s l) : ∀ p ∈ l, p ≠ (.read, .got none) := by
  induction l generalizing s with
  | nil => simp
  | cons p l ih =>
    obtain ⟨i, o⟩ := p
    obtain ⟨ho, hl⟩ := h
    cases i with
    | read =>
      intro p hp
      rcases List.mem_cons.mp hp with rfl | hp
      · rintro ⟨⟩
        have hnone : s = none := by simpa [register] using ho
        simp [hnone] at hs
      · exact ih hs hl p hp
    | write v =>
      intro p hp
      rcases List.mem_cons.mp hp with rfl | hp
      · rintro ⟨⟩
      · exact ih (s := some v) rfl hl p hp

/-- An outcome that only a written register gives. -/
def Shows (a : Access) (o : Outcome) : Prop :=
  (∃ v, a = .write v) ∨ ∃ n, o = .got (some n)

lemma step_isSome {s : Option Int32} {a : Access} (h : Shows a (register.step s a).2) :
    (register.step s a).1.isSome := by
  rcases h with ⟨v, rfl⟩ | ⟨n, hn⟩
  · rfl
  · cases a with
    | read =>
      have hs : s = some n := by simpa [register] using hn
      simp [register, hs]
    | write v => rfl

/-- **Nothing is lost**: in a linearization, a read that finds the key absent comes before
every write and every read of a value, so it was not invoked after one of them returned. -/
lemma absent_not_after {ρ : Type*} {H : History ρ Access Outcome} {S : List (ρ × Outcome)}
    (hS : Linearization register H S) {i j : ρ} {o : Outcome} (hi : (i, .got none) ∈ S)
    (hread : H.input i = .read) (hj : (j, o) ∈ S) (hshows : Shows (H.input j) o) :
    ¬ H.before j i := by
  obtain ⟨X, Y, rfl⟩ := List.append_of_mem hj
  have hacc := hS.accepts
  rw [History.calls, List.map_append, List.map_cons] at hacc
  obtain ⟨hX, hjo, hY⟩ := accepts_append.mp hacc
  -- the read is before `j` in the linearization, since the register is written after it
  have hiX : (i, Outcome.got none) ∈ X := by
    rcases List.mem_append.mp hi with h | h
    · exact h
    rcases List.mem_cons.mp h with h | h
    · have heq : i = j ∧ Outcome.got none = o := Prod.mk.inj h
      obtain ⟨rfl, rfl⟩ := heq
      rw [hread] at hshows
      rcases hshows with ⟨v, hv⟩ | ⟨n, hn⟩
      · cases hv
      · cases hn
    · have hsome := step_isSome (by rw [hjo]; exact hshows)
      have hmem : (Access.read, Outcome.got none) ∈ Y.map fun p => (H.input p.1, p.2) :=
        List.mem_map.mpr ⟨(i, .got none), h, by rw [hread]⟩
      exact absurd rfl (no_absent_read hsome hY _ hmem)
  have hpair := (List.pairwise_append.mp hS.order).2.2
  exact hpair _ hiX _ (List.mem_cons_self)

/-! ### The nemesis clients -/

/-- A GET that was told there is no key. -/
def AbsentRead (h : List ShimOp) (i : Fin h.length) : Prop :=
  h[i].call = .get (some .keyNotFound)

/-- No GET was told there is no key after a PUT had been acknowledged or a GET had been told a
value. -/
def NoLateAbsentRead (h : List ShimOp) : Prop :=
  ∀ (i j : Fin h.length) (o : Outcome), AbsentRead h i → h[j].call.outcome = some o →
    Shows h[j].call.access o → ¬ h[j].answered < h[i].called

instance (h : List ShimOp) (i : Fin h.length) : Decidable (AbsentRead h i) :=
  inferInstanceAs (Decidable (h[i].call = _))

lemma absentRead_outcome {h : List ShimOp} {i : Fin h.length} (hi : AbsentRead h i) :
    h[i].call.outcome = some (.got none) ∧ h[i].call.access = .read := by
  unfold AbsentRead at hi
  rw [hi]
  exact ⟨rfl, rfl⟩

/-- What is told for certain and is not an absent key shows that the register was written. -/
lemma shows_of_not_absent {call : ShimCall} {o : Outcome} (ho : call.outcome = some o)
    (ha : call ≠ .get (some .keyNotFound)) : Shows call.access o := by
  rcases call with ⟨v, _ | _ | rest⟩ | _ | n | _ | rest <;> simp_all [ShimCall.outcome]
  · exact Or.inl ⟨v, rfl⟩
  · exact Or.inr ⟨n, ho.symm⟩

/-- The absent reads in the order they were invoked in. -/
def absentReads (h : List ShimOp) : List (Fin h.length) :=
  ((List.finRange h.length).filter fun i => AbsentRead h i).mergeSort
    fun i j => h[i].called ≤ h[j].called

lemma mem_absentReads {h : List ShimOp} {i : Fin h.length} :
    i ∈ absentReads h ↔ AbsentRead h i := by
  simp [absentReads, List.mem_mergeSort]

lemma absentReads_nodup (h : List ShimOp) : (absentReads h).Nodup :=
  (List.mergeSort_perm _ _).nodup_iff.mpr ((List.nodup_finRange _).filter _)

lemma absentReads_sorted (h : List ShimOp) :
    (absentReads h).Pairwise fun i j => h[i].called ≤ h[j].called := by
  let le : Fin h.length → Fin h.length → Bool := fun i j => decide (h[i].called ≤ h[j].called)
  have htrans : ∀ i j k, le i j = true → le j k = true → le i k = true := by
    simp only [le, decide_eq_true_eq]
    omega
  have htotal : ∀ i j, (le i j || le j i) = true := by
    simp only [le, Bool.or_eq_true, decide_eq_true_eq]
    omega
  have hsorted := List.pairwise_mergeSort htrans htotal
    ((List.finRange h.length).filter fun i => AbsentRead h i)
  exact hsorted.imp fun hij => by simpa [le] using hij

/-- The shim-level history is linearizable exactly when its other operations are and no absent
read comes too late. -/
lemma shimLevel_iff {h : List ShimOp} :
    Linearizable register (shimLevel h) ↔
      Linearizable register ((shimLevel h).without (AbsentRead h)) ∧ NoLateAbsentRead h := by
  have hpure : ∀ i, AbsentRead h i → Pure register ((shimLevel h).input i) := by
    intro i hi
    have haccess : (shimLevel h).input i = .read := (absentRead_outcome hi).2
    rw [haccess]
    exact read_pure
  refine ⟨fun hlin => ⟨hlin.without hpure, ?_⟩, ?_⟩
  · obtain ⟨S, hS⟩ := hlin
    intro i j o hi hj hshows hlt
    obtain ⟨houtcome, haccess⟩ := absentRead_outcome hi
    have hiS := hS.complete i _ trivial houtcome
    have hjS := hS.complete j o trivial hj
    have hnot := absent_not_after hS hiS haccess hjS hshows
    exact hnot ⟨Option.isSome_iff_exists.mpr ⟨o, hj⟩, hlt⟩
  · rintro ⟨⟨S, hS⟩, hlate⟩
    refine ⟨(absentReads h).map (fun i => (i, .got none)) ++ S, hS.cons_pure ?_ ?_ ?_ ?_ ?_⟩
    · intro i o
      constructor
      · intro hio
        obtain ⟨i', hi', heq⟩ := List.mem_map.mp hio
        obtain ⟨rfl, rfl⟩ := Prod.mk.inj heq
        have habs := mem_absentReads.mp hi'
        exact ⟨trivial, habs, (absentRead_outcome habs).1⟩
      · rintro ⟨-, habs, ho⟩
        have ho' : some (Outcome.got none) = some o := (absentRead_outcome habs).1.symm.trans ho
        rw [← Option.some.inj ho']
        exact List.mem_map.mpr ⟨i, mem_absentReads.mpr habs, rfl⟩
    · rw [List.map_map]
      simpa [Function.comp_def] using absentReads_nodup h
    · refine List.pairwise_map.mpr ((absentReads_sorted h).imp ?_)
      rintro i j hij ⟨-, hlt⟩
      have hle := h[j].called_le
      have hlt' : h[j].answered < h[i].called := hlt
      omega
    · intro x hx
      obtain ⟨i, hi, rfl⟩ := List.mem_map.mp hx
      obtain ⟨-, haccess⟩ := absentRead_outcome (mem_absentReads.mp hi)
      have hinput : (shimLevel h).input i = .read := haccess
      rw [hinput]
      exact ⟨read_pure, rfl⟩
    · intro a ha b hb hbefore
      obtain ⟨i, hi, rfl⟩ := List.mem_map.mp ha
      obtain ⟨hsome, hlt⟩ := hbefore
      obtain ⟨o, ho⟩ := Option.isSome_iff_exists.mp hsome
      have hnb : ¬ AbsentRead h b.1 := (hS.invoked b hb).2
      exact hlate i b.1 o (mem_absentReads.mp hi) ho (shows_of_not_absent ho hnb) hlt

/-- What the nemesis clients record is linearizable exactly when the operations other than the
absent reads are. -/
lemma recorded_nemesis_iff {h : List ShimOp} :
    Linearizable register (recorded .nemesis h) ↔
      Linearizable register ((shimLevel h).without (AbsentRead h)) := by
  constructor
  · rintro ⟨S, hS⟩
    refine ⟨S, hS.transfer rfl ?_ ?_ (hS.order.imp_of_mem ?_)⟩
    · intro p hp
      have hkept : (PaxosClient.nemesis.record h[p.1].call).type ≠ .fail := hS.invoked p hp
      exact ⟨trivial, fun habs => hkept ((nemesis_record _).1.mpr (Or.inl habs))⟩
    · rintro i o ⟨-, habs⟩ ho
      have ho' : h[i].call.outcome = some o := ho
      refine ⟨fun hfail => ?_, ((nemesis_record _).2.1 habs).trans ho⟩
      rcases (nemesis_record h[i].call).1.mp hfail with hcall | ⟨rest, hcall⟩
      · exact habs hcall
      · rw [hcall] at ho'
        cases ho'
    · intro a b ha hb hnot
      rintro ⟨hsome, hlt⟩
      have hkept : (PaxosClient.nemesis.record h[b.1].call).type ≠ .fail := hS.invoked b hb
      have habs : h[b.1].call ≠ .get (some .keyNotFound) :=
        fun habs => hkept ((nemesis_record _).1.mpr (Or.inl habs))
      refine hnot ⟨?_, hlt⟩
      have hsame := (nemesis_record h[b.1].call).2.1 habs
      rw [← hsame] at hsome
      exact hsome
  · intro hlin
    -- reads answered with an error are recorded as failed: they can be left out
    have herror : ∀ i : Fin h.length, (∃ rest, h[i].call = .get (some (.error rest))) →
        Pure register (((shimLevel h).without (AbsentRead h)).input i) := by
      rintro i ⟨rest, hcall⟩
      have haccess : ((shimLevel h).without (AbsentRead h)).input i = .read := by
        have : h[i].call.access = .read := by rw [hcall]; rfl
        exact this
      rw [haccess]
      exact read_pure
    obtain ⟨S, hS⟩ := hlin.without herror
    refine ⟨S, hS.transfer rfl ?_ ?_ (hS.order.imp_of_mem ?_)⟩
    · intro p hp hfail
      obtain ⟨⟨-, habs⟩, herr⟩ := hS.invoked p hp
      rcases (nemesis_record h[p.1].call).1.mp hfail with hcall | hcall
      · exact habs hcall
      · exact herr hcall
    · intro i o hkept ho
      have hnot : ¬ (AbsentRead h i ∨ ∃ rest, h[i].call = .get (some (.error rest))) :=
        fun hcall => hkept ((nemesis_record _).1.mpr hcall)
      obtain ⟨habs, herr⟩ := not_or.mp hnot
      exact ⟨⟨⟨trivial, habs⟩, herr⟩, ((nemesis_record _).2.1 habs).symm.trans ho⟩
    · intro a b ha hb hnot
      rintro ⟨hsome, hlt⟩
      obtain ⟨⟨-, habs⟩, -⟩ := hS.invoked b hb
      refine hnot ⟨?_, hlt⟩
      have hsame := (nemesis_record h[b.1].call).2.1 habs
      rw [← hsame]
      exact hsome

/-! ### The other clients -/

/-- Some linearization of what the callers were told has every PUT answered with an error take
effect before its answer. -/
def ErrorPutsInTime (h : List ShimOp) : Prop :=
  ∃ S, Linearization register (shimLevel h) S ∧
    (∀ i : Fin h.length, h[i].call.ErrorPut → (i, .ack) ∈ S) ∧
    S.Pairwise fun a b => ¬ (h[b.1].call.ErrorPut ∧ h[b.1].answered < h[a.1].called)

/-- What the other two clients record is linearizable exactly when the PUTs answered with an
error can have taken effect in time. -/
lemma recorded_other_iff {c : PaxosClient} (hc : c ≠ .nemesis) {h : List ShimOp} :
    Linearizable register (recorded c h) ↔ ErrorPutsInTime h := by
  have hsame : ∀ {call : ShimCall} {o}, call.outcome = some o →
      (c.record call).outcome = some o := by
    intro call o ho
    have hnot : ¬ call.ErrorPut := by
      rintro ⟨v, rest, rfl⟩
      cases ho
    rw [(other_record hc call).2.1 hnot, ho]
  constructor
  · rintro ⟨S, hS⟩
    refine ⟨S, hS.transfer rfl (fun _ _ => trivial) ?_ (hS.order.imp ?_), ?_, hS.order.imp ?_⟩
    · intro i o _ ho
      exact ⟨(other_record hc _).1, hsame ho⟩
    · intro a b hnot
      rintro ⟨hsome, hlt⟩
      obtain ⟨o, ho⟩ := Option.isSome_iff_exists.mp hsome
      exact hnot ⟨Option.isSome_iff_exists.mpr ⟨o, hsame ho⟩, hlt⟩
    · intro i herr
      exact hS.complete i .ack (other_record hc _).1 ((other_record hc _).2.2 herr)
    · intro a b hnot
      rintro ⟨herr, hlt⟩
      exact hnot ⟨Option.isSome_iff_exists.mpr ⟨.ack, (other_record hc _).2.2 herr⟩, hlt⟩
  · rintro ⟨S, hS, hmem, hord⟩
    refine ⟨S, hS.nodup, fun _ _ => (other_record hc _).1, ?_, ?_, hS.accepts⟩
    · intro i o _ ho
      have ho' : (c.record h[i].call).outcome = some o := ho
      by_cases herr : h[i].call.ErrorPut
      · rw [(other_record hc _).2.2 herr] at ho'
        rw [← Option.some.inj ho']
        exact hmem i herr
      · rw [(other_record hc _).2.1 herr] at ho'
        exact hS.complete i o trivial ho'
    · refine (hS.order.and hord).imp ?_
      rintro a b ⟨hnot, hin⟩ ⟨hsome, hlt⟩
      by_cases herr : h[b.1].call.ErrorPut
      · exact hin ⟨herr, hlt⟩
      · have hsame := (other_record hc h[b.1].call).2.1 herr
        refine hnot ⟨?_, hlt⟩
        rw [← hsame]
        exact hsome

/-- No GET was told anything about the key after a PUT had been answered with an error. -/
def NoReadAfterErrorPut (h : List ShimOp) : Prop :=
  ∀ (i j : Fin h.length) (x : Option Int32), h[i].call.ErrorPut →
    h[j].call.outcome = some (.got x) → ¬ h[i].answered < h[j].called

/-- A GET whose caller was told nothing about the key. -/
def UntoldRead (h : List ShimOp) (i : Fin h.length) : Prop :=
  h[i].call.access = .read ∧ h[i].call.outcome = none

/-- What the callers were told, without the reads that were told nothing, where the PUTs in `l`
are completed. -/
def withAcks (h : List ShimOp) (l : List (Fin h.length)) :
    History (Fin h.length) Access Outcome where
  invoked i := ¬ UntoldRead h i
  input i := h[i].call.access
  result i := if i ∈ l then some .ack else h[i].call.outcome
  before i j := (i ∈ l ∨ (h[i].call.outcome).isSome) ∧ h[i].answered < h[j].called

lemma write_blind (v : Int32) : Blind register (.write v) := fun _ _ => rfl

/-- A read that is kept was told what the register holds. -/
lemma told_of_read {h : List ShimOp} {i : Fin h.length} (hi : ¬ UntoldRead h i)
    (hread : h[i].call.access = .read) : ∃ x, h[i].call.outcome = some (.got x) := by
  unfold UntoldRead at hi
  rcases hcall : h[i].call with ⟨v, answer⟩ | _ | n | _ | rest
  · rw [hcall] at hread
    cases hread
  · exact absurd ⟨hread, by rw [hcall]; rfl⟩ hi
  · exact ⟨some n, rfl⟩
  · exact ⟨none, rfl⟩
  · exact absurd ⟨hread, by rw [hcall]; rfl⟩ hi

/-- One more PUT answered with an error is completed: what was invoked after its answer is a
write. -/
lemma completes_withAcks {h : List ShimOp} (hk : NoReadAfterErrorPut h) {l : List (Fin h.length)}
    {w : Fin h.length} (hw : h[w].call.ErrorPut) (hnew : w ∉ l) :
    Completes register (withAcks h l) (withAcks h (w :: l)) w .ack
      fun j => h[w].answered < h[j].called := by
  obtain ⟨v, rest, hcall⟩ := id hw
  have haccess : h[w].call.access = .write v := by rw [hcall]; rfl
  have houtcome : h[w].call.outcome = none := by rw [hcall]; rfl
  have hin : (withAcks h l).input w = .write v := haccess
  refine ⟨rfl, rfl, ?_, ?_, ?_, ?_, ?_, ?_, ?_, ?_, ?_, ?_⟩
  · intro r o ho
    by_cases hr : r = w
    · subst hr
      have hack : (withAcks h (r :: l)).result r = some .ack := if_pos List.mem_cons_self
      exact Or.inl ⟨rfl, Option.some.inj (ho.symm.trans hack)⟩
    · have hsame : (withAcks h (w :: l)).result r = (withAcks h l).result r := by
        simp [withAcks, hr]
      exact Or.inr (hsame ▸ ho)
  · rintro a b ⟨ha, hlt⟩
    rcases ha with ha | ha
    · rcases List.mem_cons.mp ha with rfl | ha
      · exact Or.inr ⟨rfl, hlt⟩
      · exact Or.inl ⟨Or.inl ha, hlt⟩
    · exact Or.inl ⟨Or.inr ha, hlt⟩
  · rintro ⟨hread, -⟩
    rw [haccess] at hread
    cases hread
  · rintro r ⟨-, hlt⟩
    have hle := h[r].called_le
    omega
  · rintro r ⟨hl | hsome, -⟩
    · exact hnew hl
    · rw [houtcome] at hsome
      cases hsome
  · intro s
    rw [hin]
    rfl
  · rw [hin]
    exact write_blind v
  · have hle := h[w].called_le
    omega
  · intro r hr hlt
    have hinput : (withAcks h l).input r = h[r].call.access := rfl
    rw [hinput]
    rcases hacc : h[r].call.access with _ | u
    · obtain ⟨x, hx⟩ := told_of_read hr hacc
      exact absurd hlt (hk w r x hw hx)
    · exact write_blind u
  · rintro r z y ⟨hr, hlt⟩ hz hy
    exact ⟨hr, by omega⟩

/-- With any number of PUTs answered with an error completed the history stays linearizable. -/
lemma withAcks_linearizable {h : List ShimOp} (hk : NoReadAfterErrorPut h)
    (hlin : Linearizable register (shimLevel h)) {l : List (Fin h.length)} (hnd : l.Nodup)
    (hl : ∀ w ∈ l, h[w].call.ErrorPut) : Linearizable register (withAcks h l) := by
  induction l with
  | nil =>
    have hpure : ∀ i, UntoldRead h i → Pure register ((shimLevel h).input i) := by
      rintro i ⟨hread, -⟩
      have hinput : (shimLevel h).input i = .read := hread
      rw [hinput]
      exact read_pure
    obtain ⟨S, hS⟩ := hlin.without hpure
    refine ⟨S, hS.transfer rfl (fun p hp => (hS.invoked p hp).2) ?_ (hS.order.imp ?_)⟩
    · intro r o hr ho
      have ho' : h[r].call.outcome = some o := by simpa [withAcks] using ho
      exact ⟨⟨trivial, hr⟩, ho'⟩
    · rintro a b hnot ⟨hb, hlt⟩
      have hsome : (h[b.1].call.outcome).isSome := by simpa using hb
      exact hnot ⟨hsome, hlt⟩
  | cons w l ih =>
    obtain ⟨hw, hnd⟩ := List.nodup_cons.mp hnd
    have ih := ih hnd fun i hi => hl i (List.mem_cons_of_mem w hi)
    exact (completes_withAcks hk (hl w List.mem_cons_self) hw).linearizable ih

/-- Where nothing is read after a PUT was answered with an error, the PUT can have taken effect
in time. -/
lemma errorPutsInTime {h : List ShimOp} (hk : NoReadAfterErrorPut h)
    (hlin : Linearizable register (shimLevel h)) : ErrorPutsInTime h := by
  classical
  let errorPuts := (List.finRange h.length).filter fun i => h[i].call.ErrorPut
  have hmem : ∀ i, i ∈ errorPuts ↔ h[i].call.ErrorPut := by
    intro i
    simp [errorPuts]
  have hnd : errorPuts.Nodup := (List.nodup_finRange _).filter _
  obtain ⟨S, hS⟩ := withAcks_linearizable hk hlin hnd fun i hi => (hmem i).mp hi
  refine ⟨S, hS.transfer rfl (fun _ _ => trivial) ?_ (hS.order.imp ?_), ?_, hS.order.imp ?_⟩
  · intro r o _ ho
    have ho' : h[r].call.outcome = some o := ho
    have hr : r ∉ errorPuts := by
      intro hr
      obtain ⟨v, rest, hcall⟩ := (hmem r).mp hr
      rw [hcall] at ho'
      cases ho'
    have hsame : (withAcks h errorPuts).result r = h[r].call.outcome := if_neg hr
    refine ⟨?_, hsame.trans ho'⟩
    rintro ⟨-, hnone⟩
    rw [hnone] at ho'
    cases ho'
  · rintro a b hnot ⟨hsome, hlt⟩
    exact hnot ⟨Or.inr hsome, hlt⟩
  · intro i hi
    refine hS.complete i .ack ?_ (if_pos ((hmem i).mpr hi))
    rintro ⟨hread, -⟩
    obtain ⟨v, rest, hcall⟩ := hi
    rw [hcall] at hread
    cases hread
  · rintro a b hnot ⟨herr, hlt⟩
    exact hnot ⟨Or.inl ((hmem b.1).mpr herr), hlt⟩

/-! ### When the verdict is kept -/

/-- Answers on which the clients keep the verdict. For the nemesis clients: no GET found no key
after a PUT had been acknowledged or a value read. For the others: no GET was told anything
after a PUT had been answered with an error. -/
def Keeps : PaxosClient → List ShimOp → Prop
  | .nemesis, h => NoLateAbsentRead h
  | _, h => NoReadAfterErrorPut h

/-- **When the clients record faithfully.** -/
theorem faithful_of_keeps {c : PaxosClient} {h : List ShimOp} (hk : Keeps c h) :
    Faithful c h := by
  have hother : ∀ {c}, c ≠ .nemesis → NoReadAfterErrorPut h → Faithful c h := by
    intro c hc hk
    unfold Faithful
    rw [recorded_other_iff hc]
    exact ⟨fun ⟨S, hS, _⟩ => ⟨S, hS⟩, errorPutsInTime hk⟩
  cases c with
  | nemesis =>
    unfold Faithful
    rw [recorded_nemesis_iff, shimLevel_iff]
    exact ⟨fun hlin => ⟨hlin, hk⟩, And.left⟩
  | testLin => exact hother (by decide) hk
  | paxosShim => exact hother (by decide) hk

/-- With an absent read that comes too late the nemesis clients are right only where the other
operations give the history away. -/
lemma faithful_iff_of_late {h : List ShimOp} (hlate : ¬ NoLateAbsentRead h) :
    Faithful .nemesis h ↔ ¬ Linearizable register (recorded .nemesis h) := by
  have hshim : ¬ Linearizable register (shimLevel h) := fun hlin => hlate (shimLevel_iff.mp hlin).2
  unfold Faithful
  exact ⟨fun hiff hrec => hshim (hiff.mp hrec), fun hrec => ⟨fun h' => absurd h' hrec,
    fun h' => absurd h' hshim⟩⟩

/-- The other clients report a violation wherever an absent read comes after a PUT was answered
with an error. -/
lemma recorded_violates {c : PaxosClient} (hc : c ≠ .nemesis) {h : List ShimOp}
    {i j : Fin h.length} (hi : h[i].call.ErrorPut) (hj : AbsentRead h j)
    (hlt : h[i].answered < h[j].called) : ¬ Linearizable register (recorded c h) := by
  rintro ⟨S, hS⟩
  obtain ⟨houtcome, hread⟩ := absentRead_outcome hj
  obtain ⟨hfail, -, hack⟩ := other_record hc h[i].call
  obtain ⟨hfail', hsame, -⟩ := other_record hc h[j].call
  have hput : (recorded c h).result i = some .ack := hack hi
  have hnot : ¬ h[j].call.ErrorPut := by
    rintro ⟨v, rest, hput⟩
    rw [hput] at hread
    cases hread
  have hget : (recorded c h).result j = some (.got none) := (hsame hnot).trans houtcome
  have hwrite : Shows ((recorded c h).input i) .ack := by
    obtain ⟨v, rest, hcall⟩ := hi
    have hinput : (recorded c h).input i = h[i].call.access := rfl
    rw [hinput, hcall]
    exact Or.inl ⟨v, rfl⟩
  have hnb := absent_not_after hS (hS.complete j _ hfail' hget) hread
    (hS.complete i _ hfail hput) hwrite
  exact hnb ⟨Option.isSome_iff_exists.mpr ⟨_, hput⟩, hlt⟩

/-- A PUT is answered with an error while a GET finds no key. -/
def concurrentWrite : List ShimOp :=
  [⟨0, .put 1 (some (.error ": timeout")), 3, by decide⟩,
    ⟨1, .get (some .keyNotFound), 2, by decide⟩]

theorem faithful_concurrentWrite : Faithful .nemesis concurrentWrite ∧
    Faithful .testLin concurrentWrite ∧ Faithful .paxosShim concurrentWrite := by
  have hbefore : ∀ i j : Fin concurrentWrite.length,
      ¬ concurrentWrite[i].answered < concurrentWrite[j].called := by decide
  exact ⟨faithful_of_keeps (c := .nemesis) fun i j _ _ _ _ => hbefore j i,
    faithful_of_keeps (c := .testLin) fun i j _ _ _ => hbefore i j,
    faithful_of_keeps (c := .paxosShim) fun i j _ _ _ => hbefore i j⟩

/-- A PUT is acknowledged, then a GET finds no key. -/
def lostWrite : List ShimOp :=
  [⟨0, .put 1 (some .ok), 1, by decide⟩, ⟨2, .get (some .keyNotFound), 3, by decide⟩]

/-- A PUT is answered with an error, then a GET finds no key. -/
def failedWrite : List ShimOp :=
  [⟨0, .put 1 (some (.error ": timeout")), 1, by decide⟩,
    ⟨2, .get (some .keyNotFound), 3, by decide⟩]

lemma recorded_lostWrite : Linearizable register (recorded .nemesis lostWrite) := by
  refine ⟨[(⟨0, by decide⟩, .ack)], by decide, ?_, ?_, by simp, ⟨rfl, trivial⟩⟩
  · intro p hp
    obtain rfl := List.mem_singleton.mp hp
    intro hfail
    revert hfail
    decide
  · intro i o hkept ho
    match i with
    | ⟨0, _⟩ =>
      have hack : some Outcome.ack = some o := ho
      rw [← Option.some.inj hack]
      exact List.mem_singleton.mpr rfl
    | ⟨1, _⟩ =>
      have hfail : (PaxosClient.nemesis.record (.get (some .keyNotFound))).type = .fail := by decide
      exact absurd hfail hkept

lemma shimLevel_failedWrite : Linearizable register (shimLevel failedWrite) := by
  refine ⟨[(⟨1, by decide⟩, .got none)], by decide, fun _ _ => trivial, ?_, by simp, ⟨rfl, trivial⟩⟩
  intro i o _ ho
  match i with
  | ⟨0, _⟩ => cases ho
  | ⟨1, _⟩ =>
    have hgot : some (Outcome.got none) = some o := ho
    rw [← Option.some.inj hgot]
    exact List.mem_singleton.mpr rfl

/-- The nemesis clients hide the loss of an acknowledged write; the others report a violation
where a write was only refused. -/
theorem verdicts_differ : ¬ Faithful .nemesis lostWrite ∧ ¬ Faithful .testLin failedWrite ∧
    ¬ Faithful .paxosShim failedWrite := by
  have hlate : ¬ NoLateAbsentRead lostWrite := fun hk =>
    hk ⟨1, by decide⟩ ⟨0, by decide⟩ .ack rfl rfl (Or.inl ⟨1, rfl⟩) (by decide)
  have hother : ∀ c, c ≠ .nemesis → ¬ Faithful c failedWrite := by
    intro c hc hfaithful
    have hput : failedWrite[(⟨0, by decide⟩ : Fin failedWrite.length)].call.ErrorPut :=
      ⟨1, ": timeout", rfl⟩
    exact recorded_violates hc (j := ⟨1, by decide⟩) hput rfl (by decide)
      (hfaithful.mpr shimLevel_failedWrite)
  exact ⟨fun hfaithful => (faithful_iff_of_late hlate).mp hfaithful recorded_lostWrite,
    hother _ (by decide), hother _ (by decide)⟩

end OmniPaxosKV.JepsenClient
