import Mathlib.Algebra.Group.Nat.Defs
import Mathlib.Data.List.Basic
import Mathlib.Order.Nat

/-!
Frames in a stream.

A codec says how a frame is written and what the start of a buffer holds. A reader takes the
stream in chunks and yields the frames as they become complete: `drain_stream` is the rule for a
stream of whole frames, however it is cut, and `drain_spec` for any stream.
-/

namespace OmniPaxosKV.Framing

/-- What the start of a buffer holds. -/
inductive Decoded (α β : Type*)
  /-- Part of a frame. -/
  | more
  | bad
  | frame (a : α) (rest : List β)

structure Codec (α β : Type*) where
  encode : α → List β
  decode : List β → Decoded α β
  decode_nil : decode [] = .more
  decode_encode : ∀ a rest, decode (encode a ++ rest) = .frame a rest
  decode_partial : ∀ {a p q}, p ++ q = encode a → q ≠ [] → decode p = .more
  encode_of_decode : ∀ {buf a rest}, decode buf = .frame a rest → buf = encode a ++ rest

variable {α β : Type*} (codec : Codec α β)

def Codec.encodeAll (as : List α) : List β := as.flatMap codec.encode

/-- The frames at the start of a buffer, and what is left of it; nothing where the stream is
bad. -/
def Codec.drain : ℕ → List β → List α × Option (List β)
  | 0, buf => ([], some buf)
  | n + 1, buf =>
    match codec.decode buf with
    | .more => ([], some buf)
    | .bad => ([], none)
    | .frame a rest =>
      let (as, left) := Codec.drain n rest
      (a :: as, left)

structure Reader (α β : Type*) where
  frames : List α
  /-- Nothing once the reader has ended. -/
  buffer : Option (List β)
  deriving DecidableEq

def Reader.init : Reader α β := ⟨[], some []⟩

def Reader.feed (r : Reader α β) (chunk : List β) : Reader α β :=
  match r.buffer with
  | none => r
  | some buf =>
    let (as, left) := codec.drain (buf ++ chunk).length (buf ++ chunk)
    ⟨r.frames ++ as, left⟩

variable {codec} {a : α} {as : List α} {buf wire : List β}

lemma encodeAll_cons : codec.encodeAll (a :: as) = codec.encode a ++ codec.encodeAll as := rfl

lemma encodeAll_append (as as' : List α) :
    codec.encodeAll (as ++ as') = codec.encodeAll as ++ codec.encodeAll as' :=
  List.flatMap_append

lemma encode_ne_nil (codec : Codec α β) (a : α) : codec.encode a ≠ [] := by
  intro h
  have hframe := codec.decode_encode a []
  rw [h, List.nil_append, codec.decode_nil] at hframe
  cases hframe

/-- A buffer that holds part of a frame holds no frames. -/
lemma eq_nil_of_more (hmore : codec.decode buf = .more) (h : buf = codec.encodeAll as) :
    as = [] := by
  cases as with
  | nil => rfl
  | cons a as =>
    rw [h, encodeAll_cons, codec.decode_encode] at hmore
    cases hmore

/-- **A stream of whole frames**, of which the buffer holds a part: the frames that are complete
are read, and part of the next stays. -/
theorem Codec.drain_stream (n : ℕ) (hn : buf.length ≤ n) (h : buf ++ wire = codec.encodeAll as) :
    ∃ as₁ as₂ left, as = as₁ ++ as₂ ∧ codec.drain n buf = (as₁, some left) ∧
      left ++ wire = codec.encodeAll as₂ ∧ codec.decode left = .more := by
  induction n generalizing buf as with
  | zero =>
    obtain rfl := List.length_eq_zero_iff.mp (Nat.le_zero.mp hn)
    exact ⟨[], as, [], rfl, rfl, h, codec.decode_nil⟩
  | succ n ih =>
    cases as with
    | nil =>
      obtain ⟨rfl, rfl⟩ := List.append_eq_nil_iff.mp h
      refine ⟨[], [], [], rfl, ?_, rfl, codec.decode_nil⟩
      rw [Codec.drain, codec.decode_nil]
    | cons a as =>
      rw [encodeAll_cons] at h
      rcases List.append_eq_append_iff.mp h with ⟨q, hq, hwire⟩ | ⟨rest, rfl, hrest⟩
      · by_cases hnil : q = []
        · -- the buffer ends with the frame
          subst hnil
          rw [List.append_nil] at hq
          have hlen : ([] : List β).length ≤ n := Nat.zero_le n
          obtain ⟨as₁, as₂, left, rfl, hdrain, hleft, hmore⟩ := ih hlen hwire
          refine ⟨a :: as₁, as₂, left, rfl, ?_, hleft, hmore⟩
          have hframe : codec.decode buf = .frame a [] := by
            rw [← hq]
            simpa using codec.decode_encode a []
          rw [Codec.drain, hframe]
          simp only [hdrain]
        · have hmore := codec.decode_partial hq.symm hnil
          refine ⟨[], a :: as, buf, rfl, ?_, ?_, hmore⟩
          · rw [Codec.drain, hmore]
          · exact h
      · have hlen : rest.length ≤ n := by
          have hpos := List.length_pos_iff.mpr (encode_ne_nil codec a)
          rw [List.length_append] at hn
          omega
        obtain ⟨as₁, as₂, left, rfl, hdrain, hleft, hmore⟩ := ih hlen hrest.symm
        refine ⟨a :: as₁, as₂, left, rfl, ?_, hleft, hmore⟩
        rw [Codec.drain, codec.decode_encode]
        simp only [hdrain]

/-- **Any stream**: the frames read were in the buffer. -/
theorem Codec.drain_spec (codec : Codec α β) (n : ℕ) (buf : List β) :
    ∃ rest, buf = codec.encodeAll (codec.drain n buf).1 ++ rest ∧
      ∀ left, (codec.drain n buf).2 = some left → left = rest := by
  induction n generalizing buf with
  | zero => exact ⟨buf, rfl, fun left hleft => (Option.some.inj hleft).symm⟩
  | succ n ih =>
    rw [Codec.drain]
    split
    · exact ⟨buf, rfl, fun left hleft => (Option.some.inj hleft).symm⟩
    · exact ⟨buf, rfl, fun left hleft => by cases hleft⟩
    · rename_i a rest hframe
      obtain ⟨rest', hrest, hleft⟩ := ih rest
      refine ⟨rest', ?_, hleft⟩
      rw [codec.encode_of_decode hframe, encodeAll_cons, List.append_assoc, ← hrest]

variable {r : Reader α β} {chunk : List β}

/-- **A reader of whole frames**, given the next chunk. -/
theorem Reader.feed_stream (hbuf : r.buffer = some buf)
    (h : buf ++ (chunk ++ wire) = codec.encodeAll as) :
    ∃ as₁ as₂ left, as = as₁ ++ as₂ ∧ r.feed codec chunk = ⟨r.frames ++ as₁, some left⟩ ∧
      left ++ wire = codec.encodeAll as₂ ∧ codec.decode left = .more := by
  rw [← List.append_assoc] at h
  obtain ⟨as₁, as₂, left, has, hdrain, hleft, hmore⟩ :=
    Codec.drain_stream (buf ++ chunk).length le_rfl h
  refine ⟨as₁, as₂, left, has, ?_, hleft, hmore⟩
  simp only [Reader.feed, hbuf, hdrain]

/-- What a reader has of the stream. -/
def Reader.held (codec : Codec α β) (r : Reader α β) : ℕ :=
  (codec.encodeAll r.frames).length + (r.buffer.getD []).length

lemma Reader.held_feed (codec : Codec α β) (r : Reader α β) (chunk : List β) :
    (r.feed codec chunk).held codec ≤ r.held codec + chunk.length := by
  obtain ⟨frames, _ | buf⟩ := r
  · exact Nat.le_add_right _ _
  · obtain ⟨rest, hrest, hleft⟩ :=
      codec.drain_spec (buf ++ chunk).length (buf ++ chunk)
    have hlen := congrArg List.length hrest
    rw [List.length_append, List.length_append] at hlen
    have hbuffer : ((codec.drain (buf ++ chunk).length (buf ++ chunk)).2.getD []).length ≤
        rest.length := by
      cases hend : (codec.drain (buf ++ chunk).length (buf ++ chunk)).2 with
      | none => exact Nat.zero_le _
      | some left => exact (congrArg List.length (hleft left hend)).le
    simp only [Reader.held, Reader.feed, encodeAll_append, List.length_append, Option.getD_some]
    simp only [List.length_append] at hbuffer hlen
    omega

/-! ### Length-delimited frames -/

/-- What a frame may hold. -/
abbrev Payload (max : ℕ) := { bytes : List UInt8 // bytes.length ≤ max }

/-- Four bytes, the most significant first. -/
def header (n : ℕ) : List UInt8 :=
  [UInt8.ofNat (n / 256 ^ 3), UInt8.ofNat (n / 256 ^ 2), UInt8.ofNat (n / 256), UInt8.ofNat n]

def headerValue (b₃ b₂ b₁ b₀ : UInt8) : ℕ :=
  ((b₃.toNat * 256 + b₂.toNat) * 256 + b₁.toNat) * 256 + b₀.toNat

lemma headerValue_header {n : ℕ} (h : n < 256 ^ 4) :
    headerValue (UInt8.ofNat (n / 256 ^ 3)) (UInt8.ofNat (n / 256 ^ 2)) (UInt8.ofNat (n / 256))
      (UInt8.ofNat n) = n := by
  simp only [headerValue, UInt8.toNat_ofNat']
  omega

lemma header_headerValue (b₃ b₂ b₁ b₀ : UInt8) :
    header (headerValue b₃ b₂ b₁ b₀) = [b₃, b₂, b₁, b₀] := by
  have h₃ := b₃.toNat_lt
  have h₂ := b₂.toNat_lt
  have h₁ := b₁.toNat_lt
  have h₀ := b₀.toNat_lt
  simp only [header, headerValue, List.cons.injEq, and_true]
  refine ⟨?_, ?_, ?_, ?_⟩ <;> apply UInt8.toNat_inj.mp <;> rw [UInt8.toNat_ofNat'] <;> omega

def decodeDelimited (max : ℕ) : List UInt8 → Decoded (Payload max) UInt8
  | b₃ :: b₂ :: b₁ :: b₀ :: rest =>
    if hmax : headerValue b₃ b₂ b₁ b₀ ≤ max then
      if headerValue b₃ b₂ b₁ b₀ ≤ rest.length then
        .frame ⟨rest.take (headerValue b₃ b₂ b₁ b₀), (List.length_take_le _ _).trans hmax⟩
          (rest.drop (headerValue b₃ b₂ b₁ b₀))
      else .more
    else .bad
  | _ => .more

lemma decodeDelimited_header {max : ℕ} (h : max < 256 ^ 4) {n : ℕ} (hn : n ≤ max)
    (rest : List UInt8) :
    decodeDelimited max (header n ++ rest) =
      if n ≤ rest.length then
        .frame ⟨rest.take n, (List.length_take_le _ _).trans hn⟩ (rest.drop n)
      else .more := by
  have hvalue := headerValue_header (hn.trans_lt h)
  simp only [header, List.cons_append, List.nil_append, decodeDelimited]
  simp only [hvalue, hn, dif_pos]

/-- A payload after its length. -/
def lengthDelimited (max : ℕ) (h : max < 256 ^ 4) : Codec (Payload max) UInt8 where
  encode a := header a.1.length ++ a.1
  decode := decodeDelimited max
  decode_nil := rfl
  decode_encode a rest := by
    rw [List.append_assoc, decodeDelimited_header h a.2, if_pos (by simp)]
    congr
    · simp
    · simp
  decode_partial := by
    rintro ⟨bytes, hbytes⟩ p q hpq hq
    rcases p with _ | ⟨b₃, _ | ⟨b₂, _ | ⟨b₁, _ | ⟨b₀, p⟩⟩⟩⟩
    · rfl
    · rfl
    · rfl
    · rfl
    · have hsplit : [b₃, b₂, b₁, b₀] ++ (p ++ q) = header bytes.length ++ bytes := hpq
      obtain ⟨hheader, hp⟩ := List.append_inj hsplit rfl
      have hlen := congrArg List.length hp
      have hpos := List.length_pos_iff.mpr hq
      rw [List.length_append] at hlen
      change decodeDelimited max ([b₃, b₂, b₁, b₀] ++ p) = .more
      rw [hheader, decodeDelimited_header h hbytes, if_neg (by omega)]
  encode_of_decode := by
    rintro buf a rest hdecode
    rcases buf with _ | ⟨b₃, _ | ⟨b₂, _ | ⟨b₁, _ | ⟨b₀, buf⟩⟩⟩⟩
    · cases hdecode
    · cases hdecode
    · cases hdecode
    · cases hdecode
    · rw [decodeDelimited] at hdecode
      split_ifs at hdecode with hmax hlen
      cases hdecode
      dsimp only
      rw [List.length_take_of_le hlen, header_headerValue, List.append_assoc, List.take_append_drop]
      rfl

end OmniPaxosKV.Framing
