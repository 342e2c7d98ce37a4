import OmniPaxosKV.Common
import OmniPaxosKV.Framing
import OmniPaxosKV.TransSys
import OmniPaxosKV.Varint

/-!
The registration of a connection, byte by byte.

Who dials writes a registration frame, and then its messages over the same stream. Who accepts
reads up to the registration through a framed stream of its own, of which `into_inner` keeps the
stream and drops what was read already, and reads the messages through another one.

`delivered_iff` says when the messages get through: when no read goes on past the registration.
`delivered_of_waits` says that a side which waits for an answer before its first message, as a
client does that has just been started, never loses any.
-/

namespace OmniPaxosKV.Handshake

open Common Framing TransSys

inductive RegistrationMessage
  | NodeRegister (id : NodeId)
  | ClientRegister
  deriving DecidableEq

/-- How frames are written, and a registration in a frame. -/
structure Format (F β : Type*) where
  codec : Codec F β
  serialize : RegistrationMessage → F
  deserialize : F → Option RegistrationMessage

inductive Acceptor (F β : Type*)
  /-- In `handle_incoming_connection`, before the registration, with what was read. -/
  | registering (buffer : List β)
  /-- With the reader of the connection. -/
  | connected (message : RegistrationMessage) (reader : Reader F β)
  | returned
  deriving DecidableEq

structure Link (F β : Type*) where
  /-- Written to the stream and not yet read. -/
  wire : List β
  acceptor : Acceptor F β
  /-- The accepting side has sent something. -/
  answered : Bool
  /-- What was written after the registration. -/
  written : List F
  deriving DecidableEq

inductive Action (F : Type*)
  | write (frame : F)
  | read (k : ℕ)
  | answer

section Model

variable {F β : Type*} (fmt : Format F β)

/-- `next` of the registration connection. -/
def register (buffer : List β) : Acceptor F β :=
  match fmt.codec.decode buffer with
  | .more => .registering buffer
  | .bad => .returned
  | .frame frame _ =>
    match fmt.deserialize frame with
    | some message => .connected message .init
    | none => .returned

def Acceptor.read (chunk : List β) : Acceptor F β → Acceptor F β
  | .registering buffer => register fmt (buffer ++ chunk)
  | .connected message reader => .connected message (reader.feed fmt.codec chunk)
  | .returned => .returned

/-- The frames that the reader task was given. -/
def Acceptor.frames : Acceptor F β → List F
  | .registering _ => []
  | .connected _ reader => reader.frames
  | .returned => []

/-- Where `waits` is set the dialing side writes no frame before it has an answer. -/
def step (waits : Bool) (s : Link F β) : Action F → Option (Link F β)
  | .write frame =>
    if waits → s.answered then
      some { s with
        wire := s.wire ++ fmt.codec.encode frame
        written := s.written ++ [frame] }
    else none
  | .read k =>
    if 0 < k ∧ k ≤ s.wire.length then
      some { s with
        wire := s.wire.drop k
        acceptor := s.acceptor.read fmt (s.wire.take k) }
    else none
  | .answer =>
    match s.acceptor with
    | .connected _ _ => some { s with answered := true }
    | .registering _ => none
    | .returned => none

/-- The registration is written. -/
def start (message : RegistrationMessage) : Link F β where
  wire := fmt.codec.encode (fmt.serialize message)
  acceptor := .registering []
  answered := false
  written := []

def system (waits : Bool) (message : RegistrationMessage) : System (Link F β) (Action F) where
  init s := s = start fmt message
  step := step fmt waits

/-- A read that does not go past the registration. -/
def Stops (message : RegistrationMessage) (s : Link F β) : Action F → Prop
  | .read k =>
    match s.acceptor with
    | .registering buffer =>
      buffer.length + k ≤ (fmt.codec.encode (fmt.serialize message)).length
    | .connected _ _ => True
    | .returned => True
  | .write _ => True
  | .answer => True

instance (message : RegistrationMessage) (s : Link F β) (a : Action F) :
    Decidable (Stops fmt message s a) := by
  rcases a with _ | k | _
  · exact instDecidableTrue
  · unfold Stops
    rcases s.acceptor with _ | _ | _ <;> infer_instance
  · exact instDecidableTrue

end Model

variable {F β : Type*} {fmt : Format F β} {waits : Bool} {message : RegistrationMessage}
  {s s' : Link F β} {a : Action F}

/-- The state up to the registration. -/
structure Registering (fmt : Format F β) (message : RegistrationMessage) (s : Link F β)
    (buf : List β) : Prop where
  acceptor : s.acceptor = .registering buf
  stream : buf ++ s.wire =
    fmt.codec.encode (fmt.serialize message) ++ fmt.codec.encodeAll s.written
  more : fmt.codec.decode buf = .more

/-- The state of a connection that has lost nothing, with the frames `rest` yet to be read. -/
structure Whole (fmt : Format F β) (message : RegistrationMessage) (s : Link F β)
    (reader : Reader F β) (buf : List β) (rest : List F) : Prop where
  acceptor : s.acceptor = .connected message reader
  buffer : reader.buffer = some buf
  written : s.written = reader.frames ++ rest
  stream : buf ++ s.wire = fmt.codec.encodeAll rest
  more : fmt.codec.decode buf = .more

/-- The state of a connection that has lost a part of the stream. -/
structure Torn (fmt : Format F β) (message : RegistrationMessage) (s : Link F β)
    (reader : Reader F β) : Prop where
  acceptor : s.acceptor = .connected message reader
  short : reader.held fmt.codec + s.wire.length < (fmt.codec.encodeAll s.written).length

/-- Nothing was lost. -/
def Intact (fmt : Format F β) (message : RegistrationMessage) (s : Link F β) : Prop :=
  (∃ buf, Registering fmt message s buf) ∨ ∃ reader buf rest, Whole fmt message s reader buf rest

lemma intact_start (fmt : Format F β) (message : RegistrationMessage) :
    Intact fmt message (start fmt message) :=
  .inl ⟨[], rfl, (List.append_nil _).symm, fmt.codec.decode_nil⟩

lemma Whole.held {reader : Reader F β} {buf : List β} {rest : List F}
    (h : Whole fmt message s reader buf rest) :
    reader.held fmt.codec + s.wire.length = (fmt.codec.encodeAll s.written).length := by
  have hlen := congrArg List.length h.stream
  rw [List.length_append] at hlen
  rw [h.written, encodeAll_append, List.length_append, Reader.held, h.buffer, Option.getD_some]
  omega

lemma Torn.not_intact {reader : Reader F β} (h : Torn fmt message s reader) :
    ¬ Intact fmt message s := by
  rintro (⟨buf, hreg⟩ | ⟨reader', buf, rest, hwhole⟩)
  · have hne := hreg.acceptor.symm.trans h.acceptor
    cases hne
  · cases hwhole.acceptor.symm.trans h.acceptor
    exact h.short.ne hwhole.held

/-! ### The steps -/

lemma step_read {k : ℕ} (hs : step fmt waits s (.read k) = some s') :
    (0 < k ∧ k ≤ s.wire.length) ∧ s' = { s with
      wire := s.wire.drop k
      acceptor := s.acceptor.read fmt (s.wire.take k) } := by
  simp only [step] at hs
  split at hs
  · exact ⟨‹_›, (Option.some.inj hs).symm⟩
  · cases hs

lemma step_write {frame : F} (hs : step fmt waits s (.write frame) = some s') :
    s' = { s with
      wire := s.wire ++ fmt.codec.encode frame
      written := s.written ++ [frame] } := by
  simp only [step] at hs
  split at hs
  · exact (Option.some.inj hs).symm
  · cases hs

lemma step_answer (hs : step fmt waits s .answer = some s') :
    s' = { s with answered := true } := by
  simp only [step] at hs
  split at hs
  · exact (Option.some.inj hs).symm
  · cases hs
  · cases hs

lemma encodeAll_singleton (frame : F) :
    fmt.codec.encodeAll [frame] = fmt.codec.encode frame :=
  List.append_nil _

/-- The registration is complete: whatever was read past it is dropped. -/
lemma register_complete (hround : fmt.deserialize (fmt.serialize message) = some message)
    (rest : List β) :
    register fmt (fmt.codec.encode (fmt.serialize message) ++ rest) =
      .connected message .init := by
  simp only [register, fmt.codec.decode_encode, hround]

/-- **The end of the registration.** A read that stops there loses nothing, one that goes past it
does. -/
lemma Registering.read (hround : fmt.deserialize (fmt.serialize message) = some message)
    {buf : List β} {k : ℕ} (h : Registering fmt message s buf)
    (hs : step fmt waits s (.read k) = some s') :
    (Stops fmt message s (.read k) → Intact fmt message s') ∧
      (¬ Stops fmt message s (.read k) → ∃ reader, Torn fmt message s' reader) := by
  obtain ⟨⟨-, hk⟩, rfl⟩ := step_read hs
  have hstream : (buf ++ s.wire.take k) ++ s.wire.drop k =
      fmt.codec.encode (fmt.serialize message) ++ fmt.codec.encodeAll s.written := by
    rw [List.append_assoc, List.take_append_drop, h.stream]
  have hlen : (buf ++ s.wire.take k).length = buf.length + k := by
    rw [List.length_append, List.length_take_of_le hk]
  have hread : s.acceptor.read fmt (s.wire.take k) = register fmt (buf ++ s.wire.take k) := by
    rw [h.acceptor]
    rfl
  have hstops : Stops fmt message s (.read k) ↔
      buf.length + k ≤ (fmt.codec.encode (fmt.serialize message)).length := by
    unfold Stops
    rw [h.acceptor]
  rw [hstops, hread, ← hlen]
  rcases List.append_eq_append_iff.mp hstream with ⟨q, hq, hwire⟩ | ⟨lost, hbuf, hlost⟩
  · have hle : (buf ++ s.wire.take k).length ≤
        (fmt.codec.encode (fmt.serialize message)).length := by
      have hlenq := congrArg List.length hq
      rw [List.length_append] at hlenq
      omega
    refine ⟨fun _ => ?_, fun hnot => absurd hle hnot⟩
    by_cases hnil : q = []
    · -- the read ends with the registration
      subst hnil
      rw [List.append_nil] at hq
      refine .inr ⟨.init, [], s.written, ?_, rfl, rfl, hwire, fmt.codec.decode_nil⟩
      have hcomplete := register_complete hround []
      rw [List.append_nil, hq] at hcomplete
      exact hcomplete
    · have hmore := fmt.codec.decode_partial hq.symm hnil
      refine .inl ⟨buf ++ s.wire.take k, ?_, hstream, hmore⟩
      simp only [register, hmore]
  · rw [hbuf, List.length_append]
    by_cases hnil : lost = []
    · subst hnil
      refine ⟨fun _ => .inr ⟨.init, [], s.written, register_complete hround [], rfl, rfl,
        hlost.symm, fmt.codec.decode_nil⟩, fun hnot => absurd (Nat.le_refl _) hnot⟩
    · have hpos := List.length_pos_iff.mpr hnil
      refine ⟨fun hle => by omega, fun _ => ⟨.init, register_complete hround lost, ?_⟩⟩
      have hshort := congrArg List.length hlost
      rw [List.length_append] at hshort
      change 0 + (s.wire.drop k).length < (fmt.codec.encodeAll s.written).length
      omega

lemma Whole.read {reader : Reader F β} {buf : List β} {rest : List F} {k : ℕ}
    (h : Whole fmt message s reader buf rest) (hs : step fmt waits s (.read k) = some s') :
    Intact fmt message s' := by
  obtain ⟨-, rfl⟩ := step_read hs
  have hstream : buf ++ (s.wire.take k ++ s.wire.drop k) = fmt.codec.encodeAll rest := by
    rw [List.take_append_drop, h.stream]
  obtain ⟨as₁, as₂, left, rfl, hfeed, hleft, hmore⟩ := Reader.feed_stream h.buffer hstream
  refine .inr ⟨⟨reader.frames ++ as₁, some left⟩, left, as₂, ?_, rfl, ?_, hleft, hmore⟩
  · rw [h.acceptor, Acceptor.read, hfeed]
  · rw [h.written, List.append_assoc]

lemma Intact.write {frame : F} (h : Intact fmt message s)
    (hs : step fmt waits s (.write frame) = some s') : Intact fmt message s' := by
  obtain rfl := step_write hs
  rcases h with ⟨buf, hreg⟩ | ⟨reader, buf, rest, hwhole⟩
  · refine .inl ⟨buf, hreg.acceptor, ?_, hreg.more⟩
    rw [← List.append_assoc, hreg.stream, encodeAll_append, encodeAll_singleton,
      List.append_assoc]
  · refine .inr ⟨reader, buf, rest ++ [frame], hwhole.acceptor, hwhole.buffer, ?_, ?_,
      hwhole.more⟩
    · rw [hwhole.written, List.append_assoc]
    · rw [← List.append_assoc, hwhole.stream, encodeAll_append, encodeAll_singleton]

lemma Intact.step (hround : fmt.deserialize (fmt.serialize message) = some message)
    (h : Intact fmt message s) (hs : step fmt waits s a = some s') :
    (Stops fmt message s a → Intact fmt message s') ∧
      (¬ Stops fmt message s a → ∃ reader, Torn fmt message s' reader) := by
  cases a with
  | write frame => exact ⟨fun _ => h.write hs, fun hnot => absurd trivial hnot⟩
  | read k =>
    rcases h with ⟨buf, hreg⟩ | ⟨reader, buf, rest, hwhole⟩
    · exact hreg.read hround hs
    · refine ⟨fun _ => hwhole.read hs, fun hnot => absurd ?_ hnot⟩
      unfold Stops
      rw [hwhole.acceptor]
      trivial
  | answer =>
    obtain rfl := step_answer hs
    refine ⟨fun _ => ?_, fun hnot => absurd trivial hnot⟩
    rcases h with ⟨buf, hreg⟩ | ⟨reader, buf, rest, hwhole⟩
    · exact .inl ⟨buf, hreg.acceptor, hreg.stream, hreg.more⟩
    · exact .inr ⟨reader, buf, rest, hwhole.acceptor, hwhole.buffer, hwhole.written,
        hwhole.stream, hwhole.more⟩

/-- What is lost stays lost. -/
lemma Torn.step {reader : Reader F β} (h : Torn fmt message s reader)
    (hs : step fmt waits s a = some s') : ∃ reader, Torn fmt message s' reader := by
  have hshort := h.short
  cases a with
  | write frame =>
    obtain rfl := step_write hs
    refine ⟨reader, h.acceptor, ?_⟩
    rw [encodeAll_append, encodeAll_singleton]
    dsimp only
    rw [List.length_append, List.length_append]
    omega
  | read k =>
    obtain ⟨⟨-, hk⟩, rfl⟩ := step_read hs
    refine ⟨reader.feed fmt.codec (s.wire.take k), ?_, ?_⟩
    · rw [h.acceptor, Acceptor.read]
    · have hheld := reader.held_feed fmt.codec (s.wire.take k)
      rw [List.length_take_of_le hk] at hheld
      rw [List.length_drop]
      dsimp only
      omega
  | answer =>
    obtain rfl := step_answer hs
    exact ⟨reader, h.acceptor, hshort⟩

/-! ### Runs -/

lemma Intact.frames (h : Intact fmt message s) : s.acceptor.frames <+: s.written := by
  rcases h with ⟨buf, hreg⟩ | ⟨reader, buf, rest, hwhole⟩
  · rw [hreg.acceptor]
    exact List.nil_prefix
  · rw [hwhole.acceptor, hwhole.written]
    exact List.prefix_append _ _

lemma Intact.delivered (h : Intact fmt message s) (hwire : s.wire = []) :
    (∃ reader, s.acceptor = .connected message reader) ∧ s.acceptor.frames = s.written := by
  rcases h with ⟨buf, hreg⟩ | ⟨reader, buf, rest, hwhole⟩
  · -- the registration has been read
    have hstream := hreg.stream
    have hmore := hreg.more
    rw [hwire, List.append_nil] at hstream
    rw [hstream, fmt.codec.decode_encode] at hmore
    cases hmore
  · have hstream := hwhole.stream
    rw [hwire, List.append_nil] at hstream
    obtain rfl := eq_nil_of_more hwhole.more hstream
    refine ⟨⟨reader, hwhole.acceptor⟩, ?_⟩
    rw [hwhole.acceptor, hwhole.written, List.append_nil]
    rfl

lemma Torn.frames_ne {reader : Reader F β} (h : Torn fmt message s reader) :
    s.acceptor.frames ≠ s.written := by
  rw [h.acceptor]
  intro heq
  have hshort := h.short
  rw [← heq, Reader.held] at hshort
  change _ < (fmt.codec.encodeAll reader.frames).length at hshort
  omega

/-- **When the messages get through**: in every run after which all that was written is read, the
side that accepts knows who dialed, and its reader was given the frames written, each once and in
order, if and only if no read went past the registration. -/
theorem delivered_iff (hround : fmt.deserialize (fmt.serialize message) = some message)
    {as : List (Action F)}
    (hr : (system fmt waits message).run (start fmt message) as = some s) (hwire : s.wire = []) :
    (∃ reader, s.acceptor = .connected message reader) ∧
      (s.acceptor.frames = s.written ↔
        (system fmt waits message).Meets (Stops fmt message) (start fmt message) as) := by
  have hrun := System.run_iff_meets (C := Stops fmt message)
    (I := fun s => Intact fmt message s ∨ ∃ reader, Torn fmt message s reader)
    (P := Intact fmt message) ?_ ?_ (.inl (intact_start fmt message)) hr
  · obtain ⟨hinv, hiff⟩ := hrun
    have hintact : Intact fmt message s ↔
        (system fmt waits message).Meets (Stops fmt message) (start fmt message) as :=
      hiff.trans (and_iff_right (intact_start fmt message))
    rcases hinv with hint | ⟨reader, htorn⟩
    · obtain ⟨hconnected, hframes⟩ := hint.delivered hwire
      exact ⟨hconnected, iff_of_true hframes (hintact.mp hint)⟩
    · refine ⟨⟨reader, htorn.acceptor⟩, iff_of_false htorn.frames_ne ?_⟩
      exact fun hmeets => htorn.not_intact (hintact.mpr hmeets)
  · rintro s a s' (hint | ⟨reader, htorn⟩) hs
    · by_cases hstops : Stops fmt message s a
      · exact .inl ((hint.step hround hs).1 hstops)
      · exact .inr ((hint.step hround hs).2 hstops)
    · exact .inr (htorn.step hs)
  · rintro s a s' (hint | ⟨reader, htorn⟩) hs
    · refine ⟨fun hint' => ⟨hint, ?_⟩, fun h => (hint.step hround hs).1 h.2⟩
      by_contra hstops
      obtain ⟨reader, htorn⟩ := (hint.step hround hs).2 hstops
      exact htorn.not_intact hint'
    · obtain ⟨reader', htorn'⟩ := htorn.step hs
      exact iff_of_false htorn'.not_intact fun h => htorn.not_intact h.1

/-! ### Bincode -/

/-- The number of the variant and, if there is one, the id, as varints. -/
def serializeRegistration : RegistrationMessage → List UInt8
  | .NodeRegister id => Varint.encode 0 ++ Varint.encode id
  | .ClientRegister => Varint.encode 1

/-- Bytes that are left over are an error. -/
def deserializeRegistration (bytes : List UInt8) : Option RegistrationMessage :=
  match Varint.decode bytes with
  | some (0, rest) =>
    match Varint.decode rest with
    | some (id, []) => some (.NodeRegister id)
    | _ => none
  | some (1, []) => some .ClientRegister
  | _ => none

/-- Ids have 64 bits. -/
def RegistrationMessage.Fits : RegistrationMessage → Prop
  | .NodeRegister id => id < 256 ^ 8
  | .ClientRegister => True

instance (message : RegistrationMessage) : Decidable message.Fits := by
  cases message <;> unfold RegistrationMessage.Fits <;> infer_instance

lemma deserialize_serialize (h : message.Fits) :
    deserializeRegistration (serializeRegistration message) = some message := by
  cases message with
  | NodeRegister id =>
    have hvariant : Varint.decode (Varint.encode 0 ++ Varint.encode id) =
        some (0, Varint.encode id) := Varint.decode_encode (by decide) _
    have hid : Varint.decode (Varint.encode id) = some (id, []) := by
      have hdecode := Varint.decode_encode h []
      rwa [List.append_nil] at hdecode
    simp only [deserializeRegistration, serializeRegistration, hvariant, hid]
  | ClientRegister => decide

lemma length_serialize (message : RegistrationMessage) :
    (serializeRegistration message).length ≤ 18 := by
  cases message with
  | NodeRegister id =>
    have hvariant := Varint.length_encode_le 0
    have hid := Varint.length_encode_le id
    rw [serializeRegistration, List.length_append]
    omega
  | ClientRegister => decide

def maxFrameLength : ℕ := 8 * 1024 * 1024

/-- `Bincode` in frames of `LengthDelimitedCodec`, both as they are by default. -/
def bincode : Format (Payload maxFrameLength) UInt8 where
  codec := lengthDelimited maxFrameLength (by decide)
  serialize message := ⟨serializeRegistration message,
    (length_serialize message).trans (by decide)⟩
  deserialize frame := deserializeRegistration frame.1

lemma bincode_round (h : message.Fits) :
    bincode.deserialize (bincode.serialize message) = some message := deserialize_serialize h

/-- `LeaderStartSignal(5)`: the number of the variant, and the time, which is doubled for its
sign. -/
def startSignal : Payload maxFrameLength := ⟨[1, 10], by decide⟩

/-- Server 3 dials and sends its first message, and all of it arrives in one read. -/
def coalesced : List (Action (Payload maxFrameLength)) := [.write startSignal, .read 12]

theorem delivered_coalesced : ∃ s,
    (system bincode false (.NodeRegister 3)).run (start bincode (.NodeRegister 3)) coalesced =
      some s ∧ s.acceptor.frames = [] ∧ s.written = [startSignal] ∧
    (∃ reader, s.acceptor = .connected (.NodeRegister 3) reader) ∧
      (s.acceptor.frames = s.written ↔ (system bincode false (.NodeRegister 3)).Meets
        (Stops bincode (.NodeRegister 3)) (start bincode (.NodeRegister 3)) coalesced) := by
  obtain ⟨s, hr, hframes, hwritten, hwire⟩ : ∃ s,
      (system bincode false (.NodeRegister 3)).run (start bincode (.NodeRegister 3)) coalesced =
        some s ∧ s.acceptor.frames = [] ∧ s.written = [startSignal] ∧ s.wire = [] :=
    ⟨_, rfl, by decide, by decide, by decide⟩
  exact ⟨s, hr, hframes, hwritten, delivered_iff (bincode_round (by decide)) hr hwire⟩

/-- Before an answer there is nothing but the registration to read. -/
structure Waiting (fmt : Format F β) (message : RegistrationMessage) (s : Link F β) : Prop where
  intact : Intact fmt message s
  registering : ∀ buf, s.acceptor = .registering buf → s.answered = false
  written : s.answered = false → s.written = []

lemma Waiting.step (hround : fmt.deserialize (fmt.serialize message) = some message)
    (h : Waiting fmt message s) (hs : step fmt true s a = some s') :
    Waiting fmt message s' := by
  have hstops : Stops fmt message s a := by
    rcases a with _ | k | _
    · trivial
    · unfold Stops
      rcases h.intact with ⟨buf, hreg⟩ | ⟨reader, buf, rest, hwhole⟩
      · have hstream := congrArg List.length hreg.stream
        rw [h.written (h.registering buf hreg.acceptor), List.length_append,
          List.length_append] at hstream
        obtain ⟨⟨-, hk⟩, -⟩ := step_read hs
        rw [hreg.acceptor]
        change buf.length + k ≤ _
        change buf.length + s.wire.length = _ + 0 at hstream
        omega
      · rw [hwhole.acceptor]
        trivial
    · trivial
  have hint := (h.intact.step hround hs).1 hstops
  cases a with
  | write frame =>
    simp only [Handshake.step] at hs
    split at hs
    · rename_i hwaits
      obtain rfl := Option.some.inj hs
      have hanswered : s.answered = true := by simpa using hwaits
      refine ⟨hint, h.registering, fun hnot => ?_⟩
      rw [hnot] at hanswered
      cases hanswered
    · cases hs
  | read k =>
    obtain ⟨-, rfl⟩ := step_read hs
    refine ⟨hint, fun buf hacceptor => ?_, h.written⟩
    cases hbefore : s.acceptor with
    | registering buf' => exact h.registering buf' hbefore
    | connected message' reader =>
      rw [hbefore] at hacceptor
      cases hacceptor
    | returned =>
      rw [hbefore] at hacceptor
      cases hacceptor
  | answer =>
    simp only [Handshake.step] at hs
    split at hs
    · rename_i message' reader hconnected
      obtain rfl := Option.some.inj hs
      refine ⟨hint, fun buf hacceptor => ?_, fun hnot => by cases hnot⟩
      have hne := hconnected.symm.trans hacceptor
      cases hne
    · cases hs
    · cases hs

/-- **Who waits loses nothing**: where the dialing side writes no frame before it has an answer,
what the reader was given is the start of what was written, and all of it once all is read. -/
theorem delivered_of_waits (hround : fmt.deserialize (fmt.serialize message) = some message)
    (h : (system fmt true message).Reachable s) :
    s.acceptor.frames <+: s.written ∧ s.acceptor ≠ .returned ∧
      (s.wire = [] → s.acceptor.frames = s.written) := by
  have hinv : Waiting fmt message s := by
    refine System.Reaches.invariant (I := Waiting fmt message) ?_ ?_ h
    · rintro s rfl
      exact ⟨intact_start fmt message, fun _ _ => rfl, fun _ => rfl⟩
    · exact fun s a s' hwaiting hs _ => hwaiting.step hround hs
  refine ⟨hinv.intact.frames, ?_, fun hwire => (hinv.intact.delivered hwire).2⟩
  rcases hinv.intact with ⟨buf, hreg⟩ | ⟨reader, buf, rest, hwhole⟩
  · rw [hreg.acceptor]
    exact fun h => by cases h
  · rw [hwhole.acceptor]
    exact fun h => by cases h

/-- `Append(0, Get("k"))`: the numbers of the variants, the id, and the key after its length. -/
def getRequest : Payload maxFrameLength := ⟨[0, 0, 2, 1, 107], by decide⟩

/-- A client registers, gets its answer and sends two requests, which arrive in three reads. -/
def answeredFirst : List (Action (Payload maxFrameLength)) :=
  [.read 3, .read 2, .answer, .write getRequest, .write getRequest, .read 7, .read 1, .read 10]

theorem delivered_answeredFirst : ∃ s,
    (system bincode true .ClientRegister).run (start bincode .ClientRegister) answeredFirst =
      some s ∧ s.acceptor.frames = [getRequest, getRequest] ∧
    s.acceptor.frames <+: s.written ∧ s.acceptor ≠ .returned ∧
      (s.wire = [] → s.acceptor.frames = s.written) := by
  have hinit : (system bincode true .ClientRegister).init (start bincode .ClientRegister) := rfl
  obtain ⟨s, hr, hframes⟩ : ∃ s,
      (system bincode true .ClientRegister).run (start bincode .ClientRegister) answeredFirst =
        some s ∧ s.acceptor.frames = [getRequest, getRequest] := ⟨_, rfl, by decide⟩
  exact ⟨s, hr, hframes, delivered_of_waits (bincode_round (by decide))
    (System.Reachable.run (.init hinit) answeredFirst hr)⟩

end OmniPaxosKV.Handshake
