import OwlcatMonoProfiler.Library.LittleEndian
import OwlcatMonoProfiler.Library.Run
import OwlcatMonoProfiler.Network.Protocol

/-!
# Messages on the stream

`write_message` and the read loop of `network/src/network.cpp` on the two ends of a connection.  A
write is started without waiting for the one before, and the bytes of the writes that are
outstanding come in any order; the reader takes eight bytes for a header, then as many as the header
says.

* `Packet.frame`: header and data of a message, one after the other;
* `State`, `step`: the outstanding writes, the bytes on their way, and the reader;
* `OldestFirst`: a write sends only when all writes started before it are complete;
* `Inv.step`: then the bytes are the frames of the messages, one after the other;
* `messages_whole`: and the reader enqueues the messages in the order in which they were written.
-/

namespace Owlcat

/-- What the compiler leaves between the members of a header and behind them. -/
abbrev Padding := UInt8 × UInt8 × UInt8

/-- The eight bytes of `message::header`. -/
def Packet.header (p : Packet) (padding : Padding) : List UInt8 :=
  LittleEndian.toBytes 4 p.data.length ++ [p.type, padding.1, padding.2.1, padding.2.2]

/-- The buffers of one write, header and data. -/
def Packet.frame (p : Packet) (padding : Padding) : List UInt8 := p.header padding ++ p.data

namespace Wire

/-- What the reader waits for: a header, or the data of a message.  `failed` is behind the assertion
that the length is positive. -/
inductive Awaiting
  | header
  | body (length : ℕ) (type : UInt8)
  | failed
  deriving DecidableEq

/-- The messages that were written, what is left to send of each write that is not complete, oldest
first, the bytes that were sent and not read yet, and the reader with its queue. -/
structure State where
  written : List Packet := []
  outstanding : List (List UInt8) := []
  stream : List UInt8 := []
  awaiting : Awaiting := .header
  readBuffer : List Packet := []
  deriving DecidableEq

/-- A call of `write_message`, a piece of an outstanding write that is sent, and a read that
completes. -/
inductive Action
  | writeMessage (p : Packet) (padding : Padding)
  | send (i n : ℕ)
  | read
  deriving DecidableEq

/-- What is left of the writes when one of them has sent `n` bytes. -/
def sent (outstanding : List (List UInt8)) (i n : ℕ) (rest : List UInt8) : List (List UInt8) :=
  if rest.length ≤ n then outstanding.eraseIdx i else outstanding.set i (rest.drop n)

/-- `on_header_read`, `on_body_read`: a read completes once it has all of its bytes. -/
def read (s : State) : Option State :=
  match s.awaiting with
  | .header =>
    match s.stream with
    | b₀ :: b₁ :: b₂ :: b₃ :: type :: _ :: _ :: _ :: stream =>
      let length := LittleEndian.ofBytes [b₀, b₁, b₂, b₃]
      some { s with
        stream := stream
        awaiting := if length = 0 then .failed else .body length type }
    | _ => none
  | .body length type =>
    if length ≤ s.stream.length then
      some { s with
        stream := s.stream.drop length
        awaiting := .header
        readBuffer := s.readBuffer ++ [⟨type, s.stream.take length⟩] }
    else none
  | .failed => none

/-- The state after a step. -/
def step (s : State) : Action → Option State
  | .writeMessage p padding =>
    if p.data ≠ [] ∧ p.data.length < 2 ^ 32 then
      some { s with
        written := s.written ++ [p], outstanding := s.outstanding ++ [p.frame padding] }
    else none
  | .send i n =>
    match s.outstanding[i]? with
    | none => none
    | some rest =>
      if n = 0 then none
      else some { s with
        outstanding := sent s.outstanding i n rest, stream := s.stream ++ rest.take n }
  | .read => read s

/-- Only the oldest write sends. -/
def OldestFirst (_ : State) : Action → Prop
  | .send i _ => i = 0
  | _ => True

/-- A message is written when the one before is sent. -/
def OneAtATime (s : State) : Action → Prop
  | .writeMessage .. => s.outstanding = []
  | _ => True

instance (s : State) : ∀ a, Decidable (OldestFirst s a)
  | .send i _ => inferInstanceAs (Decidable (i = 0))
  | .writeMessage .. | .read => .isTrue trivial

/-! ### The frames on the stream -/

/-- Messages with their padding, as they are sent. -/
def frames (l : List (Packet × Padding)) : List UInt8 := l.flatMap fun e => e.1.frame e.2

/-- What the reader still needs of the message it is in, and the message. -/
def Awaiting.Matches : Awaiting → List UInt8 → List Packet → Prop
  | .header, bytes, messages => bytes = [] ∧ messages = []
  | .body length type, bytes, messages =>
    messages = [⟨type, bytes⟩] ∧ length = bytes.length ∧ bytes ≠ []
  | .failed, _, _ => False

/-- **The invariant of the stream.**  The bytes that are not read yet are the rest of the current
message and the frames of the messages behind it. -/
structure Inv (s : State) : Prop where
  fits : ∀ p ∈ s.written, p.data ≠ [] ∧ p.data.length < 2 ^ 32
  bytes : ∃ current rest pending, s.awaiting.Matches rest current ∧
    s.written = s.readBuffer ++ current ++ pending.map Prod.fst ∧
    s.stream ++ s.outstanding.flatten = rest ++ frames pending

theorem Inv.initial : Inv {} := ⟨by simp, [], [], [], ⟨rfl, rfl⟩, rfl, rfl⟩

/-- The reader gets back what the header says. -/
theorem frame_append (p : Packet) (padding : Padding) (hlen : p.data.length < 2 ^ 32)
    (l : List UInt8) :
    ∃ b₀ b₁ b₂ b₃ x y z, LittleEndian.ofBytes [b₀, b₁, b₂, b₃] = p.data.length ∧
      p.frame padding ++ l = b₀ :: b₁ :: b₂ :: b₃ :: p.type :: x :: y :: z :: (p.data ++ l) := by
  have hof := LittleEndian.ofBytes_toBytes (n := 4) (v := p.data.length) (by omega)
  refine ⟨_, _, _, _, padding.1, padding.2.1, padding.2.2, hof, ?_⟩
  simp [Packet.frame, Packet.header, LittleEndian.toBytes]

theorem Inv.writeMessage {s : State} {p : Packet} (h : Inv s)
    (hp : p.data ≠ [] ∧ p.data.length < 2 ^ 32) (padding : Padding) :
    Inv { s with
      written := s.written ++ [p], outstanding := s.outstanding ++ [p.frame padding] } := by
  obtain ⟨current, rest, pending, hmatch, hwritten, hbytes⟩ := h.bytes
  refine ⟨fun q hq => ?_, current, rest, pending ++ [(p, padding)], hmatch, ?_, ?_⟩
  · rcases List.mem_append.1 hq with hq | hq
    · exact h.fits q hq
    · exact List.mem_singleton.1 hq ▸ hp
  · simp [hwritten]
  · simp only [List.flatten_append, List.flatten_singleton, frames, List.flatMap_append,
      List.flatMap_singleton, ← List.append_assoc, hbytes]

/-- Sending from the oldest write moves bytes to the stream. -/
theorem Inv.send {s : State} {n : ℕ} {first : List UInt8} (h : Inv s)
    (hfirst : s.outstanding[0]? = some first) :
    Inv { s with
      outstanding := sent s.outstanding 0 n first, stream := s.stream ++ first.take n } := by
  obtain ⟨current, rest, pending, hmatch, hwritten, hbytes⟩ := h.bytes
  refine ⟨h.fits, current, rest, pending, hmatch, hwritten, ?_⟩
  rw [← hbytes]
  cases houtstanding : s.outstanding with
  | nil => simp [houtstanding] at hfirst
  | cons w ws =>
    obtain rfl : w = first := by simpa [houtstanding] using hfirst
    simp only [sent]
    split_ifs with hn
    · simp [List.take_of_length_le hn]
    · simp only [List.set_cons_zero, List.flatten_cons, List.append_assoc]
      rw [← List.append_assoc (w.take n), List.take_append_drop]

theorem Inv.read {s t : State} (h : Inv s) (hstep : read s = some t) : Inv t := by
  obtain ⟨current, rest, pending, hmatch, hwritten, hbytes⟩ := h.bytes
  unfold Wire.read at hstep
  cases hawaiting : s.awaiting with
  | header =>
    simp only [hawaiting] at hstep
    rw [hawaiting] at hmatch
    obtain ⟨rfl, rfl⟩ := hmatch
    rw [List.append_nil] at hwritten
    split at hstep
    · rename_i b₀ b₁ b₂ b₃ type x y z stream hstream
      cases hstep
      match pending, hwritten, hbytes with
      | [], _, hbytes => simp [hstream, frames] at hbytes
      | (p, padding) :: pending, hwritten, hbytes =>
        obtain ⟨hne, hlt⟩ := h.fits p (by simp [hwritten])
        obtain ⟨c₀, c₁, c₂, c₃, x', y', z', hof, hframe⟩ :=
          frame_append p padding hlt (frames pending)
        have hall : b₀ :: b₁ :: b₂ :: b₃ :: type :: x :: y :: z ::
            (stream ++ s.outstanding.flatten) = p.frame padding ++ frames pending := by
          rw [hstream] at hbytes
          exact hbytes
        rw [hframe] at hall
        simp only [List.cons.injEq] at hall
        obtain ⟨rfl, rfl, rfl, rfl, rfl, -, -, -, hrest⟩ := hall
        -- an empty body would end the chain of reads
        have hpos : LittleEndian.ofBytes [b₀, b₁, b₂, b₃] ≠ 0 := by
          rw [hof]
          exact fun h0 => hne (List.length_eq_zero_iff.1 h0)
        refine ⟨h.fits, [p], p.data, pending, ?_, ?_, hrest⟩
        · simp only [if_neg hpos]
          exact ⟨rfl, hof, hne⟩
        · simp [hwritten]
    · cases hstep
  | body length type =>
    simp only [hawaiting] at hstep
    rw [hawaiting] at hmatch
    obtain ⟨rfl, rfl, -⟩ := hmatch
    split_ifs at hstep with hlen
    cases hstep
    have htake : s.stream.take rest.length = rest := by
      rw [← List.take_append_of_le_length hlen, hbytes, List.take_left]
    have hdrop : s.stream.drop rest.length ++ s.outstanding.flatten = frames pending := by
      rw [← List.drop_append_of_le_length hlen, hbytes, List.drop_left]
    refine ⟨h.fits, [], [], pending, ⟨rfl, rfl⟩, ?_, hdrop⟩
    rw [htake, hwritten, List.append_nil]
  | failed => simp [hawaiting] at hstep

/-- **Every step keeps the frames together**, if the oldest write sends first. -/
theorem Inv.step {s t : State} {a : Action} (h : Inv s) (hfirst : OldestFirst s a)
    (hstep : step s a = some t) : Inv t := by
  cases a with
  | writeMessage p padding =>
    simp only [Wire.step] at hstep
    split_ifs at hstep with hp
    cases hstep
    exact h.writeMessage hp padding
  | send i n =>
    obtain rfl : i = 0 := hfirst
    simp only [Wire.step] at hstep
    cases hrest : s.outstanding[0]? with
    | none => simp [hrest] at hstep
    | some rest =>
      simp only [hrest] at hstep
      split_ifs at hstep
      cases hstep
      exact h.send hrest
  | read => exact h.read hstep

/-- Once everything is sent and nothing can be read, all messages are in the queue. -/
theorem Inv.complete {s : State} (h : Inv s) (hsent : s.outstanding = [])
    (hread : Wire.read s = none) : s.readBuffer = s.written := by
  obtain ⟨current, rest, pending, hmatch, hwritten, hbytes⟩ := h.bytes
  rw [hsent, List.flatten_nil, List.append_nil] at hbytes
  unfold Wire.read at hread
  cases hawaiting : s.awaiting with
  | header =>
    rw [hawaiting] at hmatch
    obtain ⟨rfl, rfl⟩ := hmatch
    match pending, hwritten, hbytes with
    | [], hwritten, _ => simpa using hwritten.symm
    -- a whole frame is there, so its header can be read
    | (p, padding) :: pending, hwritten, hbytes =>
      obtain ⟨-, hlt⟩ := h.fits p (by simp [hwritten])
      obtain ⟨b₀, b₁, b₂, b₃, x, y, z, -, hframe⟩ := frame_append p padding hlt (frames pending)
      have hstream : s.stream = p.frame padding ++ frames pending := hbytes
      rw [hframe] at hstream
      simp [hawaiting, hstream] at hread
  | body length type =>
    rw [hawaiting] at hmatch
    obtain ⟨rfl, rfl, -⟩ := hmatch
    simp [hawaiting, hbytes] at hread
  | failed =>
    rw [hawaiting] at hmatch
    cases hmatch

/-- **Messages stay whole**, if a write sends only when all earlier ones are complete: the reader
has enqueued the first messages that were written, in their order, and all of them when everything
is sent and read. -/
theorem messages_whole {l : List Action} {s : State} (hrun : Run.run step {} l = some s)
    (hfirst : Run.Along step OldestFirst {} l) :
    s.readBuffer <+: s.written ∧
      (s.outstanding = [] → step s .read = none → s.readBuffer = s.written) := by
  have h : Inv s :=
    Run.run_invariant (fun _ _ _ h hP hstep => h.step hP hstep) Inv.initial hfirst hrun
  refine ⟨?_, h.complete⟩
  obtain ⟨current, rest, pending, -, hwritten, -⟩ := h.bytes
  rw [hwritten, List.append_assoc]
  exact List.prefix_append _ _

/-- When each message is written after the one before is sent, only the oldest write sends. -/
theorem oldestFirst_of_oneAtATime {l : List Action} {s t : State} (hlen : s.outstanding.length ≤ 1)
    (hrun : Run.run step s l = some t) (hone : Run.Along step OneAtATime s l) :
    Run.Along step OldestFirst s l := by
  induction l generalizing s with
  | nil => trivial
  | cons a l ih =>
    obtain ⟨u, hu, hrun⟩ := Option.bind_eq_some_iff.1 hrun
    have hrest : u.outstanding.length ≤ 1 → Run.Along step OldestFirst u l :=
      fun h => ih h hrun (hone.2 u hu)
    cases a with
    | writeMessage p padding =>
      refine .cons trivial hu (hrest ?_)
      have hempty : s.outstanding = [] := hone.1
      simp only [step] at hu
      split_ifs at hu
      cases hu
      simp [hempty]
    | send i n =>
      have hi : i = 0 := by
        simp only [step] at hu
        cases hw : s.outstanding[i]? with
        | none => simp [hw] at hu
        | some w =>
          have := (List.getElem?_eq_some_iff.1 hw).1
          omega
      refine .cons hi hu (hrest ?_)
      simp only [step] at hu
      split at hu
      · cases hu
      · split_ifs at hu
        cases hu
        simp only [sent]
        split_ifs
        · exact (List.length_eraseIdx_le _ _).trans hlen
        · rwa [List.length_set]
    | read =>
      refine .cons trivial hu (hrest ?_)
      have hsame : u.outstanding = s.outstanding := by
        simp only [step, Wire.read] at hu
        split at hu
        · split at hu <;> cases hu
          rfl
        · split_ifs at hu
          cases hu
          rfl
        · cases hu
      rwa [hsame]

/-- Two messages; the second is written before the first is sent, and sends after it. -/
def twoMessages : List Action :=
  [.writeMessage ⟨2, [7]⟩ (0, 0, 0), .send 0 4, .writeMessage ⟨4, [8, 9]⟩ (0, 0, 0), .send 0 5,
    .read, .send 0 10, .read, .read, .read]

theorem messages_whole_twoMessages :
    ∃ s, Run.run step {} twoMessages = some s ∧ s.readBuffer <+: s.written ∧
      (s.outstanding = [] → step s .read = none → s.readBuffer = s.written) :=
  ⟨_, rfl, messages_whole (l := twoMessages) rfl (by decide)⟩

/-- The first write has sent half of its header when the second one sends: the reader takes the
bytes of both for one header. -/
theorem writes_interleave :
    ¬ ∀ (l : List Action) (s : State), Run.run step {} l = some s →
      s.readBuffer <+: s.written ∧
        (s.outstanding = [] → step s .read = none → s.readBuffer = s.written) := by
  intro h
  have h' := h [.writeMessage ⟨2, [7]⟩ (0, 0, 0), .writeMessage ⟨4, [8, 9]⟩ (0, 0, 0), .send 0 4,
    .send 1 10, .send 0 5, .read, .read, .read] _ rfl
  exact absurd h'.1 (by decide)

/-- **The condition is needed**: when two different messages are outstanding and nothing is sent
yet, the second one can come first. -/
theorem overtaking_possible {s : State} {p q : Packet} {padding padding' : Padding}
    (hstream : s.stream = []) (hawaiting : s.awaiting = .header)
    (houtstanding : s.outstanding = [p.frame padding, q.frame padding'])
    (hwritten : s.written = s.readBuffer ++ [p, q]) (hne : p ≠ q)
    (hq : q.data ≠ [] ∧ q.data.length < 2 ^ 32) :
    ∃ l t, Run.run step s l = some t ∧ ¬ t.readBuffer <+: t.written := by
  obtain ⟨b₀, b₁, b₂, b₃, x, y, z, hof, hframe⟩ := frame_append q padding' hq.2 []
  rw [List.append_nil, List.append_nil] at hframe
  have hpos : q.data.length ≠ 0 := fun h0 => hq.1 (List.length_eq_zero_iff.1 h0)
  refine ⟨[.send 1 (q.frame padding').length, .read, .read],
    { s with outstanding := [p.frame padding], readBuffer := s.readBuffer ++ [q] }, ?_, ?_⟩
  · simp [step, houtstanding, sent, hstream, Wire.read, hawaiting, hframe, hof, hpos]
  · rw [hwritten, List.prefix_append_right_inj]
    simpa using fun h : q = p => hne h.symm

end Wire

end Owlcat
