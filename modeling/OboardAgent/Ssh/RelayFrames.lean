import OboardAgent.AgentLink.Frames

/-!
# Datagrams on the relay between agent and kernel

UDP of an SSH user goes through a byte stream between the agent and the kernel: two bytes of length
and the datagram. The agent has one end (`framedRelayPacketConn`,
`internal/agent/outbound_relay.go`), the kernel two: the routed one (`routeRelayPacketConn`,
`cmd/oboard-sb/route_relay.go`) and the one for a named outbound (`relayFramedUDP`,
`cmd/oboard-sb/outbound_relay.go`), each written on its own.

A read takes the buffer of its caller. The agent keeps the length of a datagram that did not fit,
and offers it to the next read; the kernel drops the length and is then out of step. With buffers
for the largest datagram neither happens.

Writes of one end come one after the other: the agent's connection has a lock for that.
-/

namespace OboardAgent.Relay

open AgentLink (putUint16 uint16 uint16_put Stream)
open Chunks (readFull readFull_append readFull_short Sink)

abbrev Datagram := List UInt8

def maxUint16 : Nat := 65535

inductive RelayError
  | eof
  | bufferTooSmall
  | shortBuffer
  | invalidPayload
  | write
  deriving DecidableEq, Repr

/-! ## Writing -/

/-- `Write` of the agent's connection. -/
def FramedRelayPacketConn.write (conn : Sink UInt8) (p : Datagram) : Except RelayError (Sink UInt8) :=
  if p.length = 0 ∨ maxUint16 < p.length then .error .invalidPayload
  else
    match conn.writeAll (putUint16 p.length) with
    | none => .error .write
    | some conn =>
      match conn.writeAll p with
      | none => .error .write
      | some conn => .ok conn

def writeRelayParts (conn : Sink UInt8) : List (List UInt8) → Except RelayError (Sink UInt8)
  | [] => .ok conn
  | part :: parts =>
    match conn.writeAll part with
    | none => .error .write
    | some conn => writeRelayParts conn parts

/-- `WritePacket` of the kernel's connection. -/
def RouteRelayPacketConn.writePacket (conn : Sink UInt8) (buffer : Datagram) :
    Except RelayError (Sink UInt8) :=
  if buffer.length = 0 ∨ maxUint16 < buffer.length then .error .invalidPayload
  else writeRelayParts conn [putUint16 buffer.length, buffer]

/-- One round of the loop from the target in `relayFramedUDP`. It reads into a buffer for the
largest datagram, and leaves an empty one out. -/
def relayFromTarget (conn : Sink UInt8) (payload : Datagram) : Except RelayError (Sink UInt8) :=
  if payload.length = 0 then .ok conn else writeRelayParts conn [putUint16 payload.length, payload]

/-- One datagram after the other, to the first that fails. -/
def sendAll (send : Sink UInt8 → Datagram → Except RelayError (Sink UInt8)) :
    Sink UInt8 → List Datagram → Except RelayError (Sink UInt8)
  | conn, [] => .ok conn
  | conn, p :: ps =>
    match send conn p with
    | .error e => .error e
    | .ok conn => sendAll send conn ps

/-! ## Reading -/

structure FramedRelayPacketConn where
  stream : Stream
  remaining : Nat
  deriving DecidableEq, Repr

/-- The part of `Read` after the length is known. -/
def FramedRelayPacketConn.readBody (c : FramedRelayPacketConn) (size : Nat) :
    Except RelayError Datagram × FramedRelayPacketConn :=
  if size < c.remaining then (.error .bufferTooSmall, c)
  else
    match readFull c.remaining c.stream with
    | none => (.error .eof, ⟨[], 0⟩)
    | some (p, stream) => (.ok p, ⟨stream, 0⟩)

/-- `Read` into a buffer of so many bytes. -/
def FramedRelayPacketConn.read (c : FramedRelayPacketConn) (size : Nat) :
    Except RelayError Datagram × FramedRelayPacketConn :=
  if c.remaining = 0 then
    match readFull 2 c.stream with
    | none => (.error .eof, ⟨[], 0⟩)
    | some (header, stream) =>
      if uint16 header = 0 then (.ok [], ⟨stream, 0⟩)
      else FramedRelayPacketConn.readBody ⟨stream, uint16 header⟩ size
  else c.readBody size

structure RouteRelayPacketConn where
  reader : Stream
  destination : String
  deriving DecidableEq, Repr

/-- `ReadPacket` into a buffer with so much room. -/
def RouteRelayPacketConn.readPacket (c : RouteRelayPacketConn) (freeLen : Nat) :
    Except RelayError (Datagram × String) × RouteRelayPacketConn :=
  match readFull 2 c.reader with
  | none => (.error .eof, { c with reader := [] })
  | some (header, reader) =>
    if uint16 header = 0 ∨ freeLen < uint16 header then (.error .shortBuffer, { c with reader := reader })
    else
      match readFull (uint16 header) reader with
      | none => (.error .eof, { c with reader := [] })
      | some (p, reader) => (.ok (p, c.destination), { c with reader := reader })

/-- The loop to the target in `relayFramedUDP`, with so many rounds at most: the datagrams that it
hands over, each taken whole, and what is left of the stream. -/
def relayToTarget : Nat → Stream → List Datagram × Stream
  | 0, reader => ([], reader)
  | rounds + 1, reader =>
    match readFull 2 reader with
    | none => ([], [])
    | some (header, reader) =>
      if uint16 header = 0 then relayToTarget rounds reader
      else
        match readFull (uint16 header) reader with
        | none => ([], [])
        | some (payload, reader) =>
          (payload :: (relayToTarget rounds reader).1, (relayToTarget rounds reader).2)

/-- One read after the other, each with a buffer of its own size. -/
def receiveAll {σ β : Type} (receive : σ → Nat → Except RelayError β × σ) :
    σ → List Nat → List (Except RelayError β) × σ
  | s, [] => ([], s)
  | s, size :: sizes =>
    ((receive s size).1 :: (receiveAll receive (receive s size).2 sizes).1,
      (receiveAll receive (receive s size).2 sizes).2)

/-! ## The stream -/

def frame (p : Datagram) : List UInt8 := putUint16 p.length ++ p

def Fits (p : Datagram) : Prop := 1 ≤ p.length ∧ p.length ≤ maxUint16

instance (p : Datagram) : Decidable (Fits p) := inferInstanceAs (Decidable (_ ∧ _))

theorem Fits.valid {p : Datagram} (h : Fits p) : ¬ (p.length = 0 ∨ maxUint16 < p.length) := by
  rintro (hzero | hlarge)
  · exact absurd h.1 (by omega)
  · exact absurd h.2 (by omega)

theorem Fits.length_ne_zero {p : Datagram} (h : Fits p) : p.length ≠ 0 := fun hzero => h.valid (.inl hzero)

def Frames (send : Sink UInt8 → Datagram → Except RelayError (Sink UInt8)) : Prop :=
  ∀ {conn : Sink UInt8} {p : Datagram}, conn.Willing → Fits p →
    ∃ conn', send conn p = .ok conn' ∧ conn'.Willing ∧ conn'.taken = conn.taken ++ frame p

theorem writeRelayParts_frame {conn : Sink UInt8} (h : conn.Willing) (p : Datagram) :
    ∃ conn', writeRelayParts conn [putUint16 p.length, p] = .ok conn' ∧ conn'.Willing ∧
      conn'.taken = conn.taken ++ frame p := by
  obtain ⟨after, hsize, hafter⟩ := Sink.writeAll_willing h (putUint16 p.length)
  obtain ⟨conn', hbody, hconn'⟩ := Sink.writeAll_willing hafter p
  refine ⟨conn', ?_, hconn', ?_⟩
  · simp only [writeRelayParts, hsize, hbody]
  · rw [Sink.writeAll_taken hbody, Sink.writeAll_taken hsize, List.append_assoc]
    rfl

theorem FramedRelayPacketConn.write_frames : Frames FramedRelayPacketConn.write := by
  intro conn p hwilling hfits
  rw [FramedRelayPacketConn.write, if_neg hfits.valid]
  exact writeRelayParts_frame hwilling p

theorem RouteRelayPacketConn.writePacket_frames : Frames RouteRelayPacketConn.writePacket := by
  intro conn p hwilling hfits
  rw [RouteRelayPacketConn.writePacket, if_neg hfits.valid]
  exact writeRelayParts_frame hwilling p

theorem relayFromTarget_frames : Frames relayFromTarget := by
  intro conn p hwilling hfits
  rw [relayFromTarget, if_neg hfits.length_ne_zero]
  exact writeRelayParts_frame hwilling p

variable {ps : List Datagram} {stream : Stream}

theorem sendAll_frames {send : Sink UInt8 → Datagram → Except RelayError (Sink UInt8)}
    (h : Frames send) (hfits : ∀ p ∈ ps, Fits p) {conn : Sink UInt8} (hwilling : conn.Willing) :
    ∃ conn', sendAll send conn ps = .ok conn' ∧ conn'.taken = conn.taken ++ ps.flatMap frame := by
  induction ps generalizing conn with
  | nil => exact ⟨conn, rfl, by rw [List.flatMap_nil, List.append_nil]⟩
  | cons p ps ih =>
    obtain ⟨after, hsend, hafter, htaken⟩ := h hwilling (hfits p List.mem_cons_self)
    obtain ⟨conn', hrest, htaken'⟩ := ih (fun q hq => hfits q (List.mem_cons_of_mem _ hq)) hafter
    refine ⟨conn', ?_, ?_⟩
    · rw [sendAll, hsend]
      exact hrest
    · rw [htaken', htaken, List.flatMap_cons, List.append_assoc]

theorem readFull_frame {p : Datagram} (hfits : Fits p) {tail : List UInt8}
    (h : stream.flatten = frame p ++ tail) :
    ∃ header mid rest, readFull 2 stream = some (header, mid) ∧ uint16 header = p.length ∧
      readFull p.length mid = some (p, rest) ∧ rest.flatten = tail := by
  rw [frame, List.append_assoc] at h
  obtain ⟨mid, hheader, hmid⟩ := readFull_append h
  obtain ⟨rest, hbody, hrest⟩ := readFull_append hmid
  have hsize := uint16_put (Nat.lt_succ_of_le hfits.2) []
  rw [List.append_nil] at hsize
  exact ⟨_, mid, rest, hheader, hsize, hbody, hrest⟩

/-- What a read does to the stream: at the beginning of a frame, with a buffer that is large enough,
it gives the datagram as `value` and stands behind the frame. -/
def Reads {σ β : Type} (receive : σ → Nat → Except RelayError β × σ) (start : Stream → σ)
    (value : Datagram → β) : Prop :=
  ∀ {p : Datagram} {stream : Stream} {tail : List UInt8} {size : Nat}, Fits p → maxUint16 ≤ size →
    stream.flatten = frame p ++ tail →
    ∃ rest, receive (start stream) size = (.ok (value p), start rest) ∧ rest.flatten = tail

theorem FramedRelayPacketConn.read_reads : Reads FramedRelayPacketConn.read (⟨·, 0⟩) id := by
  intro p stream tail size hfits hsize h
  obtain ⟨header, mid, rest, hheader, hlength, hbody, hrest⟩ := readFull_frame hfits h
  refine ⟨rest, ?_, hrest⟩
  have hroom : ¬ size < p.length := Nat.not_lt.mpr (Nat.le_trans hfits.2 hsize)
  rw [FramedRelayPacketConn.read, if_pos rfl, hheader]
  dsimp only
  rw [hlength, if_neg hfits.length_ne_zero, FramedRelayPacketConn.readBody, if_neg hroom, hbody]
  rfl

theorem RouteRelayPacketConn.readPacket_reads (destination : String) :
    Reads RouteRelayPacketConn.readPacket (⟨·, destination⟩) (·, destination) := by
  intro p stream tail size hfits hsize h
  obtain ⟨header, mid, rest, hheader, hlength, hbody, hrest⟩ := readFull_frame hfits h
  refine ⟨rest, ?_, hrest⟩
  have hroom : ¬ (p.length = 0 ∨ size < p.length) := by
    rintro (hzero | hlarge)
    · exact hfits.length_ne_zero hzero
    · exact absurd (Nat.le_trans hfits.2 hsize) (Nat.not_le.mpr hlarge)
  rw [RouteRelayPacketConn.readPacket, hheader]
  dsimp only
  rw [hlength, if_neg hroom, hbody]

theorem receiveAll_reads {σ β : Type} {receive : σ → Nat → Except RelayError β × σ} {start : Stream → σ}
    {value : Datagram → β} (h : Reads receive start value) (hfits : ∀ p ∈ ps, Fits p)
    {sizes : List Nat} (hsizes : ∀ size ∈ sizes, maxUint16 ≤ size)
    (hlength : sizes.length = ps.length) {tail : List UInt8}
    (hstream : stream.flatten = ps.flatMap frame ++ tail) :
    ∃ rest, receiveAll receive (start stream) sizes = (ps.map fun p => .ok (value p), start rest) ∧
      rest.flatten = tail := by
  induction ps generalizing stream sizes with
  | nil =>
    rw [List.length_nil, List.length_eq_zero_iff] at hlength
    subst hlength
    exact ⟨stream, rfl, hstream⟩
  | cons p ps ih =>
    cases sizes with
    | nil => exact nomatch hlength
    | cons size sizes =>
      rw [List.flatMap_cons, List.append_assoc] at hstream
      obtain ⟨mid, hread, hmid⟩ := h (hfits p List.mem_cons_self) (hsizes size List.mem_cons_self) hstream
      obtain ⟨rest, hreads, hrest⟩ := ih (fun q hq => hfits q (List.mem_cons_of_mem _ hq))
        (fun n hn => hsizes n (List.mem_cons_of_mem _ hn)) (Nat.succ.inj hlength) hmid
      refine ⟨rest, ?_, hrest⟩
      rw [receiveAll, hread]
      dsimp only
      rw [hreads, List.map_cons]

theorem relayToTarget_reads (hfits : ∀ p ∈ ps, Fits p) {tail : List UInt8}
    (hstream : stream.flatten = ps.flatMap frame ++ tail) (rounds : Nat) :
    ∃ rest, rest.flatten = tail ∧ (relayToTarget (ps.length + rounds) stream).1
      = ps ++ (relayToTarget rounds rest).1 := by
  induction ps generalizing stream with
  | nil => exact ⟨stream, hstream, by rw [List.length_nil, Nat.zero_add, List.nil_append]⟩
  | cons p ps ih =>
    rw [List.flatMap_cons, List.append_assoc] at hstream
    have hp := hfits p List.mem_cons_self
    obtain ⟨header, mid, next, hheader, hlength, hbody, hnext⟩ := readFull_frame hp hstream
    obtain ⟨rest, hrest, hloop⟩ := ih (fun q hq => hfits q (List.mem_cons_of_mem _ hq)) hnext
    refine ⟨rest, hrest, ?_⟩
    rw [List.length_cons, Nat.add_right_comm, relayToTarget, hheader]
    dsimp only
    rw [hlength, if_neg hp.length_ne_zero, hbody]
    dsimp only
    rw [hloop, List.cons_append]

theorem relayToTarget_end (h : stream.flatten = []) (rounds : Nat) :
    (relayToTarget rounds stream).1 = [] := by
  cases rounds with
  | zero => rfl
  | succ rounds =>
    have hshort : readFull 2 stream = none := readFull_short (by rw [h]; decide)
    rw [relayToTarget, hshort]

theorem stream_of_sent {conn conn' : Sink UInt8} (hnew : conn.taken = [])
    (htaken : conn'.taken = conn.taken ++ ps.flatMap frame) (h : stream.flatten = conn'.taken) :
    stream.flatten = ps.flatMap frame ++ [] := by
  rw [h, htaken, hnew, List.nil_append, List.append_nil]

/-- **Both ends of the relay read what the other wrote.** Datagrams of the allowed sizes are written
without an error, and come out of the stream one by one and the same, in whatever pieces it arrives:
at both ends of the kernel when the agent writes, and at the agent when either end of the kernel
writes. -/
theorem relay_datagrams_round_trip {ps : List Datagram} (hfits : ∀ p ∈ ps, Fits p)
    {conn : Sink UInt8} (hnew : conn.taken = []) (hwilling : conn.Willing) {sizes : List Nat}
    (hsizes : ∀ size ∈ sizes, maxUint16 ≤ size) (hlength : sizes.length = ps.length) :
    (∃ conn', sendAll FramedRelayPacketConn.write conn ps = .ok conn' ∧
      ∀ stream : Stream, stream.flatten = conn'.taken →
      (∀ destination : String, ∃ rest, rest.flatten = [] ∧
        receiveAll RouteRelayPacketConn.readPacket ⟨stream, destination⟩ sizes =
          (ps.map fun p => .ok (p, destination), ⟨rest, destination⟩)) ∧
      ∀ rounds, ps.length ≤ rounds → (relayToTarget rounds stream).1 = ps) ∧
    (∀ send ∈ [RouteRelayPacketConn.writePacket, relayFromTarget], ∃ conn', sendAll send conn ps = .ok conn' ∧
      ∀ stream : Stream, stream.flatten = conn'.taken →
        ∃ rest, rest.flatten = [] ∧
          receiveAll FramedRelayPacketConn.read ⟨stream, 0⟩ sizes = (ps.map fun p => .ok p, ⟨rest, 0⟩)) := by
  constructor
  · obtain ⟨conn', hsent, htaken⟩ := sendAll_frames FramedRelayPacketConn.write_frames hfits hwilling
    refine ⟨conn', hsent, fun stream h => ?_⟩
    have hstream := stream_of_sent hnew htaken h
    constructor
    · intro destination
      obtain ⟨rest, hreads, hrest⟩ :=
        receiveAll_reads (RouteRelayPacketConn.readPacket_reads destination) hfits hsizes hlength hstream
      exact ⟨rest, hrest, hreads⟩
    · intro rounds hrounds
      obtain ⟨more, rfl⟩ := Nat.exists_eq_add_of_le hrounds
      obtain ⟨rest, hrest, hloop⟩ := relayToTarget_reads hfits hstream more
      rw [hloop, relayToTarget_end hrest, List.append_nil]
  · intro send hsend
    have hframes : Frames send := by
      rcases List.mem_pair.mp hsend with rfl | rfl
      · exact RouteRelayPacketConn.writePacket_frames
      · exact relayFromTarget_frames
    obtain ⟨conn', hsent, htaken⟩ := sendAll_frames hframes hfits hwilling
    refine ⟨conn', hsent, fun stream h => ?_⟩
    obtain ⟨rest, hreads, hrest⟩ := receiveAll_reads FramedRelayPacketConn.read_reads hfits hsizes hlength
      (stream_of_sent hnew htaken h)
    exact ⟨rest, hrest, hreads⟩

/-- Two datagrams from the kernel to the agent, over a connection that takes one byte at first and
then two. -/
theorem two_datagrams_to_agent :
    ∃ conn', sendAll RouteRelayPacketConn.writePacket ⟨[], [(1, false), (2, false)]⟩ [[7], [8, 9]]
      = .ok conn' ∧
      ∀ stream : Stream, stream.flatten = conn'.taken → ∃ rest, rest.flatten = [] ∧
        receiveAll FramedRelayPacketConn.read ⟨stream, 0⟩ [65535, 65536]
          = ([.ok [7], .ok [8, 9]], ⟨rest, 0⟩) :=
  (relay_datagrams_round_trip (by decide) rfl (by unfold Sink.Willing; decide) (by decide) rfl).2 _
    List.mem_cons_self

end OboardAgent.Relay
