import OboardAgent.Lib.Chunks
import Mathlib.Data.List.TakeWhile

/-!
# Frames of the agent link

The link carries messages and requests as frames: a type, flags, the length of the payload, the
payload (`internal/agentlink/agentlink.go`). A short payload is padded, so that all short frames
have one length.

Every frame up to the frame limit is read back from the stream, in whatever pieces it comes. But the
writer checks a message against the message limit, which is sixteen times as large, and a request
against none; the reader refuses what is above the frame limit, and with it all that follows.

A payload is what `json.Marshal` made. The bytes are those that the connection took.
-/

namespace OboardAgent.AgentLink

def maxMessageBytes : Nat := 16777216
def maxFramePayload : Nat := 1048576
def frameHeaderLen : Nat := 6
def minPaddedFrameBytes : Nat := 128
def maxPadLen : Nat := 65535

def frameTypeMessage : UInt8 := 0x01
def frameTypeRequest : UInt8 := 0x05

def flagPayloadJSON : UInt8 := 0x01
def flagPad : UInt8 := 0x02

structure Frame where
  frameType : UInt8
  flags : UInt8
  payload : List UInt8
  deriving DecidableEq, Repr

/-! ## Bytes of numbers -/

/-- `binary.BigEndian.PutUint32`, with the conversion to 32 bits. -/
def putUint32 (n : Nat) : List UInt8 :=
  [UInt8.ofNat (n / 16777216), UInt8.ofNat (n / 65536), UInt8.ofNat (n / 256), UInt8.ofNat n]

def uint32 : List UInt8 → Nat
  | [a, b, c, d] => ((a.toNat * 256 + b.toNat) * 256 + c.toNat) * 256 + d.toNat
  | _ => 0

def putUint16 (n : Nat) : List UInt8 := [UInt8.ofNat (n / 256), UInt8.ofNat n]

def uint16 : List UInt8 → Nat
  | a :: b :: _ => a.toNat * 256 + b.toNat
  | _ => 0

theorem uint32_put {n : Nat} (h : n < 4294967296) : uint32 (putUint32 n) = n := by
  simp only [uint32, putUint32, UInt8.toNat_ofNat']
  omega

theorem uint16_put {n : Nat} (h : n < 65536) (rest : List UInt8) : uint16 (putUint16 n ++ rest) = n := by
  simp only [uint16, putUint16, List.cons_append, UInt8.toNat_ofNat']
  omega

/-! ## Writing -/

/-- `writeFrame`. -/
def Frame.encode (f : Frame) : List UInt8 := [f.frameType, f.flags] ++ putUint32 f.payload.length ++ f.payload

inductive LinkError
  | eof
  | frameTooLarge
  | messageTooLarge
  | badPadding
  | writeErr
  deriving DecidableEq, Repr

def buildPadding (payload : List UInt8) (padLen : Nat) : Except LinkError (List UInt8) :=
  if maxPadLen < padLen then .error .frameTooLarge
  else if maxFramePayload < 2 + padLen + payload.length then .error .frameTooLarge
  else .ok (putUint16 padLen ++ List.replicate padLen 0 ++ payload)

/-- What of a session the writing uses: the bytes that the connection has taken, and the error that
ended it. -/
structure Session where
  written : List UInt8
  writeErr : Bool
  deriving DecidableEq, Repr

def Session.writeFrame (s : Session) (f : Frame) : Except LinkError Session :=
  if s.writeErr then .error .writeErr else .ok { s with written := s.written ++ f.encode }

def Session.writePadded (s : Session) (f : Frame) (payload : List UInt8) : Except LinkError Session :=
  if minPaddedFrameBytes ≤ payload.length + frameHeaderLen then s.writeFrame { f with payload := payload }
  else
    match buildPadding payload (minPaddedFrameBytes - frameHeaderLen - payload.length) with
    | .error e => .error e
    | .ok padded => s.writeFrame { f with flags := f.flags ||| flagPad, payload := padded }

inductive Item
  | message (payload : List UInt8)
  | request (payload : List UInt8)
  deriving DecidableEq, Repr

def Item.payload : Item → List UInt8
  | .message p => p
  | .request p => p

def Item.frameType : Item → UInt8
  | .message _ => frameTypeMessage
  | .request _ => frameTypeRequest

/-- `WriteMessage`, and the sending part of `Request`. -/
def Session.send (s : Session) (item : Item) : Except LinkError Session :=
  match item with
  | .message payload =>
    if maxMessageBytes < payload.length then .error .messageTooLarge
    else s.writePadded ⟨frameTypeMessage, flagPayloadJSON, []⟩ payload
  | .request payload => s.writePadded ⟨frameTypeRequest, flagPayloadJSON, []⟩ payload

def Session.sendAll (s : Session) : List Item → Except LinkError Session
  | [] => .ok s
  | item :: items =>
    match s.send item with
    | .error e => .error e
    | .ok s' => s'.sendAll items

/-! ## Reading -/

abbrev Stream := List (List UInt8)

def readFrame (stream : Stream) : Except LinkError (Frame × Stream) :=
  match Chunks.readFull frameHeaderLen stream with
  | none => .error .eof
  | some (header, stream) =>
    let length := uint32 (header.drop 2)
    if maxFramePayload < length then .error .frameTooLarge
    else
      match Chunks.readFull length stream with
      | none => .error .eof
      | some (payload, stream) => .ok (⟨header.getD 0 0, header.getD 1 0, payload⟩, stream)

def stripPadding (payload : List UInt8) : Except LinkError (List UInt8) :=
  if payload.length < 2 then .error .badPadding
  else if payload.length < 2 + uint16 payload then .error .badPadding
  else .ok (payload.drop (2 + uint16 payload))

def Frame.content (f : Frame) : Except LinkError (List UInt8) :=
  if f.flags &&& flagPad ≠ 0 then stripPadding f.payload else .ok f.payload

def receive : Nat → Stream → List (UInt8 × List UInt8)
  | 0, _ => []
  | fuel + 1, stream =>
    match readFrame stream with
    | .error _ => []
    | .ok (f, stream) =>
      match f.content with
      | .error _ => []
      | .ok payload => (f.frameType, payload) :: receive fuel stream

/-- The loop to its end: each frame takes at least one byte. -/
def receiveAll (stream : Stream) : List (UInt8 × List UInt8) := receive (stream.flatten.length + 1) stream

/-! ## One frame -/

theorem length_encode (f : Frame) : f.encode.length = frameHeaderLen + f.payload.length := by
  simp [Frame.encode, putUint32, frameHeaderLen]
  omega

variable {stream : Stream} {items : List Item}

theorem readFull_header {f : Frame} {tail : List UInt8} (h : stream.flatten = f.encode ++ tail) :
    ∃ rest, Chunks.readFull frameHeaderLen stream
      = some ([f.frameType, f.flags] ++ putUint32 f.payload.length, rest) ∧
      rest.flatten = f.payload ++ tail := by
  have hsplit : stream.flatten = ([f.frameType, f.flags] ++ putUint32 f.payload.length) ++
      (f.payload ++ tail) := by
    rw [h, Frame.encode, List.append_assoc]
  obtain ⟨rest, hread, hrest⟩ := Chunks.readFull_append hsplit
  exact ⟨rest, hread, hrest⟩

theorem readFrame_encode {f : Frame} {tail : List UInt8} (h : stream.flatten = f.encode ++ tail)
    (hlen : f.payload.length ≤ maxFramePayload) :
    ∃ rest, readFrame stream = .ok (f, rest) ∧ rest.flatten = tail := by
  obtain ⟨body, hheader, hbody⟩ := readFull_header h
  obtain ⟨rest, hread, hrest⟩ := Chunks.readFull_append hbody
  refine ⟨rest, ?_, hrest⟩
  have hsmall : f.payload.length < 4294967296 := Nat.lt_of_le_of_lt hlen (by decide)
  have hlength : uint32 (([f.frameType, f.flags] ++ putUint32 f.payload.length).drop 2)
      = f.payload.length := uint32_put hsmall
  unfold readFrame
  rw [hheader]
  simp only [hlength, Nat.not_lt.mpr hlen, if_false, hread]
  rfl

theorem readFrame_large {f : Frame} {tail : List UInt8} (h : stream.flatten = f.encode ++ tail)
    (hlen : maxFramePayload < f.payload.length) (hsmall : f.payload.length < 4294967296) :
    readFrame stream = .error .frameTooLarge := by
  obtain ⟨body, hheader, -⟩ := readFull_header h
  have hlength : uint32 (([f.frameType, f.flags] ++ putUint32 f.payload.length).drop 2)
      = f.payload.length := uint32_put hsmall
  unfold readFrame
  rw [hheader]
  simp only [hlength, hlen, if_true]

theorem readFrame_end (h : stream.flatten = []) : readFrame stream = .error .eof := by
  unfold readFrame
  rw [Chunks.readFull_short (by rw [h]; decide)]

/-! ## Padding -/

/-- A payload that does not fill the smallest frame. -/
def Short (payload : List UInt8) : Prop := payload.length + frameHeaderLen < minPaddedFrameBytes

instance (payload : List UInt8) : Decidable (Short payload) := inferInstanceAs (Decidable (_ < _))

def padLenOf (payload : List UInt8) : Nat := minPaddedFrameBytes - frameHeaderLen - payload.length

variable (item : Item)

def Item.frame : Frame :=
  if Short item.payload then
    ⟨item.frameType, flagPayloadJSON ||| flagPad,
      putUint16 (padLenOf item.payload) ++ List.replicate (padLenOf item.payload) 0 ++ item.payload⟩
  else ⟨item.frameType, flagPayloadJSON, item.payload⟩

theorem buildPadding_short {payload : List UInt8} (h : Short payload) :
    buildPadding payload (padLenOf payload) =
      .ok (putUint16 (padLenOf payload) ++ List.replicate (padLenOf payload) 0 ++ payload) := by
  unfold Short frameHeaderLen minPaddedFrameBytes at h
  have hpad : padLenOf payload + payload.length = 122 := by
    unfold padLenOf minPaddedFrameBytes frameHeaderLen
    omega
  unfold buildPadding
  rw [if_neg (by unfold maxPadLen; omega), if_neg (by unfold maxFramePayload; omega)]

/-- **Padding comes off again.** -/
theorem stripPadding_build (payload : List UInt8) {padLen : Nat} (h : padLen < 65536) :
    stripPadding (putUint16 padLen ++ List.replicate padLen 0 ++ payload) = .ok payload := by
  have hlen : (putUint16 padLen ++ List.replicate padLen 0 ++ payload).length
      = 2 + padLen + payload.length := by
    simp [putUint16]
    omega
  have hpad : uint16 (putUint16 padLen ++ List.replicate padLen 0 ++ payload) = padLen := by
    rw [List.append_assoc, uint16_put h]
  unfold stripPadding
  rw [hlen, hpad, if_neg (by omega), if_neg (by omega), List.drop_left' (by simp [putUint16]; omega)]

theorem content_frame : item.frame.content = .ok item.payload := by
  unfold Item.frame Frame.content
  by_cases hshort : Short item.payload
  · have hflag : (flagPayloadJSON ||| flagPad) &&& flagPad ≠ 0 := by decide
    have hpad : padLenOf item.payload < 65536 := by
      unfold padLenOf minPaddedFrameBytes frameHeaderLen
      omega
    rw [if_pos hshort]
    exact (if_pos hflag).trans (stripPadding_build item.payload hpad)
  · have hflag : ¬flagPayloadJSON &&& flagPad ≠ 0 := by decide
    rw [if_neg hshort]
    exact if_neg hflag

theorem frameType_frame : item.frame.frameType = item.frameType := by
  unfold Item.frame
  split_ifs
  · rfl
  · rfl

theorem frame_fits_iff : item.frame.payload.length ≤ maxFramePayload ↔
    item.payload.length ≤ maxFramePayload := by
  unfold Item.frame
  split_ifs with hshort
  · unfold Short frameHeaderLen minPaddedFrameBytes at hshort
    have hlen : (putUint16 (padLenOf item.payload) ++ List.replicate
        (padLenOf item.payload) 0 ++ item.payload).length = 124 := by
      simp [putUint16, padLenOf, minPaddedFrameBytes, frameHeaderLen]
      omega
    simp only [hlen]
    unfold maxFramePayload
    omega
  · exact Iff.rfl

/-- **Short payloads have one length on the wire.** -/
theorem length_encode_short {item : Item} (h : Short item.payload) : item.frame.encode.length = 130 := by
  rw [length_encode]
  unfold Item.frame
  rw [if_pos h]
  unfold Short frameHeaderLen minPaddedFrameBytes at h
  simp [putUint16, padLenOf, minPaddedFrameBytes, frameHeaderLen]
  omega

/-! ## What is sent -/

theorem writePadded_eq (s : Session) (item : Item) :
    s.writePadded ⟨item.frameType, flagPayloadJSON, []⟩ item.payload = s.writeFrame item.frame := by
  unfold Session.writePadded Item.frame
  by_cases hshort : Short item.payload
  · rw [if_neg (Nat.not_le.mpr hshort), if_pos hshort]
    have hbuild := buildPadding_short hshort
    unfold padLenOf at hbuild ⊢
    simp only [hbuild]
  · rw [if_pos (Nat.not_lt.mp hshort), if_neg hshort]

theorem send_ok {s s' : Session} {item : Item} (h : s.send item = .ok s') :
    s'.written = s.written ++ item.frame.encode := by
  have hframe : s.writeFrame item.frame = .ok s' := by
    rw [← writePadded_eq]
    cases item with
    | message payload =>
      unfold Session.send at h
      dsimp only at h
      split_ifs at h with hlarge
      exact h
    | request payload => exact h
  unfold Session.writeFrame at hframe
  split_ifs at hframe with herr
  rw [← Except.ok.inj hframe]

theorem sendAll_ok {s s' : Session} (h : s.sendAll items = .ok s') :
    s'.written = s.written ++ (items.map fun item => item.frame.encode).flatten := by
  induction items generalizing s with
  | nil =>
    cases h
    simp
  | cons item items ih =>
    unfold Session.sendAll at h
    cases hsend : s.send item with
    | error e => simp [hsend] at h
    | ok next =>
      rw [hsend] at h
      rw [ih h, send_ok hsend, List.map_cons, List.flatten_cons, List.append_assoc]

theorem send_of_small {s : Session} {item : Item} (hs : s.writeErr = false)
    (h : item.payload.length ≤ maxMessageBytes) :
    s.send item = .ok { s with written := s.written ++ item.frame.encode } := by
  have hframe : s.writeFrame item.frame = .ok { s with written := s.written ++ item.frame.encode } := by
    simp [Session.writeFrame, hs]
  cases item with
  | message payload =>
    unfold Session.send
    dsimp only
    rw [if_neg (show ¬maxMessageBytes < payload.length from Nat.not_lt.mpr h)]
    exact (writePadded_eq s (.message payload)).trans hframe
  | request payload => exact (writePadded_eq s (.request payload)).trans hframe

theorem sendAll_of_small {s : Session} (hs : s.writeErr = false)
    (h : ∀ item ∈ items, item.payload.length ≤ maxMessageBytes) : ∃ s', s.sendAll items = .ok s' := by
  induction items generalizing s with
  | nil => exact ⟨s, rfl⟩
  | cons item items ih =>
    unfold Session.sendAll
    rw [send_of_small hs (h item List.mem_cons_self)]
    exact ih hs (fun i hi => h i (List.mem_cons_of_mem _ hi))

/-! ## What arrives -/

/-- What a peer should get for an item. -/
def Item.delivered : UInt8 × List UInt8 := (item.frameType, item.payload)

def Item.fits : Bool := item.payload.length ≤ maxFramePayload

/-- **The peer gets what was sent up to the first payload above the frame limit**, in whatever
pieces the stream comes. -/
theorem receive_frames {fuel : Nat} (hfuel : items.length < fuel)
    (hsize : ∀ item ∈ items, item.payload.length ≤ maxMessageBytes)
    (h : stream.flatten = (items.map fun item => item.frame.encode).flatten) :
    receive fuel stream = (items.takeWhile Item.fits).map Item.delivered := by
  induction items generalizing fuel stream with
  | nil =>
    obtain ⟨fuel, rfl⟩ := Nat.exists_eq_add_one_of_ne_zero (Nat.ne_of_gt hfuel)
    simp only [receive, readFrame_end h, List.takeWhile_nil, List.map_nil]
  | cons item items ih =>
    obtain ⟨fuel, rfl⟩ := Nat.exists_eq_add_one_of_ne_zero (Nat.ne_of_gt (Nat.zero_lt_of_lt hfuel))
    rw [List.map_cons, List.flatten_cons] at h
    by_cases hfits : item.payload.length ≤ maxFramePayload
    · obtain ⟨rest, hread, hrest⟩ := readFrame_encode h ((frame_fits_iff item).mpr hfits)
      have hgo := ih (Nat.lt_of_succ_lt_succ hfuel) (fun i hi => hsize i (List.mem_cons_of_mem _ hi)) hrest
      rw [List.takeWhile_cons_of_pos (by simpa [Item.fits] using hfits), List.map_cons]
      simp only [receive, hread, content_frame, frameType_frame, hgo]
      rfl
    · -- The reader stops here, before the payload.
      have hlarge : maxFramePayload < item.frame.payload.length := by
        rw [← Nat.not_le, frame_fits_iff]
        exact hfits
      have hshort : ¬Short item.payload := by
        unfold Short frameHeaderLen minPaddedFrameBytes
        unfold maxFramePayload at hfits
        omega
      have hsmall : item.frame.payload.length < 4294967296 := by
        rw [Item.frame, if_neg hshort]
        exact Nat.lt_of_le_of_lt (hsize item List.mem_cons_self) (by decide)
      rw [List.takeWhile_cons_of_neg (by simpa [Item.fits] using hfits)]
      simp only [receive, readFrame_large h hlarge hsmall, List.map_nil]

theorem length_le_length_frames (items : List Item) :
    items.length ≤ (items.map fun item => item.frame.encode).flatten.length := by
  induction items with
  | nil => exact Nat.le_refl 0
  | cons item items ih =>
    rw [List.map_cons, List.flatten_cons, List.length_append, List.length_cons, length_encode]
    unfold frameHeaderLen
    omega

theorem receiveAll_frames (hsize : ∀ item ∈ items, item.payload.length ≤ maxMessageBytes)
    (h : stream.flatten = (items.map fun item => item.frame.encode).flatten) :
    receiveAll stream = (items.takeWhile Item.fits).map Item.delivered := by
  refine receive_frames ?_ hsize h
  rw [h]
  exact Nat.lt_succ_of_le (length_le_length_frames items)

/-- **What is accepted arrives exactly when no payload is above the frame limit.** The payloads are
those that the session accepted, up to the message limit; the stream that they make comes in any
pieces. All short payloads have one length on the wire. -/
theorem delivery_iff (items : List Item) (s s' : Session)
    (hsize : ∀ item ∈ items, item.payload.length ≤ maxMessageBytes) (h : s.sendAll items = .ok s') :
    ((∀ stream : Stream, s.written ++ stream.flatten = s'.written →
      receiveAll stream = items.map Item.delivered) ∧
      ∃ wire, ∀ (t t' : Session) (item : Item), Short item.payload → t.send item = .ok t' →
        t'.written.length = t.written.length + wire) ↔
    ∀ item ∈ items, item.payload.length ≤ maxFramePayload := by
  have hwritten := sendAll_ok h
  have hframes : ∀ stream : Stream, s.written ++ stream.flatten = s'.written →
      stream.flatten = (items.map fun item => item.frame.encode).flatten := fun stream hstream =>
    List.append_cancel_left (hstream.trans hwritten)
  constructor
  · rintro ⟨hall, -⟩
    -- Read in one piece, the stream gives everything only if the reader never stops.
    have hone : s.written ++ [(items.map fun item => item.frame.encode).flatten].flatten
        = s'.written := by simpa using hwritten.symm
    have hread := hall _ hone
    rw [receiveAll_frames hsize (hframes _ hone)] at hread
    have hlen := congrArg List.length hread
    rw [List.length_map, List.length_map] at hlen
    have hself : items.takeWhile Item.fits = items := ( List.takeWhile_prefix Item.fits).eq_of_length hlen
    intro item hitem
    have hfits := List.takeWhile_eq_self_iff.mp hself item hitem
    simpa [Item.fits] using hfits
  · intro hfits
    refine ⟨?_, 130, ?_⟩
    · intro stream hstream
      have hself : items.takeWhile Item.fits = items := by
        rw [List.takeWhile_eq_self_iff]
        intro item hitem
        simpa [Item.fits] using hfits item hitem
      rw [receiveAll_frames hsize (hframes stream hstream), hself]
    · intro t t' item hshort hsend
      rw [send_ok hsend, List.length_append, length_encode_short hshort]

def twoItems : List Item := [.message [0x7b, 0x7d], .request (List.replicate 200 0x20)]

def freshSession : Session := ⟨[], false⟩

theorem delivery_of_two_items :
    (∀ item ∈ twoItems, item.payload.length ≤ maxFramePayload) ∧
      ∃ s', freshSession.sendAll twoItems = .ok s' ∧
        ∀ stream : Stream, freshSession.written ++ stream.flatten = s'.written →
          receiveAll stream = twoItems.map Item.delivered :=
  have hfits : ∀ item ∈ twoItems, item.payload.length ≤ maxFramePayload := by decide +kernel
  have hsize : ∀ item ∈ twoItems, item.payload.length ≤ maxMessageBytes := by decide +kernel
  have ⟨s', h⟩ := sendAll_of_small (s := freshSession) rfl hsize
  ⟨hfits, s', h, ((delivery_iff twoItems freshSession s' hsize h).mpr hfits).1⟩

theorem lost_from_large {item : Item} (items : List Item) (hlarge : maxFramePayload < item.payload.length)
    (hsize : ∀ i ∈ item :: items, i.payload.length ≤ maxMessageBytes) :
    ∃ s', freshSession.sendAll (item :: items) = .ok s' ∧ receiveAll [s'.written] = [] := by
  obtain ⟨s', h⟩ := sendAll_of_small (s := freshSession) rfl hsize
  have hwritten : [s'.written].flatten = ((item :: items).map fun item => item.frame.encode).flatten := by
    rw [sendAll_ok h]
    simp [freshSession]
  refine ⟨s', h, ?_⟩
  rw [receiveAll_frames hsize hwritten, List.takeWhile_cons_of_neg (by simpa [Item.fits] using hlarge)]
  rfl

def largePayload : List UInt8 := List.replicate 1048577 0x20

theorem length_largePayload : largePayload.length = 1048577 := List.length_replicate

/-- A large message and a short one are accepted, and the peer gets neither. -/
theorem large_message_is_lost :
    ∃ s', freshSession.sendAll [.message largePayload, .message [0x7b, 0x7d]] = .ok s' ∧
      receiveAll [s'.written] = [] := by
  have hlarge : maxFramePayload < largePayload.length := by
    rw [length_largePayload]
    decide
  have hsize : largePayload.length ≤ maxMessageBytes := by
    rw [length_largePayload]
    decide
  refine lost_from_large [.message [0x7b, 0x7d]] hlarge ?_
  exact List.forall_mem_cons.mpr ⟨hsize, List.forall_mem_singleton.mpr (by decide)⟩

end OboardAgent.AgentLink
