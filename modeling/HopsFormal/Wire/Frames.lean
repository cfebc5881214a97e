import HopsFormal.Wire.RoundTrip

/-!
# Frames on a byte stream

A frame is a length byte and as many bytes of an event.  What a reader leaves
of the stream is what follows the frame it read, so a frame whose event is not
known is passed over and the next one is found where it begins.
-/

namespace HopsFormal.Wire

open List Lib Capture

/-- How reading a frame fails; the last is copying past the end of the buffer. -/
inductive FrameError where
  | read
  | badLength (length : Nat)
  | protocol (error : ProtocolError)
  | outOfRange

/-- The bytes of one frame; none where the event does not fit its buffer. -/
def writeFrame (event : WireEvent) : Option (List UInt8) := do
  let (buffer, len) ← encode event
  some (UInt8.ofNat len :: buffer.take len)

/-- Take exactly as many bytes off the stream; none where it ends before. -/
def readExact (count : Nat) (stream : List UInt8) : Option (List UInt8 × List UInt8) :=
  if stream.length < count then none else some (stream.take count, stream.drop count)

/-- Copy bytes to the front of a buffer; none past its end. -/
def fill (bytes buffer : List UInt8) : Option (List UInt8) :=
  if buffer.length < bytes.length then none else some (bytes ++ buffer.drop bytes.length)

/-- The event of a frame, which is as long as the event takes. -/
def checkFrame (len : Nat) (buffer : List UInt8) : Except FrameError WireEvent :=
  match decode buffer with
  | .error .outOfRange => .error .outOfRange
  | .error (.protocol error) => .error (.protocol error)
  | .ok event =>
    match encode event with
    | none => .error .outOfRange
    | some (_, encodedLen) => if encodedLen ≠ len then .error (.badLength len) else .ok event

/-- Read one frame: its event, nothing at the end of the stream, and what is left of it. -/
def readFrame : List UInt8 → Except FrameError (Option WireEvent) × List UInt8
  | [] => (.ok none, [])
  | lenByte :: stream =>
    let len := lenByte.toNat
    if maxEventSize < len then (.error (.badLength len), stream)
    else
      match readExact len stream with
      | none => (.error .read, [])
      | some (bytes, rest) =>
        match fill bytes (List.replicate maxEventSize 0) with
        | none => (.error .outOfRange, rest)
        | some buffer => ((checkFrame len buffer).map some, rest)

variable {lenByte : UInt8} {stream bytes rest : List UInt8} {event : WireEvent}

theorem readFrame_shorter : (readFrame (lenByte :: stream)).2.length ≤ stream.length := by
  unfold readFrame readExact
  dsimp only
  split
  · exact Nat.le_refl _
  · split
    · exact Nat.zero_le _
    · rename_i bytes rest found
      split at found
      · cases found
      · obtain ⟨rfl, rfl⟩ := Prod.mk.inj (Option.some.inj found)
        have shorter : (stream.drop lenByte.toNat).length ≤ stream.length := by
          rw [length_drop]
          omega
        split <;> exact shorter

/-- How a stream was left. -/
inductive Ended where
  | clean
  | failed (error : FrameError)

/-- Read to the end, passing over what is not understood. -/
@[grind =]
def readLoop : List UInt8 → List WireEvent × Ended
  | [] => ([], .clean)
  | lenByte :: stream =>
    let out := readFrame (lenByte :: stream)
    match out.1 with
    | .ok (some event) =>
      let later := readLoop out.2
      (event :: later.1, later.2)
    | .ok none => ([], .clean)
    | .error (.protocol _) => readLoop out.2
    | .error error => ([], .failed error)
termination_by stream => stream.length
decreasing_by all_goals exact Nat.lt_succ_of_le readFrame_shorter

/-! ## What was written is read -/

theorem writeFrame_eq (event : WireEvent) :
    writeFrame event = some (UInt8.ofNat event.eventType.width :: eventBytes event) := by
  simp only [writeFrame, encode_eq, Option.bind_eq_bind, Option.bind_some]
  rw [← length_eventBytes event, take_left]

/-- The buffer a frame is copied into. -/
theorem fill_eq (fits : bytes.length ≤ maxEventSize) : fill bytes (List.replicate maxEventSize 0) =
      some (bytes ++ List.replicate (maxEventSize - bytes.length) 0) := by
  have enough : ¬ (List.replicate maxEventSize (0 : UInt8)).length < bytes.length := by
    rw [length_replicate]
    exact Nat.not_lt.mpr fits
  rw [fill, if_neg enough, drop_replicate]

theorem readExact_eq {count : Nat} (enough : count ≤ stream.length) :
    readExact count stream = some (stream.take count, stream.drop count) := by
  rw [readExact, if_neg (Nat.not_lt.mpr enough)]

theorem readFrame_whole (fits : lenByte.toNat ≤ maxEventSize)
    (enough : lenByte.toNat ≤ stream.length) : readFrame (lenByte :: stream) =
      ((checkFrame lenByte.toNat (stream.take lenByte.toNat ++
        List.replicate (maxEventSize - lenByte.toNat) 0)).map some, stream.drop lenByte.toNat) := by
  have length : (stream.take lenByte.toNat).length = lenByte.toNat := by simp [enough]
  simp only [readFrame, Nat.not_lt.mpr fits, if_false, readExact_eq enough]
  rw [fill_eq (by omega), length]

theorem width_byte (type : EventType) : (UInt8.ofNat type.width).toNat = type.width := by
  cases type <;> rfl

theorem readFrame_written (domain : InDomain event) (rest : List UInt8) :
    readFrame (UInt8.ofNat event.eventType.width :: (eventBytes event ++ rest)) =
      (.ok (some event), rest) := by
  have byte := width_byte event.eventType
  have length := length_eventBytes event
  have fits := width_le event.eventType
  rw [readFrame_whole (by omega) (by rw [byte, length_append]; omega), byte, ← length,
    take_left, drop_left]
  simp only [checkFrame, decode_encoded domain, encode_eq, length]
  simp [Except.map]

theorem readLoop_ok (read : readFrame (lenByte :: stream) = (.ok (some event), rest)) :
    readLoop (lenByte :: stream) = (event :: (readLoop rest).1, (readLoop rest).2) := by
  rw [readLoop, read]

theorem readLoop_skips {error : ProtocolError}
    (read : readFrame (lenByte :: stream) = (.error (.protocol error), rest)) :
    readLoop (lenByte :: stream) = readLoop rest := by
  rw [readLoop, read]

theorem readLoop_fails {lenByte : UInt8} {stream : List UInt8} {error : FrameError}
    (read : (readFrame (lenByte :: stream)).1 = .error error)
    (dead : ∀ why, error ≠ .protocol why) :
    readLoop (lenByte :: stream) = ([], .failed error) := by
  rw [readLoop, read]
  cases error with
  | protocol why => exact absurd rfl (dead why)
  | read | badLength length | outOfRange => rfl

theorem readLoop_written {events : List WireEvent} (domain : ∀ event ∈ events, InDomain event) :
    readLoop (events.flatMap fun event =>
      UInt8.ofNat event.eventType.width :: eventBytes event) = (events, .clean) := by
  induction events with
  | nil => rw [flatMap_nil, readLoop]
  | cons event rest ih =>
    have later := ih fun other member => domain other (mem_cons_of_mem event member)
    have read := readFrame_written (domain event mem_cons_self)
      (rest.flatMap fun event => UInt8.ofNat event.eventType.width :: eventBytes event)
    rw [flatMap_cons, cons_append, readLoop_ok read, later]

/-! ## Any stream -/

theorem settledFront_append (front : eventBytes event = settledFront (bytes ++ rest))
    (length : bytes.length = event.eventType.width) : eventBytes event = settledFront bytes := by
  cases bytes with
  | nil =>
    have wide : 0 < event.eventType.width := by cases event.eventType <;> decide
    rw [length_nil] at length
    omega
  | cons number data =>
    rw [front]
    simp only [cons_append, settledFront] at front ⊢
    cases known : EventType.ofTag? number with
    | none => rfl
    | some type =>
      simp only [known] at front
      have tag : event.eventType.tag = number := (List.cons.inj front).1
      have same : event.eventType = type := by
        rw [← tag, EventType.ofTag?_tag] at known
        exact Option.some.inj known
      have enough : type.width - 1 = data.length := by
        rw [← same, ← length]
        rfl
      simp only [enough, take_left, take_length]

theorem checkFrame_cases (fits : bytes.length ≤ maxEventSize) :
    let buffer := bytes ++ List.replicate (maxEventSize - bytes.length) 0
    (∃ error, checkFrame bytes.length buffer = .error (.protocol error)) ∨
      checkFrame bytes.length buffer = .error (.badLength bytes.length) ∨
      ∃ event, checkFrame bytes.length buffer = .ok event ∧ InDomain event ∧
        event.eventType.width = bytes.length ∧ eventBytes event = settledFront bytes := by
  intro buffer
  have length : buffer.length = maxEventSize := by
    simp only [buffer, length_append, length_replicate]
    omega
  rcases decode_cases length with ⟨error, refused⟩ | ⟨event, read, domain, front⟩
  · refine .inl ⟨error, ?_⟩
    simp only [checkFrame, refused]
  · by_cases same : event.eventType.width = bytes.length
    · refine .inr (.inr ⟨event, ?_, domain, same, settledFront_append front same.symm⟩)
      simp [checkFrame, read, encode_eq, same]
    · refine .inr (.inl ?_)
      simp [checkFrame, read, encode_eq, same]

/-- The frame at the front of a stream is all there and no longer than frames are. -/
def Whole (lenByte : UInt8) (stream : List UInt8) : Prop :=
  lenByte.toNat ≤ maxEventSize ∧ lenByte.toNat ≤ stream.length

/-- Everything one read of a stream that has not ended can come to. -/
inductive FrameRead (lenByte : UInt8) (stream : List UInt8) :
    Except FrameError (Option WireEvent) × List UInt8 → Prop where
  | broken {error : FrameError} {rest : List UInt8} (broken : ¬ Whole lenByte stream)
      (why : error = .badLength lenByte.toNat ∨ error = .read) :
      FrameRead lenByte stream (.error error, rest)
  | refused {error : ProtocolError} (whole : Whole lenByte stream) :
      FrameRead lenByte stream (.error (.protocol error), stream.drop lenByte.toNat)
  | mismatched (whole : Whole lenByte stream) :
      FrameRead lenByte stream (.error (.badLength lenByte.toNat), stream.drop lenByte.toNat)
  | event {event : WireEvent} (whole : Whole lenByte stream) (domain : InDomain event)
      (width : event.eventType.width = lenByte.toNat)
      (front : eventBytes event = settledFront (stream.take lenByte.toNat)) :
      FrameRead lenByte stream (.ok (some event), stream.drop lenByte.toNat)

theorem readFrame_cases (lenByte : UInt8) (stream : List UInt8) :
    FrameRead lenByte stream (readFrame (lenByte :: stream)) := by
  by_cases whole : Whole lenByte stream
  · have length : (stream.take lenByte.toNat).length = lenByte.toNat := by simp [whole.2]
    have fits : (stream.take lenByte.toNat).length ≤ maxEventSize := length.le.trans whole.1
    have cases_ := checkFrame_cases fits
    rw [length] at cases_
    rw [readFrame_whole whole.1 whole.2]
    rcases cases_ with ⟨error, refused⟩ | mismatched | ⟨event, read, domain, width, front⟩
    · rw [refused]
      exact .refused whole
    · rw [mismatched]
      exact .mismatched whole
    · rw [read]
      exact .event whole domain width front
  · unfold readFrame
    by_cases long : maxEventSize < lenByte.toNat
    · simp only [long, if_true]
      exact .broken whole (.inl rfl)
    · have short : stream.length < lenByte.toNat := by
        by_contra enough
        exact whole ⟨Nat.not_lt.mp long, Nat.not_lt.mp enough⟩
      simp only [long, if_false, readExact, short, if_true]
      exact .broken whole (.inr rfl)

theorem readFrame_unknown {tag : UInt8} {more : List UInt8} (whole : Whole lenByte stream)
    (front : stream.take lenByte.toNat = tag :: more) (unknown : EventType.ofTag? tag = none) :
    readFrame (lenByte :: stream) =
      (.error (.protocol (.invalidEventId tag)), stream.drop lenByte.toNat) := by
  have read := reads_u8 tag
  rw [beBytes_one] at read
  rw [readFrame_whole whole.1 whole.2, front, cons_append]
  have decoded : decode (tag :: (more ++ List.replicate (maxEventSize - lenByte.toNat) 0)) =
      .error (.protocol (.invalidEventId tag)) := by
    have step := read (more ++ List.replicate (maxEventSize - lenByte.toNat) 0)
    rw [singleton_append] at step
    simp only [decode, StateT.run, decodeEvent, Bind.bind, StateT.bind, Except.bind, step, unknown]
    rfl
  simp only [checkFrame, decoded]
  rfl

theorem mapM_writeFrame (events : List WireEvent) :
    events.mapM writeFrame = some (events.map fun event =>
      UInt8.ofNat event.eventType.width :: eventBytes event) := by
  induction events with
  | nil => rfl
  | cons event rest ih => simp [mapM_cons, writeFrame_eq, ih]

/--
What is written is read, in order and to a clean end.  A read of any stream
takes one whole frame off it or fails, gives an event only for a frame that is
the bytes of that event, and passes over a whole frame whose tag is not known;
it never copies past the end of its buffer.
-/
theorem framing :
    (∀ events : List WireEvent, (∀ event ∈ events, InDomain event) →
      ∃ frames, events.mapM writeFrame = some frames ∧ readLoop frames.flatten = (events, .clean)) ∧
    readFrame [] = (.ok none, []) ∧
    ∀ (lenByte : UInt8) (stream : List UInt8),
      (readFrame (lenByte :: stream)).1 ≠ .error .outOfRange ∧
      (Whole lenByte stream → (readFrame (lenByte :: stream)).2 = stream.drop lenByte.toNat) ∧
      (¬ Whole lenByte stream → ∃ error, (readFrame (lenByte :: stream)).1 = .error error ∧
        readLoop (lenByte :: stream) = ([], .failed error)) ∧
      (∀ found, (readFrame (lenByte :: stream)).1 = .ok found →
        Whole lenByte stream ∧ ∃ event buffer, found = some event ∧ InDomain event ∧
          encode event = some (buffer, lenByte.toNat) ∧
          buffer.take lenByte.toNat = settledFront (stream.take lenByte.toNat)) ∧
      ∀ tag more, Whole lenByte stream → stream.take lenByte.toNat = tag :: more →
        EventType.ofTag? tag = none →
        (readFrame (lenByte :: stream)).1 = .error (.protocol (.invalidEventId tag)) ∧
        readLoop (lenByte :: stream) = readLoop (stream.drop lenByte.toNat) := by
  refine ⟨?_, rfl, ?_⟩
  · intro events domain
    refine ⟨_, mapM_writeFrame events, ?_⟩
    rw [← flatMap_def]
    exact readLoop_written domain
  · intro lenByte stream
    refine ⟨?_, ?_, ?_, ?_, ?_⟩
    · have read := readFrame_cases lenByte stream
      generalize readFrame (lenByte :: stream) = out at read
      cases read with
      | broken broken why => rcases why with rfl | rfl <;> simp
      | refused whole | mismatched whole | event whole domain width front => simp
    · intro whole
      rw [readFrame_whole whole.1 whole.2]
    · intro broken
      have read := readFrame_cases lenByte stream
      generalize out_eq : readFrame (lenByte :: stream) = out at read
      cases read with
      | broken _ why =>
        refine ⟨_, rfl, readLoop_fails (congrArg Prod.fst out_eq) ?_⟩
        rintro other rfl
        rcases why with contra | contra <;> cases contra
      | refused whole | mismatched whole | event whole domain width front =>
        exact absurd whole broken
    · intro found isFound
      have read := readFrame_cases lenByte stream
      generalize readFrame (lenByte :: stream) = out at read isFound
      cases read with
      | broken _ _ | refused _ | mismatched _ => cases isFound
      | @event event whole domain width front =>
        obtain rfl := Except.ok.inj isFound
        have encoded := encode_eq event
        have length := length_eventBytes event
        rw [width] at encoded length
        refine ⟨whole, event, _, rfl, domain, encoded, ?_⟩
        exact (take_left' length).trans front
    · intro tag more whole front unknown
      have read := readFrame_unknown whole front unknown
      exact ⟨congrArg Prod.fst read, readLoop_skips read⟩

/-! ## A stream cut off -/

theorem readLoop_short (short : bytes.length < event.eventType.width) :
    readLoop (UInt8.ofNat event.eventType.width :: bytes) = ([], .failed .read) := by
  have read : readFrame (UInt8.ofNat event.eventType.width :: bytes) = (.error .read, []) := by
    simp only [readFrame, width_byte, Nat.not_lt.mpr (width_le event.eventType), if_false,
      readExact, short, if_true]
  exact readLoop_fails (congrArg Prod.fst read) nofun

/--
A stream of frames that breaks off anywhere gives the events whose frames are whole, in order,
and no others; it ends clean only where a frame ends.
-/
theorem readLoop_cut (events : List {event : WireEvent // InDomain event}) :
    ∃ frames, (events.map (·.1)).mapM writeFrame = some frames ∧
      ∀ cut, ∃ n ≤ events.length, (frames.take n).flatten.length ≤ cut ∧
        (n < events.length → cut < (frames.take (n + 1)).flatten.length) ∧
        readLoop (frames.flatten.take cut) = ((events.take n).map (·.1),
          if frames.flatten.take cut = (frames.take n).flatten then .clean else .failed .read) := by
  refine ⟨_, mapM_writeFrame _, fun cut => ?_⟩
  induction events generalizing cut with
  | nil => exact ⟨0, Nat.le_refl _, Nat.zero_le _, nofun, by simp [readLoop]⟩
  | cons event rest ih =>
    have wide := length_eventBytes event.1
    simp only [map_cons, flatten_cons, cons_append]
    cases cut with
    | zero => exact ⟨0, Nat.zero_le _, Nat.le_refl _, fun _ => by simp, by simp [readLoop]⟩
    | succ cut =>
      rw [take_succ_cons]
      by_cases short : cut < event.1.eventType.width
      · refine ⟨0, Nat.zero_le _, Nat.zero_le _, fun _ => by simp; omega, ?_⟩
        rw [readLoop_short (by simp; omega)]
        simp
      · obtain ⟨n, inside, whole, next, read⟩ := ih (cut - event.1.eventType.width)
        rw [take_append, take_of_length_le (by omega), wide]
        refine ⟨n + 1, Nat.succ_le_succ inside, by simp at whole ⊢; omega, fun more => ?_, ?_⟩
        · have next := next (Nat.lt_of_succ_lt_succ more)
          simp at next ⊢
          omega
        · rw [readLoop_ok (readFrame_written event.2 _), read]
          simp

end HopsFormal.Wire
