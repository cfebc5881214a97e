import HopsFormal.Wire.Codec

/-!
# Reading back what was written, and writing back what was read

Every event in its domain is read back from its buffer, and every buffer is
refused or holds an event in its domain that is written back as it was, but for
what the reader settles: the flag of a pong and numbers that are not finite.
-/

namespace HopsFormal.Wire

open List Lib Capture

/-! ## What is written -/

def fieldBytes : WireEvent → List UInt8
  | .input (.pointer (.motion time dx dy)) =>
    beBytes 4 time.toNat ++ (beBytes 8 dx.toNat ++ beBytes 8 dy.toNat)
  | .input (.pointer (.button time button state)) =>
    beBytes 4 time.toNat ++ (beBytes 4 button.toNat ++ beBytes 4 state.toNat)
  | .input (.pointer (.axis time axis value)) =>
    beBytes 4 time.toNat ++ (beBytes 1 axis.toNat ++ beBytes 8 value.toNat)
  | .input (.pointer (.axisDiscrete120 axis value)) =>
    beBytes 1 axis.toNat ++ beBytes 4 value.toUInt32.toNat
  | .input (.keyboard (.key time key state)) =>
    beBytes 4 time.toNat ++ (beBytes 4 key.toNat ++ beBytes 1 state.toNat)
  | .input (.keyboard (.modifiers depressed latched locked group)) =>
    beBytes 4 depressed.toNat ++
      (beBytes 4 latched.toNat ++ (beBytes 4 locked.toNat ++ beBytes 4 group.toNat))
  | .ping => []
  | .pong alive => beBytes 1 (if alive then (1 : UInt8) else 0).toNat
  | .enter position => beBytes 1 (positionTag position).toNat
  | .leave serial => beBytes 4 serial.toNat
  | .ack serial => beBytes 4 serial.toNat
  | .hello commit => commit.toList
  | .capability flags => beBytes 4 flags.toNat
  | .pointerMotionAbsolute seq ts vx vy =>
    beBytes 4 seq.toNat ++ (beBytes 4 ts.toNat ++ (beBytes 4 vx.toNat ++ beBytes 4 vy.toNat))

variable (bytes : List UInt8) (event : WireEvent) (type : EventType)

def eventBytes : List UInt8 := event.eventType.tag :: fieldBytes event

theorem beBytes_one (byte : UInt8) : beBytes 1 byte.toNat = [byte] := by
  simp [beBytes]

theorem length_eventBytes : (eventBytes event).length = event.eventType.width := by
  cases event with
  | input event =>
    cases event with
    | pointer event | keyboard event =>
      cases event <;> simp [eventBytes, fieldBytes, ProtoEvent.eventType, EventType.width]
  | hello commit | _ => simp [eventBytes, fieldBytes, ProtoEvent.eventType, EventType.width]

theorem width_le : type.width ≤ maxEventSize := by
  cases type <;> decide

theorem writes_u8 (byte : UInt8) : Writes (encodeU8 byte) [byte] := by
  unfold encodeU8
  rw [beBytes_one]
  exact .put _

theorem writes_each : Writes (encodeEach bytes) bytes := by
  induction bytes with
  | nil => exact .nothing
  | cons byte rest ih => exact (writes_u8 byte).seq ih

theorem writes_fields : Writes (encodeFields event) (fieldBytes event) := by
  cases event with
  | input event =>
    cases event with
    | pointer event =>
      cases event with
      | motion time dx dy | button time button state | axis time axis value =>
        exact (Writes.put _).seq ((Writes.put _).seq (.put _))
      | axisDiscrete120 axis value => exact (Writes.put _).seq (.put _)
    | keyboard event =>
      cases event with
      | key time key state => exact (Writes.put _).seq ((Writes.put _).seq (.put _))
      | modifiers depressed latched locked group =>
        exact (Writes.put _).seq ((Writes.put _).seq ((Writes.put _).seq (.put _)))
  | ping => exact .nothing
  | pong alive | enter position | leave serial | ack serial | capability flags => exact .put _
  | hello commit => exact writes_each commit.toList
  | pointerMotionAbsolute seq ts vx vy =>
    exact (Writes.put _).seq ((Writes.put _).seq ((Writes.put _).seq (.put _)))

/-- The buffer of an event is its bytes and zeros after them. -/
theorem encode_eq : encode event = some
      (eventBytes event ++ List.replicate (maxEventSize - event.eventType.width) 0,
        event.eventType.width) := by
  have length := length_eventBytes event
  have fits := width_le event.eventType
  rw [← length] at fits
  have written := (writes_u8 event.eventType.tag).seq (writes_fields event)
    ⟨[], List.replicate maxEventSize 0, 0⟩ (by simpa [eventBytes] using fits)
  simp only [encode, StateT.run]
  rw [written]
  simp only [Writer.push, drop_replicate, nil_append, Nat.zero_add,
    cons_append, Option.bind_eq_bind, Option.bind_some]
  rw [← length]
  rfl

/-! ## What is read back -/

/-- The events every backend can take. -/
def InDomain : WireEvent → Prop
  | .input (.pointer (.motion _ dx dy)) => finite64 dx = true ∧ finite64 dy = true
  | .input (.pointer (.button _ _ state)) => state ≤ 1
  | .input (.pointer (.axis _ axis value)) => axis ≤ 1 ∧ finite64 value = true
  | .input (.pointer (.axisDiscrete120 axis _)) => axis ≤ 1
  | .input (.keyboard (.key _ _ state)) => state ≤ 1
  | .pointerMotionAbsolute _ _ vx vy => finite32 vx = true ∧ finite32 vy = true
  | _ => True

theorem u8_of_bytes (n : UInt8) : UInt8.ofNat (ofBeBytes (beBytes 1 n.toNat)) = n := by
  have fits : n.toNat < 256 ^ 1 := n.toNat_lt
  rw [ofBeBytes_of_lt fits, UInt8.ofNat_toNat]

theorem u32_of_bytes (n : UInt32) : UInt32.ofNat (ofBeBytes (beBytes 4 n.toNat)) = n := by
  have fits : n.toNat < 256 ^ 4 := n.toNat_lt
  rw [ofBeBytes_of_lt fits, UInt32.ofNat_toNat]

theorem u64_of_bytes (n : UInt64) : UInt64.ofNat (ofBeBytes (beBytes 8 n.toNat)) = n := by
  have fits : n.toNat < 256 ^ 8 := n.toNat_lt
  rw [ofBeBytes_of_lt fits, UInt64.ofNat_toNat]

theorem reads_u8 (n : UInt8) : Reads decodeU8 (beBytes 1 n.toNat) n := by
  have read := (Reads.splitAt Fault.outOfRange (beBytes 1 n.toNat)).map
    fun bytes => UInt8.ofNat (ofBeBytes bytes)
  rwa [length_beBytes, u8_of_bytes] at read

theorem reads_u32 (n : UInt32) : Reads decodeU32 (beBytes 4 n.toNat) n := by
  have read := (Reads.splitAt Fault.outOfRange (beBytes 4 n.toNat)).map
    fun bytes => UInt32.ofNat (ofBeBytes bytes)
  rwa [length_beBytes, u32_of_bytes] at read

theorem reads_i32 (n : Int32) : Reads decodeI32 (beBytes 4 n.toUInt32.toNat) n := by
  have read := (Reads.splitAt Fault.outOfRange (beBytes 4 n.toUInt32.toNat)).map
    fun bytes => Int32.ofUInt32 (UInt32.ofNat (ofBeBytes bytes))
  rwa [length_beBytes, u32_of_bytes] at read

theorem reads_f64 {bits : UInt64} (finite : finite64 bits = true) :
    Reads decodeF64 (beBytes 8 bits.toNat) bits := by
  have read := (Reads.splitAt Fault.outOfRange (beBytes 8 bits.toNat)).map
    fun bytes => if finite64 (UInt64.ofNat (ofBeBytes bytes)) then
      UInt64.ofNat (ofBeBytes bytes) else 0
  rwa [length_beBytes, u64_of_bytes, if_pos finite] at read

theorem reads_f32 {bits : UInt32} (finite : finite32 bits = true) :
    Reads decodeF32 (beBytes 4 bits.toNat) bits := by
  have read := (Reads.splitAt Fault.outOfRange (beBytes 4 bits.toNat)).map
    fun bytes => if finite32 (UInt32.ofNat (ofBeBytes bytes)) then
      UInt32.ofNat (ofBeBytes bytes) else 0
  rwa [length_beBytes, u32_of_bytes, if_pos finite] at read

theorem inDomain_of_le {field : String} {value max : UInt32} (within : value ≤ max) :
    inDomain field value max = pure value := by
  have not_lt : ¬ max < value := UInt32.not_lt.mpr within
  simp [inDomain, not_lt]

theorem reads_each (commit : List UInt8) :
    Reads (decodeEach commit.length) commit ⟨commit, rfl⟩ := by
  induction commit with
  | nil => exact fun rest => rfl
  | cons byte rest ih =>
    have first := reads_u8 byte
    rw [beBytes_one] at first
    exact first.bind (ih.map fun rest => byte ::ᵥ rest)

theorem reads_vector {count : Nat} (bytes : List.Vector UInt8 count) :
    Reads (decodeEach count) bytes.toList bytes := by
  obtain ⟨bytes, rfl⟩ := bytes
  exact reads_each bytes

theorem positionOfTag?_tag (position : Position) :
    positionOfTag? (positionTag position) = some position := by
  cases position <;> rfl

theorem tag_of_positionOfTag? {number : UInt8} {position : Position}
    (known : positionOfTag? number = some position) : number = positionTag position := by
  unfold positionOfTag? at known
  split at known <;> cases known <;> rfl

/-- A field in its domain goes on to the next. -/
theorem reads_checked {α : Type} (field : String) {value max : UInt32} (within : value ≤ max)
    {next : UInt32 → Decoder α} {bytes : List UInt8} {result : α}
    (reads : Reads (next value) bytes result) :
    Reads (inDomain field value max >>= next) bytes result := by
  intro rest
  rw [inDomain_of_le within]
  exact reads rest

theorem wide_le {n : UInt8} (within : n ≤ 1) : n.toUInt32 ≤ 1 := by
  rw [UInt32.le_iff_toNat_le]
  simpa using UInt8.le_iff_toNat_le.mp within

theorem reads_fields {event : WireEvent} (domain : InDomain event) :
    Reads (decodeFields event.eventType) (fieldBytes event) event := by
  cases event with
  | input event =>
    cases event with
    | pointer event =>
      cases event with
      | motion time dx dy =>
        exact (reads_u32 time).bind ((reads_f64 domain.1).bind ((reads_f64 domain.2).map _))
      | button time button state =>
        refine (reads_u32 time).bind ((reads_u32 button).bind ((reads_u32 state).last ?_))
        exact reads_checked _ domain fun _ => rfl
      | axis time axis value =>
        refine (reads_u32 time).bind ((reads_u8 axis).bind ?_)
        refine reads_checked _ (wide_le domain.1) ?_
        rw [UInt8.toUInt8_toUInt32]
        exact (reads_f64 domain.2).map _
      | axisDiscrete120 axis value =>
        refine (reads_u8 axis).bind (reads_checked _ (wide_le domain) ?_)
        rw [UInt8.toUInt8_toUInt32]
        exact (reads_i32 value).map _
    | keyboard event =>
      cases event with
      | key time key state =>
        refine (reads_u32 time).bind ((reads_u32 key).bind ((reads_u8 state).last ?_))
        refine reads_checked _ (wide_le domain) ?_
        rw [UInt8.toUInt8_toUInt32]
        exact fun _ => rfl
      | modifiers depressed latched locked group =>
        exact (reads_u32 _).bind ((reads_u32 _).bind ((reads_u32 _).bind ((reads_u32 _).map _)))
  | ping => exact fun rest => rfl
  | pong alive =>
    cases alive with
    | false => exact (reads_u8 0).map _
    | true => exact (reads_u8 1).map _
  | enter position =>
    apply (reads_u8 (positionTag position)).last
    intro rest
    rw [positionOfTag?_tag]
    rfl
  | leave serial | ack serial => exact (reads_u32 serial).map _
  | hello commit => exact (reads_vector commit).map _
  | capability flags => exact (reads_u32 flags).map _
  | pointerMotionAbsolute seq ts vx vy =>
    exact (reads_u32 _).bind ((reads_u32 _).bind
      ((reads_f32 domain.1).bind ((reads_f32 domain.2).map _)))

/-- An event in its domain is read back from its buffer. -/
theorem decode_encoded {event : WireEvent} (domain : InDomain event) (rest : List UInt8) :
    decode (eventBytes event ++ rest) = .ok event := by
  have tag := reads_u8 event.eventType.tag
  rw [beBytes_one] at tag
  have read : Reads decodeEvent (eventBytes event) event := by
    refine tag.bind ?_
    rw [EventType.ofTag?_tag]
    exact reads_fields domain
  simp only [decode, StateT.run, read rest]
  rfl

/-! ## What any buffer is read as -/

/-- A buffer is refused for what it says, never for running out. -/
def Refused (fault : Fault) : Prop := ∃ error, fault = .protocol error

/-- The bytes of a number the reader takes: zeros for one that is not finite. -/
def settle64 : List UInt8 :=
  if finite64 (UInt64.ofNat (ofBeBytes bytes)) then bytes else List.replicate 8 0

def settle32 : List UInt8 :=
  if finite32 (UInt32.ofNat (ofBeBytes bytes)) then bytes else List.replicate 4 0

/-- Any byte but zero is the flag. -/
def settleFlag (byte : UInt8) : UInt8 := if byte ≠ 0 then 1 else 0

/-- The bytes of the fields as the reader takes them. -/
def settled : EventType → List UInt8 → List UInt8
  | .pointerMotion, bytes =>
    bytes.take 4 ++ (settle64 ((bytes.drop 4).take 8) ++ settle64 ((bytes.drop 4).drop 8))
  | .pointerAxis, bytes => bytes.take 5 ++ settle64 (bytes.drop 5)
  | .pong, bytes => bytes.map settleFlag
  | .pointerMotionAbsolute, bytes =>
    bytes.take 8 ++ (settle32 ((bytes.drop 8).take 4) ++ settle32 ((bytes.drop 8).drop 4))
  | _, bytes => bytes

theorem bytes_of_u8 {bytes : List UInt8} (length : bytes.length = 1) :
    beBytes 1 (UInt8.ofNat (ofBeBytes bytes)).toNat = bytes := by
  have fits : ofBeBytes bytes < 256 ^ 1 := length ▸ ofBeBytes_lt bytes
  have same : (UInt8.ofNat (ofBeBytes bytes)).toNat = ofBeBytes bytes :=
    UInt8.toNat_ofNat_of_lt' fits
  rw [same, ← length, beBytes_ofBeBytes]

theorem bytes_of_u32 {bytes : List UInt8} (length : bytes.length = 4) :
    beBytes 4 (UInt32.ofNat (ofBeBytes bytes)).toNat = bytes := by
  have fits : ofBeBytes bytes < 256 ^ 4 := length ▸ ofBeBytes_lt bytes
  have same : (UInt32.ofNat (ofBeBytes bytes)).toNat = ofBeBytes bytes :=
    UInt32.toNat_ofNat_of_lt' fits
  rw [same, ← length, beBytes_ofBeBytes]

theorem bytes_of_u64 {bytes : List UInt8} (length : bytes.length = 8) :
    beBytes 8 (UInt64.ofNat (ofBeBytes bytes)).toNat = bytes := by
  have fits : ofBeBytes bytes < 256 ^ 8 := length ▸ ofBeBytes_lt bytes
  have same : (UInt64.ofNat (ofBeBytes bytes)).toNat = ofBeBytes bytes :=
    UInt64.toNat_ofNat_of_lt' fits
  rw [same, ← length, beBytes_ofBeBytes]

theorem parses_u8 : Parses Refused decodeU8 1 fun bytes n => beBytes 1 n.toNat = bytes := by
  refine ((Parses.splitAt Fault.outOfRange 1).map _).mono ?_
  rintro bytes n _ ⟨_, ⟨length, rfl⟩, rfl⟩
  exact bytes_of_u8 length

theorem parses_u32 : Parses Refused decodeU32 4 fun bytes n => beBytes 4 n.toNat = bytes := by
  refine ((Parses.splitAt Fault.outOfRange 4).map _).mono ?_
  rintro bytes n _ ⟨_, ⟨length, rfl⟩, rfl⟩
  exact bytes_of_u32 length

theorem parses_i32 :
    Parses Refused decodeI32 4 fun bytes n => beBytes 4 n.toUInt32.toNat = bytes := by
  refine ((Parses.splitAt Fault.outOfRange 4).map _).mono ?_
  rintro bytes n _ ⟨_, ⟨length, rfl⟩, rfl⟩
  exact bytes_of_u32 length

theorem parses_f64 :
    Parses Refused decodeF64 8 fun bytes bits =>
      finite64 bits = true ∧ beBytes 8 bits.toNat = settle64 bytes := by
  refine ((Parses.splitAt Fault.outOfRange 8).map _).mono ?_
  rintro bytes bits _ ⟨_, ⟨length, rfl⟩, rfl⟩
  unfold settle64
  split
  · rename_i finite
    exact ⟨finite, bytes_of_u64 length⟩
  · exact ⟨by decide, by decide⟩

theorem parses_f32 :
    Parses Refused decodeF32 4 fun bytes bits =>
      finite32 bits = true ∧ beBytes 4 bits.toNat = settle32 bytes := by
  refine ((Parses.splitAt Fault.outOfRange 4).map _).mono ?_
  rintro bytes bits _ ⟨_, ⟨length, rfl⟩, rfl⟩
  unfold settle32
  split
  · rename_i finite
    exact ⟨finite, bytes_of_u32 length⟩
  · exact ⟨by decide, by decide⟩

theorem parses_inDomain (field : String) (value max : UInt32) :
    Parses Refused (inDomain field value max) 0 fun _ result =>
      result = value ∧ value ≤ max := by
  unfold inDomain
  split
  · exact .throw ⟨_, rfl⟩
  · rename_i within
    refine (Parses.pure value).mono ?_
    rintro _ result _ rfl
    exact ⟨rfl, UInt32.not_lt.mp within⟩

theorem parses_each (count : Nat) :
    Parses Refused (decodeEach count) count fun bytes values => values.toList = bytes := by
  induction count with
  | zero =>
    refine (Parses.pure _).mono ?_
    rintro bytes values length rfl
    exact (eq_nil_of_length_eq_zero length).symm
  | succ count ih =>
    have both := parses_u8.bind fun byte => ih.map fun rest => byte ::ᵥ rest
    rw [Nat.add_comm] at both
    refine both.mono ?_
    rintro bytes values _ ⟨byte, first, rest, later, rfl⟩
    rw [beBytes_one] at first
    rw [List.Vector.toList_cons, later]
    exact (congrArg (· ++ bytes.drop 1) first).trans (take_append_drop 1 bytes)

theorem narrow_le {byte : UInt8} (within : byte.toUInt32 ≤ 1) : byte ≤ 1 := by
  rw [UInt8.le_iff_toNat_le]
  simpa using UInt32.le_iff_toNat_le.mp within

theorem parses_position (number : UInt8) :
    Parses Refused (match positionOfTag? number with
      | some position => pure (.enter position)
      | none => throw (.protocol (.invalidPosition number))) 0 fun _ (event : WireEvent) =>
        ∃ position, number = positionTag position ∧ event = .enter position := by
  cases found : positionOfTag? number with
  | none => exact .throw ⟨_, rfl⟩
  | some position =>
    refine (Parses.pure _).mono ?_
    rintro bytes event _ rfl
    exact ⟨position, tag_of_positionOfTag? found, rfl⟩

/-- What the fields of an event of this type are read from. -/
def ReadFrom (bytes : List UInt8) (event : WireEvent) : Prop :=
  event.eventType = type ∧ InDomain event ∧ fieldBytes event = settled type bytes

theorem parses_fields : Parses Refused (decodeFields type) (type.width - 1) (ReadFrom type) := by
  cases type with
  | pointerMotion =>
    have parses := parses_u32.bind fun time => parses_f64.bind fun dx => parses_f64.map fun dy =>
      (.input (.pointer (.motion time dx dy)) : WireEvent)
    refine parses.mono ?_
    rintro bytes event _ ⟨time, first, dx, second, dy, third, rfl⟩
    refine ⟨rfl, ⟨second.1, third.1⟩, ?_⟩
    simp only [fieldBytes, settled, first, second.2, third.2]
  | pointerButton =>
    have parses := parses_u32.bind fun time => parses_u32.bind fun button =>
      parses_u32.last fun state => (parses_inDomain "pointer button state" state 1).map fun state =>
        (.input (.pointer (.button time button state)) : WireEvent)
    refine parses.mono ?_
    rintro bytes event _ ⟨time, first, button, second, state, third, _, ⟨rfl, within⟩, rfl⟩
    refine ⟨rfl, within, ?_⟩
    simp only [fieldBytes, settled, first, second, third, take_append_drop]
  | pointerAxis =>
    have parses := parses_u32.bind fun time => parses_u8.bind fun axis =>
      (parses_inDomain "pointer axis" axis.toUInt32 1).bind fun axis => parses_f64.map fun value =>
        (.input (.pointer (.axis time axis.toUInt8 value)) : WireEvent)
    refine parses.mono ?_
    rintro bytes event _ ⟨time, first, axis, second, _, ⟨rfl, within⟩, value, third, rfl⟩
    rw [UInt8.toUInt8_toUInt32]
    refine ⟨rfl, ⟨narrow_le within, third.1⟩, ?_⟩
    have front : bytes.take 5 = bytes.take 4 ++ (bytes.drop 4).take 1 :=
      take_add (i := 4) (j := 1)
    simp only [fieldBytes, settled, first, second, third.2, drop_drop, front,
      append_assoc]
  | pointerAxisValue120 =>
    have parses := parses_u8.bind fun axis =>
      (parses_inDomain "pointer axis" axis.toUInt32 1).bind fun axis => parses_i32.map fun value =>
        (.input (.pointer (.axisDiscrete120 axis.toUInt8 value)) : WireEvent)
    refine parses.mono ?_
    rintro bytes event _ ⟨axis, first, _, ⟨rfl, within⟩, value, second, rfl⟩
    rw [UInt8.toUInt8_toUInt32]
    refine ⟨rfl, narrow_le within, ?_⟩
    simp only [fieldBytes, settled, first, second, drop_zero, take_append_drop]
  | keyboardKey =>
    have parses := parses_u32.bind fun time => parses_u32.bind fun key =>
      parses_u8.last fun state => (parses_inDomain "key state" state.toUInt32 1).map fun state =>
        (.input (.keyboard (.key time key state.toUInt8)) : WireEvent)
    refine parses.mono ?_
    rintro bytes event _ ⟨time, first, key, second, state, third, _, ⟨rfl, within⟩, rfl⟩
    rw [UInt8.toUInt8_toUInt32]
    refine ⟨rfl, narrow_le within, ?_⟩
    simp only [fieldBytes, settled, first, second, third, take_append_drop]
  | keyboardModifiers =>
    have parses := parses_u32.bind fun depressed => parses_u32.bind fun latched =>
      parses_u32.bind fun locked => parses_u32.map fun group =>
        (.input (.keyboard (.modifiers depressed latched locked group)) : WireEvent)
    refine parses.mono ?_
    rintro bytes event _ ⟨depressed, first, latched, second, locked, third, group, fourth, rfl⟩
    refine ⟨rfl, trivial, ?_⟩
    simp only [fieldBytes, settled, first, second, third, fourth, take_append_drop]
  | ping =>
    refine (Parses.pure _).mono ?_
    rintro bytes event length rfl
    exact ⟨rfl, trivial, (eq_nil_of_length_eq_zero length).symm⟩
  | pong =>
    refine (parses_u8.map _).mono ?_
    rintro bytes event _ ⟨byte, first, rfl⟩
    refine ⟨rfl, trivial, ?_⟩
    rw [beBytes_one] at first
    subst first
    by_cases zero : byte = 0
    · simp [fieldBytes, settled, settleFlag, zero, beBytes]
    · simp [fieldBytes, settled, settleFlag, zero, beBytes]
  | enter =>
    have parses := parses_u8.last fun number => parses_position number
    refine parses.mono ?_
    rintro bytes event _ ⟨number, first, position, rfl, rfl⟩
    exact ⟨rfl, trivial, first⟩
  | leave | ack =>
    refine (parses_u32.map _).mono ?_
    rintro bytes event _ ⟨serial, first, rfl⟩
    exact ⟨rfl, trivial, first⟩
  | hello =>
    refine ((parses_each 8).map _).mono ?_
    rintro bytes event _ ⟨commit, first, rfl⟩
    exact ⟨rfl, trivial, first⟩
  | capability =>
    refine (parses_u32.map _).mono ?_
    rintro bytes event _ ⟨flags, first, rfl⟩
    exact ⟨rfl, trivial, first⟩
  | pointerMotionAbsolute =>
    have parses := parses_u32.bind fun seq => parses_u32.bind fun ts => parses_f32.bind fun vx =>
      parses_f32.map fun vy => (.pointerMotionAbsolute seq ts vx vy : WireEvent)
    refine parses.mono ?_
    rintro bytes event _ ⟨seq, first, ts, second, vx, third, vy, fourth, rfl⟩
    refine ⟨rfl, ⟨third.1, fourth.1⟩, ?_⟩
    have front : bytes.take 8 = bytes.take 4 ++ (bytes.drop 4).take 4 :=
      take_add (i := 4) (j := 4)
    simp only [fieldBytes, settled, first, second, third.2, fourth.2, drop_drop, front,
      append_assoc]

/-- The bytes an event takes at the front of a buffer, as the reader takes them. -/
def settledFront : List UInt8 → List UInt8
  | [] => []
  | number :: data =>
    match EventType.ofTag? number with
    | some type => number :: settled type (data.take (type.width - 1))
    | none => []

/-- Any buffer is refused for what it says or is read as what it says. -/
theorem decode_cases {buffer : List UInt8} (length : buffer.length = maxEventSize) :
    (∃ error, decode buffer = .error (.protocol error)) ∨
      ∃ event, decode buffer = .ok event ∧ InDomain event ∧
        eventBytes event = settledFront buffer := by
  have room : 1 ≤ buffer.length := by
    rw [length]
    decide
  rcases parses_u8 buffer room with ⟨_, failed, error, rfl⟩ | ⟨number, read, first⟩
  · refine .inl ⟨error, ?_⟩
    simp only [decode, StateT.run, decodeEvent, Bind.bind, StateT.bind, Except.bind, failed]
    rfl
  · rw [beBytes_one] at first
    have whole : buffer = number :: buffer.drop 1 :=
      (take_append_drop 1 buffer).symm.trans (congrArg (· ++ buffer.drop 1) first.symm)
    cases known : EventType.ofTag? number with
    | none =>
      refine .inl ⟨.invalidEventId number, ?_⟩
      simp only [decode, StateT.run, decodeEvent, Bind.bind, StateT.bind, Except.bind, read, known]
      rfl
    | some type =>
      have fits := width_le type
      have left : type.width - 1 ≤ (buffer.drop 1).length := by
        rw [length_drop, length]
        omega
      rcases parses_fields type (buffer.drop 1) left with
        ⟨_, failed, error, rfl⟩ | ⟨event, again, isType, domain, fields⟩
      · refine .inl ⟨error, ?_⟩
        simp only [decode, StateT.run, decodeEvent, Bind.bind, StateT.bind, Except.bind, read,
          known, failed]
        rfl
      · refine .inr ⟨event, ?_, domain, ?_⟩
        · simp only [decode, StateT.run, decodeEvent, Bind.bind, StateT.bind, Except.bind, read,
            known, again]
          rfl
        · rw [whole, settledFront, known, eventBytes, fields, isType]
          rw [← EventType.tag_of_ofTag? known]

/--
Every event in its domain is read back from its buffer, which is as long as
every buffer, counts as many bytes as events of its type take and is zero past
them.  Every buffer is refused or read as an event in its domain that is
written back as the buffer has it, with the flag of a pong and numbers that are
not finite settled.
-/
theorem wire_codec :
    (∀ event : WireEvent, ∃ buffer, encode event = some (buffer, event.eventType.width) ∧
      buffer.length = maxEventSize ∧ event.eventType.width ≤ maxEventSize ∧
      (∀ byte ∈ buffer.drop event.eventType.width, byte = 0) ∧
      (InDomain event → decode buffer = .ok event)) ∧
    ∀ buffer : List UInt8, buffer.length = maxEventSize →
      (∃ error, decode buffer = .error (.protocol error)) ∨
      ∃ event again, decode buffer = .ok event ∧ InDomain event ∧
        encode event = some (again, event.eventType.width) ∧
        again.take event.eventType.width = settledFront buffer := by
  constructor
  · intro event
    have length := length_eventBytes event
    have fits := width_le event.eventType
    refine ⟨_, encode_eq event, ?_, fits, ?_, ?_⟩
    · rw [length_append, length, length_replicate]
      omega
    · rw [← length, drop_left]
      intro byte member
      exact (mem_replicate.mp member).2
    · intro domain
      exact decode_encoded domain _
  · intro buffer length
    rcases decode_cases length with refused | ⟨event, read, domain, front⟩
    · exact .inl refused
    · refine .inr ⟨event, _, read, domain, encode_eq event, ?_⟩
      rw [← length_eventBytes event, take_left]
      exact front

end HopsFormal.Wire
