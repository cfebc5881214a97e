import Mathlib.Data.List.Basic

/-!
# Writing and reading a buffer field by field

A writer fills a buffer from the front and a reader takes bytes off the front
of one.  What a sequence of either does is put together from what its parts do:
`Writes` for writers, `Reads` for readers of what was written, `Parses` for
readers of any bytes whatever.
-/

namespace HopsFormal.Lib

open List

/-! ## Writing -/

/-- A buffer being filled: what is written, what is left, and how much was counted. -/
structure Writer where
  done : List UInt8
  rest : List UInt8
  len : Nat

abbrev Encoder := StateT Writer Option Unit

/-- The writer after the next bytes are filled. -/
def Writer.push (writer : Writer) (src : List UInt8) : Writer :=
  ⟨writer.done ++ src, writer.rest.drop src.length, writer.len + src.length⟩

/-- Fill the next bytes of the buffer; none past its end. -/
def put (src : List UInt8) : Encoder := fun writer =>
  if writer.rest.length < src.length then none else some ((), writer.push src)

/-- The encoder writes exactly these bytes wherever there is room for them. -/
def Writes (encoder : Encoder) (bytes : List UInt8) : Prop :=
  ∀ writer : Writer, bytes.length ≤ writer.rest.length →
    encoder writer = some ((), writer.push bytes)

theorem Writes.put (src : List UInt8) : Writes (put src) src := by
  intro writer room
  unfold Lib.put
  rw [if_neg (Nat.not_lt.mpr room)]

theorem Writes.nothing : Writes (pure ()) [] := by
  intro writer _
  have unchanged : writer.push [] = writer := by simp [Writer.push]
  rw [unchanged]
  rfl

theorem Writes.seq {first second : Encoder} {front back : List UInt8}
    (one : Writes first front) (two : Writes second back) :
    Writes (do first; second) (front ++ back) := by
  intro writer room
  rw [length_append] at room
  have after : back.length ≤ (writer.push front).rest.length := by
    simp only [Writer.push, length_drop]
    omega
  have pushed : (writer.push front).push back = writer.push (front ++ back) := by
    simp only [Writer.push, append_assoc, drop_drop, length_append, Nat.add_assoc]
  simp only [bind, StateT.bind, one writer (by omega), Option.bind_some, two _ after, pushed]

/-! ## Reading -/

/-- Readers of a buffer that may refuse it. -/
abbrev Reader (ε : Type) := StateT (List UInt8) (Except ε)

section Reading

variable {ε α β : Type}

/-- Split the next bytes off the buffer, which faults past its end. -/
def splitAt (past : ε) (count : Nat) : Reader ε (List UInt8) := fun data =>
  if data.length < count then .error past
  else .ok (data.take count, data.drop count)

/-- The reader makes `value` of these bytes, whatever follows them. -/
def Reads (reader : Reader ε α) (bytes : List UInt8) (value : α) : Prop :=
  ∀ rest, reader (bytes ++ rest) = .ok (value, rest)

theorem Reads.splitAt (past : ε) (bytes : List UInt8) :
    Reads (splitAt past bytes.length) bytes bytes := by
  intro rest
  simp [Lib.splitAt]

variable {reader : Reader ε α} {size : Nat}

theorem Reads.bind {next : α → Reader ε β} {front back : List UInt8} {first : α} {second : β}
    (one : Reads reader front first) (two : Reads (next first) back second) :
    Reads (reader >>= next) (front ++ back) second := by
  intro rest
  have read := one (back ++ rest)
  rw [append_assoc]
  simp only [Bind.bind, StateT.bind, Except.bind]
  rw [read]
  exact two rest

theorem Reads.last {next : α → Reader ε β} {bytes : List UInt8} {value : α} {result : β}
    (reads : Reads reader bytes value) (after : Reads (next value) [] result) :
    Reads (reader >>= next) bytes result := by
  have both := reads.bind after
  rwa [append_nil] at both

theorem Reads.map {bytes : List UInt8} {value : α} (reads : Reads reader bytes value) (f : α → β) :
    Reads (do let value ← reader; Pure.pure (f value)) bytes (f value) :=
  reads.last fun _ => rfl

/--
The reader takes `size` bytes off any buffer that has them and makes of them
what `made` says, or refuses the buffer as `refuses` allows.
-/
def Parses (refuses : ε → Prop) (reader : Reader ε α) (size : Nat)
    (made : List UInt8 → α → Prop) : Prop :=
  ∀ data : List UInt8, size ≤ data.length →
    (∃ error, reader data = .error error ∧ refuses error) ∨
      ∃ value, reader data = .ok (value, data.drop size) ∧ made (data.take size) value

variable {refuses : ε → Prop}

theorem Parses.splitAt (past : ε) (count : Nat) :
    Parses refuses (splitAt past count) count fun bytes value =>
      bytes.length = count ∧ value = bytes := by
  intro data room
  refine .inr ⟨data.take count, ?_, ?_, rfl⟩
  · simp [Lib.splitAt, Nat.not_lt.mpr room]
  · simp [room]

theorem Parses.pure (value : α) :
    Parses refuses (pure value) 0 fun _ made => made = value :=
  fun _ _ => .inr ⟨value, rfl, rfl⟩

theorem Parses.throw {error : ε} (allowed : refuses error) {made : List UInt8 → α → Prop} :
    Parses refuses (throw error : Reader ε α) size made :=
  fun _ _ => .inl ⟨error, rfl, allowed⟩

theorem Parses.bind {next : α → Reader ε β} {more : Nat} {made : List UInt8 → α → Prop}
    {after : α → List UInt8 → β → Prop} (one : Parses refuses reader size made)
    (two : ∀ value, Parses refuses (next value) more (after value)) :
    Parses refuses (reader >>= next) (size + more) fun bytes result =>
      ∃ value, made (bytes.take size) value ∧ after value (bytes.drop size) result := by
  intro data room
  rcases one data (by omega) with ⟨error, failed, allowed⟩ | ⟨value, read, isMade⟩
  · refine .inl ⟨error, ?_, allowed⟩
    simp only [Bind.bind, StateT.bind, Except.bind, failed]
  · have left : more ≤ (data.drop size).length := by
      rw [length_drop]
      omega
    rcases two value (data.drop size) left with ⟨error, failed, allowed⟩ | ⟨result, again, isAfter⟩
    · refine .inl ⟨error, ?_, allowed⟩
      simp only [Bind.bind, StateT.bind, Except.bind, read]
      exact failed
    · refine .inr ⟨result, ?_, value, ?_, ?_⟩
      · simp only [Bind.bind, StateT.bind, Except.bind, read]
        rw [again, drop_drop]
      · rwa [take_take, Nat.min_eq_left (Nat.le_add_right size more)]
      · rwa [drop_take, Nat.add_sub_cancel_left]

theorem Parses.mono {made other : List UInt8 → α → Prop} (parses : Parses refuses reader size made)
    (weaker : ∀ bytes value, bytes.length = size → made bytes value → other bytes value) :
    Parses refuses reader size other := by
  intro data room
  rcases parses data room with refused | ⟨value, read, isMade⟩
  · exact .inl refused
  · exact .inr ⟨value, read, weaker _ value (by simp [room]) isMade⟩

theorem Parses.last {next : α → Reader ε β} {made : List UInt8 → α → Prop}
    {after : α → List UInt8 → β → Prop} (one : Parses refuses reader size made)
    (two : ∀ value, Parses refuses (next value) 0 (after value)) :
    Parses refuses (reader >>= next) size fun bytes result =>
      ∃ value, made bytes value ∧ after value [] result := by
  refine (one.bind two).mono ?_
  rintro bytes result length ⟨value, isMade, isAfter⟩
  rw [Nat.add_zero] at length
  refine ⟨value, ?_, ?_⟩
  · rwa [take_of_length_le (Nat.le_of_eq length)] at isMade
  · rwa [drop_eq_nil_of_le (Nat.le_of_eq length)] at isAfter

theorem Parses.map {made : List UInt8 → α → Prop} (parses : Parses refuses reader size made)
    (f : α → β) :
    Parses refuses (do let value ← reader; Pure.pure (f value)) size fun bytes result =>
      ∃ value, made bytes value ∧ result = f value :=
  parses.last fun value => Parses.pure (f value)

end Reading

end HopsFormal.Lib
