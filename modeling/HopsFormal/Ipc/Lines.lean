import HopsFormal.Ipc.Admission

/-!
# Lines read from a connection

The bytes of a connection come in pieces of any length, with waits and errors between them.
However they come, its lines are those of all the bytes split at newlines.  A line that is longer
than the maximum is refused before any of it is kept that would exceed it.
-/

namespace HopsFormal.Ipc

open List
open Trust.Seal (Bytes)

/-- What a read of the connection finds; after the last there is only the end. -/
inductive Arrival where
  | pending
  | failed
  | bytes (first : UInt8) (more : Bytes)

def Arrival.sent : Arrival → Bytes
  | .bytes first more => first :: more
  | .pending | .failed => []

/-- What a poll answers; a line that is not UTF-8 has no text. -/
inductive Polled where
  | pending
  | failed
  | ended
  | tooLong
  | line (text : Option String)

def Polled.text? : Polled → Option (Option String)
  | .line text => some text
  | .pending | .failed | .ended | .tooLong => none

structure Lines where
  arrivals : List Arrival
  available : Bytes
  line : Bytes
  max : Option Nat

inductive Lines.Act where
  | poll
  | lift

namespace Lines

variable (lines : Lines)

/-- The bytes at hand answer something, or all are kept and more are needed. -/
def feed (needed : Lines → Polled × Lines) : Polled × Lines :=
  let kept := lines.available.takeWhile (· != 0x0a)
  if lines.max.any (· < lines.line.length + kept.length) then (.tooLong, lines)
  else
    let line := lines.line ++ kept
    match lines.available.dropWhile (· != 0x0a) with
    | [] => needed { lines with available := [], line }
    | _ :: unused => (.line (takeLine line), { lines with available := unused, line := [] })

def fill (lines : Lines) : List Arrival → Polled × Lines
  | [] =>
    if lines.line = [] then (.ended, { lines with arrivals := [] })
    else (.line (takeLine lines.line), { lines with arrivals := [], line := [] })
  | .pending :: arrivals => (.pending, { lines with arrivals })
  | .failed :: arrivals => (.failed, { lines with arrivals })
  | .bytes first more :: arrivals =>
    { lines with available := first :: more, arrivals }.feed fun fed => fed.fill arrivals

def pollNextLine : Polled × Lines :=
  match lines.available with
  | [] => lines.fill lines.arrivals
  | _ :: _ => lines.feed fun fed => fed.fill fed.arrivals

/-- What was answered so far stands beside the reader; a proven connection has no maximum. -/
def step (read : Lines × List Polled) : Act → Lines × List Polled
  | .poll => (read.1.pollNextLine.2, read.2 ++ [read.1.pollNextLine.1])
  | .lift => ({ read.1 with max := none }, read.2)

def run (max : Option Nat) (arrivals : List Arrival) (acts : List Act) : Lines × List Polled :=
  acts.foldl step (⟨arrivals, [], [], max⟩, [])

/-! ## The lines of the whole stream -/

/-- The lines of some bytes: the last needs no newline, if it is not empty. -/
def split (bytes : Bytes) : List Bytes :=
  let parts := bytes.splitOn 0x0a
  if parts.getLast? = some [] then parts.dropLast else parts

theorem split_line {raw : Bytes} (within : 0x0a ∉ raw) (rest : Bytes) :
    split (raw ++ 0x0a :: rest) = raw :: split rest := by
  have parts : rest.splitOn 0x0a ≠ [] := splitOn_ne_nil _ _
  obtain ⟨last, ends⟩ := Option.ne_none_iff_exists'.mp (mt getLast?_eq_none_iff.mp parts)
  simp only [split, splitOn_append_cons_self_of_not_mem within, getLast?_cons, ends,
    dropLast_cons_of_ne_nil parts]
  split <;> simp_all

theorem split_last {raw : Bytes} (within : 0x0a ∉ raw) :
    split raw = if raw = [] then [] else [raw] := by
  simp only [split, splitOn_eq_singleton within]
  split <;> simp_all

/-- Some bytes up to their first newline, and what is behind. -/
theorem cut (bytes : Bytes) : ∃ kept rest, bytes.takeWhile (· != 0x0a) = kept ∧
    bytes.dropWhile (· != 0x0a) = rest ∧ 0x0a ∉ kept ∧ kept ++ rest = bytes ∧
      (rest = [] ∨ ∃ unused, rest = 0x0a :: unused) := by
  refine ⟨_, _, rfl, rfl, fun member => by simpa using mem_takeWhile_imp member,
    takeWhile_append_dropWhile, ?_⟩
  cases rest : bytes.dropWhile (· != 0x0a) with
  | nil => exact .inl rfl
  | cons newline unused =>
    have ends := head?_dropWhile_not (· != 0x0a) bytes
    simp_all

/-- The first line, as far as it is known. -/
theorem split_begins {raw : Bytes} (within : 0x0a ∉ raw) (rest : Bytes) (some : raw ≠ []) :
    ∃ more, raw ++ more ∈ (split (raw ++ rest)).head? := by
  obtain ⟨kept, rest, -, -, inner, rfl, rfl | ⟨unused, rfl⟩⟩ := cut rest
  · have whole : 0x0a ∉ raw ++ kept := by simp [within, inner]
    exact ⟨kept, by simp [split_last whole, some]⟩
  · refine ⟨kept, ?_⟩
    rw [← append_assoc, split_line (by simp [within, inner])]
    rfl

/-! ## What a poll answers -/

/-- The bytes that are not answered for yet. -/
def left : Bytes :=
  lines.line ++ lines.available ++ lines.arrivals.flatMap Arrival.sent

structure Sound : Prop where
  within : 0x0a ∉ lines.line
  bounded : lines.max.all (lines.line.length ≤ ·)

/-- What an answer says of the bytes that were left, and what it leaves of them. -/
def Fits : Polled × Lines → Prop
  | (.pending, next) => next.left = lines.left ∧ .pending :: next.arrivals <:+ lines.arrivals
  | (.failed, next) => next.left = lines.left ∧ .failed :: next.arrivals <:+ lines.arrivals
  | (.ended, next) => lines.left = [] ∧ next.left = []
  | (.tooLong, next) => next.left = lines.left ∧
    ∃ raw ∈ (split lines.left).head?, lines.max.any (· < raw.length)
  | (.line text, next) => ∃ raw, split lines.left = raw :: split next.left ∧
    text = takeLine raw ∧ lines.max.all (raw.length ≤ ·)

variable {lines}

/-- The same answer is right wherever as much is left. -/
theorem Fits.of {earlier : Lines} {answered : Polled × Lines} (fits : lines.Fits answered)
    (left : lines.left = earlier.left) (max : lines.max = earlier.max)
    (fewer : lines.arrivals <:+ earlier.arrivals) : earlier.Fits answered := by
  obtain ⟨answer, next⟩ := answered
  cases answer <;> simp only [Fits, left, max] at fits ⊢
  case pending | failed => exact ⟨fits.1, fits.2.trans fewer⟩
  all_goals exact fits

theorem feed_fits (sound : lines.Sound) {needed : Lines → Polled × Lines}
    (goes : ∀ next : Lines, next.Sound → next.available = [] → next.arrivals = lines.arrivals →
      next.Fits (needed next) ∧ (needed next).2.Sound) :
    lines.Fits (lines.feed needed) ∧ (lines.feed needed).2.Sound := by
  obtain ⟨arrivals, available, line, max⟩ := lines
  obtain ⟨within, bounded⟩ := sound
  obtain ⟨kept, rest, taken, dropped, inner, rfl, ends⟩ := cut available
  have none : 0x0a ∉ line ++ kept := by simp_all
  simp only [feed, taken, dropped]
  by_cases long : max.any (· < line.length + kept.length)
  · have some : line ++ kept ≠ [] := by
      rintro empty
      cases max <;> simp_all
    obtain ⟨more, begins⟩ := split_begins none (rest ++ arrivals.flatMap Arrival.sent) some
    rw [if_pos long]
    refine ⟨⟨rfl, _, by simpa [left] using begins, ?_⟩, within, bounded⟩
    cases max
    · simp at long
    · simp at long ⊢
      omega
  · have fits : max.all ((line ++ kept).length ≤ ·) := by cases max <;> simp_all
    rw [if_neg long]
    obtain rfl | ⟨unused, rfl⟩ := ends
    · obtain ⟨answered, still⟩ := goes ⟨arrivals, [], line ++ kept, max⟩ ⟨none, fits⟩ rfl rfl
      exact ⟨answered.of (by simp [left]) rfl (suffix_refl _), still⟩
    · refine ⟨⟨line ++ kept, ?_, rfl, fits⟩, by simp, by cases max <;> simp⟩
      simp [left, ← split_line none]

/-- However the bytes come, a poll answers right.  By induction on the reads. -/
theorem fill_fits (sound : lines.Sound) (read : lines.available = [])
    {arrivals : List Arrival} (waiting : lines.arrivals = arrivals) :
    lines.Fits (lines.fill arrivals) ∧ (lines.fill arrivals).2.Sound := by
  induction arrivals generalizing lines with
  | nil =>
    have whole : lines.left = lines.line := by simp [left, read, waiting]
    by_cases empty : lines.line = []
    · rw [fill, if_pos empty]
      exact ⟨⟨by rw [whole, empty], by simp [left, empty, read]⟩, sound.1, sound.2⟩
    · rw [fill, if_neg empty]
      refine ⟨⟨lines.line, ?_, rfl, sound.bounded⟩, by simp, by cases lines.max <;> simp⟩
      rw [whole, split_last sound.within, if_neg empty]
      simp [left, read, split_last]
  | cons arrival arrivals ih =>
    cases arrival with
    | pending | failed =>
      refine ⟨⟨?_, ?_⟩, sound.1, sound.2⟩
      · simp [left, read, waiting, Arrival.sent]
      · simp [waiting]
    | bytes first more =>
      have fed : Sound { lines with available := first :: more, arrivals } := ⟨sound.1, sound.2⟩
      obtain ⟨fits, still⟩ := feed_fits fed fun next sound => ih sound
      refine ⟨fits.of ?_ rfl ?_, still⟩
      · simp [left, read, waiting, Arrival.sent]
      · simp [waiting]

theorem pollNextLine_fits (sound : lines.Sound) :
    lines.Fits lines.pollNextLine ∧ lines.pollNextLine.2.Sound := by
  rw [pollNextLine]
  split
  · exact fill_fits sound ‹_› rfl
  · exact feed_fits sound fun next sound read _ => fill_fits sound read rfl

/-- The lines answered and those left are the lines of all the bytes. -/
def Kept (bytes : Bytes) (read : Lines × List Polled) : Prop :=
  read.2.filterMap Polled.text? ++ (split read.1.left).map takeLine = (split bytes).map takeLine ∧
    read.1.Sound

theorem step_kept {bytes : Bytes} {read : Lines × List Polled} (kept : Kept bytes read) (act : Act) :
    Kept bytes (step read act) := by
  obtain ⟨whole, sound⟩ := kept
  cases act with
  | lift => exact ⟨whole, sound.1, by simp [step]⟩
  | poll =>
    obtain ⟨fits, still⟩ := pollNextLine_fits sound
    refine ⟨?_, still⟩
    simp only [step, ← whole]
    generalize read.1.pollNextLine = answered at fits
    obtain ⟨answer, next⟩ := answered
    cases answer with
    | pending | failed | tooLong => simp [Polled.text?, fits.1]
    | ended => simp [Polled.text?, fits.1, fits.2]
    | line text =>
      obtain ⟨raw, parts, rfl, -⟩ := fits
      simp [Polled.text?, parts]

/-- However the bytes come and are polled for, the lines answered and those left are the lines of
the whole stream, no more is kept of a line than the maximum, and the next poll answers right. -/
theorem run_lines (max : Option Nat) (arrivals : List Arrival) (acts : List Act) :
    let (lines, answers) := run max arrivals acts
    answers.filterMap Polled.text? ++ (split lines.left).map takeLine =
        (split (arrivals.flatMap Arrival.sent)).map takeLine ∧
      lines.max.all (lines.line.length ≤ ·) ∧ lines.Fits lines.pollNextLine := by
  have kept : Kept (arrivals.flatMap Arrival.sent) (run max arrivals acts) := by
    induction acts using reverseRecOn with
    | nil => exact ⟨rfl, by simp [run], by cases max <;> simp [run]⟩
    | append_singleton acts act ih =>
      rw [run, foldl_concat]
      exact step_kept ih act
  exact ⟨kept.1, kept.2.bounded, (pollNextLine_fits kept.2).1⟩

end Lines

end HopsFormal.Ipc
