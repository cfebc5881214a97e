import Mathlib.Data.List.Basic

/-!
# The clipboard monitor

One task owns the machine's clipboard.  It reads the clipboard at every poll at which some
pairing takes it, writes what a peer sent, and sends on a text that two polls in a row have
found.  Other programs copy and mark at any moment, also between the steps of one read.
-/

namespace HopsFormal.Clipboard

/-! ## The clipboard and one read of it -/

/-- The machine's clipboard: its text, the mark of the app that copied it, where that can be
told, and the count of copies, where one is kept. -/
structure Board where
  text : Option String
  isPrivate : Option Bool
  generation : Option Int

/-- What another program does to the clipboard. -/
inductive Change where
  | copy (text : Option String) (isPrivate : Option Bool) (generation : Option Int)
  | mark (isPrivate : Option Bool)

namespace Board

def after (board : Board) : Change → Board
  | .copy text isPrivate generation => ⟨text, isPrivate, generation⟩
  | .mark isPrivate => { board with isPrivate := isPrivate }

def afterAll (board : Board) (changes : List Change) : Board := changes.foldl after board

end Board

/-- What one read found on the machine's clipboard. -/
inductive Copied where
  | text (text : String) (count : Option Int)
  | isPrivate
  | nothing
  | changing
  deriving DecidableEq

/-- One read: the marks as it was told them, whether it asked for the text, what it found. -/
structure Reading where
  marks : Option Bool
  textAsked : Bool
  copied : Copied
  deriving DecidableEq

/-- What the clipboard holds, read only when its marks allow it.  The changes fall after the
first count, after the marks and after the text. -/
def Board.read (board : Board) (counted looked offered : List Change) : Reading × Board :=
  let before := board.generation
  let board := board.afterAll counted
  match board.isPrivate with
  | some true => (⟨some true, false, .isPrivate⟩, board)
  | none => (⟨none, false, .changing⟩, board)
  | some false =>
    let board := board.afterAll looked
    let text := board.text
    let board := board.afterAll offered
    if board.generation ≠ before then (⟨some false, true, .changing⟩, board)
    else
      match text with
      | none => (⟨some false, true, .nothing⟩, board)
      | some text => (⟨some false, true, .text text before⟩, board)

/-! ## What the task remembers -/

/-- The text the clipboard is known to hold, whether the last poll read it, and a text the
last poll found unmarked with its count of copies. -/
structure Memory where
  last : Option String
  reading : Bool
  settling : Option (Option Int × String)

namespace Memory

def start : Memory := ⟨none, false, none⟩

def notWanted (memory : Memory) : Memory := { memory with reading := false, settling := none }

/-- The first read remembers what it finds and sends nothing. -/
@[grind =]
def foundFirst (memory : Memory) : Copied → Memory
  | .changing => memory
  | .text text _ => { memory with reading := true, last := some text }
  | .isPrivate => { memory with reading := true, last := none }
  | .nothing => { memory with reading := true, last := none }

/-- A later read sends a text that is new and was found by the read before as well. -/
@[grind =]
def foundAgain (memory : Memory) : Copied → Memory × Option String
  | .text text generation =>
    if memory.last = some text then ({ memory with settling := none }, none)
    else if memory.settling ≠ some (generation, text) then
      ({ memory with settling := some (generation, text) }, none)
    else ({ memory with settling := none, last := some text }, some text)
  | .isPrivate => ({ memory with last := none, settling := none }, none)
  | .nothing => ({ memory with last := none, settling := none }, none)
  | .changing => ({ memory with settling := none }, none)

@[grind =]
def found (memory : Memory) (copied : Copied) : Memory × Option String :=
  if memory.reading then memory.foundAgain copied else (memory.foundFirst copied, none)

def wrote (memory : Memory) (text : String) : Memory := { memory with last := some text }

end Memory

/-! ## The task -/

/-- One poll: whether reading was wanted, the read if it was, the text sent on if one was. -/
structure Poll where
  wanted : Bool
  reading : Option Reading
  sent : Option String
  deriving DecidableEq

/-- What the task did: a poll, or the text of a peer written to the clipboard. -/
inductive Deed where
  | poll (poll : Poll)
  | applied (text : String)
  deriving DecidableEq

/-- The task on the machine's clipboard, with its deeds, the newest first. -/
structure Monitor where
  board : Board
  wanted : Bool
  incoming : Option String
  memory : Memory
  deeds : List Deed

/-- What happens to a task whose handle lives. -/
inductive Act where
  | change (change : Change)
  | permit (wanted : Bool)
  | apply (text : String)
  | write (outcome : Option (Option Bool × Option Int))
  | poll (counted looked offered : List Change)

namespace Monitor

def start (board : Board) (wanted : Bool) : Monitor := ⟨board, wanted, none, .start, []⟩

/-- The timer ticked. -/
def poll (monitor : Monitor) (counted looked offered : List Change) : Monitor :=
  if monitor.wanted then
    let (reading, board) := monitor.board.read counted looked offered
    let (memory, sent) := monitor.memory.found reading.copied
    { monitor with
      board := board
      memory := memory
      deeds := .poll ⟨true, some reading, sent⟩ :: monitor.deeds }
  else
    { monitor with
      memory := monitor.memory.notWanted
      deeds := .poll ⟨false, none, none⟩ :: monitor.deeds }

/-- The text that waits is written.  The system may refuse it; else it is what the clipboard
holds from then on, with the mark and the count the system gives it. -/
def write (monitor : Monitor) (outcome : Option (Option Bool × Option Int)) : Monitor :=
  match monitor.incoming, outcome with
  | none, _ => monitor
  | some _, none => { monitor with incoming := none }
  | some text, some (isPrivate, generation) =>
    { monitor with
      incoming := none
      board := ⟨some text, isPrivate, generation⟩
      memory := monitor.memory.wrote text
      deeds := .applied text :: monitor.deeds }

def step (monitor : Monitor) : Act → Monitor
  | .change change => { monitor with board := monitor.board.after change }
  | .permit wanted => { monitor with wanted := wanted }
  | .apply text => { monitor with incoming := some text }
  | .write outcome => monitor.write outcome
  | .poll counted looked offered => monitor.poll counted looked offered

def run (board : Board) (wanted : Bool) (acts : List Act) : Monitor :=
  acts.foldl step (start board wanted)

end Monitor

/-! ## One read -/

theorem Board.read_asked (board : Board) (counted looked offered : List Change)
    (asked : (board.read counted looked offered).1.textAsked = true) :
    (board.read counted looked offered).1.marks = some false := by
  unfold Board.read at *
  dsimp only at *
  split at asked <;> simp_all
  split <;> first | rfl | (split <;> rfl)

theorem Board.read_text (board : Board) (counted looked offered : List Change) {text : String}
    {count : Option Int}
    (found : (board.read counted looked offered).1.copied = .text text count) :
    (board.read counted looked offered).1 = ⟨some false, true, .text text count⟩ := by
  unfold Board.read at *
  dsimp only at *
  split at found
  · simp at found
  · simp at found
  · split at found
    · simp at found
    · split at found
      · simp at found
      · simp_all

end HopsFormal.Clipboard
