import HopsFormal.Macos.Guard

/-!
# The stream of the capture

The thread of the taps sends and the reader polls, each one atomic step after the other.  Once
the reader is far behind, motion is summed in a slot that both sides lock without waiting.  The
depth of the channel is counted beside it, so that it may be read late.
-/

namespace HopsFormal.Macos

open Capture (CaptureEvent Position)

/-- What the stream carries. -/
inductive Item (F : Type) where
  | event (pos : Position) (event : CaptureEvent F)
  | fault (error : CaptureError)
  deriving DecidableEq

/-- Summed motion. -/
structure Motion (F : Type) where
  pos : Position
  dx : F
  dy : F
  deriving DecidableEq

def motionItem {F : Type} (motion : Motion F) : Item F :=
  .event motion.pos (.input (.pointer (.motion 0 motion.dx motion.dy)))

def Item.motion? {F : Type} : Item F → Option (Motion F)
  | .event pos (.input (.pointer (.motion _ dx dy))) => some ⟨pos, dx, dy⟩
  | _ => none

/-- Past this many queued items motion is summed. -/
def motionBacklog : Nat := 64

/-- What the core asks of the thread's end of the stream. -/
inductive Call (F : Type) where
  | send (pos : Position) (event : CaptureEvent F)
  | discardPending
  | fault (error : CaptureError)

/-- The calls the core makes: input of the crossing under way, which ends as what is pending is
dropped. -/
def afterCall {F : Type} : Option Position → Call F → Option (Option Position)
  | none, .send pos .begin => some pos
  | some under, .send pos (.input _) => if pos = under then some (some under) else none
  | some _, .discardPending => some none
  | _, .fault _ => some none
  | _, _ => none

def Call.item {F : Type} : Call F → Option (Item F)
  | .send pos event => some (.event pos event)
  | .discardPending => none
  | .fault error => some (.fault error)

/-- How far the thread of the taps is with a call. -/
inductive Sender (F : Type) where
  | idle
  /-- About to read the depth of the channel. -/
  | motion (motion : Motion F)
  /-- About to try the lock of the slot, having been found behind or not. -/
  | tries (motion : Motion F) (behind : Bool)
  /-- It holds the lock, and is about to empty the slot. -/
  | holds (motion : Motion F) (behind : Bool)
  /-- About to try the lock to empty the slot before a call that is no motion. -/
  | triesTake (call : Call F)
  | takes (call : Call F)
  /-- Items to be sent, the first one counted or not; then motion to be stored, under the lock. -/
  | sends (items : List (Item F)) (counted : Bool) (store : Option (Motion F)) (locked : Bool)

/-- How far the reader is with a poll. -/
inductive Reader (F : Type) where
  /-- About to receive. -/
  | polls
  /-- An item was received, and is still counted. -/
  | received (item : Item F)
  /-- Nothing was there; it is about to try the lock. -/
  | tries
  /-- It holds the lock, and is about to empty the slot. -/
  | holds
  | parked
  /-- The capture was dropped. -/
  | gone
  deriving DecidableEq

structure Stream (F : Type) where
  /-- The crossing that is under way, as the core has it. -/
  crossing : Option Position
  sender : Sender F
  reader : Reader F
  channel : List (Item F)
  depth : Nat
  backlog : Option (Motion F)
  /-- The channel has a waker of the reader to wake. -/
  waker : Bool
  /-- The reader was woken, and is to poll again. -/
  woken : Bool
  /-- What was given to the thread's end to send, the first one first. -/
  sent : List (Item F)
  delivered : List (Item F)

def Sender.locked {F : Type} : Sender F → Bool
  | .holds _ _ => true
  | .takes _ => true
  | .sends _ _ _ locked => locked
  | _ => false

def Reader.locked {F : Type} : Reader F → Bool
  | .holds => true
  | _ => false

def Reader.isGone {F : Type} : Reader F → Bool
  | .gone => true
  | _ => false

namespace Stream

variable {F : Type}

def start : Stream F where
  crossing := none
  sender := .idle
  reader := .polls
  channel := []
  depth := 0
  backlog := none
  waker := false
  woken := false
  sent := []
  delivered := []

/-! ## The thread of the taps -/

/-- A call begins; the core makes it when the one before is done, and in its order. -/
def call (stream : Stream F) (call : Call F) : Stream F :=
  match stream.sender, afterCall stream.crossing call with
  | .idle, some crossing =>
    { stream with
      crossing := crossing
      sent := stream.sent ++ call.item.toList
      sender :=
        match call.item.bind Item.motion? with
        | some motion => .motion motion
        | none => .triesTake call }
  | _, _ => stream

/-- An item goes into the channel, which wakes its reader. -/
def push (stream : Stream F) (item : Item F) : Stream F :=
  { stream with
    channel := stream.channel ++ [item]
    waker := false
    woken := stream.woken || stream.waker }

/-- What is to be sent once the slot was emptied: motion at another edge first. -/
def emptied (taken : Option (Motion F)) (motion : Motion F) (behind : Bool) [Add F] : Sender F :=
  let (others, summed) : List (Item F) × Motion F :=
    match taken with
    | some before =>
      if before.pos = motion.pos then
        ([], ⟨motion.pos, before.dx + motion.dx, before.dy + motion.dy⟩)
      else ([motionItem before], motion)
    | none => ([], motion)
  if behind then .sends others false (some summed) true
  else .sends (others ++ [motionItem summed]) false none true

/-- What is to be sent after what was taken from the slot for a call. -/
def taken (motion : Option (Motion F)) : Call F → List (Item F)
  | .send pos event => (motion.map motionItem).toList ++ [.event pos event]
  | .discardPending => []
  | .fault error => [.fault error]

/-- The next step of the thread of the taps. -/
def tap [Add F] (stream : Stream F) : Stream F :=
  match stream.sender with
  | .idle => stream
  | .motion motion => { stream with sender := .tries motion (decide (motionBacklog ≤ stream.depth)) }
  | .tries motion behind =>
    if stream.reader.locked then
      { stream with sender := .sends [motionItem motion] false none false }
    else { stream with sender := .holds motion behind }
  | .holds motion behind =>
    { stream with backlog := none, sender := emptied stream.backlog motion behind }
  | .triesTake call =>
    if stream.reader.locked then { stream with sender := .sends (taken none call) false none false }
    else { stream with sender := .takes call }
  | .takes call =>
    { stream with backlog := none, sender := .sends (taken stream.backlog call) false none false }
  | .sends (item :: rest) false store locked =>
    { stream with depth := stream.depth + 1, sender := .sends (item :: rest) true store locked }
  | .sends (item :: rest) true store locked =>
    -- nothing is queued for a capture that was dropped
    if stream.reader.isGone then
      { stream with depth := stream.depth - 1, sender := .sends rest false store locked }
    else { stream.push item with sender := .sends rest false store locked }
  | .sends [] _ (some motion) _ => { stream with backlog := some motion, sender := .idle }
  | .sends [] _ none _ => { stream with sender := .idle }

/-! ## The reader -/

def read (stream : Stream F) : Stream F :=
  match stream.reader with
  | .polls =>
    match stream.channel with
    | item :: rest => { stream with channel := rest, reader := .received item }
    | [] => { stream with waker := true, reader := .tries }
  | .received item =>
    { stream with
      depth := stream.depth - 1
      delivered := stream.delivered ++ [item]
      reader := .polls }
  | .tries =>
    -- the thread of the taps is adding to it: look again at once
    if stream.sender.locked then { stream with woken := true, reader := .parked }
    else { stream with reader := .holds }
  | .holds =>
    match stream.backlog with
    | some motion =>
      { stream with
        backlog := none
        delivered := stream.delivered ++ [motionItem motion]
        reader := .polls }
    | none => { stream with reader := .parked }
  | .parked => { stream with woken := false, reader := .polls }
  | .gone => stream

/-- The capture is dropped between two polls, and what is queued for it too. -/
def drop (stream : Stream F) : Stream F :=
  match stream.reader with
  | .polls | .parked => { stream with reader := .gone, channel := [] }
  | _ => stream

/-! ## Runs -/

inductive Move (F : Type) where
  | call (call : Call F)
  | tap
  | read
  | drop

def step [Add F] (stream : Stream F) : Move F → Stream F
  | .call call => stream.call call
  | .tap => stream.tap
  | .read => stream.read
  | .drop => stream.drop

def run [Add F] (moves : List (Move F)) : Stream F := moves.foldl step start

end Stream

end HopsFormal.Macos
