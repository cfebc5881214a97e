import HopsFormal.Emulation.Receiver

/-!
# The listener's connections

The listener keeps a list of the connections it let in and reads each of them in
a loop of its own.  A connection is listed when it is admitted; closing the
connections of a fingerprint takes theirs off the list at once, and a loop that
ends takes the first connection of its address off it and says that the address
is closed if the list has no other of that address.  What the loops say goes
through one channel to the listening task.  Every connection has a number here,
and everything said the number of the connection it is about, so that two
connections from one address can be told apart.
-/

namespace HopsFormal.Emulation

open Capture (Event)

structure Conn (Addr : Type) where
  number : Nat
  addr : Addr
  fingerprint : String
  deriving DecidableEq

instance {Addr : Type} [DecidableEq Addr] : LawfulBEq (Conn Addr) := inferInstance

/-- An event for the listening task, and the connection it is about, if any. -/
structure Post (Addr F : Type) where
  author : Option Nat
  event : ListenEvent Addr F

/--
The list of connections, the read loops that run, the connections this machine
closed itself, and the tasks behind the channel.  `posted` is everything ever
put into the channel.
-/
structure Listener (Addr F : Type) where
  conns : List (Conn Addr)
  loops : List (Conn Addr)
  revoked : List Nat
  admitted : Nat
  channel : List (Post Addr F)
  posted : List (Post Addr F)
  receiver : Receiver Addr F

namespace Listener

variable {Addr F E : Type} [DecidableEq Addr]

def start (mayDriveUs : String → Bool) : Listener Addr F where
  conns := []
  loops := []
  revoked := []
  admitted := 0
  channel := []
  posted := []
  receiver := .start mayDriveUs

variable (listener : Listener Addr F)

/-- Put an event into the channel; nothing is, once the listening task has ended. -/
def post (author : Option Nat) (event : ListenEvent Addr F) : Listener Addr F :=
  if listener.receiver.listening then
    { listener with
      channel := listener.channel ++ [⟨author, event⟩]
      posted := listener.posted ++ [⟨author, event⟩] }
  else listener

/-- List a connection, say it was accepted, and read its input. -/
def admitPeer (addr : Addr) (fingerprint : String) : Listener Addr F :=
  let conn : Conn Addr := ⟨listener.admitted, addr, fingerprint⟩
  { listener with
    conns := listener.conns ++ [conn]
    loops := listener.loops ++ [conn]
    admitted := listener.admitted + 1 }.post (some conn.number) (.accept addr fingerprint)

def closeFingerprint (fingerprint : String) : Listener Addr F :=
  { listener with
    conns := listener.conns.filter (·.fingerprint ≠ fingerprint)
    revoked := listener.revoked ++
      (listener.conns.filter (·.fingerprint = fingerprint)).map Conn.number }

/-- The connection a reply to an address is queued for. -/
def replyTo (addr : Addr) : Option (Conn Addr) :=
  listener.conns.find? (·.addr = addr)

/--
Forget a connection from an address that ended, and say so once no other
connection from that address is left.
-/
def removeConn (conn : Conn Addr) : Listener Addr F :=
  let left := listener.conns.eraseP (·.addr = conn.addr)
  let forgot := { listener with conns := left }
  if left.any (·.addr = conn.addr) then forgot
  else forgot.post (some conn.number) (.closed conn.addr)

/-- A read loop passes on a message. -/
@[grind =]
def receive (conn : Conn Addr) (message : Message F) : Listener Addr F :=
  if conn ∈ listener.loops then listener.post (some conn.number) (.msg message conn.addr)
  else listener

/-- A read loop ends, perhaps told that the other machine removed this one. -/
def finish (conn : Conn Addr) (removed : Bool) : Listener Addr F :=
  if conn ∈ listener.loops then
    let ended := { listener with loops := listener.loops.erase conn }
    let told := if removed then ended.post (some conn.number) (.removedBy conn.fingerprint)
      else ended
    told.removeConn conn
  else listener

/-- Something happens to a connection, or a task has a turn. -/
inductive Act (Addr F : Type) where
  | admitPeer (addr : Addr) (fingerprint : String)
  | closeFingerprint (fingerprint : String)
  | receive (conn : Conn Addr) (message : Message F)
  | finish (conn : Conn Addr) (removed : Bool)
  | reject (fingerprint : String) (addr : Addr)
  | deliver
  | task (taken : Receiver.Act Addr F)

section Steps

variable [Add F] [Sub F] [Zero F] (answer : List (Call F) → Except E Unit)

/-- The address an event is about, if the listening task looks it up. -/
def lookedUp : ListenEvent Addr F → Option Addr
  | .msg _ addr => some addr
  | _ => none

variable (listener : Listener Addr F)

/-- The listening task hears the next event. -/
@[grind =]
def deliver : Listener Addr F :=
  match listener.channel with
  | [] => listener
  | next :: rest =>
    if listener.receiver.listening then
      { listener with
        channel := rest
        receiver := listener.receiver.step answer
          (.listen next.event ((lookedUp next.event).any fun addr =>
            (listener.replyTo addr).isSome)) }
    else listener

/-- A turn of a task that hears nothing. -/
def turn : Receiver.Act Addr F → Listener Addr F
  | .listen _ _ => listener
  | taken => { listener with receiver := listener.receiver.step answer taken }

def step : Act Addr F → Listener Addr F
  | .admitPeer addr fingerprint => listener.admitPeer addr fingerprint
  | .closeFingerprint fingerprint => listener.closeFingerprint fingerprint
  | .receive conn message => listener.receive conn message
  | .finish conn removed => listener.finish conn removed
  | .reject fingerprint addr => listener.post none (.rejected fingerprint addr)
  | .deliver => listener.deliver answer
  | .task taken => listener.turn answer taken

def run (mayDriveUs : String → Bool) (acts : List (Act Addr F)) : Listener Addr F :=
  acts.foldl (step answer) (.start mayDriveUs)

end Steps

end Listener

end HopsFormal.Emulation
