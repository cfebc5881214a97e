import HopsFormal.Ipc.TwoWayProof

/-!
# Connections to the daemon before and after the proof

A connection is read one short line at a time until its proof checks, then its
requests are taken and events are written to it.  Any number of daemons and
frontends hold the token; everything that travels between them is in the hands
of whoever holds an endpoint, so each act says which line reaches which end.
-/

namespace HopsFormal.Ipc

open Trust.Seal (Bytes ascii)
open Pairing (Sha256)

/-- The longest line a connection may send before it has proven it holds the token. -/
def preauthLineMax : Nat := 128

/-- How many connections may be part-way through the proof at once. -/
def preauthConnectionsMax : Nat := 32

/-- What the parties share: the token, the platform and how a request is read. -/
structure Setup (Request : Type) where
  token : String
  unix : Bool
  parse : String → Option Request

/-- A line read from a connection, a carriage return at its end dropped. -/
def takeLine (line : Bytes) : Option String :=
  fromUtf8 (if line.getLast? = some 0x0d then line.dropLast else line)

def preauthLine (line : Bytes) : Option String :=
  if preauthLineMax < line.length then none else takeLine line

/-! ## The daemon's side -/

/-- State shared between the two halves of one connection. -/
structure ConnState where
  authed : Bool
  closed : Bool
deriving DecidableEq

/-- How far `admit` has come on a connection, and what its caller did with it. -/
inductive Stage
  | opened
  | answered (nf nd : String)
  | admitted (nf nd : String)
  | ended
deriving DecidableEq

/--
A connection at a daemon, with all that was written to it and every request
taken from it.  The nonces of the answer made for it are kept for the record.
-/
structure Connection (Request : Type) where
  daemon : Nat
  stage : Stage
  state : ConnState
  refused : Bool
  answer : Option (String × String)
  written : Bytes
  taken : List Request
deriving DecidableEq

/-- What the daemon says to a connection it will not take. -/
def sayBusy (unix : Bool) (took : Nat) : Bytes :=
  if unix then (asBytes busyLine).take took else []

/-- The nonces of the exchange that a first line opens, if it is a challenge. -/
def challengeHeard (line : Bytes) (raw : Option (Vector UInt8 32)) : Option (String × String) := do
  let first ← preauthLine line
  let nf ← challengeIn first
  let nd ← nonce raw
  return (nf, nd)

namespace Connection

variable {Request : Type}

/-- A connection accepted, or told the daemon is busy. -/
def accept (unix : Bool) (daemon waiting took : Nat) : Connection Request :=
  if preauthConnectionsMax ≤ waiting then
    ⟨daemon, .ended, ⟨false, false⟩, true, none, sayBusy unix took, []⟩
  else ⟨daemon, .opened, ⟨false, false⟩, false, none, [], []⟩

variable (conn : Connection Request)

/-- Whether the connection is part-way through the proof. -/
def admitting : Bool :=
  match conn.stage with
  | .opened | .answered _ _ => true
  | .admitted _ _ | .ended => false

/-- The next line of a connection that has made the proof. -/
def read (setup : Setup Request) (conn : Connection Request) (line : Bytes) : Connection Request :=
  if conn.state.closed then conn
  else
    match (takeLine line).bind setup.parse with
    | some request => { conn with taken := conn.taken ++ [request] }
    | none => { conn with state := { conn.state with closed := true } }

/-- The connection has ended, or waited too long for its proof. -/
def lose : Connection Request :=
  match conn.stage with
  | .opened | .answered _ _ => { conn with stage := .ended }
  | .admitted _ _ => { conn with state := { conn.state with closed := true } }
  | .ended => conn

/-- One connection's share of a broadcast, of which it reads `took` bytes in time. -/
def writeOne (event : Bytes) (took : Nat) : Connection Request :=
  if conn.state.closed then conn
  else if !conn.state.authed then conn
  else if event.length ≤ took then { conn with written := conn.written ++ event }
  else
    { conn with
      written := conn.written ++ event.take took
      state := { conn.state with closed := true } }

variable [Sha256]

/--
The next line of a connection: a challenge to answer, of which it reads `took`
bytes in time, a proof to check or a request.
-/
def hear (setup : Setup Request) (conn : Connection Request) (line : Bytes)
    (raw : Option (Vector UInt8 32)) (took : Nat) : Connection Request :=
  match conn.stage with
  | .opened =>
    match challengeHeard line raw with
    | none => { conn with stage := .ended }
    | some (nf, nd) =>
      let answer := asBytes (answerLine setup.token nf nd)
      { conn with
        stage := if answer.length ≤ took then .answered nf nd else .ended
        answer := some (nf, nd)
        written := conn.written ++ answer.take took }
  | .answered nf nd =>
    if (preauthLine line).any (frontendProven setup.token nf nd) then
      { conn with stage := .admitted nf nd, state := ⟨true, false⟩ }
    else { conn with stage := .ended }
  | .admitted _ _ => conn.read setup line
  | .ended => conn

end Connection

/-! ## The frontend's side -/

inductive Asking
  | asked
  | proved (nd : String)
  | gaveUp
deriving DecidableEq

/-- One frontend's attempt to reach the daemon, with all it has sent. -/
structure Session where
  nf : String
  asking : Asking
  sent : Bytes
deriving DecidableEq

/-- Up to a newline and no further than the longest answer. -/
def answerRead (stream : Bytes) : Bytes :=
  let most := stream.take answerLineMax
  most.takeWhile (· != 0x0a) ++ (most.dropWhile (· != 0x0a)).take 1

namespace Session

/-- A challenge sent, of which the endpoint takes `took` bytes. -/
def ask (nf : String) (took : Nat) : Session :=
  let challenge := asBytes (challengeLine nf)
  ⟨nf, if challenge.length ≤ took then .asked else .gaveUp, challenge.take took⟩

/-- A frontend that waits may stop waiting. -/
def stop (session : Session) : Session :=
  if session.asking = .asked then { session with asking := .gaveUp } else session

variable [Sha256]

/-- The daemon's nonce, when what the endpoint sent is an answer to the challenge. -/
def answerHeard (token : String) (session : Session) (stream : Bytes) : Option String :=
  let line := answerRead stream
  if line = asBytes busyLine then none
  else if line.isEmpty then none
  else (fromUtf8 line).bind (daemonProven token session.nf)

/-- The frontend goes on when the answer checks; it hangs up on anything else. -/
def hear (token : String) (session : Session) (stream : Bytes) (took : Nat) : Session :=
  match session.asking with
  | .asked =>
    match session.answerHeard token stream with
    | none => { session with asking := .gaveUp }
    | some nd =>
      { session with
        asking := .proved nd
        sent := session.sent ++ (asBytes (proofLine token session.nf nd)).take took }
  | .proved _ | .gaveUp => session

end Session

/-! ## Everything at once -/

/--
All connections and sessions, what the holders of the token have made codes of,
and the nonces they have drawn.
-/
structure World (Request : Type) where
  conns : List (Connection Request)
  sessions : List Session
  made : List Bytes
  drawn : List String

/-- What can happen next.  A line may come from anyone who holds the other end. -/
inductive Act
  | connect (daemon took : Nat)
  | line (conn : Nat) (line : Bytes) (raw : Option (Vector UInt8 32)) (took : Nat)
  | lost (conn : Nat)
  | event (conn : Nat) (event : Bytes) (took : Nat)
  | ask (raw : Option (Vector UInt8 32)) (took : Nat)
  | reply (session : Nat) (stream : Bytes) (took : Nat)
  | giveUp (session : Nat)
deriving DecidableEq

namespace World

variable {Request : Type}

def start : World Request := ⟨[], [], [], []⟩

def waiting (world : World Request) (daemon : Nat) : Nat :=
  (world.conns.filter fun conn => conn.daemon == daemon && conn.admitting).length

/-- The nonces of the exchange that a line opens at the daemon. -/
def opens (world : World Request) (i : Nat) (line : Bytes) (raw : Option (Vector UInt8 32)) :
    Option (String × String) :=
  match world.conns[i]? with
  | some conn => if conn.stage = .opened then challengeHeard line raw else none
  | none => none

variable [Sha256] (setup : Setup Request)

variable (world : World Request)

/-- The daemon's nonce that a frontend goes on with. -/
def accepts (i : Nat) (stream : Bytes) : Option (String × String) :=
  match world.sessions[i]? with
  | some session =>
    if session.asking = .asked then
      (session.answerHeard setup.token stream).map fun nd => (session.nf, nd)
    else none
  | none => none

def step : Act → World Request
  | .connect daemon took =>
    { world with
      conns := world.conns ++ [.accept setup.unix daemon (world.waiting daemon) took] }
  | .line i line raw took =>
    { world with
      conns := world.conns.modify i fun conn => conn.hear setup line raw took
      made := world.made ++
        ((world.opens i line raw).map fun (nf, nd) => covered daemonLabel nf nd).toList
      drawn := world.drawn ++ ((world.opens i line raw).map Prod.snd).toList }
  | .lost i => { world with conns := world.conns.modify i Connection.lose }
  | .event i event took =>
    { world with conns := world.conns.modify i fun conn => conn.writeOne event took }
  | .ask raw took =>
    match nonce raw with
    | none => world
    | some nf =>
      { world with
        sessions := world.sessions ++ [.ask nf took]
        drawn := world.drawn ++ [nf] }
  | .reply i stream took =>
    { world with
      sessions := world.sessions.modify i fun session => session.hear setup.token stream took
      made := world.made ++
        ((world.accepts setup i stream).map fun (nf, nd) => covered frontendLabel nf nd).toList }
  | .giveUp i =>
    { world with sessions := world.sessions.modify i Session.stop }

def run (acts : List Act) : World Request :=
  acts.foldl (step setup) start

/-! ## What is assumed -/

def draws : Act → Option String
  | .line i line raw _ => (world.opens i line raw).map Prod.snd
  | .ask raw _ => nonce raw
  | _ => none

/-- What is covered by the code that a party finds correct in a line it reads. -/
def checks : Act → Option Bytes
  | .line i line _ _ =>
    match world.conns[i]? with
    | some conn =>
      match conn.stage with
      | .answered nf nd =>
        if (preauthLine line).any (frontendProven setup.token nf nd) then
          some (covered frontendLabel nf nd)
        else none
      | _ => none
    | none => none
  | .reply i stream _ =>
    (world.accepts setup i stream).map fun (nf, nd) => covered daemonLabel nf nd
  | _ => none

/--
Nonces are fresh; a code that is found correct is one that a holder of the token
has made; and the code is injective on what is met.
-/
structure Sound (setup : Setup Request) (world : World Request) (act : Act) : Prop where
  fresh : ∀ drawn ∈ world.draws act, drawn ∉ world.drawn
  unforged : ∀ found ∈ world.checks setup act, ∃ made ∈ world.made,
    hmacSha256 (ascii setup.token) [made] = hmacSha256 (ascii setup.token) [found]
  injective : ∀ found ∈ world.checks setup act, ∀ made ∈ world.made,
    hmacSha256 (ascii setup.token) [made] = hmacSha256 (ascii setup.token) [found] → made = found

/-- Every act of a run meets the assumptions where it happens. -/
def SoundFrom (setup : Setup Request) (world : World Request) : List Act → Prop
  | [] => True
  | act :: rest => world.Sound setup act ∧ SoundFrom setup (world.step setup act) rest

end World

end HopsFormal.Ipc
