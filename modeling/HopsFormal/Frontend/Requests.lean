import HopsFormal.Frontend.AppModel

/-!
# Requests to the daemon

Any number of handles put requests on one queue; one loop connects, folds the daemon's
events into the model, takes requests off the queue and writes them, and at the end of
a connection empties the queue and says how many requests did not get through.  A
request is taken or refused under the lock of the model, under which the loop also
marks the daemon gone and empties the queue.  Every request carries which call it came
from, on which connection, and with what answer.
-/

namespace HopsFormal.Frontend

/-- A request that was answered with a link. -/
structure Accepted (Request : Type) where
  number : Nat
  connection : Nat
  link : UInt64
  request : Request

/-- What became of a request: written to a connection, or dropped with one. -/
inductive Fate where
  | written (connection : Nat)
  | lost
  deriving DecidableEq

/-- An error that is recorded for the person to read. -/
inductive ErrorSaid where
  | notConnected
  | connectionLost (dropped : Nat)

def ErrorSaid.text : ErrorSaid → String
  | .notConnected => "Not done: no connection to the hops service, so nothing changed."
  | .connectionLost dropped =>
    let changes :=
      if dropped = 1 then "your last change" else "your last " ++ toString dropped ++ " changes"
    let made := if dropped = 1 then "it was" else "they were"
    "The connection to the hops service was lost before " ++ changes ++ " reached it, so " ++
      made ++ " not made."

/-- Where the connection loop is. -/
inductive ConnectionLoop (Request : Type) where
  | apart
  | syncing
  | serving
  | writing (taken : Accepted Request)
  | ended (unsent : Option (Accepted Request))
  | returned

namespace ConnectionLoop

variable {Request : Type}

/-- The loop's end of the queue is there. -/
def receives : ConnectionLoop Request → Bool
  | .returned => false
  | _ => true

/-- What was taken off the queue and has not reached the daemon. -/
def inFlight : ConnectionLoop Request → List (Accepted Request)
  | .writing taken => [taken]
  | .ended unsent => unsent.toList
  | _ => []

end ConnectionLoop

/--
The model, the queue and the loop, with a record: `past` counts the connections that have
ended, `answers` has the answer of each call, `accepted` the requests that were taken,
`settled` what became of them, and `errors` what was said, with the connection it was
said on or after.
-/
structure FrontendClient (Addr Request : Type) where
  model : AppModel Addr
  queue : List (Accepted Request)
  loop : ConnectionLoop Request
  handles : Bool
  past : Nat
  answers : List (Option UInt64)
  accepted : List (Accepted Request)
  settled : List (Accepted Request × Fate)
  errors : List (Nat × ErrorSaid)

namespace FrontendClient

variable {Addr Request : Type}

inductive Act (Addr Request : Type) where
  | requestOn (request : Request)
  | handlesDropped
  | connected
  | synced
  | event (event : FrontendEvent Addr) (now : Nat)
  | undecodable
  | hungUp
  | taken
  | wrote
  | writeFailed
  | gone

def spawned : FrontendClient Addr Request where
  model := .launched
  queue := []
  loop := .apart
  handles := true
  past := 0
  answers := []
  accepted := []
  settled := []
  errors := []

variable (client : FrontendClient Addr Request)

/-- Queue a request for a daemon that is connected, or refuse it. -/
def requestOn (request : Request) : Option UInt64 × FrontendClient Addr Request :=
  if client.model.connected && client.loop.receives then
    let entry : Accepted Request :=
      ⟨client.answers.length, client.past, client.model.link, request⟩
    (some client.model.link,
      { client with
        queue := client.queue ++ [entry]
        accepted := client.accepted ++ [entry]
        answers := client.answers ++ [some client.model.link] })
  else
    (none,
      { client with
        errors := client.errors ++ [(client.past, .notConnected)]
        answers := client.answers ++ [none] })

/-- Take a request to write; without one and without handles, the loop returns. -/
def take : FrontendClient Addr Request :=
  match client.queue with
  | entry :: rest => { client with queue := rest, loop := .writing entry }
  | [] => if client.handles then client else { client with loop := .returned }

section Steps

variable [DecidableEq Addr]

/-- The connection is gone: what waits is dropped, and the number of it is said. -/
def gone (client : FrontendClient Addr Request) (unsent : Option (Accepted Request)) :
    FrontendClient Addr Request :=
  let dropped := unsent.toList.length + client.queue.length
  { client with
    model := client.model.daemonGone
    queue := []
    loop := .apart
    past := client.past + 1
    settled := client.settled ++ (unsent.toList ++ client.queue).map fun entry => (entry, .lost)
    errors := client.errors ++
      if 0 < dropped then [(client.past, .connectionLost dropped)] else [] }

/-- One step; what cannot happen where the loop is changes nothing. -/
def step (client : FrontendClient Addr Request) (act : Act Addr Request) :
    FrontendClient Addr Request :=
  match act, client.loop with
  | .requestOn request, _ => if client.handles then (client.requestOn request).2 else client
  | .handlesDropped, _ => { client with handles := false }
  | .connected, .apart =>
    { client with
      model := { client.model with connected := true }
      loop := .syncing }
  | .synced, .syncing => { client with loop := .serving }
  | .event event now, .serving => { client with model := client.model.apply event now }
  | .hungUp, .serving => { client with loop := .ended none }
  | .taken, .serving => client.take
  | .wrote, .writing entry =>
    { client with
      loop := .serving
      settled := client.settled ++ [(entry, .written client.past)] }
  | .writeFailed, .writing entry => { client with loop := .ended (some entry) }
  | .gone, .ended unsent => client.gone unsent
  | _, _ => client

def run (acts : List (Act Addr Request)) : FrontendClient Addr Request :=
  acts.foldl step spawned

end Steps

/-! ## What the record says -/

/-- What was accepted and is neither written nor dropped yet. -/
@[grind =]
def pending : List (Accepted Request) :=
  client.loop.inFlight ++ client.queue

def written : List (Accepted Request × Nat) :=
  client.settled.filterMap fun entry =>
    match entry.2 with
    | .written connection => some (entry.1, connection)
    | .lost => none

/-- What was dropped. -/
def lost : List (Accepted Request) :=
  (client.settled.filter (·.2 = .lost)).map Prod.fst

/-- The numbers of dropped requests that were said at the end of a connection. -/
def reports (connection : Nat) : List Nat :=
  client.errors.filterMap fun error =>
    match error.2 with
    | .connectionLost dropped => if error.1 = connection then some dropped else none
    | .notConnected => none

end FrontendClient

end HopsFormal.Frontend
