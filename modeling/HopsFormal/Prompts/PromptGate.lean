import HopsFormal.Lib.Recent
import HopsFormal.Lib.Basic
import HopsFormal.Links.Clients
import Mathlib.Data.Vector.Basic

/-!
# When a pairing prompt may appear

A prompt appears while this machine's pairing window is open, once for a machine
that retries, and not while another machine at its address was prompted for moments
ago.  The prompts that were raised and not yet answered are held in a bounded
table, and are answered only while the window that admitted them is open.
-/

namespace HopsFormal.Prompts

open Lib
open Links (SocketAddr)

/-- A span of time; moments and spans are in nanoseconds. -/
def fromSecs (secs : Nat) : Nat := secs * 1000000000

/-! ## Addresses -/

inductive IpAddr where
  | v4 (bits : UInt32)
  | v6 (segments : Vector UInt16 8)
  deriving DecidableEq

/-- The IPv4 address an IPv6 address `::ffff:a.b.c.d` is. -/
def toIpv4Mapped (s : Vector UInt16 8) : Option UInt32 :=
  if s[0] = 0 ∧ s[1] = 0 ∧ s[2] = 0 ∧ s[3] = 0 ∧ s[4] = 0 ∧ s[5] = 0xffff then
    some (s[6].toUInt32 <<< 16 ||| s[7].toUInt32)
  else none

def IpAddr.toCanonical : IpAddr → IpAddr
  | .v4 bits => .v4 bits
  | .v6 s =>
    match toIpv4Mapped s with
    | some bits => .v4 bits
    | none => .v6 s

/-- The address a knock is counted against: IPv6 by its /64. -/
def sourceOf (ip : IpAddr) : IpAddr :=
  match ip.toCanonical with
  | .v6 s => .v6 #v[s[0], s[1], s[2], s[3], 0, 0, 0, 0]
  | v4 => v4

/-! ## Machines prompted for moments ago -/

structure RecentPrompts where
  seen : Table String Nat

namespace RecentPrompts

def window : Nat := fromSecs 2

def pruneAt : Nat := 256

/-- Whether a prompt is within the suppression window. -/
def recent (now : Nat) (at_ : Nat) : Bool := now - at_ < window

def new : RecentPrompts := ⟨∅⟩

/-- Whether a machine raised a prompt within the window; it is recorded when it raises one. -/
def seenRecently (prompts : RecentPrompts) (fingerprint : String) (now : Nat) :
    Bool × RecentPrompts :=
  let seen := prompts.seen.makeRoom (recent now) pruneAt
  if (seen.lookup fingerprint).any (recent now) then (true, ⟨seen⟩)
  else (false, ⟨seen.insert fingerprint now⟩)

end RecentPrompts

/-! ## Addresses that raised a prompt moments ago -/

structure RecentSources where
  seen : Table IpAddr (String × Nat)

namespace RecentSources

def window : Nat := fromSecs 10

def pruneAt : Nat := 256

def recent (now : Nat) (record : String × Nat) : Bool := now - record.2 < window

def new : RecentSources := ⟨∅⟩

/-- Whether another machine raised a prompt from an address within the window. -/
def takenByAnother (sources : RecentSources) (ip : IpAddr) (fingerprint : String)
    (now : Nat) : Bool :=
  (sources.seen.lookup ip).any fun record => record.1 ≠ fingerprint ∧ recent now record

def record (sources : RecentSources) (ip : IpAddr) (fingerprint : String) (now : Nat) :
    RecentSources :=
  ⟨(sources.seen.makeRoom (recent now) pruneAt).insert ip (fingerprint, now)⟩

end RecentSources

/-! ## The gate -/

/-- What to do with one unknown machine's attempt to pair. -/
inductive Admit where
  | prompt
  | closed
  | repeat_
  | throttled
  deriving DecidableEq

structure PromptGate where
  opened : Option Nat
  openSince : Option Nat
  recent : RecentPrompts
  sources : RecentSources

namespace PromptGate

/-- How long the window stays open after the add-device flow is opened. -/
def window : Nat := fromSecs 120

def new : PromptGate := ⟨none, none, .new, .new⟩

variable (gate : PromptGate)

/-- How long the window has left, or nothing when it is closed. -/
def remaining (now : Nat) : Option Nat :=
  gate.opened.bind fun opened =>
    (if now - opened ≤ window then some (window - (now - opened)) else none).filter (· ≠ 0)

def open_ (now : Nat) : PromptGate :=
  { gate with
    opened := some now
    openSince := if (gate.remaining now).isNone then some now else gate.openSince }

/-- Whether an attempt may raise a prompt; `ip` is where an unsolicited knock came from. -/
def admit_ (fingerprint : String) (ip : Option IpAddr) (now : Nat) : Admit × PromptGate :=
  if (gate.remaining now).isNone then (.closed, gate)
  else
    let source := ip.map sourceOf
    if source.any fun source => gate.sources.takenByAnother source fingerprint now then
      (.throttled, gate)
    else
      match gate.recent.seenRecently fingerprint now with
      | (true, recent) => (.repeat_, { gate with recent })
      | (false, recent) =>
        (.prompt, { gate with
          recent
          sources := match source with
            | some source => gate.sources.record source fingerprint now
            | none => gate.sources })

/-- Whether a prompt may be shown again, to a frontend that was not there. -/
def replayable (admitted now : Nat) : Bool :=
  (gate.remaining now).isSome && gate.opened.any (· ≤ admitted)

/-- Whether the window has stayed open since a prompt was admitted. -/
def openThroughout (admitted now : Nat) : Bool :=
  (gate.remaining now).isSome && gate.openSince.any (· ≤ admitted)

end PromptGate

/-! ## Prompts not yet answered -/

inductive AttemptOrigin where
  | inbound
  | outboundDial
  deriving DecidableEq

structure PendingAttempt where
  origin : AttemptOrigin
  addr : Option (SocketAddr IpAddr)
  admitted : Nat
  deriving DecidableEq

/-- How many unanswered prompts are remembered at once. -/
def maxPendingAttempts : Nat := 32

structure PendingAttempts where
  held : Table String PendingAttempt

namespace PendingAttempts

def new : PendingAttempts := ⟨∅⟩

variable (pending : PendingAttempts)

/-- Forget every prompt whose window has closed since it was raised. -/
def expire (gate : PromptGate) (now : Nat) : PendingAttempts :=
  ⟨pending.held.retain fun _ attempt => gate.openThroughout attempt.admitted now⟩

def hold (gate : PromptGate) (fingerprint : String) (origin : AttemptOrigin)
    (addr : Option (SocketAddr IpAddr)) (now : Nat) : PendingAttempts :=
  let held := (pending.expire gate now).held
  let held := if maxPendingAttempts ≤ held.size then ∅ else held
  ⟨held.insert fingerprint ⟨origin, addr, now⟩⟩

/-- The held prompt of a machine, taken for a grant. -/
def take (gate : PromptGate) (fingerprint : String) (now : Nat) :
    Option PendingAttempt × PendingAttempts :=
  let held := (pending.expire gate now).held
  (held.lookup fingerprint, ⟨held.erase fingerprint⟩)

/-- The held prompts a frontend is shown: those the gate would still allow on screen. -/
def attemptsToReplay (held : Table String PendingAttempt) (gate : PromptGate) (now : Nat) :
    List (String × PendingAttempt) :=
  (held.entries.filter fun row => gate.replayable row.2.admitted now).map fun row => (row.1, row.2)

def replay (gate : PromptGate) (now : Nat) : List (String × PendingAttempt) × PendingAttempts :=
  let pending := pending.expire gate now
  (attemptsToReplay pending.held gate now, pending)

/-- Forget the prompt of a machine that was removed here. -/
def forget (fingerprint : String) : PendingAttempts :=
  ⟨pending.held.erase fingerprint⟩

end PendingAttempts

/-! ## Calls one after another -/

/-- The gate and the prompts it has raised. -/
structure Prompter where
  gate : PromptGate
  pending : PendingAttempts

inductive Call where
  | open_ (now : Nat)
  | admit_ (fingerprint : String) (ip : Option IpAddr) (now : Nat)
  | hold (fingerprint : String) (origin : AttemptOrigin) (addr : Option (SocketAddr IpAddr))
      (now : Nat)
  | take (fingerprint : String) (now : Nat)
  | replay (now : Nat)
  | forget (fingerprint : String)

def Call.time : Call → Option Nat
  | .open_ now | .admit_ _ _ now | .hold _ _ _ now | .take _ now | .replay now => some now
  | .forget _ => none

/-- What a call answers. -/
inductive Answer where
  | done
  | admits (admit_ : Admit)
  | taken (attempt : Option PendingAttempt)
  | shown (attempts : List (String × PendingAttempt))
  deriving DecidableEq

namespace Prompter

def start : Prompter := ⟨.new, .new⟩

variable (prompter : Prompter)

def answer : Call → Answer
  | .open_ _ | .hold _ _ _ _ | .forget _ => .done
  | .admit_ fingerprint ip now => .admits (prompter.gate.admit_ fingerprint ip now).1
  | .take fingerprint now => .taken (prompter.pending.take prompter.gate fingerprint now).1
  | .replay now => .shown (prompter.pending.replay prompter.gate now).1

def step : Call → Prompter
  | .open_ now => { prompter with gate := prompter.gate.open_ now }
  | .admit_ fingerprint ip now =>
    { prompter with gate := (prompter.gate.admit_ fingerprint ip now).2 }
  | .hold fingerprint origin addr now =>
    { prompter with pending := prompter.pending.hold prompter.gate fingerprint origin addr now }
  | .take fingerprint now =>
    { prompter with pending := (prompter.pending.take prompter.gate fingerprint now).2 }
  | .replay now => { prompter with pending := (prompter.pending.replay prompter.gate now).2 }
  | .forget fingerprint => { prompter with pending := prompter.pending.forget fingerprint }

def run (calls : List Call) : Prompter := calls.foldl step prompter

theorem run_append (first rest : List Call) :
    prompter.run (first ++ rest) = (prompter.run first).run rest :=
  List.foldl_append

/-- What the calls of a run answer, one after another. -/
def answers (prompter : Prompter) : List Call → List Answer
  | [] => []
  | call :: rest => prompter.answer call :: (prompter.step call).answers rest

end Prompter

/-- No call is made before one that came before it. -/
def InOrder (calls : List Call) : Prop := (calls.filterMap Call.time).Pairwise (· ≤ ·)

/-- Every call was made by some moment. -/
def By (calls : List Call) (now : Nat) : Prop := ∀ time ∈ calls.filterMap Call.time, time ≤ now

instance (calls : List Call) : Decidable (InOrder calls) :=
  inferInstanceAs (Decidable (List.Pairwise _ _))

instance (calls : List Call) (now : Nat) : Decidable (By calls now) :=
  inferInstanceAs (Decidable (∀ time ∈ _, _))

theorem InOrder.before {calls : List Call} {call : Call} (ordered : InOrder (calls ++ [call])) :
    InOrder calls ∧ ∀ now, call.time = some now → By calls now := by
  unfold InOrder at ordered
  rw [List.filterMap_append, List.pairwise_append] at ordered
  refine ⟨ordered.1, fun now made time member => ordered.2.2 time member now ?_⟩
  rw [List.filterMap_cons, made]
  exact List.mem_cons_self

theorem By.before {calls : List Call} {call : Call} {now : Nat}
    (by_ : By (calls ++ [call]) now) :
    By calls now ∧ ∀ time, call.time = some time → time ≤ now := by
  unfold By at by_
  rw [List.filterMap_append] at by_
  refine ⟨fun time member => by_ time (List.mem_append_left _ member), fun time made => ?_⟩
  refine by_ time (List.mem_append_right _ ?_)
  rw [List.filterMap_cons, made]
  exact List.mem_cons_self

end HopsFormal.Prompts
