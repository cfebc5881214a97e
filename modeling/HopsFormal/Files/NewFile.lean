import HopsFormal.Files.TemporaryNames
import HopsFormal.Lib.Overwriting
import Mathlib.Logic.Function.Basic

/-!
# Creating a file whole, and only where there is none

Processes create a file, save it and remove what creators left beside it.  What is created or saved
is written under another name and synced first.  A creator links it into place, which fails where
something is; without hard links it looks and renames under a lock.  A save renames over what is
there, under that lock where there are locks.
-/

namespace HopsFormal.Files

open Lib (overwrite)

abbrev Bytes := List UInt8

/-- What a call is to do. -/
inductive Job where
  | create (contents : Bytes)
  | save (contents : Bytes)
  | clean

def Job.contents : Job → Option Bytes
  | .create contents | .save contents => some contents
  | .clean => none

def Job.creates : Job → Bool
  | .create _ => true
  | .save _ | .clean => false

/--
The file, the calls and their processes, and what the filesystem has.  It is obstructed when
something that is no directory stands where the file's directory would be.
-/
structure Setup where
  name : Text
  job : Nat → Job
  process : Nat → Nat
  pid : Nat → Nat
  pid_lt : ∀ p, pid p < 2 ^ 32
  hardLinks : Bool
  locks : Bool
  obstructed : Bool

inductive Result where
  | done
  | alreadyExists
  | failed

/-- How far a call is with the file it writes first. -/
inductive Stage where
  | writing (written : Nat)
  | linking
  | locking
  | checking
  | placing
  | tidying (result : Result)

/-- What a call is at; a busy one has a name for what it writes, and the file it opened there. -/
inductive Pc where
  | idle
  | trying (left : Nat)
  | waiting
  | ready
  | busy (stage : Stage) (name : Text) (file : Nat)
  | sweeping
  | removing (name : Text)
  | ended (result : Result)
  | killed

/-- The file each name of the directory names, what is in each, and the call that made it. -/
structure State where
  dir : Text → Option Nat
  data : Nat → Bytes
  maker : Nat → Nat
  next : Nat
  lock : Option Nat
  counters : Nat → Nat
  alive : List Nat
  gone : List Nat
  pcs : Nat → Pc

def start : State where
  dir _ := none
  data _ := []
  maker _ := 0
  next := 0
  lock := none
  counters _ := 0
  alive := []
  gone := []
  pcs _ := .idle

/-- How many names a creator tries for its temporary file. -/
def temporaryNames : Nat := 16

/-- One operation on the directory, by a call, or the start or the end of a process. -/
inductive Act where
  | launch (p : Nat)
  | kill (p : Nat)
  | begin (c : Nat)
  | createTemporary (c : Nat)
  | createPrivate (c : Nat)
  | write (c n : Nat)
  | sync (c : Nat)
  | link (c : Nat)
  | lock (c : Nat)
  | check (c : Nat)
  | rename (c : Nat)
  | tidy (c : Nat)
  | look (c : Nat) (name : Text)
  | remove (c : Nat)
  | leave (c : Nat)
  | fail (c : Nat)

/-- The call whose step it is. -/
@[grind =]
def Act.call : Act → Option Nat
  | .launch _ | .kill _ => none
  | .begin c | .createTemporary c | .createPrivate c | .write c _ | .sync c | .link c | .lock c
  | .check c | .rename c | .tidy c | .look c _ | .remove c | .leave c | .fail c => some c

/-- The name that a call tries next. -/
def Setup.temporary (setup : Setup) (state : State) (c : Nat) : Text :=
  temporaryName setup.name (setup.pid (setup.process c)) (state.counters (setup.process c) % 2 ^ 64)

/-- What the names of temporaries begin with. -/
def Setup.start (setup : Setup) : Text :=
  '.' :: setup.name ++ ['.']

/-- What a call that has its own process begins with. -/
def Setup.first (setup : Setup) (c : Nat) : Pc :=
  match setup.job c with
  | .create _ => if setup.obstructed then .ended .alreadyExists else .trying temporaryNames
  | .save _ =>
    if setup.obstructed then .ended .failed else if setup.locks then .waiting else .ready
  | .clean => if setup.obstructed then .ended .done else .sweeping

/-- A call that is under way does not go on. -/
def Pc.stop : Pc → Pc
  | .idle => .idle
  | .ended result => .ended result
  | _ => .killed

namespace State

/-- No process with an id runs. -/
def isGone (setup : Setup) (state : State) (pid : Nat) : Bool :=
  pid ≠ 0 && state.alive.all fun p => setup.pid p ≠ pid

variable (state : State)

def go (c : Nat) (pc : Pc) : State :=
  { state with pcs := Function.update state.pcs c pc }

/-- A process uses a number for a name. -/
def count (p : Nat) : State :=
  { state with counters := Function.update state.counters p (state.counters p + 1) }

def release (c : Nat) : State :=
  { state with lock := if state.lock = some c then none else state.lock }

/-- A call ends; the lock it may hold goes with it. -/
def finish (c : Nat) (result : Result) : State :=
  (state.release c).go c (.ended result)

/-- A file that is made under a name. -/
def make (c : Nat) (name : Text) : State :=
  { state with
    dir := Function.update state.dir name (some state.next)
    data := Function.update state.data state.next []
    maker := Function.update state.maker state.next c
    next := state.next + 1 }

def put (file : Nat) (bytes : Bytes) : State :=
  { state with data := Function.update state.data file bytes }

def link (name : Text) (file : Nat) : State :=
  { state with dir := Function.update state.dir name (some file) }

def unlink (name : Text) : State :=
  { state with dir := Function.update state.dir name none }

end State

/-- What happens in one step, at what a call is at and what is in the directory. -/
inductive Step (setup : Setup) (state : State) : Act → State → Prop where
  /-- No two processes have one id at the same time. -/
  | launch {p : Nat} (new : p ∉ state.alive ∧ p ∉ state.gone)
      (alone : ∀ q ∈ state.alive, setup.pid q ≠ setup.pid p) :
      Step setup state (.launch p) { state with alive := p :: state.alive }
  /-- The locks of a process go with it. -/
  | kill {p : Nat} (there : p ∈ state.alive) :
      Step setup state (.kill p) { state with
        alive := state.alive.filter (· ≠ p)
        gone := p :: state.gone
        lock := state.lock.filter fun c => setup.process c ≠ p
        pcs := fun c => if setup.process c = p then (state.pcs c).stop else state.pcs c }
  | begin {c : Nat} (idle : state.pcs c = .idle) (alive : setup.process c ∈ state.alive) :
      Step setup state (.begin c) (state.go c (setup.first c))
  | taken {c left file : Nat} (at_ : state.pcs c = .trying (left + 1))
      (there : state.dir (setup.temporary state c) = some file) :
      Step setup state (.createTemporary c)
        ((state.count (setup.process c)).go c (if left = 0 then .ended .failed else .trying left))
  | created {c left : Nat} {contents : Bytes} (at_ : state.pcs c = .trying (left + 1))
      (creates : setup.job c = .create contents)
      (free : state.dir (setup.temporary state c) = none) :
      Step setup state (.createTemporary c)
        (((state.count (setup.process c)).make c (setup.temporary state c)).go c
          (.busy (.writing 0) (setup.temporary state c) state.next))
  /-- A file left at the name is opened and emptied. -/
  | emptied {c file : Nat} {contents : Bytes} (at_ : state.pcs c = .ready)
      (saves : setup.job c = .save contents)
      (there : state.dir (saveName setup.name) = some file) :
      Step setup state (.createPrivate c)
        ((state.put file []).go c (.busy (.writing 0) (saveName setup.name) file))
  | opened {c : Nat} {contents : Bytes} (at_ : state.pcs c = .ready)
      (saves : setup.job c = .save contents)
      (free : state.dir (saveName setup.name) = none) :
      Step setup state (.createPrivate c)
        ((state.make c (saveName setup.name)).go c
          (.busy (.writing 0) (saveName setup.name) state.next))
  /-- Any part of what is left to write. -/
  | write {c written n file : Nat} {name : Text} {contents : Bytes}
      (at_ : state.pcs c = .busy (.writing written) name file)
      (given : (setup.job c).contents = some contents)
      (some : 0 < n ∧ n ≤ contents.length - written) :
      Step setup state (.write c n)
        ((state.put file
            (overwrite 0 (state.data file) written ((contents.drop written).take n))).go c
          (.busy (.writing (written + n)) name file))
  | sync {c written file : Nat} {name : Text} {contents : Bytes}
      (at_ : state.pcs c = .busy (.writing written) name file)
      (given : (setup.job c).contents = some contents) (all : contents.length ≤ written) :
      Step setup state (.sync c) (state.go c
        (.busy (if (setup.job c).creates then .linking else .placing) name file))
  | linked {c file : Nat} {name : Text} (creates : (setup.job c).creates = true)
      (at_ : state.pcs c = .busy .linking name file)
      (links : setup.hardLinks = true) (free : state.dir setup.name = none) :
      Step setup state (.link c)
        ((state.link setup.name file).go c (.busy (.tidying .done) name file))
  | inTheWay {c file other : Nat} {name : Text} (creates : (setup.job c).creates = true)
      (at_ : state.pcs c = .busy .linking name file)
      (links : setup.hardLinks = true) (there : state.dir setup.name = some other) :
      Step setup state (.link c) (state.go c (.busy (.tidying .alreadyExists) name file))
  | unlinked {c file : Nat} {name : Text} (creates : (setup.job c).creates = true)
      (at_ : state.pcs c = .busy .linking name file)
      (links : setup.hardLinks = false) :
      Step setup state (.link c) (state.go c (.busy .locking name file))
  | lockToSave {c : Nat} (at_ : state.pcs c = .waiting) (free : state.lock = none) :
      Step setup state (.lock c) ({ state with lock := some c }.go c .ready)
  | lockToCreate {c file : Nat} {name : Text} (at_ : state.pcs c = .busy .locking name file)
      (locks : setup.locks = true) (links : setup.hardLinks = false) (free : state.lock = none) :
      Step setup state (.lock c) ({ state with lock := some c }.go c (.busy .checking name file))
  | unlocked {c file : Nat} {name : Text} (at_ : state.pcs c = .busy .locking name file)
      (locks : setup.locks = false) :
      Step setup state (.lock c) (state.go c (.busy (.tidying .failed) name file))
  | free {c file : Nat} {name : Text} (creates : (setup.job c).creates = true)
      (at_ : state.pcs c = .busy .checking name file)
      (free : state.dir setup.name = none) :
      Step setup state (.check c) (state.go c (.busy .placing name file))
  | occupied {c file other : Nat} {name : Text} (creates : (setup.job c).creates = true)
      (at_ : state.pcs c = .busy .checking name file)
      (there : state.dir setup.name = some other) :
      Step setup state (.check c)
        ((state.release c).go c (.busy (.tidying .alreadyExists) name file))
  /-- Whatever is at the name is renamed, the file the call opened or not. -/
  | rename {c file moved : Nat} {name : Text} (at_ : state.pcs c = .busy .placing name file)
      (there : state.dir name = some moved) :
      Step setup state (.rename c) (((state.unlink name).link setup.name moved).finish c .done)
  | missing {c file : Nat} {name : Text} (at_ : state.pcs c = .busy .placing name file)
      (free : state.dir name = none) :
      Step setup state (.rename c) (state.go c (.busy (.tidying .failed) name file))
  | tidy {c file : Nat} {name : Text} {result : Result}
      (at_ : state.pcs c = .busy (.tidying result) name file) :
      Step setup state (.tidy c) ((state.unlink name).finish c result)
  /-- A name that was read from the directory at some time, and a process that is gone by now. -/
  | look {c pid : Nat} {name : Text} (at_ : state.pcs c = .sweeping)
      (temporary : temporaryWriter name setup.start = some pid)
      (left : state.isGone setup pid = true) :
      Step setup state (.look c name) (state.go c (.removing name))
  | remove {c : Nat} {name : Text} (at_ : state.pcs c = .removing name) :
      Step setup state (.remove c) ((state.unlink name).go c .sweeping)
  | leave {c : Nat} (at_ : state.pcs c = .sweeping) :
      Step setup state (.leave c) (state.finish c .done)
  /-- No directory can be made, or no file under the name tried. -/
  | noTemporary {c left : Nat} (at_ : state.pcs c = .trying left) :
      Step setup state (.fail c) (state.finish c .failed)
  | noPrivate {c : Nat} (at_ : state.pcs c = .ready) :
      Step setup state (.fail c) (state.finish c .failed)
  /-- What a save could not write stays where it is. -/
  | unsaved {c written file : Nat} {name : Text} (saves : (setup.job c).creates = false)
      (at_ : state.pcs c = .busy (.writing written) name file) :
      Step setup state (.fail c) (state.finish c .failed)
  | uncreated {c file : Nat} {name : Text} {stage : Stage}
      (creates : (setup.job c).creates = true) (at_ : state.pcs c = .busy stage name file)
      (going : stage ≠ .checking ∧ ∀ result, stage ≠ .tidying result) :
      Step setup state (.fail c) ((state.release c).go c (.busy (.tidying .failed) name file))
  | unplaced {c file : Nat} {name : Text} (saves : (setup.job c).creates = false)
      (at_ : state.pcs c = .busy .placing name file) :
      Step setup state (.fail c) (state.go c (.busy (.tidying .failed) name file))
  /-- What could not be removed stays. -/
  | untidied {c file : Nat} {name : Text} {result : Result}
      (at_ : state.pcs c = .busy (.tidying result) name file) :
      Step setup state (.fail c) (state.finish c result)
  | unremoved {c : Nat} {name : Text} (at_ : state.pcs c = .removing name) :
      Step setup state (.fail c) (state.go c .sweeping)

/-- A step that was taken. -/
structure Taken where
  before : State
  act : Act
  after : State

/-- A run from a directory with nothing in it, by steps allowed where they are taken. -/
inductive Ran (setup : Setup) (allowed : State → Act → Prop) : List Taken → State → Prop where
  | start : Ran setup allowed [] start
  | step {taken : List Taken} {state next : State} {act : Act}
      (ran : Ran setup allowed taken state) (stepped : Step setup state act next)
      (careful : allowed state act) :
      Ran setup allowed (taken ++ [⟨state, act, next⟩]) next

end HopsFormal.Files
