import HopsFormal.Files.NewFile

/-!
# What is at the path

Every call writes to a file that no other name names and renames or links it once it is whole, so
the path holds nothing or all of what one call was given.  Two saves without a lock share the file
they write, and so do not.
-/

namespace HopsFormal.Files

open Function List
open Lib (overwrite overwrite_take)

variable {setup : Setup}

/-- What is in the file of a call at a stage, when the file is the call's own. -/
def Stage.Written (contents data : Bytes) : Stage → Prop
  | .writing written => written ≤ contents.length ∧ data = contents.take written
  | .linking | .locking | .checking | .placing => data = contents
  | .tidying _ => True

def Stage.Locked : Stage → Prop
  | .checking | .placing => True
  | .writing _ | .linking | .locking | .tidying _ => False

/-- A call is under way. -/
def Pc.Running : Pc → Prop
  | .idle | .ended _ | .killed => False
  | .trying _ | .waiting | .ready | .busy _ _ _ | .sweeping | .removing _ => True

/-- What a call that writes the file at a name relies on. -/
structure Holds (setup : Setup) (state : State) (c : Nat) (stage : Stage) (name : Text)
    (file : Nat) : Prop where
  there : state.dir name = some file
  made : (setup.job c).creates = true → state.maker file = c ∧
    ∃ n < 2 ^ 64, name = temporaryName setup.name (setup.pid (setup.process c)) n
  saving : (setup.job c).creates = false →
    name = saveName setup.name ∧ (setup.locks = true → state.lock = some c)
  written : ∃ contents, (setup.job c).contents = some contents ∧
    stage.Written contents (state.data file)
  outside : (∀ result, stage ≠ .tidying result) → state.dir setup.name ≠ some file
  locked : (setup.job c).creates = true → stage.Locked →
    setup.hardLinks = false ∧ setup.locks = true ∧ state.lock = some c
  clear : (setup.job c).creates = true → stage = .placing → state.dir setup.name = none

/--
No file has two names, apart from one that is linked into place; what is at the path is whole; a
temporary was made by a process with its id; and no two calls write under one name.
-/
structure Sound (setup : Setup) (state : State) : Prop where
  fresh : ∀ name file, state.dir name = some file → file < state.next
  apart : ∀ one other file, one ≠ setup.name → other ≠ setup.name →
    state.dir one = some file → state.dir other = some file → one = other
  saved : ∀ file, state.dir (saveName setup.name) = some file → state.dir setup.name ≠ some file
  whole : ∀ file, state.dir setup.name = some file →
    ∃ c, state.pcs c ≠ .idle ∧ (setup.job c).contents = some (state.data file)
  made : ∀ pid n file, state.dir (temporaryName setup.name pid n) = some file →
    setup.pid (setup.process (state.maker file)) = pid
  alive : ∀ c, (state.pcs c).Running → setup.process c ∈ state.alive
  holds : ∀ c stage name file, state.pcs c = .busy stage name file →
    Holds setup state c stage name file
  alone : ∀ c d stage stage' name file file', state.pcs c = .busy stage name file →
    state.pcs d = .busy stage' name file' → c = d
  ready : ∀ c, state.pcs c = .ready → setup.locks = true → state.lock = some c
  removing : ∀ c name, state.pcs c = .removing name → ∃ pid,
    temporaryWriter name setup.start = some pid ∧ ∀ p ∈ state.alive, setup.pid p ≠ pid

theorem pcs_go (state : State) (c d : Nat) (pc : Pc) :
    (state.go c pc).pcs d = if d = c then pc else state.pcs d :=
  update_apply ..

theorem dir_unlink (state : State) (name other : Text) :
    (state.unlink name).dir other = if other = name then none else state.dir other :=
  update_apply ..

theorem dir_make (state : State) (c : Nat) (name other : Text) :
    (state.make c name).dir other = if other = name then some state.next else state.dir other :=
  update_apply ..

theorem dir_link (state : State) (name other : Text) (file : Nat) :
    (state.link name file).dir other = if other = name then some file else state.dir other :=
  update_apply ..

variable {state next : State} {name other : Text} {file c d : Nat} {stage : Stage} {pc : Pc}
  {lock : Option Nat} {contents : Bytes} {act : Act} {taken : List Taken}

theorem dir_unlink_of_ne (apart : other ≠ name) : (state.unlink name).dir other = state.dir other :=
  update_of_ne apart ..

theorem dir_make_of_ne (c : Nat) (apart : other ≠ name) :
    (state.make c name).dir other = state.dir other :=
  update_of_ne apart ..

theorem dir_link_of_ne (apart : other ≠ name) :
    (state.link name file).dir other = state.dir other :=
  update_of_ne apart ..

theorem sound_start : Sound setup start := by
  constructor <;> intros <;> contradiction

theorem Holds.name_ne (holds : Holds setup state c stage name file) : name ≠ setup.name := by
  cases creates : (setup.job c).creates with
  | true =>
    obtain ⟨-, n, -, rfl⟩ := holds.made creates
    exact temporaryName_ne _ _ _
  | false =>
    obtain ⟨rfl, -⟩ := holds.saving creates
    exact saveName_ne _

/-! ## What one step changes -/

/-- A call goes on, and may give a lock back or take it. -/
theorem Sound.move (sound : Sound setup state)
    (others : ∀ d, d ≠ c → state.lock = some d → lock = some d) (begun : pc ≠ .idle)
    (alive : pc.Running → setup.process c ∈ state.alive)
    (holds : ∀ stage name file, pc = .busy stage name file →
      Holds setup { state with lock := lock } c stage name file ∧
      ∀ d stage' file', d ≠ c → state.pcs d ≠ .busy stage' name file')
    (ready : pc = .ready → setup.locks = true → lock = some c)
    (removing : ∀ name, pc = .removing name → ∃ pid,
      temporaryWriter name setup.start = some pid ∧ ∀ p ∈ state.alive, setup.pid p ≠ pid) :
    Sound setup ({ state with lock := lock }.go c pc) where
  fresh := sound.fresh
  apart := sound.apart
  saved := sound.saved
  whole file there := by
    obtain ⟨d, before, given⟩ := sound.whole file there
    refine ⟨d, ?_, given⟩
    rw [pcs_go]
    split
    · exact begun
    · exact before
  made := sound.made
  alive d running := by
    rw [pcs_go] at running
    split at running
    · next same => exact same ▸ alive running
    · exact sound.alive d running
  holds d stage name file at_ := by
    rw [pcs_go] at at_
    split at at_
    · next same =>
      subst same
      obtain ⟨held, -⟩ := holds stage name file at_
      exact ⟨held.there, held.made, held.saving, held.written, held.outside, held.locked,
        held.clear⟩
    · next apart =>
      have held := sound.holds d stage name file at_
      exact ⟨held.there, held.made,
        fun saves => ⟨(held.saving saves).1, fun locks =>
          others d apart ((held.saving saves).2 locks)⟩,
        held.written, held.outside, fun creates locked =>
          have ⟨links, locks, mine⟩ := held.locked creates locked
          ⟨links, locks, others d apart mine⟩, held.clear⟩
  alone d e stage stage' name file file' one other := by
    rw [pcs_go] at one other
    split at one
    · next same =>
      split at other
      · next same' => exact same.trans same'.symm
      · next apart => exact absurd other ((holds stage name file one).2 e _ _ apart)
    · next apart =>
      split at other
      · exact absurd one ((holds stage' name file' other).2 d _ _ apart)
      · exact sound.alone d e _ _ _ _ _ one other
  ready d at_ locks := by
    rw [pcs_go] at at_
    split at at_
    · next same => exact same ▸ ready at_ locks
    · next apart => exact others d apart (sound.ready d at_ locks)
  removing d name at_ := by
    rw [pcs_go] at at_
    split at at_
    · exact removing name at_
    · exact sound.removing d name at_

/-- A call that comes to write no file, hold no lock and remove nothing. -/
def Pc.Quiet : Pc → Prop
  | .ready | .busy _ _ _ | .removing _ => False
  | .idle | .trying _ | .waiting | .sweeping | .ended _ | .killed => True

theorem Sound.rest (sound : Sound setup state)
    (others : ∀ d, d ≠ c → state.lock = some d → lock = some d) (begun : pc ≠ .idle)
    (alive : pc.Running → setup.process c ∈ state.alive) (quiet : pc.Quiet) :
    Sound setup ({ state with lock := lock }.go c pc) := by
  refine sound.move others begun alive ?_ ?_ ?_
  · rintro stage name file rfl
    exact quiet.elim
  · rintro rfl
    exact quiet.elim
  · rintro name rfl
    exact quiet.elim

/-- A call that writes a file goes on to another stage. -/
theorem Sound.advance (sound : Sound setup state) {next : Stage}
    (at_ : state.pcs c = .busy stage name file)
    (others : ∀ d, d ≠ c → state.lock = some d → lock = some d)
    (kept : (setup.job c).creates = false → state.lock = some c → lock = some c)
    (written : ∀ contents, (setup.job c).contents = some contents →
      stage.Written contents (state.data file) → next.Written contents (state.data file))
    (outside : (∀ result, next ≠ .tidying result) → ∀ result, stage ≠ .tidying result)
    (locked : (setup.job c).creates = true → next.Locked →
      setup.hardLinks = false ∧ setup.locks = true ∧ lock = some c)
    (clear : (setup.job c).creates = true → next = .placing → state.dir setup.name = none) :
    Sound setup ({ state with lock := lock }.go c (.busy next name file)) := by
  have held := sound.holds c stage name file at_
  refine sound.move others nofun ?_ ?_ nofun nofun
  · intro _
    have running : (state.pcs c).Running := by
      rw [at_]
      trivial
    exact sound.alive c running
  · intro stage' name' file' same
    cases same
    obtain ⟨contents, given, before⟩ := held.written
    refine ⟨⟨held.there, held.made, fun saves => ⟨(held.saving saves).1, fun locks =>
      kept saves ((held.saving saves).2 locks)⟩, ⟨contents, given, written contents given before⟩,
      fun going => held.outside (outside going), locked, clear⟩, ?_⟩
    intro d stage' file' apart same
    exact apart (sound.alone d c _ _ _ _ _ same at_)

/-- A call gives up what it writes; its file is left to be removed. -/
theorem Sound.fails (sound : Sound setup state) (at_ : state.pcs c = .busy stage name file)
    (others : ∀ d, d ≠ c → state.lock = some d → lock = some d)
    (kept : (setup.job c).creates = false → state.lock = some c → lock = some c) (result : Result) :
    Sound setup ({ state with lock := lock }.go c (.busy (.tidying result) name file)) :=
  sound.advance at_ others kept (fun _ _ _ => trivial) (fun going => absurd rfl (going result))
    (fun _ => False.elim) nofun

/-- What a call relies on is not touched. -/
theorem Holds.frame {state' : State} (holds : Holds setup state c stage name file)
    (there : state'.dir name = some file) (maker : state'.maker file = state.maker file)
    (data : (∀ result, stage ≠ .tidying result) → state'.data file = state.data file)
    (lock : state'.lock = state.lock)
    (outside : (∀ result, stage ≠ .tidying result) → state'.dir setup.name ≠ some file)
    (clear : (setup.job c).creates = true → stage = .placing → state'.dir setup.name = none) :
    Holds setup state' c stage name file where
  there := there
  made creates := by
    rw [maker]
    exact holds.made creates
  saving saves := by
    rw [lock]
    exact holds.saving saves
  written := by
    obtain ⟨contents, given, written⟩ := holds.written
    refine ⟨contents, given, ?_⟩
    by_cases going : ∀ result, stage ≠ .tidying result
    · rw [data going]
      exact written
    · push Not at going
      obtain ⟨result, rfl⟩ := going
      trivial
  outside := outside
  locked creates locked := by
    rw [lock]
    exact holds.locked creates locked
  clear := clear

/-- A name that no call uses is removed. -/
theorem Sound.unlink (sound : Sound setup state) (elsewhere : name ≠ setup.name)
    (unused : ∀ c stage file, state.pcs c ≠ .busy stage name file) :
    Sound setup (state.unlink name) := by
  have path : (state.unlink name).dir setup.name = state.dir setup.name :=
    dir_unlink_of_ne elsewhere.symm
  have there {other : Text} {file : Nat} (found : (state.unlink name).dir other = some file) :
      state.dir other = some file := by
    rw [dir_unlink] at found
    split at found
    · cases found
    · exact found
  refine ⟨fun other file found => sound.fresh other file (there found),
    fun one other file one_ other_ found found' =>
      sound.apart one other file one_ other_ (there found) (there found'),
    fun file found => path ▸ sound.saved file (there found),
    fun file found => sound.whole file (path ▸ found),
    fun pid n file found => sound.made pid n file (there found), sound.alive, ?_, sound.alone,
    sound.ready, sound.removing⟩
  intro c stage other file at_
  have held := sound.holds c stage other file at_
  have apart : other ≠ name := fun same => unused c stage file (same ▸ at_)
  refine held.frame ?_ rfl (fun _ => rfl) rfl (fun going => path ▸ held.outside going)
    (fun creates placing => path ▸ held.clear creates placing)
  exact (dir_unlink_of_ne apart).trans held.there

/-- A file is made under a name that is free. -/
theorem Sound.make (sound : Sound setup state) (elsewhere : name ≠ setup.name)
    (free : state.dir name = none) (own : ∀ pid n, name = temporaryName setup.name pid n →
      setup.pid (setup.process c) = pid) : Sound setup (state.make c name) := by
  have path : (state.make c name).dir setup.name = state.dir setup.name :=
    dir_make_of_ne c elsewhere.symm
  have there {other : Text} {file : Nat} (found : (state.make c name).dir other = some file) :
      (other = name ∧ file = state.next) ∨ other ≠ name ∧ state.dir other = some file ∧
        file ≠ state.next := by
    rw [dir_make] at found
    split at found
    · next same => exact .inl ⟨same, (Option.some.inj found).symm⟩
    · next apart => exact .inr ⟨apart, found, (sound.fresh other file found).ne⟩
  have data {file : Nat} (old : file ≠ state.next) :
      (state.make c name).data file = state.data file :=
    update_of_ne old ..
  have maker {file : Nat} (old : file ≠ state.next) :
      (state.make c name).maker file = state.maker file :=
    update_of_ne old ..
  constructor
  case fresh =>
    intro other file found
    rcases there found with ⟨-, rfl⟩ | ⟨-, found, -⟩
    · exact Nat.lt_succ_self _
    · exact (sound.fresh other file found).trans (Nat.lt_succ_self _)
  case apart =>
    intro one other file one_ other_ found found'
    rcases there found with ⟨rfl, new⟩ | ⟨-, found, old⟩
    · rcases there found' with ⟨rfl, -⟩ | ⟨-, -, old⟩
      · rfl
      · exact absurd new old
    · rcases there found' with ⟨-, new⟩ | ⟨-, found', -⟩
      · exact absurd new old
      · exact sound.apart one other file one_ other_ found found'
  case saved =>
    intro file found
    rw [path]
    rcases there found with ⟨-, rfl⟩ | ⟨-, found, -⟩
    · exact fun placed => (sound.fresh _ _ placed).false
    · exact sound.saved file found
  case whole =>
    intro file found
    rw [path] at found
    rw [data (sound.fresh _ _ found).ne]
    exact sound.whole file found
  case made =>
    intro pid n file found
    rcases there found with ⟨same, rfl⟩ | ⟨-, found, old⟩
    · have mine : (state.make c name).maker state.next = c := update_self ..
      rw [mine]
      exact own pid n same.symm
    · rw [maker old]
      exact sound.made pid n file found
  case alive => exact sound.alive
  case holds =>
    intro d stage other file at_
    have held := sound.holds d stage other file at_
    have apart : other ≠ name := by
      rintro rfl
      rw [held.there] at free
      cases free
    have old := (sound.fresh _ _ held.there).ne
    refine held.frame ?_ (maker old) (fun _ => data old) rfl
      (fun going => path ▸ held.outside going)
      (fun creates placing => path ▸ held.clear creates placing)
    exact (dir_make_of_ne c apart).trans held.there
  case alone => exact sound.alone
  case ready => exact sound.ready
  case removing => exact sound.removing

/-- A file that is not at the path, and that no call counts on, is written to. -/
theorem Sound.put (sound : Sound setup state) (bytes : Bytes)
    (elsewhere : state.dir setup.name ≠ some file)
    (unused : ∀ c stage name, state.pcs c = .busy stage name file →
      ∃ result, stage = .tidying result) : Sound setup (state.put file bytes) := by
  have data {other : Nat} (apart : other ≠ file) :
      (state.put file bytes).data other = state.data other :=
    update_of_ne apart ..
  refine ⟨sound.fresh, sound.apart, sound.saved, ?_, sound.made, sound.alive, ?_, sound.alone,
    sound.ready, sound.removing⟩
  · intro other found
    have apart : other ≠ file := fun same => elsewhere (same ▸ found)
    rw [data apart]
    exact sound.whole other found
  · intro c stage name other at_
    have held := sound.holds c stage name other at_
    refine held.frame held.there rfl (fun going => data ?_) rfl held.outside held.clear
    rintro rfl
    obtain ⟨result, same⟩ := unused c stage name at_
    exact going result same

/-- A whole file that no call writes any more comes to the path. -/
theorem Sound.link {state : State} (sound : Sound setup state) {c file : Nat}
    (begun : state.pcs c ≠ .idle) (whole : (setup.job c).contents = some (state.data file))
    (old : file < state.next) (unsaved : state.dir (saveName setup.name) ≠ some file)
    (unused : ∀ d stage name, state.pcs d = .busy stage name file →
      ∃ result, stage = .tidying result)
    (alone : ∀ d name other, (setup.job d).creates = true →
      state.pcs d ≠ .busy .placing name other) : Sound setup (state.link setup.name file) := by
  have path : (state.link setup.name file).dir setup.name = some file := by
    rw [dir_link, if_pos rfl]
  have kept {name : Text} (apart : name ≠ setup.name) :
      (state.link setup.name file).dir name = state.dir name :=
    dir_link_of_ne apart
  constructor
  case fresh =>
    intro name other found
    by_cases same : name = setup.name
    · rw [same, path] at found
      exact Option.some.inj found ▸ old
    · exact sound.fresh name other (kept same ▸ found)
  case apart =>
    intro one other found one_ other_ at_ at_'
    rw [kept one_] at at_
    rw [kept other_] at at_'
    exact sound.apart one other found one_ other_ at_ at_'
  case saved =>
    intro other found placed
    rw [kept (saveName_ne _)] at found
    rw [path] at placed
    exact unsaved (placed ▸ found)
  case whole =>
    intro other placed
    rw [path] at placed
    cases placed
    exact ⟨c, begun, whole⟩
  case made =>
    intro pid n other found
    exact sound.made pid n other (kept (temporaryName_ne _ _ _) ▸ found)
  case alive => exact sound.alive
  case holds =>
    intro d stage name other at_
    have held := sound.holds d stage name other at_
    refine held.frame ((kept held.name_ne).trans held.there) rfl (fun _ => rfl) rfl ?_ ?_
    · intro going placed
      rw [path] at placed
      cases placed
      obtain ⟨result, same⟩ := unused d stage name at_
      exact going result same
    · rintro creates rfl
      exact absurd at_ (alone d name other creates)
  case alone => exact sound.alone
  case ready => exact sound.ready
  case removing => exact sound.removing

theorem Sound.count (sound : Sound setup state) (p : Nat) : Sound setup (state.count p) := by
  refine ⟨sound.fresh, sound.apart, sound.saved, sound.whole, sound.made, sound.alive, ?_,
    sound.alone, sound.ready, sound.removing⟩
  intro c stage name file at_
  have held := sound.holds c stage name file at_
  exact held.frame held.there rfl (fun _ => rfl) rfl held.outside held.clear

/-- A process starts; what is about to be removed was not left by one with its id. -/
theorem Sound.launch (sound : Sound setup state) {p : Nat}
    (apart : ∀ c name, state.pcs c = .removing name →
      temporaryWriter name setup.start ≠ some (setup.pid p)) :
    Sound setup { state with alive := p :: state.alive } := by
  refine ⟨sound.fresh, sound.apart, sound.saved, sound.whole, sound.made,
    fun c running => .tail _ (sound.alive c running), ?_, sound.alone, sound.ready, ?_⟩
  · intro c stage name file at_
    have held := sound.holds c stage name file at_
    exact held.frame held.there rfl (fun _ => rfl) rfl held.outside held.clear
  · intro c name at_
    obtain ⟨pid, temporary, gone⟩ := sound.removing c name at_
    refine ⟨pid, temporary, fun q there => ?_⟩
    rcases mem_cons.mp there with rfl | there
    · rintro rfl
      exact apart c name at_ temporary
    · exact gone q there

theorem Pc.not_running_stop (pc : Pc) : ¬pc.stop.Running := by
  cases pc <;> exact id

/-- What a call of a process that ends is at, is nothing that is under way. -/
theorem Pc.eq_of_running {pc : Pc} {process p : Nat} {next : Pc} (running : next.Running)
    (at_ : (if process = p then pc.stop else pc) = next) : process ≠ p ∧ pc = next := by
  split at at_
  · exact absurd (at_ ▸ running) pc.not_running_stop
  · next apart => exact ⟨apart, at_⟩

/-- A process ends. -/
theorem Sound.kill (sound : Sound setup state) (p : Nat) : Sound setup { state with
      alive := state.alive.filter (· ≠ p)
      gone := p :: state.gone
      lock := state.lock.filter fun c => setup.process c ≠ p
      pcs := fun c => if setup.process c = p then (state.pcs c).stop else state.pcs c } := by
  have kept {c : Nat} (apart : setup.process c ≠ p) (locked : state.lock = some c) :
      state.lock.filter (fun c => setup.process c ≠ p) = some c := by
    simp [locked, apart]
  refine ⟨sound.fresh, sound.apart, sound.saved, ?_, sound.made, ?_, ?_, ?_, ?_, ?_⟩
  · intro file found
    obtain ⟨c, begun, given⟩ := sound.whole file found
    refine ⟨c, fun idle => begun ?_, given⟩
    dsimp only at idle
    split at idle
    · cases same : state.pcs c <;> rw [same] at idle <;> first | rfl | cases idle
    · exact idle
  · intro c running
    obtain ⟨apart, same⟩ := Pc.eq_of_running running rfl
    exact mem_filter.mpr ⟨sound.alive c (same ▸ running), decide_eq_true apart⟩
  · intro c stage name file at_
    obtain ⟨apart, same⟩ := @Pc.eq_of_running _ _ _ (.busy stage name file) trivial at_
    have held := sound.holds c stage name file same
    exact ⟨held.there, held.made, fun saves => ⟨(held.saving saves).1, fun locks =>
        kept apart ((held.saving saves).2 locks)⟩, held.written, held.outside,
      fun creates locked =>
        have ⟨links, locks, mine⟩ := held.locked creates locked
        ⟨links, locks, kept apart mine⟩, held.clear⟩
  · intro c d stage stage' name file file' one other
    exact sound.alone c d _ _ _ _ _ (@Pc.eq_of_running _ _ _ (.busy stage name file) trivial one).2
      (@Pc.eq_of_running _ _ _ (.busy stage' name file') trivial other).2
  · intro c at_ locks
    obtain ⟨apart, same⟩ := @Pc.eq_of_running _ _ _ .ready trivial at_
    exact kept apart (sound.ready c same locks)
  · intro c name at_
    obtain ⟨-, same⟩ := @Pc.eq_of_running _ _ _ (.removing name) trivial at_
    obtain ⟨pid, temporary, gone⟩ := sound.removing c name same
    exact ⟨pid, temporary, fun q there => gone q (mem_of_mem_filter there)⟩

/-! ## One step -/

/--
No process starts with the id of one whose temporary is about to be removed; nothing is created
where there can be no directory; and without locks no two saves are under way at once.
-/
def Careful (setup : Setup) (state : State) : Act → Prop
  | .launch p => ∀ c name, state.pcs c = .removing name →
      temporaryWriter name setup.start ≠ some (setup.pid p)
  | .begin c => (setup.job c).creates = true → setup.obstructed = false
  | .createPrivate _ => setup.locks = true ∨
      ∀ d stage file, state.pcs d ≠ .busy stage (saveName setup.name) file
  | _ => True

theorem lock_release (apart : d ≠ c) (locked : state.lock = some d) :
    (state.release c).lock = some d := by
  unfold State.release
  rw [locked]
  exact if_neg fun same => apart (Option.some.inj same)

/-- A call that ends gives back the lock. -/
theorem Sound.finish (sound : Sound setup state) (c : Nat) (result : Result) :
    Sound setup (state.finish c result) :=
  sound.rest (fun _ apart locked => lock_release apart locked) nofun False.elim trivial

theorem pcs_finish (state : State) (c d : Nat) (result : Result) :
    (state.finish c result).pcs d = if d = c then .ended result else state.pcs d :=
  update_apply ..

/-- No other call writes to the file of one, or under its name. -/
theorem Sound.unused (sound : Sound setup state) {other : Nat} {stage' : Stage} {name' : Text}
    (at_ : state.pcs c = .busy stage name file) (there : state.dir name = some other)
    (apart : d ≠ c) : state.pcs d ≠ .busy stage' name' other := fun busy => by
  have held := sound.holds c stage name file at_
  have held' := sound.holds d stage' name' other busy
  have same := sound.apart _ _ other held'.name_ne held.name_ne held'.there there
  subst same
  exact apart (sound.alone d c _ _ _ _ _ busy at_)

theorem Sound.running (sound : Sound setup state) (at_ : state.pcs c = pc) (running : pc.Running) :
    setup.process c ∈ state.alive :=
  sound.alive c (at_ ▸ running)

theorem Sound.begin (sound : Sound setup state) (alive : setup.process c ∈ state.alive) :
    Sound setup (state.go c (setup.first c)) := by
  have keeps : ∀ d, d ≠ c → state.lock = some d → state.lock = some d := fun _ _ locked => locked
  unfold Setup.first
  split
  · split <;> exact sound.rest keeps nofun (fun _ => alive) trivial
  · split
    · exact sound.rest keeps nofun (fun _ => alive) trivial
    · split
      · exact sound.rest keeps nofun (fun _ => alive) trivial
      · next unlocked =>
        exact sound.move keeps nofun (fun _ => alive)
          nofun (fun _ locks => absurd locks unlocked)
          nofun
  · split <;> exact sound.rest keeps nofun (fun _ => alive) trivial

theorem Sound.created {state : State} (sound : Sound setup state) {c n : Nat} {contents : Bytes}
    {name : Text} (alive : setup.process c ∈ state.alive)
    (creates : setup.job c = .create contents) (fits : n < 2 ^ 64)
    (own : name = temporaryName setup.name (setup.pid (setup.process c)) n)
    (free : state.dir name = none) :
    Sound setup ((state.make c name).go c (.busy (.writing 0) name state.next)) := by
  have elsewhere : name ≠ setup.name := own ▸ temporaryName_ne _ _ _
  have made : Sound setup (state.make c name) :=
    sound.make elsewhere free fun pid n same => (temporaryName_inj.mp (own.symm.trans same)).1
  have path : (state.make c name).dir setup.name = state.dir setup.name :=
    dir_make_of_ne c elsewhere.symm
  refine made.move (fun _ _ locked => locked) nofun (fun _ => alive) ?_ nofun nofun
  intro stage name' file same
  cases same
  refine ⟨⟨?_, fun _ => ⟨update_self .., n, fits, own⟩, ?_,
    ⟨contents, ?_, Nat.zero_le _, update_self ..⟩, ?_, fun _ => False.elim, ?_⟩, ?_⟩
  · exact (dir_make ..).trans (if_pos rfl)
  · intro saves
    rw [creates] at saves
    cases saves
  · rw [creates]
    rfl
  · intro _ placed
    exact (sound.fresh _ _ (path.symm.trans placed)).false
  · intro _ same
    cases same
  · intro d stage' file' _ busy
    have held := (sound.holds d _ _ _ busy).there
    rw [free] at held
    cases held

/-- A save that may open its file is the only one that uses it. -/
theorem Sound.unshared (sound : Sound setup state) (at_ : state.pcs c = .ready)
    (careful : Careful setup state (.createPrivate c)) (d : Nat) (stage : Stage) (file : Nat) :
    state.pcs d ≠ .busy stage (saveName setup.name) file := by
  rcases careful with locks | alone
  · intro busy
    have held := sound.holds d stage _ file busy
    cases creates : (setup.job d).creates with
    | true =>
      obtain ⟨-, n, -, same⟩ := held.made creates
      exact saveName_ne_temporaryName _ _ _ same
    | false =>
      have mine := (held.saving creates).2 locks
      rw [sound.ready c at_ locks] at mine
      cases mine
      rw [at_] at busy
      cases busy
  · exact alone d stage file

theorem Sound.saves (sound : Sound setup state) (alive : setup.process c ∈ state.alive)
    (saves : setup.job c = .save contents) (there : state.dir (saveName setup.name) = some file)
    (empty : state.data file = []) (locked : setup.locks = true → state.lock = some c)
    (alone : ∀ d stage file, state.pcs d ≠ .busy stage (saveName setup.name) file) :
    Sound setup (state.go c (.busy (.writing 0) (saveName setup.name) file)) := by
  have mine : (setup.job c).creates = false := by
    rw [saves]
    rfl
  refine sound.move (fun _ _ locked => locked) nofun (fun _ => alive) ?_ nofun nofun
  intro stage name file same
  cases same
  refine ⟨⟨there, fun creates => ?_, fun _ => ⟨rfl, locked⟩,
    ⟨contents, ?_, Nat.zero_le _, empty⟩, fun _ => sound.saved _ there, fun creates => ?_, fun creates => ?_⟩,
    fun d stage' file' _ => alone d stage' file'⟩
  · rw [mine] at creates
    cases creates
  · rw [saves]
    rfl
  · rw [mine] at creates
    cases creates
  · rw [mine] at creates
    cases creates

theorem Sound.opened {state : State} (sound : Sound setup state) {c : Nat} {contents : Bytes}
    (at_ : state.pcs c = .ready) (careful : Careful setup state (.createPrivate c))
    (saves : setup.job c = .save contents) (free : state.dir (saveName setup.name) = none) :
    Sound setup ((state.make c (saveName setup.name)).go c
      (.busy (.writing 0) (saveName setup.name) state.next)) := by
  have made : Sound setup (state.make c (saveName setup.name)) :=
    sound.make (saveName_ne _) free fun pid n same =>
      absurd same (saveName_ne_temporaryName _ _ _)
  exact made.saves (sound.running at_ trivial) saves ((dir_make ..).trans (if_pos rfl))
    (update_self ..) (sound.ready c at_) (sound.unshared at_ careful)

section

variable (sound : Sound setup state)
include sound

theorem Sound.emptied (at_ : state.pcs c = .ready)
    (careful : Careful setup state (.createPrivate c)) (saves : setup.job c = .save contents)
    (there : state.dir (saveName setup.name) = some file) :
    Sound setup ((state.put file []).go c (.busy (.writing 0) (saveName setup.name) file)) := by
  have alone := sound.unshared at_ careful
  have emptied : Sound setup (state.put file []) := by
    refine sound.put [] (sound.saved file there) fun d stage name busy => ?_
    have held := sound.holds d stage name file busy
    have same := sound.apart _ _ file held.name_ne (saveName_ne _) held.there there
    exact absurd (same ▸ busy) (alone d stage file)
  exact emptied.saves (sound.running at_ trivial) saves there (update_self ..)
    (sound.ready c at_) alone

theorem Sound.write {written n : Nat} (at_ : state.pcs c = .busy (.writing written) name file)
    (given : (setup.job c).contents = some contents) (part : n ≤ contents.length - written) :
    Sound setup ((state.put file
      (overwrite 0 (state.data file) written ((contents.drop written).take n))).go c
        (.busy (.writing (written + n)) name file)) := by
  have held := sound.holds c _ name file at_
  obtain ⟨_, given', within, before⟩ := held.written
  rw [given] at given'
  cases given'
  rw [before, overwrite_take 0 contents n within]
  -- while it is written to, the file is one that the call no longer counts on
  have paused : Sound setup (state.go c (.busy (.tidying .failed) name file)) :=
    sound.fails at_ (fun _ _ locked => locked) (fun _ locked => locked) .failed
  have put : Sound setup ((state.go c (.busy (.tidying .failed) name file)).put file
      (contents.take (written + n))) := by
    refine paused.put _ (held.outside nofun) fun d stage name' busy => ?_
    rw [pcs_go] at busy
    split at busy
    · cases busy
      exact ⟨.failed, rfl⟩
    · next apart => exact absurd busy (sound.unused at_ held.there apart)
  have moved : (state.put file (contents.take (written + n))).go c
      (.busy (.writing (written + n)) name file) =
      ((state.go c (.busy (.tidying .failed) name file)).put file
        (contents.take (written + n))).go c (.busy (.writing (written + n)) name file) := by
    simp only [State.go, State.put, update_idem]
  rw [moved]
  refine put.move (fun _ _ locked => locked) nofun
    (fun _ => sound.running at_ trivial) ?_ nofun
    nofun
  intro stage name' file' same
  cases same
  refine ⟨⟨held.there, held.made, held.saving, ⟨contents, given, ?_, update_self ..⟩,
    fun _ => held.outside nofun, fun _ => False.elim,
    nofun⟩, fun d stage' file' apart => ?_⟩
  · omega
  · have other : ((state.go c (.busy (.tidying .failed) name file)).put file
        (contents.take (written + n))).pcs d = state.pcs d :=
      (pcs_go ..).trans (if_neg apart)
    rw [other]
    exact fun busy => apart (sound.alone d c _ _ _ _ _ busy at_)

theorem Sound.linked (creates : (setup.job c).creates = true)
    (at_ : state.pcs c = .busy .linking name file) (links : setup.hardLinks = true) :
    Sound setup ((state.link setup.name file).go c (.busy (.tidying .done) name file)) := by
  have held := sound.holds c _ name file at_
  obtain ⟨contents, given, whole⟩ := held.written
  have moved : Sound setup (state.go c (.busy (.tidying .done) name file)) :=
    sound.fails at_ (fun _ _ locked => locked) (fun _ locked => locked) .done
  have mine : (state.go c (.busy (.tidying .done) name file)).pcs c =
      .busy (.tidying .done) name file :=
    (pcs_go ..).trans (if_pos rfl)
  refine @Sound.link _ _ moved c file ?_ (given.trans (congrArg some whole.symm))
    (sound.fresh _ _ held.there) ?_ ?_ ?_
  · rw [mine]
    exact nofun
  · intro found
    obtain ⟨-, n, -, rfl⟩ := held.made creates
    exact saveName_ne_temporaryName _ _ _
      (sound.apart _ _ file (saveName_ne _) (temporaryName_ne _ _ _) found held.there)
  · intro d stage name' busy
    by_cases apart : d = c
    · rw [apart, mine] at busy
      cases busy
      exact ⟨.done, rfl⟩
    · rw [pcs_go, if_neg apart] at busy
      exact absurd busy (sound.unused at_ held.there apart)
  · intro d name' other creates' busy
    have links' := ((moved.holds d _ _ _ busy).locked creates' trivial).1
    rw [links] at links'
    cases links'

theorem Sound.placing {other : Nat} {name' : Text} (at_ : state.pcs c = .busy .placing name file)
    (creates : (setup.job d).creates = true) (busy : state.pcs d = .busy .placing name' other) :
    d = c := by
  obtain ⟨-, locks, locked⟩ := (sound.holds d _ _ _ busy).locked creates trivial
  have held := sound.holds c _ _ _ at_
  have mine : state.lock = some c := by
    cases creates' : (setup.job c).creates with
    | true => exact (held.locked creates' trivial).2.2
    | false => exact (held.saving creates').2 locks
  exact Option.some.inj (locked.symm.trans mine)

end

theorem Sound.tidy {state : State} (sound : Sound setup state) {c file : Nat} {stage : Stage}
    {name : Text} (at_ : state.pcs c = .busy stage name file) (result : Result) :
    Sound setup ((state.finish c result).unlink name) := by
  refine (sound.finish c result).unlink (sound.holds c _ _ _ at_).name_ne ?_
  intro d stage' file' busy
  rw [pcs_finish] at busy
  split at busy
  · cases busy
  · next apart => exact apart (sound.alone d c _ _ _ _ _ busy at_)

theorem Sound.rename (sound : Sound setup state) (at_ : state.pcs c = .busy .placing name file) :
    Sound setup (((state.finish c .done).unlink name).link setup.name file) := by
  have held := sound.holds c _ name file at_
  obtain ⟨contents, given, whole⟩ := held.written
  have pcs (d : Nat) : ((state.finish c .done).unlink name).pcs d =
      if d = c then .ended .done else state.pcs d := pcs_finish ..
  refine @Sound.link _ _ (sound.tidy at_ .done) c file ?_
    (given.trans (congrArg some whole.symm)) (sound.fresh _ _ held.there) ?_ ?_ ?_
  · rw [pcs, if_pos rfl]
    exact nofun
  · rw [dir_unlink]
    split
    · exact nofun
    · next apart =>
      exact fun found => apart (sound.apart _ _ file (saveName_ne _) held.name_ne found held.there)
  · intro d stage name' busy
    rw [pcs] at busy
    split at busy
    · cases busy
    · next apart => exact absurd busy (sound.unused at_ held.there apart)
  · intro d name' other creates busy
    rw [pcs] at busy
    split at busy
    · cases busy
    · next apart => exact apart (sound.placing at_ creates busy)

/-- What is about to be removed is no name of a call that is under way. -/
theorem Sound.left (sound : Sound setup state) (at_ : state.pcs c = .removing name) :
    ∃ pid n, name = temporaryName setup.name pid n ∧
      (∀ p ∈ state.alive, setup.pid p ≠ pid) ∧
      ∀ d stage file, state.pcs d ≠ .busy stage name file := by
  obtain ⟨pid, temporary, gone⟩ := sound.removing c name at_
  obtain ⟨-, n, -, rfl⟩ := temporaryWriter_eq_some.mp temporary
  refine ⟨pid, n, rfl, gone, fun d stage file busy => ?_⟩
  have held := sound.holds d stage _ file busy
  cases creates : (setup.job d).creates with
  | true =>
    obtain ⟨-, m, -, same⟩ := held.made creates
    exact gone _ (sound.running busy trivial) (temporaryName_inj.mp same).1.symm
  | false => exact saveName_ne_temporaryName _ _ _ (held.saving creates).1.symm

theorem Sound.remove (sound : Sound setup state) (at_ : state.pcs c = .removing name) :
    Sound setup ((state.unlink name).go c .sweeping) := by
  obtain ⟨pid, n, rfl, -, unused⟩ := sound.left at_
  exact (sound.unlink (temporaryName_ne _ _ _) unused).rest (fun _ _ locked => locked)
    nofun (fun _ => sound.running at_ trivial) trivial

theorem Sound.step {state next : State} {act : Act} (sound : Sound setup state)
    (careful : Careful setup state act) (stepped : Step setup state act next) :
    Sound setup next := by
  have keeps (c : Nat) : ∀ d, d ≠ c → state.lock = some d → state.lock = some d :=
    fun _ _ locked => locked
  cases stepped with
  | launch new alone => exact sound.launch careful
  | kill there => exact sound.kill _
  | begin idle alive => exact sound.begin alive
  | taken at_ there =>
    refine (sound.count _).rest (keeps _) (fun same => ?_) (fun _ => sound.running at_ trivial) ?_
    · split at same <;> cases same
    · split <;> trivial
  | created at_ creates free =>
    exact (sound.count _).created (sound.running at_ trivial) creates
      (Nat.mod_lt _ (by decide)) rfl free
  | emptied at_ saves there => exact sound.emptied at_ careful saves there
  | opened at_ saves free => exact sound.opened at_ careful saves free
  | write at_ given part => exact sound.write at_ given part.2
  | sync at_ given all =>
    split
    · next creates =>
      refine sound.advance at_ (keeps _) (fun _ locked => locked) ?_ ?_ (fun _ => False.elim) nofun
      · intro contents given' written
        rw [given] at given'
        cases given'
        exact written.2.trans (take_of_length_le all)
      · exact nofun
    · next saves =>
      refine sound.advance at_ (keeps _) (fun _ locked => locked) ?_ ?_
        (fun creates => absurd creates saves) (fun creates => absurd creates saves)
      · intro contents given' written
        rw [given] at given'
        cases given'
        exact written.2.trans (take_of_length_le all)
      · exact nofun
  | linked creates at_ links free => exact sound.linked creates at_ links
  | inTheWay creates at_ links there | unlocked at_ locks | missing at_ free | unplaced saves at_ =>
    exact sound.fails at_ (keeps _) (fun _ locked => locked) _
  | unlinked creates at_ links =>
    exact sound.advance at_ (keeps _) (fun _ locked => locked) (fun _ _ written => written)
      nofun (fun _ => False.elim) nofun
  | lockToSave at_ free =>
    refine sound.move (fun d _ locked => ?_) nofun
      (fun _ => sound.running at_ trivial) nofun
      (fun _ _ => rfl) nofun
    rw [free] at locked
    cases locked
  | lockToCreate at_ locks links free =>
    refine sound.advance at_ (fun d _ locked => ?_) (fun _ _ => rfl)
      (fun _ _ written => written) nofun
      (fun _ _ => ⟨links, locks, rfl⟩) nofun
    rw [free] at locked
    cases locked
  | free creates at_ free =>
    exact sound.advance at_ (keeps _) (fun _ locked => locked) (fun _ _ written => written)
      nofun
      (fun _ _ => (sound.holds _ _ _ _ at_).locked creates trivial) (fun _ _ => free)
  | occupied creates at_ there | uncreated creates at_ going =>
    refine sound.fails at_ (fun _ apart locked => lock_release apart locked) ?_ _
    intro saves
    rw [creates] at saves
    cases saves
  | rename at_ there =>
    have same := (sound.holds _ _ _ _ at_).there
    rw [there] at same
    cases same
    exact sound.rename at_
  | tidy at_ => exact sound.tidy at_ _
  | look at_ temporary left =>
    refine sound.move (keeps _) nofun
      (fun _ => sound.running at_ trivial) nofun
      nofun (fun name same => ?_)
    cases same
    exact ⟨_, temporary, fun p there => of_decide_eq_true
      (all_eq_true.mp (Bool.and_eq_true_iff.mp left).2 p there)⟩
  | remove at_ => exact sound.remove at_
  | leave at_ | noTemporary at_ | noPrivate at_ | unsaved saves at_ | untidied at_ =>
    exact sound.finish _ _
  | unremoved at_ =>
    exact sound.rest (keeps _) nofun (fun _ => sound.running at_ trivial) trivial

/-- What is at the path stays there, as it is, in every step but the one a save ends with. -/
theorem Sound.unreplaced (sound : Sound setup state) (stepped : Step setup state act next)
    (there : state.dir setup.name = some file)
    (other : ∀ c, act = .rename c → (setup.job c).creates = true) :
    next.dir setup.name = some file ∧ next.data file = state.data file := by
  have old : file ≠ state.next := (sound.fresh _ _ there).ne
  cases stepped with
  | @created c _ _ at_ creates free =>
    exact ⟨(dir_make_of_ne c (temporaryName_ne _ _ _).symm).trans there,
      update_of_ne old ..⟩
  | @opened c _ at_ saves free =>
    exact ⟨(dir_make_of_ne c (saveName_ne _).symm).trans there, update_of_ne old ..⟩
  | emptied at_ saves saved =>
    refine ⟨there, update_of_ne ?_ ..⟩
    rintro rfl
    exact sound.saved _ saved there
  | write at_ given part =>
    refine ⟨there, update_of_ne ?_ ..⟩
    rintro rfl
    exact (sound.holds _ _ _ _ at_).outside nofun there
  | linked creates at_ links free =>
    rw [free] at there
    cases there
  | rename at_ moved =>
    rw [(sound.holds _ _ _ _ at_).clear (other _ rfl) rfl] at there
    cases there
  | tidy at_ =>
    exact ⟨(dir_unlink_of_ne (sound.holds _ _ _ _ at_).name_ne.symm).trans there, rfl⟩
  | remove at_ =>
    obtain ⟨pid, n, rfl, -, -⟩ := sound.left at_
    exact ⟨(dir_unlink_of_ne (temporaryName_ne _ _ _).symm).trans there, rfl⟩
  | _ => exact ⟨there, rfl⟩

/-- A temporary is removed by the call that made it, or when its process does not run. -/
theorem Sound.own (sound : Sound setup state) (stepped : Step setup state act next) {pid n : Nat}
    (there : state.dir (temporaryName setup.name pid n) = some file) :
    next.dir (temporaryName setup.name pid n) = some file ∨
      act.call = some (state.maker file) ∨ setup.process (state.maker file) ∉ state.alive := by
  have unlinked {c other : Nat} {stage : Stage} {name : Text}
      (at_ : state.pcs c = .busy stage name other) :
      (state.unlink name).dir (temporaryName setup.name pid n) = some file ∨
        c = state.maker file := by
    by_cases same : temporaryName setup.name pid n = name
    · subst same
      have held := sound.holds _ _ _ _ at_
      have files := held.there
      rw [there] at files
      cases files
      cases creates : (setup.job c).creates with
      | true => exact .inr (held.made creates).1.symm
      | false => exact absurd (held.saving creates).1.symm (saveName_ne_temporaryName _ _ _)
    · exact .inl ((dir_unlink_of_ne same).trans there)
  cases stepped with
  | @created c _ _ at_ creates free =>
    refine .inl ((dir_make_of_ne c fun same => ?_).trans there)
    rw [← same, there] at free
    cases free
  | @opened c _ at_ saves free =>
    exact .inl ((dir_make_of_ne c (saveName_ne_temporaryName _ _ _).symm).trans there)
  | linked creates at_ links free =>
    exact .inl ((dir_link_of_ne (temporaryName_ne _ _ _)).trans there)
  | rename at_ moved =>
    rcases unlinked at_ with kept | own
    · exact .inl ((dir_link_of_ne (temporaryName_ne _ _ _)).trans kept)
    · exact .inr (.inl (congrArg some own))
  | tidy at_ =>
    rcases unlinked at_ with kept | own
    · exact .inl kept
    · exact .inr (.inl (congrArg some own))
  | remove at_ =>
    obtain ⟨pid', n', rfl, gone, -⟩ := sound.left at_
    by_cases same : temporaryName setup.name pid n = temporaryName setup.name pid' n'
    · refine .inr (.inr fun alive => gone _ alive ?_)
      rw [sound.made pid n file there]
      exact (temporaryName_inj.mp same).1
    · exact .inl ((dir_unlink_of_ne same).trans there)
  | _ => exact .inl there

/-- A call is about to say, or has said, that something is at the path. -/
def Pc.Found : Pc → Prop
  | .busy (.tidying .alreadyExists) _ _ | .ended .alreadyExists => True
  | _ => False

theorem found_go (found : ((state.go c pc).pcs d).Found) :
    (d = c ∧ pc.Found) ∨ (state.pcs d).Found := by
  rw [pcs_go] at found
  split at found
  · next same => exact .inl ⟨same, found⟩
  · exact .inr found

theorem found_step (careful : Careful setup state act) (stepped : Step setup state act next)
    (found : (next.pcs c).Found) :
    (state.pcs c).Found ∨ act.call = some c ∧ state.dir setup.name ≠ none := by
  cases stepped with
  | kill there =>
    refine .inl ?_
    dsimp only at found
    split at found
    · cases at_ : state.pcs c <;> rw [at_] at found <;> first | exact found | exact found.elim
    · exact found
  | launch new alone => exact .inl found
  | begin idle alive =>
    rcases found_go found with ⟨rfl, made⟩ | before
    · unfold Setup.first at made
      split at made
      · next creates =>
        rw [careful (by rw [creates]; rfl)] at made
        exact made.elim
      · split at made
        · exact made.elim
        · split at made <;> exact made.elim
      · split at made <;> exact made.elim
    · exact .inl before
  | taken at_ there | sync at_ given all =>
    rcases found_go found with ⟨-, made⟩ | before
    · split at made <;> exact made.elim
    · exact .inl before
  | inTheWay creates at_ links there | occupied creates at_ there =>
    rcases found_go found with ⟨rfl, -⟩ | before
    · exact .inr ⟨rfl, fun none => by rw [none] at there; cases there⟩
    · exact .inl before
  | @tidy c' _ _ result at_ | @untidied c' _ _ result at_ =>
    rcases found_go found with ⟨rfl, made⟩ | before
    · rw [at_]
      cases result <;> first | exact .inl trivial | exact made.elim
    · exact .inl before
  | _ => exact .inl ((found_go found).resolve_left fun made => made.2)

/-! ## Every run -/

theorem sound_ran (ran : Ran setup (Careful setup) taken state) : Sound setup state := by
  induction ran with
  | start => exact sound_start
  | step ran stepped careful ih => exact ih.step careful stepped

/-- Each step of a run was taken in a state that was reached. -/
theorem mem_ran {taken : List Taken} {state : State} (ran : Ran setup (Careful setup) taken state)
    {each : Taken} (member : each ∈ taken) :
    Sound setup each.before ∧ Step setup each.before each.act each.after := by
  induction ran with
  | start => cases member
  | step ran stepped careful ih =>
    rcases mem_append.mp member with earlier | last
    · exact ih earlier
    · cases mem_singleton.mp last
      exact ⟨sound_ran ran, stepped⟩

theorem found_ran (ran : Ran setup (Careful setup) taken state) (found : (state.pcs c).Found) :
    ∃ each ∈ taken, each.act.call = some c ∧ each.before.dir setup.name ≠ none := by
  induction ran with
  | start => exact found.elim
  | step ran stepped careful ih =>
    rcases found_step careful stepped found with before | here
    · obtain ⟨each, member, seen⟩ := ih before
      exact ⟨each, mem_append_left _ member, seen⟩
    · exact ⟨_, mem_append_right _ (mem_singleton_self _), here⟩

/--
The path holds nothing or what one call was given; only a save replaces what is there; a creator
that says something was there had found it; and a temporary is removed only by the call that made it
or once its process is gone.
-/
structure Kept (setup : Setup) (taken : List Taken) (state : State) : Prop where
  whole : ∀ file, state.dir setup.name = some file →
    ∃ c, state.pcs c ≠ .idle ∧ (setup.job c).contents = some (state.data file)
  unreplaced : ∀ each ∈ taken, ∀ file, each.before.dir setup.name = some file →
    (∀ c, each.act = .rename c → (setup.job c).creates = true) →
    each.after.dir setup.name = some file ∧ each.after.data file = each.before.data file
  occupied : ∀ c, state.pcs c = .ended .alreadyExists →
    ∃ each ∈ taken, each.act.call = some c ∧ each.before.dir setup.name ≠ none
  own : ∀ each ∈ taken, ∀ pid n file,
    each.before.dir (temporaryName setup.name pid n) = some file →
    each.after.dir (temporaryName setup.name pid n) = some file ∨
      each.act.call = some (each.before.maker file) ∨
      setup.process (each.before.maker file) ∉ each.before.alive

/--
Whatever creators, saves and clean-ups of any processes do, and wherever a process is killed, a file
is created whole and kept, as long as the steps are careful; and the names taken for temporaries are
those that a process can pick.
-/
theorem created_whole (setup : Setup) (taken : List Taken) (state : State)
    (ran : Ran setup (Careful setup) taken state) :
    Kept setup taken state ∧ ∀ fileName pid, temporaryWriter fileName setup.start = some pid ↔
      pid < 2 ^ 32 ∧ ∃ n < 2 ^ 64, fileName = temporaryName setup.name pid n := by
  have sound := sound_ran ran
  refine ⟨⟨sound.whole, ?_, ?_, ?_⟩, fun fileName pid => temporaryWriter_eq_some⟩
  · intro each member file there other
    obtain ⟨before, stepped⟩ := mem_ran ran member
    exact before.unreplaced stepped there other
  · intro c ended
    refine found_ran ran ?_
    rw [ended]
    trivial
  · intro each member pid n file there
    obtain ⟨before, stepped⟩ := mem_ran ran member
    exact before.own stepped there

/-! ## Two calls -/

/-- Calls of processes of their own. -/
def separate (job : Nat → Job) (hardLinks : Bool) : Setup where
  name := "config.toml".toList
  job := job
  process c := c
  pid p := (p + 1) % 2 ^ 32
  pid_lt p := Nat.mod_lt _ (by decide)
  hardLinks := hardLinks
  locks := false
  obstructed := false

/-- A creator, a clean-up and a save, where there are hard links and locks. -/
def raced : Setup :=
  { separate (fun c => if c = 0 then .create [1, 2] else if c = 1 then .clean else .save [3])
      true with
    locks := true }

/--
The creator is killed once its file is linked; the save replaces what is there, and the
clean-up takes the temporary the creator left.
-/
theorem created_whole_raced : ∃ taken state, Ran raced (Careful raced) taken state ∧
    state.dir raced.name = some 1 ∧ state.data 1 = [3] ∧ state.pcs 0 = .killed ∧
    state.dir (temporaryName raced.name 1 0) = none ∧ Kept raced taken state := by
  have creator : Ran raced (Careful raced) _ _ := .step .start
    (.launch (p := 0) ⟨not_mem_nil, not_mem_nil⟩ nofun) nofun
  have cleaner := creator.step (.launch (p := 1) (by decide) (by decide)) nofun
  have saver := cleaner.step (.launch (p := 2) (by decide) (by decide)) nofun
  have begun := saver.step (.begin (c := 0) rfl (by decide)) (fun _ => rfl)
  have created := begun.step (.created (c := 0) rfl rfl rfl) trivial
  have sweeping := created.step (.begin (c := 1) rfl (by decide)) (fun _ => rfl)
  have waiting := sweeping.step (.begin (c := 2) rfl (by decide)) (fun _ => rfl)
  have written := waiting.step (.write (c := 0) (n := 2) rfl rfl (by decide)) trivial
  have locked := written.step (.lockToSave (c := 2) rfl rfl) trivial
  have synced := locked.step (.sync (c := 0) rfl rfl (by decide)) trivial
  have linked := synced.step (.linked (c := 0) rfl rfl rfl rfl) trivial
  have opened := linked.step (.opened (c := 2) rfl rfl rfl) (.inl rfl)
  have killed := opened.step (.kill (p := 0) (by decide)) trivial
  have saved := killed.step (.write (c := 2) (n := 1) rfl rfl (by decide)) trivial
  have placing := saved.step (.sync (c := 2) rfl rfl (by decide)) trivial
  have looked := placing.step (@Step.look raced _ 1 1 (temporaryName raced.name 1 0) rfl
    (temporaryWriter_eq_some.mpr ⟨by decide, 0, by decide, rfl⟩) (by decide)) trivial
  have renamed := looked.step (.rename (c := 2) rfl rfl) trivial
  have removed := renamed.step (.remove (c := 1) rfl) trivial
  exact ⟨_, _, removed, rfl, rfl, rfl, rfl, (created_whole raced _ _ removed).1⟩

def twoSaves : Setup :=
  separate (fun c => if c = 0 then .save [1, 2] else .save [3, 4]) false

/-- Without locks two saves write to one file, and the second still does when it is at the path. -/
theorem two_saves_mixed : ¬∀ (setup : Setup) (taken : List Taken) (state : State),
    Ran setup (fun _ _ => True) taken state → Kept setup taken state := by
  intro kept
  have launched : Ran twoSaves (fun _ _ => True) _ _ := .step .start
    (.launch (p := 0) ⟨not_mem_nil, not_mem_nil⟩ nofun) trivial
  have both := launched.step (.launch (p := 1) (by decide) (by decide)) trivial
  have begun := both.step (.begin (c := 0) rfl (.tail _ (.head _))) trivial
  have begun' := begun.step (.begin (c := 1) rfl (.head _)) trivial
  have opened := begun'.step (.opened (c := 0) rfl rfl rfl) trivial
  have part := opened.step (.write (c := 0) (n := 1) rfl rfl (by decide)) trivial
  have emptied := part.step (.emptied (c := 1) rfl rfl rfl) trivial
  have written := emptied.step (.write (c := 1) (n := 2) rfl rfl (by decide)) trivial
  have synced := written.step (.sync (c := 1) rfl rfl (by decide)) trivial
  have renamed := synced.step (.rename (c := 1) rfl rfl) trivial
  have rest := renamed.step (.write (c := 0) (n := 1) rfl rfl (by decide)) trivial
  obtain ⟨c, -, given⟩ := (kept twoSaves _ _ rest).whole 0 rfl
  have mixed : (twoSaves.job c).contents = some [3, 2] := given
  unfold twoSaves separate at mixed
  dsimp only at mixed
  split at mixed <;> cases mixed

end HopsFormal.Files
