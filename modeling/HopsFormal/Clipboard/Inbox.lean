import HopsFormal.Lib.Basic
import HopsFormal.Links.Clients
import HopsFormal.Trust.Spelling
import Mathlib.Logic.Function.Basic

/-!
# Clipboard text from peers

A transfer is let in when it arrives and let on when it is whole, each time only if the pairing
takes clipboard from the peer then.  Each link has a bounded share of the texts that wait.  A text
that is taken up is asked about once more, and its device must be switched on.
-/

namespace HopsFormal.Clipboard

open List Lib
open Links (ClientManager eqIgnoreAsciiCase)
open Trust (TrustStore Lowercase)

/-! ## The share of a link -/

def maxClipboardBytes : Nat := 1024 * 1024

def queuedPerLink : Nat := 4

def queuedBytesPerLink : Nat := 2 * maxClipboardBytes

/-- What one link has waiting to be applied. -/
structure Waiting where
  transfers : Nat
  bytes : Nat

namespace Waiting

variable (waiting : Waiting) (bytes : Nat)

/-- No room even for an empty transfer. -/
def full : Bool :=
  queuedPerLink ≤ waiting.transfers || queuedBytesPerLink ≤ waiting.bytes

/-- What waits once a transfer has its place, if there is room for it. -/
def take : Option Waiting :=
  if queuedPerLink < waiting.transfers + 1 ∨ queuedBytesPerLink < waiting.bytes + bytes then none
  else some ⟨waiting.transfers + 1, waiting.bytes + bytes⟩

def drop : Waiting := ⟨waiting.transfers - 1, waiting.bytes - bytes⟩

end Waiting

/-! ## The transfers of all links -/

/-- The machine the peer of a link proved to be, and the device the link was dialled for here. -/
structure ClipboardInlet where
  source : String
  dialledFor : Option Nat

/-- A transfer let in over a link; they are numbered as they arrive. -/
structure Transfer where
  number : Nat
  link : Nat

/-- A text with its place: the link it came over. -/
structure PeerClipboard extends Transfer where
  text : String

/-- The pairings and devices, how many transfers were let in, those being read, what each link has
waiting, the texts that wait, all that were ever whole, and those applied. -/
structure Inbox (Ip : Type) where
  store : TrustStore
  clients : ClientManager Ip
  arrived : Nat
  reading : List Transfer
  waiting : Nat → Waiting
  queue : List PeerClipboard
  whole : List PeerClipboard
  applied : List PeerClipboard

inductive Inbox.Act (Ip : Type) where
  | change (store : TrustStore) (clients : ClientManager Ip)
  | arrive (link now : Nat)
  | finish (index : Nat) (payload : Option String) (now : Nat)
  | next (now : Nat)

/-- The text of a transfer, where it comes whole and in time, is text, and is not too long. -/
def recvClipboard (payload : Option String) : Option String :=
  payload.filter fun text => text.utf8ByteSize ≤ maxClipboardBytes

variable {Ip : Type}

/-- No clipboard goes to or comes from a device that is switched off, under any of its entries. -/
def switchAllowsClipboard (clients : ClientManager Ip) (inlet : ClipboardInlet) : Bool :=
  inlet.dialledFor.all (fun handle => clients.isOn handle) &&
    !clients.devices.entries.any fun row => !row.2.active &&
      row.2.peerFingerprint.any fun pin => eqIgnoreAsciiCase pin inlet.source

namespace Inbox

def start (store : TrustStore) (clients : ClientManager Ip) : Inbox Ip where
  store := store
  clients := clients
  arrived := 0
  reading := []
  waiting := fun _ => ⟨0, 0⟩
  queue := []
  whole := []
  applied := []

variable [Lowercase] (inlets : Nat → ClipboardInlet) (inbox : Inbox Ip)

def permits (now link : Nat) : Bool :=
  inbox.store.permits now (inlets link).source .clipboardFrom

/-- A transfer that is not taken now, or for which the link has no room, is stopped. -/
def arrive (link now : Nat) : Inbox Ip :=
  if !inbox.permits inlets now link || (inbox.waiting link).full then inbox
  else
    { inbox with
      arrived := inbox.arrived + 1
      reading := inbox.reading ++ [⟨inbox.arrived, link⟩] }

/-- Transfers read side by side can each have found room when they started. -/
def finish (index : Nat) (payload : Option String) (now : Nat) : Inbox Ip :=
  match inbox.reading[index]? with
  | none => inbox
  | some transfer =>
    let read := { inbox with reading := inbox.reading.eraseIdx index }
    match recvClipboard payload with
    | none => read
    | some text =>
      if !inbox.permits inlets now transfer.link then read
      else
        match (inbox.waiting transfer.link).take text.utf8ByteSize with
        | none => read
        | some held =>
          { read with
            waiting := Function.update inbox.waiting transfer.link held
            queue := inbox.queue ++ [⟨transfer, text⟩]
            whole := inbox.whole ++ [⟨transfer, text⟩] }

def next (now : Nat) : Inbox Ip :=
  match inbox.queue with
  | [] => inbox
  | received :: rest =>
    let left := { inbox with
      queue := rest
      waiting := Function.update inbox.waiting received.link
        ((inbox.waiting received.link).drop received.text.utf8ByteSize) }
    if switchAllowsClipboard inbox.clients (inlets received.link) &&
        inbox.permits inlets now received.link then
      { left with applied := inbox.applied ++ [received] }
    else left

def step : Act Ip → Inbox Ip
  | .change store clients => { inbox with store := store, clients := clients }
  | .arrive link now => inbox.arrive inlets link now
  | .finish index payload now => inbox.finish inlets index payload now
  | .next now => inbox.next inlets now

def run (acts : List (Act Ip)) : Inbox Ip := acts.foldl (step inlets) inbox

/-! ## What a text went through -/

/-- This very transfer arrives over its link and is taken. -/
def Arrives (transfer : Transfer) (taken : Inbox Ip × Act Ip) : Prop :=
  transfer.number = taken.1.arrived ∧ ∃ now, taken.2 = .arrive transfer.link now ∧
    taken.1.permits inlets now transfer.link = true

/-- The transfer of a text turns out whole, and is still taken. -/
def Finishes (received : PeerClipboard) (taken : Inbox Ip × Act Ip) : Prop :=
  ∃ index now, taken.2 = .finish index (some received.text) now ∧
    taken.1.reading[index]? = some received.toTransfer ∧
    taken.1.permits inlets now received.link = true

abbrev Went (events : List (Inbox Ip × Act Ip → Prop)) (past : List (Inbox Ip × Act Ip)) : Prop :=
  SinceLast (fun _ => False) events past

def sizes (queue : List PeerClipboard) (link : Nat) : List Nat :=
  (queue.filter (·.link = link)).map (·.text.utf8ByteSize)

/-- A link has places for just its texts that wait, and these are within its share. -/
def InShare (link : Nat) : Prop :=
  let waits := sizes inbox.queue link
  inbox.waiting link = ⟨waits.length, waits.sum⟩ ∧
    waits.length ≤ queuedPerLink ∧ waits.sum ≤ queuedBytesPerLink

structure Sound (past : List (Inbox Ip × Act Ip)) (inbox : Inbox Ip) : Prop where
  share : ∀ link, inbox.InShare link
  reading : ∀ transfer ∈ inbox.reading, Went [Arrives inlets transfer] past
  queued : ∀ received ∈ inbox.queue,
    Went [Arrives inlets received.toTransfer, Finishes inlets received] past
  order : ∃ settled, inbox.whole = settled ++ inbox.queue ∧ inbox.applied.Sublist settled

theorem sound_start (store : TrustStore) (clients : ClientManager Ip) :
    Sound inlets [] (start store clients) where
  share _ := ⟨rfl, Nat.zero_le _, Nat.zero_le _⟩
  reading := nofun
  queued := nofun
  order := ⟨[], rfl, .slnil⟩

variable {inlets} {inbox} {past : List (Inbox Ip × Act Ip)} (sound : Sound inlets past inbox)
include sound

theorem Sound.later (act : Act Ip) : Sound inlets (past ++ [(inbox, act)]) inbox :=
  { sound with
    reading := fun transfer within => (sound.reading transfer within).wait id
    queued := fun received within => (sound.queued received within).wait id }

theorem Sound.arrive (link now : Nat) :
    Sound inlets (past ++ [(inbox, .arrive link now)]) (inbox.arrive inlets link now) := by
  have later := sound.later (.arrive link now)
  unfold Inbox.arrive
  split
  · exact later
  · next taken =>
    simp only [Bool.or_eq_true, Bool.not_eq_true', not_or, Bool.not_eq_false] at taken
    refine { later with reading := fun other within => ?_ }
    rcases mem_append.mp within with old | new
    · exact later.reading other old
    · rw [mem_singleton.mp new]
      exact (SinceLast.nothing _ past).next id ⟨rfl, now, rfl, taken.1⟩

theorem Sound.finish (index : Nat) (payload : Option String) (now : Nat) :
    Sound inlets (past ++ [(inbox, .finish index payload now)])
      (inbox.finish inlets index payload now) := by
  have later := sound.later (.finish index payload now)
  unfold Inbox.finish
  split
  · exact later
  · next transfer found =>
    have read : Sound inlets (past ++ [(inbox, .finish index payload now)])
        { inbox with reading := inbox.reading.eraseIdx index } :=
      { later with
        reading := fun other within => later.reading other (mem_of_mem_eraseIdx within) }
    dsimp only
    split
    · exact read
    · next text whole =>
      split
      · exact read
      · next taken =>
        split
        · exact read
        · next held room =>
          rw [Waiting.take, (sound.share transfer.link).1] at room
          obtain ⟨fits, same⟩ := Option.ite_none_left_eq_some.mp room
          cases same
          simp only [not_or, Nat.not_lt] at fits
          simp only [Bool.not_eq_true', Bool.not_eq_false] at taken
          obtain ⟨settled, split, order⟩ := sound.order
          refine { read with
            share := fun other => ?_
            queued := fun received within => ?_
            order := ⟨settled, by simp [split], order⟩ }
          · by_cases same : other = transfer.link
            · subst same
              simpa [InShare, sizes] using fits
            · have apart : transfer.link ≠ other := fun back => same back.symm
              simpa [InShare, sizes, same, apart] using sound.share other
          · rcases mem_append.mp within with old | new
            · exact later.queued received old
            · obtain ⟨rfl, -⟩ := Option.filter_eq_some_iff.mp whole
              rw [mem_singleton.mp new]
              exact (sound.reading _ (mem_of_getElem? found)).next id ⟨index, now, rfl, found, taken⟩

theorem Sound.next (now : Nat) :
    Sound inlets (past ++ [(inbox, .next now)]) (inbox.next inlets now) := by
  have later := sound.later (.next now)
  unfold Inbox.next
  split
  · exact later
  · next received rest waits =>
    obtain ⟨settled, split, order⟩ := sound.order
    rw [waits] at split
    have left : ∀ applied : List PeerClipboard, applied.Sublist (settled ++ [received]) →
        Sound inlets (past ++ [(inbox, .next now)])
          { inbox with
            queue := rest
            waiting := Function.update inbox.waiting received.link
              ((inbox.waiting received.link).drop received.text.utf8ByteSize)
            applied := applied } := by
      intro applied order
      refine { later with
        share := fun link => ?_
        queued := fun other within => later.queued other (waits ▸ .tail _ within)
        order := ⟨settled ++ [received], by simp [split], order⟩ }
      have share := sound.share link
      rw [InShare, waits] at share
      by_cases same : link = received.link
      · subst same
        simp only [InShare, sizes, filter_cons, decide_true, if_true, map_cons, length_cons,
          sum_cons] at share ⊢
        rw [Function.update_self, share.1]
        exact ⟨by simp [Waiting.drop], by omega, by omega⟩
      · have apart : received.link ≠ link := fun back => same back.symm
        simpa [InShare, sizes, same, apart] using share
    dsimp only
    split
    · exact left _ (order.append (.refl _))
    · exact left _ (order.trans (sublist_append_left _ _))

theorem Sound.step (act : Act Ip) : Sound inlets (past ++ [(inbox, act)]) (inbox.step inlets act) := by
  cases act with
  | change store clients => exact { sound.later (.change store clients) with }
  | arrive link now => exact sound.arrive link now
  | finish index payload now => exact sound.finish index payload now
  | next now => exact sound.next now

omit sound in
theorem sound_run (store : TrustStore) (clients : ClientManager Ip) (acts : List (Act Ip)) :
    Sound inlets (trace (step inlets) (start store clients) acts)
      ((start store clients).run inlets acts) := by
  induction acts using List.reverseRecOn with
  | nil => exact sound_start inlets store clients
  | append_singleton acts act ih =>
    rw [trace_append, run, foldl_append]
    exact ih.step act

omit sound in
/--
In every run each link has no more than its share of the texts that wait, and has places for just
these.  Texts are applied in the order in which they came to be whole, each at most once, and only
while the device is on and the pairing takes them, after it took them on arrival and again when
they were whole.
-/
theorem applied_guarded (inlets : Nat → ClipboardInlet) (store : TrustStore)
    (clients : ClientManager Ip) (acts : List (Act Ip)) :
    let inbox := (start store clients).run inlets acts
    (∀ link, inbox.InShare link) ∧
    (∃ settled, inbox.whole = settled ++ inbox.queue ∧ inbox.applied.Sublist settled) ∧
    ∀ now, (inbox.next inlets now).applied = inbox.applied ∨ ∃ received,
      (inbox.next inlets now).applied = inbox.applied ++ [received] ∧
      switchAllowsClipboard inbox.clients (inlets received.link) = true ∧
      inbox.permits inlets now received.link = true ∧
      Went [Arrives inlets received.toTransfer, Finishes inlets received]
        (trace (step inlets) (start store clients) acts) := by
  intro inbox
  have sound : Sound inlets _ inbox := sound_run store clients acts
  refine ⟨sound.share, sound.order, fun now => ?_⟩
  unfold Inbox.next
  split
  · exact .inl rfl
  · next received rest waits =>
    dsimp only
    split
    · next allowed =>
      have allowed := Bool.and_eq_true_iff.mp allowed
      exact .inr ⟨received, rfl, allowed.1, allowed.2, sound.queued received (waits ▸ .head _)⟩
    · exact .inl rfl

end Inbox

end HopsFormal.Clipboard
