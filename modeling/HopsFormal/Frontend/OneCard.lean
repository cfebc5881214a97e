import HopsFormal.Frontend.Joined
import Mathlib.Data.List.Nodup

/-!
# One card per machine

The cards are collected in a hash map and sorted.  No two cards are equal in the order
of the list, so the list is the same whatever order the map is walked in.
-/

namespace HopsFormal.Frontend.AppModel

open List Lib
open Trust (Lowercase)

variable {Addr : Type} {model : AppModel Addr} {isIp : String → Bool}

/-! ## Which cards there are -/

/-- A card before the state of its connection is read. -/
def IsCard (model : AppModel Addr) (isIp : String → Bool) (device : Device Addr) : Prop :=
  (∃ fp, model.cardAt isIp fp = some device) ∨ ∃ handle, model.provisionalAt handle = some device

theorem provisionalAt_eq_some {handle : Nat} {device : Device Addr} :
    model.provisionalAt handle = some device ↔
      ∃ send, send.handle = handle ∧
        model.clients.lookup handle = some (send.config, send.state) ∧
        model.pinned send.state = none ∧ device = provisionalCard send := by
  rw [provisionalAt, Option.bind_eq_some_iff]
  constructor
  · rintro ⟨⟨config, state⟩, found, is⟩
    split at is
    · next unpinned => exact ⟨_, rfl, found, unpinned, (Option.some.inj is).symm⟩
    · cases is
  · rintro ⟨send, rfl, found, unpinned, rfl⟩
    exact ⟨_, found, if_pos unpinned⟩

theorem IsCard.send_spec {device : Device Addr} (card : model.IsCard isIp device)
    {send : DeviceSend Addr} (sends : device.send = some send) :
    model.clients.lookup send.handle = some (send.config, send.state) ∧
      model.pinned send.state = device.fingerprint := by
  rcases card with ⟨fp, is⟩ | ⟨handle, is⟩
  · have carried := (cardAt_spec isIp fp).1 device is
    rw [carried.send, sentTo] at sends
    obtain ⟨handle, -, found⟩ := exists_of_findSome?_eq_some sends
    obtain ⟨rfl, row, pin⟩ := model.sendAt_eq_some.mp found
    exact ⟨row, pin.trans carried.fingerprint.symm⟩
  · obtain ⟨own, rfl, row, unpinned, rfl⟩ := provisionalAt_eq_some.mp is
    obtain rfl := Option.some.inj sends
    exact ⟨row, unpinned⟩

theorem IsCard.of_unnamed {device : Device Addr} (card : model.IsCard isIp device)
    (unnamed : device.fingerprint = none) : ∃ send, device = provisionalCard send := by
  rcases card with ⟨fp, is⟩ | ⟨handle, is⟩
  · rw [((cardAt_spec isIp fp).1 device is).fingerprint] at unnamed
    cases unnamed
  · obtain ⟨send, -, -, -, rfl⟩ := provisionalAt_eq_some.mp is
    exact ⟨send, rfl⟩

theorem IsCard.cardAt {device : Device Addr} (card : model.IsCard isIp device) {fp : String}
    (named : device.fingerprint = some fp) : model.cardAt isIp fp = some device := by
  rcases card with ⟨other, is⟩ | ⟨handle, is⟩
  · rw [((cardAt_spec isIp other).1 device is).fingerprint] at named
    obtain rfl := Option.some.inj named
    exact is
  · obtain ⟨send, -, -, -, rfl⟩ := provisionalAt_eq_some.mp is
    cases named

/-- Two cards of one machine are one. -/
theorem IsCard.eq_of_fingerprint {one other : Device Addr} (card : model.IsCard isIp one)
    (also : model.IsCard isIp other) {fp : String} (named : one.fingerprint = some fp)
    (alike : other.fingerprint = some fp) : one = other :=
  Option.some.inj ((card.cardAt named).symm.trans (also.cardAt alike))

/-- Two cards with one device are one. -/
theorem IsCard.eq_of_handle {one other : Device Addr} (card : model.IsCard isIp one)
    (also : model.IsCard isIp other) {send sent : DeviceSend Addr} (sends : one.send = some send)
    (too : other.send = some sent) (same : send.handle = sent.handle) : one = other := by
  obtain ⟨row, pin⟩ := card.send_spec sends
  obtain ⟨rowToo, pinToo⟩ := also.send_spec too
  have equal : send = sent := by
    obtain ⟨handle, config, state⟩ := send
    obtain ⟨_, _, _⟩ := sent
    obtain rfl : handle = _ := same
    cases rowToo.symm.trans row
    rfl
  subst equal
  cases named : one.fingerprint with
  | some fp => exact card.eq_of_fingerprint also named (pinToo.symm.trans (pin.trans named))
  | none =>
    obtain ⟨_, rfl⟩ := card.of_unnamed named
    obtain ⟨_, rfl⟩ := also.of_unnamed (pinToo.symm.trans (pin.trans named))
    rw [Option.some.inj sends, Option.some.inj too]

/-! ## The order of the list -/

theorem fingerprintLe_total (one other : Option String) :
    fingerprintLe one other ∨ fingerprintLe other one := by
  cases one with
  | none => exact .inl trivial
  | some first =>
    cases other with
    | none => exact .inr trivial
    | some second => exact le_total first second

theorem fingerprintLe_trans {one two three : Option String} (first : fingerprintLe one two)
    (second : fingerprintLe two three) : fingerprintLe one three := by
  cases one with
  | none => trivial
  | some x =>
    cases two with
    | none => cases first
    | some y =>
      cases three with
      | none => cases second
      | some z => exact le_trans (show x ≤ y from first) second

theorem fingerprintLe_antisymm {one other : Option String} (first : fingerprintLe one other)
    (second : fingerprintLe other one) : one = other := by
  cases one with
  | none =>
    cases other with
    | none => rfl
    | some y => cases second
  | some x =>
    cases other with
    | none => cases first
    | some y => exact congrArg some (le_antisymm (show x ≤ y from first) second)

section Order

variable [Lowercase]

theorem cardLe_total (one other : Device Addr) : cardLe one other ∨ cardLe other one := by
  unfold cardLe sendLe
  cases one.send with
  | some send =>
    cases other.send with
    | some sent => exact Nat.le_total _ _
    | none => exact .inl trivial
  | none =>
    cases other.send with
    | some sent => exact .inr trivial
    | none =>
      rcases lt_trichotomy (Lowercase.toLowercase one.label)
        (Lowercase.toLowercase other.label) with less | same | more
      · exact .inl (.inl less)
      · rcases fingerprintLe_total one.fingerprint other.fingerprint with first | second
        · exact .inl (.inr ⟨same, first⟩)
        · exact .inr (.inr ⟨same.symm, second⟩)
      · exact .inr (.inl more)

theorem cardLe_trans {one two three : Device Addr} (first : cardLe one two)
    (second : cardLe two three) : cardLe one three := by
  unfold cardLe sendLe at *
  cases sendOne : one.send with
  | some x =>
    cases sendThree : three.send with
    | none => trivial
    | some z =>
      rw [sendOne] at first
      rw [sendThree] at second
      cases sendTwo : two.send with
      | none =>
        rw [sendTwo] at second
        cases second
      | some y =>
        rw [sendTwo] at first second
        exact Nat.le_trans first second
  | none =>
    rw [sendOne] at first
    cases sendTwo : two.send with
    | some y =>
      rw [sendTwo] at first
      cases first
    | none =>
      rw [sendTwo] at first second
      cases sendThree : three.send with
      | some z =>
        rw [sendThree] at second
        cases second
      | none =>
        rw [sendThree] at second
        rcases first with less | ⟨same, le⟩
        · rcases second with more | ⟨equal, -⟩
          · exact .inl (lt_trans less more)
          · exact .inl (equal ▸ less)
        · rcases second with more | ⟨equal, also⟩
          · exact .inl (same ▸ more)
          · exact .inr ⟨same.trans equal, fingerprintLe_trans le also⟩

/-- No two cards stand at one place. -/
theorem IsCard.eq_of_cardLe {one other : Device Addr} (card : model.IsCard isIp one)
    (also : model.IsCard isIp other) (first : cardLe one other) (second : cardLe other one) :
    one = other := by
  unfold cardLe sendLe at first second
  cases sends : one.send with
  | some send =>
    cases too : other.send with
    | some sent =>
      rw [sends, too] at first second
      exact card.eq_of_handle also sends too (Nat.le_antisymm first second)
    | none =>
      rw [sends, too] at second
      cases second
  | none =>
    cases too : other.send with
    | some sent =>
      rw [sends, too] at first
      cases first
    | none =>
      rw [sends, too] at first second
      have same : one.fingerprint = other.fingerprint := by
        rcases first with less | ⟨equal, le⟩
        · rcases second with more | ⟨equal, -⟩
          · exact absurd more (lt_asymm less)
          · exact absurd equal.symm (ne_of_lt less)
        · rcases second with more | ⟨-, also⟩
          · exact absurd equal.symm (ne_of_lt more)
          · exact fingerprintLe_antisymm le also
      cases named : one.fingerprint with
      | some fp => exact card.eq_of_fingerprint also named (same.symm.trans named)
      | none =>
        obtain ⟨_, rfl⟩ := card.of_unnamed named
        cases sends

/-! ## The list -/

/-- A card with the state of its connection. -/
def known (model : AppModel Addr) (device : Device Addr) : Device Addr :=
  { device with connection := Connection.of (model.facts device) }

/-- The cards as they are collected, before they are sorted. -/
def joined (model : AppModel Addr) (isIp : String → Bool) (walks : DeviceWalks) :
    List (Device Addr) :=
  (walks.byFp.keys (model.cards isIp walks).1.keys).filterMap
    (model.cards isIp walks).1.lookup ++ (model.cards isIp walks).2

variable (walks : DeviceWalks)

theorem devices_eq : model.devices isIp walks =
      ((model.joined isIp walks).map model.known).insertionSort cardLe := rfl

omit [Lowercase]

theorem mem_keys_iff (fp : String) :
    fp ∈ (model.cards isIp walks).1.keys ↔ (model.cardAt isIp fp).isSome = true := by
  rw [← AList.mem_keys, ← AList.lookup_isSome, lookup_cards]

theorem mem_joined {device : Device Addr} :
    device ∈ model.joined isIp walks ↔ model.IsCard isIp device := by
  rw [joined, mem_append, mem_filterMap, cards_snd, mem_filterMap]
  refine or_congr ⟨fun ⟨fp, _, is⟩ => ⟨fp, ?_⟩, fun ⟨fp, is⟩ => ⟨fp, ?_, ?_⟩⟩
    ⟨fun ⟨handle, _, is⟩ => ⟨handle, is⟩, fun ⟨handle, is⟩ => ⟨handle, ?_, is⟩⟩
  · rwa [← lookup_cards]
  · rw [Walk.mem_keys, mem_keys_iff, is]
    rfl
  · rwa [lookup_cards]
  · obtain ⟨send, -, row, -⟩ := provisionalAt_eq_some.mp is
    exact mem_handles.mpr ⟨_, row⟩

theorem handles_nodup : model.handles.Nodup :=
  (perm_insertionSort _ _).nodup_iff.mpr model.clients.keys_nodup

theorem walked_nodup : (walks.byFp.keys (model.cards isIp walks).1.keys).Nodup :=
  (walks.byFp.perm _).nodup_iff.mpr (model.cards isIp walks).1.keys_nodup

theorem joined_nodup : (model.joined isIp walks).Nodup := by
  refine Nodup.append ?_ ?_ ?_
  · refine Nodup.filterMap (fun fp other device is also => ?_) (walked_nodup walks)
    rw [Option.mem_def, lookup_cards] at is also
    have named := ((cardAt_spec isIp fp).1 device is).fingerprint
    rw [((cardAt_spec isIp other).1 device also).fingerprint] at named
    exact (Option.some.inj named).symm
  · rw [cards_snd]
    refine Nodup.filterMap (fun handle other device is also => ?_) handles_nodup
    obtain ⟨send, rfl, -, -, rfl⟩ := provisionalAt_eq_some.mp is
    obtain ⟨sent, rfl, -, -, same⟩ := provisionalAt_eq_some.mp also
    exact congrArg DeviceSend.handle (Option.some.inj (congrArg Device.send same))
  · intro device inCards alone
    obtain ⟨fp, -, is⟩ := mem_filterMap.mp inCards
    rw [lookup_cards] at is
    rw [cards_snd] at alone
    obtain ⟨handle, -, own⟩ := mem_filterMap.mp alone
    obtain ⟨send, -, -, -, rfl⟩ := provisionalAt_eq_some.mp own
    cases ((cardAt_spec isIp fp).1 _ is).fingerprint

theorem joined_perm (others : DeviceWalks) :
    (model.joined isIp walks).Perm (model.joined isIp others) := by
  refine (perm_ext_iff_of_nodup (joined_nodup walks) (joined_nodup others)).mpr fun _ => ?_
  rw [mem_joined, mem_joined]

theorem known_injOn {one other : Device Addr} (card : model.IsCard isIp one)
    (also : model.IsCard isIp other) (same : model.known one = model.known other) :
    one = other := by
  have named : one.fingerprint = other.fingerprint := (congrArg Device.fingerprint same :)
  cases name : one.fingerprint with
  | some fp => exact card.eq_of_fingerprint also name (named.symm.trans name)
  | none =>
    obtain ⟨_, rfl⟩ := card.of_unnamed name
    obtain ⟨_, rfl⟩ := also.of_unnamed (named.symm.trans name)
    exact congrArg provisionalCard (Option.some.inj (congrArg Device.send same))

variable [Lowercase]

theorem mem_devices {device : Device Addr} : device ∈ model.devices isIp walks ↔
      ∃ card, model.IsCard isIp card ∧ model.known card = device := by
  rw [devices_eq, mem_insertionSort, mem_map]
  simp only [mem_joined]

theorem devices_nodup : (model.devices isIp walks).Nodup := by
  rw [devices_eq, (perm_insertionSort _ _).nodup_iff]
  refine Nodup.map_on (fun one inside other too same => ?_) (joined_nodup walks)
  exact known_injOn ((mem_joined walks).mp inside) ((mem_joined walks).mp too) same

theorem devices_walks (others : DeviceWalks) :
    model.devices isIp walks = model.devices isIp others := by
  have total : Std.Total (@cardLe Addr _) := ⟨cardLe_total⟩
  have trans : IsTrans (Device Addr) cardLe := ⟨fun _ _ _ => cardLe_trans⟩
  have perm : (model.devices isIp walks).Perm (model.devices isIp others) := by
    rw [devices_eq, devices_eq]
    exact (perm_insertionSort _ _).trans
      (((joined_perm walks others).map _).trans (perm_insertionSort _ _).symm)
  refine perm.eq_of_pairwise
    (fun one other inside too (first : cardLe one other) (second : cardLe other one) => ?_)
    (pairwise_insertionSort _ _) (pairwise_insertionSort _ _)
  obtain ⟨card, isCard, rfl⟩ := (mem_devices walks).mp inside
  obtain ⟨sort, isToo, rfl⟩ := (mem_devices others).mp too
  exact congrArg _ (isCard.eq_of_cardLe isToo first second)

omit [Lowercase]

/-- The device on a machine's card is the first of those pinned to it. -/
theorem sentTo_le {fp : String} {send : DeviceSend Addr} (sent : model.sentTo fp = some send)
    {handle : Nat} {other : DeviceSend Addr} (also : model.sendAt fp handle = some other) :
    send.handle ≤ handle := by
  obtain ⟨before, first, after, whole, is, others⟩ := findSome?_eq_some_iff.mp sent
  obtain ⟨rfl, -, -⟩ := model.sendAt_eq_some.mp is
  have sorted : model.handles.Pairwise (· ≤ ·) := pairwise_insertionSort _ _
  obtain ⟨-, row, -⟩ := model.sendAt_eq_some.mp also
  have member : handle ∈ before ++ send.handle :: after := whole ▸ mem_handles.mpr ⟨_, row⟩
  rw [whole, pairwise_append, pairwise_cons] at sorted
  rcases mem_append.mp member with early | late
  · rw [others handle early] at also
    cases also
  · rcases mem_cons.mp late with rfl | later
    · exact Nat.le_refl _
    · exact sorted.2.1.1 handle later

theorem sendAt_pinned {fp : String} {handle : Nat} {config : ClientConfig}
    {state : ClientState Addr} (row : model.clients.lookup handle = some (config, state))
    (pin : model.pinned state = some fp) :
    model.sendAt fp handle = some ⟨handle, config, state⟩ :=
  model.sendAt_eq_some.mpr ⟨rfl, row, pin⟩

theorem exists_isCard_send {handle : Nat} {config : ClientConfig} {state : ClientState Addr}
    (row : model.clients.lookup handle = some (config, state)) :
    (∃ card, model.IsCard isIp card ∧ card.send = some ⟨handle, config, state⟩) ↔
      ¬∃ earlier client fp, earlier < handle ∧ model.clients.lookup earlier = some client ∧
        model.pinned client.2 = some fp ∧ model.pinned state = some fp := by
  constructor
  · rintro ⟨card, isCard, sends⟩ ⟨earlier, ⟨early, its⟩, fp, before, found, pin, same⟩
    have named : card.fingerprint = some fp := (isCard.send_spec sends).2.symm.trans same
    have carried := (cardAt_spec isIp fp).1 card (isCard.cardAt named)
    have le := sentTo_le (carried.send.symm.trans sends) (sendAt_pinned found pin)
    exact Nat.not_le.mpr before le
  · intro first
    cases pin : model.pinned state with
    | none =>
      refine ⟨provisionalCard ⟨handle, config, state⟩, .inr ⟨handle, ?_⟩, rfl⟩
      exact provisionalAt_eq_some.mpr ⟨⟨handle, config, state⟩, rfl, row, pin, rfl⟩
    | some fp =>
      have is := sendAt_pinned row pin
      obtain ⟨same, other⟩ := model.pinned_eq_some.mp pin
      have listed : model.Listed fp := ⟨other, .inr (.inr (.inl ⟨handle, config, state, row, same⟩))⟩
      obtain ⟨card, atFp⟩ := Option.isSome_iff_exists.mp ((cardAt_spec isIp fp).2.mpr listed)
      have carried := (cardAt_spec isIp fp).1 card atFp
      obtain ⟨send, sent⟩ : ∃ send, model.sentTo fp = some send := by
        refine Option.isSome_iff_exists.mp (findSome?_isSome_iff.mpr ?_)
        exact ⟨handle, mem_handles.mpr ⟨_, row⟩, by rw [is]; rfl⟩
      obtain ⟨found, -, isSend⟩ := exists_of_findSome?_eq_some sent
      obtain ⟨rfl, sendRow, sendPin⟩ := model.sendAt_eq_some.mp isSend
      have notBefore : ¬send.handle < handle := fun before =>
        first ⟨send.handle, _, fp, before, sendRow, sendPin, pin⟩
      have same : send.handle = handle := by
        have le := sentTo_le sent is
        omega
      rw [same] at isSend
      obtain rfl := Option.some.inj (isSend.symm.trans is)
      exact ⟨card, .inl ⟨fp, atFp⟩, carried.send.trans sent⟩

end Order

end HopsFormal.Frontend.AppModel
