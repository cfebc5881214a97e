import HopsFormal.Frontend.Devices

/-!
# What is on the card of a machine

A step that adds to the cards touches the card of one machine, so what is on a card in
the end is what its own steps put there, in their order.
-/

namespace HopsFormal.Frontend.AppModel

open Lib

variable {Addr : Type} (model : AppModel Addr)

/-! ## The card of one machine, step by step -/

/-- What who may connect in makes of the card of a machine. -/
def authorizedAt (fp : String) (before : Option (Device Addr)) : Option (Device Addr) :=
  if model.isSelf fp then before
  else ((model.authorized.lookup fp).map (authorizedCard fp)).or before

def pairedAt (fp : String) (before : Option (Device Addr)) : Option (Device Addr) :=
  match model.trust.lookup fp with
  | none => before
  | some trust =>
    if model.isSelf fp || trust.pending then before
    else if trust.pairAgain then some (before.getD (pairAgainCard fp trust))
    else some { before.getD (pairedCard fp trust) with controls := trust.weMayDrive }

/-- A configured device, as the send side of the machine it is pinned to. -/
def sendAt (fp : String) (handle : Nat) : Option (DeviceSend Addr) :=
  (model.clients.lookup handle).bind fun client =>
    if model.pinned client.2 = some fp then some ⟨handle, client.1, client.2⟩ else none

/-- What a configured device makes of it. -/
def clientAt (isIp : String → Bool) (fp : String) (before : Option (Device Addr))
    (handle : Nat) : Option (Device Addr) :=
  match model.sendAt fp handle with
  | none => before
  | some send => some (attach isIp (before.getD (model.pinnedCard fp send.config)) send)

def requestAt (fp : String) (before : Option (Device Addr)) : Option (Device Addr) :=
  if model.pendingPairing = some fp ∧ model.authorized.lookup fp = none ∧
      model.isSelf fp = false then
    some (before.getD (requestCard fp))
  else before

/-- What is on the card of a machine, before the state of its connection is read. -/
def cardAt (isIp : String → Bool) (fp : String) : Option (Device Addr) :=
  model.requestAt fp (model.handles.foldl (model.clientAt isIp fp)
    (model.pairedAt fp (model.authorizedAt fp none)))

/-- A configured device that is on a card of its own. -/
def provisionalAt (handle : Nat) : Option (Device Addr) :=
  (model.clients.lookup handle).bind fun client =>
    if model.pinned client.2 = none then some (provisionalCard ⟨handle, client.1, client.2⟩)
    else none

/-! ## The steps, card by card -/

theorem lookup_addAuthorized (cards : Cards Addr) (fp : String) :
    (model.addAuthorized cards fp).lookup fp = model.authorizedAt fp (cards.lookup fp) := by
  unfold addAuthorized authorizedAt
  split
  · rfl
  · cases model.authorized.lookup fp with
    | none => rfl
    | some description => exact AList.lookup_insert cards

variable {fp : String}

theorem lookup_addAuthorized_ne (cards : Cards Addr) {other : String} (differs : other ≠ fp) :
    (model.addAuthorized cards fp).lookup other = cards.lookup other := by
  unfold addAuthorized
  split
  · rfl
  · split
    · exact AList.lookup_insert_ne differs
    · rfl

theorem lookup_addPairing (cards : Cards Addr) (fp : String) :
    (model.addPairing cards fp).lookup fp = model.pairedAt fp (cards.lookup fp) := by
  unfold addPairing pairedAt
  cases model.trust.lookup fp with
  | none => rfl
  | some trust =>
    dsimp only
    split
    · rfl
    · split
      · cases found : cards.lookup fp with
        | none => exact AList.lookup_insert cards
        | some device => exact found
      · exact AList.lookup_insert cards

theorem lookup_addPairing_ne (cards : Cards Addr) {other : String} (differs : other ≠ fp) :
    (model.addPairing cards fp).lookup other = cards.lookup other := by
  unfold addPairing
  split
  · rfl
  · split
    · rfl
    · split
      · split
        · rfl
        · exact AList.lookup_insert_ne differs
      · exact AList.lookup_insert_ne differs

variable (isIp : String → Bool)

theorem lookup_addClient (cards : Cards Addr × List (Device Addr)) (handle : Nat) (fp : String) :
    (model.addClient isIp cards handle).1.lookup fp =
      model.clientAt isIp fp (cards.1.lookup fp) handle := by
  unfold addClient clientAt sendAt
  cases model.clients.lookup handle with
  | none => rfl
  | some client =>
    obtain ⟨config, state⟩ := client
    rw [Option.bind_some]
    dsimp only
    cases pin : model.pinned state with
    | none => rfl
    | some machine =>
      by_cases same : machine = fp
      · subst same
        rw [if_pos rfl]
        exact AList.lookup_insert cards.1
      · rw [if_neg fun equal => same (Option.some.inj equal)]
        exact AList.lookup_insert_ne (Ne.symm same)

theorem addClient_snd (cards : Cards Addr × List (Device Addr)) (handle : Nat) :
    (model.addClient isIp cards handle).2 = cards.2 ++ (model.provisionalAt handle).toList := by
  unfold addClient provisionalAt
  cases model.clients.lookup handle with
  | none => exact (List.append_nil _).symm
  | some client =>
    obtain ⟨config, state⟩ := client
    rw [Option.bind_some]
    dsimp only
    cases model.pinned state with
    | none => rfl
    | some machine => exact (List.append_nil _).symm

theorem lookup_addRequest (cards : Cards Addr) (fp : String) :
    (model.addRequest cards).lookup fp = model.requestAt fp (cards.lookup fp) := by
  unfold addRequest requestAt
  cases model.pendingPairing with
  | none => rfl
  | some asking =>
    dsimp only
    by_cases same : asking = fp
    · subst same
      cases found : cards.lookup asking with
      | none =>
        cases model.authorized.lookup asking with
        | none =>
          cases model.isSelf asking with
          | true => simp [found]
          | false => simp
        | some description => simp [found]
      | some device => simp [found]
    · have notThis : ¬(some asking = some fp ∧ model.authorized.lookup fp = none ∧
          model.isSelf fp = false) := fun both => same (Option.some.inj both.1)
      rw [if_neg notThis]
      split
      · rfl
      · exact AList.lookup_insert_ne (Ne.symm same)

/-- Whatever the walks, a card ends up with what its own steps put on it. -/
theorem lookup_cards (walks : DeviceWalks) (fp : String) :
    (model.cards isIp walks).1.lookup fp = model.cardAt isIp fp := by
  have clients : ∀ (handles : List Nat) (cards : Cards Addr × List (Device Addr)),
      (handles.foldl (model.addClient isIp) cards).1.lookup fp =
        handles.foldl (model.clientAt isIp fp) (cards.1.lookup fp) := by
    intro handles
    induction handles with
    | nil => exact fun _ => rfl
    | cons handle handles ih =>
      intro cards
      rw [List.foldl_cons, List.foldl_cons, ih, lookup_addClient]
  have authorizedNodup : (walks.authorized.keys model.authorized.keys).Nodup :=
    (walks.authorized.perm _).nodup_iff.mpr model.authorized.keys_nodup
  have trustNodup : (walks.trust.keys model.trust.keys).Nodup :=
    (walks.trust.perm _).nodup_iff.mpr model.trust.keys_nodup
  rw [cards, lookup_addRequest, clients, cardAt,
    Table.lookup_foldl_own model.lookup_addPairing
      (fun cards _ _ differs => model.lookup_addPairing_ne cards differs) trustNodup ?_,
    Table.lookup_foldl_own model.lookup_addAuthorized
      (fun cards _ _ differs => model.lookup_addAuthorized_ne cards differs) authorizedNodup ?_,
    AList.lookup_empty]
  · intro absent before
    have nothing : model.authorized.lookup fp = none :=
      AList.lookup_eq_none.mpr fun member => absent (walks.authorized.mem_keys.mpr member)
    rw [authorizedAt, nothing]
    split <;> rfl
  · intro absent before
    have nothing : model.trust.lookup fp = none :=
      AList.lookup_eq_none.mpr fun member => absent (walks.trust.mem_keys.mpr member)
    rw [pairedAt, nothing]

theorem cards_snd (walks : DeviceWalks) :
    (model.cards isIp walks).2 = model.handles.filterMap model.provisionalAt := by
  have clients : ∀ (handles : List Nat) (cards : Cards Addr × List (Device Addr)),
      (handles.foldl (model.addClient isIp) cards).2 =
        cards.2 ++ handles.filterMap model.provisionalAt := by
    intro handles
    induction handles with
    | nil => exact fun _ => (List.append_nil _).symm
    | cons handle handles ih =>
      intro cards
      rw [List.foldl_cons, ih, addClient_snd, List.filterMap_cons, List.append_assoc]
      cases model.provisionalAt handle <;> rfl
  exact clients _ _

/-! ## What a card says -/

omit isIp

/-- A pairing lets this machine control that one. -/
def controlsOf (fp : String) : Bool :=
  (model.trust.lookup fp).any fun trust =>
    !trust.pending && !trust.pairAgain && trust.weMayDrive

/-- The device that is the send side of a machine: the first that is pinned to it. -/
def sentTo (fp : String) : Option (DeviceSend Addr) := model.handles.findSome? (model.sendAt fp)

/-- A card is that of one machine, and everything on it comes from that machine's entries. -/
structure Carries (sent : Option (DeviceSend Addr)) (fp : String) (device : Device Addr) : Prop where
  other : model.isSelf fp = false
  fingerprint : device.fingerprint = some fp
  send : device.send = sent
  receive : device.receive = (model.authorized.lookup fp).isSome
  controls : device.controls = model.controlsOf fp

/-- What holds of a machine's card while the cards are made. -/
def Stage (sent : Option (DeviceSend Addr)) (fp : String) : Option (Device Addr) → Prop
  | some device => model.Carries sent fp device
  | none => sent = none ∧ (model.isSelf fp = true ∨
      model.authorized.lookup fp = none ∧ model.controlsOf fp = false)

theorem pinned_eq_some {state : ClientState Addr} : model.pinned state = some fp ↔
      state.peerFingerprint = some fp ∧ model.isSelf fp = false := by
  rw [pinned, Option.filter_eq_some_iff, Bool.not_eq_true']

theorem sendAt_eq_some {handle : Nat} {send : DeviceSend Addr} :
    model.sendAt fp handle = some send ↔
      send.handle = handle ∧ model.clients.lookup handle = some (send.config, send.state) ∧
        model.pinned send.state = some fp := by
  rw [sendAt, Option.bind_eq_some_iff]
  constructor
  · rintro ⟨⟨config, state⟩, found, is⟩
    split at is
    · next pin =>
      obtain rfl := Option.some.inj is
      exact ⟨rfl, found, pin⟩
    · cases is
  · rintro ⟨rfl, found, pin⟩
    exact ⟨_, found, if_pos pin⟩

/-- Who may connect in, and the pairing on top of it. -/
theorem carries_getD {fresh : Device Addr} {controls : Bool} (other : model.isSelf fp = false)
    (fingerprint : fresh.fingerprint = some fp) (send : fresh.send = none)
    (receive : fresh.receive = false) (same : controls = model.controlsOf fp) :
    model.Carries none fp { ((model.authorized.lookup fp).map (authorizedCard fp)).getD fresh with
      controls := controls } := by
  cases list : model.authorized.lookup fp with
  | none => exact ⟨other, fingerprint, send, by rw [list]; exact receive, same⟩
  | some description => exact ⟨other, rfl, rfl, by rw [list]; rfl, same⟩

theorem stage_unpaired (other : model.isSelf fp = false) (controls : model.controlsOf fp = false) :
    model.Stage none fp ((model.authorized.lookup fp).map (authorizedCard fp)) := by
  cases list : model.authorized.lookup fp with
  | none => exact ⟨rfl, .inr ⟨list, controls⟩⟩
  | some description => exact ⟨other, rfl, rfl, by rw [list]; rfl, controls.symm⟩

theorem stage_paired (fp : String) :
    model.Stage none fp (model.pairedAt fp (model.authorizedAt fp none)) ∧
      ((model.pairedAt fp (model.authorizedAt fp none)).isSome = true ↔
        model.isSelf fp = false ∧ ((model.authorized.lookup fp).isSome = true ∨
          ∃ trust, model.trust.lookup fp = some trust ∧ trust.pending = false)) := by
  cases own : model.isSelf fp with
  | true =>
    have nothing : model.pairedAt fp (model.authorizedAt fp none) = none := by
      unfold pairedAt authorizedAt
      rw [own]
      cases model.trust.lookup fp <;> rfl
    rw [nothing]
    exact ⟨⟨rfl, .inl own⟩, by simp⟩
  | false =>
    have authorized : model.authorizedAt fp none =
        (model.authorized.lookup fp).map (authorizedCard fp) := by
      rw [authorizedAt, own, if_neg Bool.false_ne_true, Option.or_none]
    rw [authorized, pairedAt]
    cases row : model.trust.lookup fp with
    | none => exact ⟨model.stage_unpaired own (by rw [controlsOf, row]; rfl), by simp⟩
    | some trust =>
      have controls : model.controlsOf fp =
          (!trust.pending && !trust.pairAgain && trust.weMayDrive) := by
        rw [controlsOf, row]
        rfl
      dsimp only
      rw [own, Bool.false_or]
      cases pending : trust.pending with
      | true =>
        refine ⟨model.stage_unpaired own ?_, by simp [pending]⟩
        rw [controls, pending]
        rfl
      | false =>
        rw [if_neg Bool.false_ne_true]
        cases again : trust.pairAgain with
        | true =>
          have uncontrolled : false = model.controlsOf fp := by
            rw [controls, pending, again]
            rfl
          have carried : model.Carries none fp
              { ((model.authorized.lookup fp).map (authorizedCard fp)).getD
                  (pairAgainCard fp trust) with controls := false } :=
            model.carries_getD own rfl rfl rfl uncontrolled
          rw [if_pos rfl]
          refine ⟨?_, by simp [pending]⟩
          cases list : model.authorized.lookup fp with
          | none | some description =>
            rw [list] at carried
            exact carried
        | false =>
          rw [if_neg Bool.false_ne_true]
          refine ⟨model.carries_getD own rfl rfl rfl ?_, by simp [pending]⟩
          rw [controls, pending, again]
          rfl

variable {model} (isIp : String → Bool)

/-- A configured device is attached to the card of its machine, or finds another on it. -/
theorem stage_client {sent : Option (DeviceSend Addr)} {before : Option (Device Addr)}
    (stage : model.Stage sent fp before) (handle : Nat) :
    model.Stage (sent.or (model.sendAt fp handle)) fp (model.clientAt isIp fp before handle) ∧
      ((model.clientAt isIp fp before handle).isSome = true ↔
        before.isSome = true ∨ (model.sendAt fp handle).isSome = true) := by
  unfold clientAt
  cases is : model.sendAt fp handle with
  | none =>
    rw [Option.or_none]
    exact ⟨stage, by simp⟩
  | some send =>
    obtain ⟨-, -, pin⟩ := model.sendAt_eq_some.mp is
    have other := (model.pinned_eq_some.mp pin).2
    refine ⟨?_, by simp⟩
    cases before with
    | none =>
      obtain ⟨rfl, own | ⟨list, controls⟩⟩ := stage
      · rw [other] at own
        cases own
      · refine ⟨other, rfl, rfl, ?_, controls.symm⟩
        rw [list]
        rfl
    | some device =>
      change model.Carries _ fp (attach isIp device send)
      have carried : model.Carries sent fp device := stage
      rw [attach, carried.send]
      cases sent with
      | none => exact ⟨other, carried.fingerprint, rfl, carried.receive, carried.controls⟩
      | some first => exact carried

theorem stage_clients (handles : List Nat) {sent : Option (DeviceSend Addr)}
    {before : Option (Device Addr)} (stage : model.Stage sent fp before) :
    model.Stage (sent.or (handles.findSome? (model.sendAt fp))) fp
        (handles.foldl (model.clientAt isIp fp) before) ∧
      ((handles.foldl (model.clientAt isIp fp) before).isSome = true ↔
        before.isSome = true ∨ ∃ handle ∈ handles, (model.sendAt fp handle).isSome = true) := by
  induction handles generalizing sent before with
  | nil =>
    rw [List.findSome?_nil, Option.or_none]
    exact ⟨stage, by simp⟩
  | cons handle handles ih =>
    obtain ⟨next, some⟩ := stage_client isIp stage handle
    obtain ⟨last, rest⟩ := ih next
    rw [List.foldl_cons]
    refine ⟨?_, ?_⟩
    · have first : (sent.or (model.sendAt fp handle)).or (handles.findSome? (model.sendAt fp)) =
          sent.or ((handle :: handles).findSome? (model.sendAt fp)) := by
        rw [List.findSome?_cons, Option.or_assoc]
        cases model.sendAt fp handle <;> rfl
      rwa [first] at last
    · rw [rest, some, List.exists_mem_cons_iff, or_assoc]

/-- Which machines have a card: any but this one that is known in one of four ways. -/
def Listed (model : AppModel Addr) (fp : String) : Prop :=
  model.isSelf fp = false ∧ ((model.authorized.lookup fp).isSome = true ∨
    (∃ trust, model.trust.lookup fp = some trust ∧ trust.pending = false) ∨
    (∃ handle config state, model.clients.lookup handle = some (config, state) ∧
      state.peerFingerprint = some fp) ∨
    model.pendingPairing = some fp)

theorem mem_handles {handle : Nat} :
    handle ∈ model.handles ↔ ∃ client, model.clients.lookup handle = some client := by
  rw [handles, List.mem_insertionSort, AList.mem_keys.symm, ← AList.lookup_isSome,
    Option.isSome_iff_exists]

theorem cardAt_spec (fp : String) :
    (∀ device, model.cardAt isIp fp = some device → model.Carries (model.sentTo fp) fp device) ∧
      ((model.cardAt isIp fp).isSome = true ↔ model.Listed fp) := by
  obtain ⟨paired, pairedSome⟩ := model.stage_paired fp
  obtain ⟨stage, clientsSome⟩ := stage_clients isIp model.handles paired
  rw [Option.none_or] at stage
  have sends : (∃ handle ∈ model.handles, (model.sendAt fp handle).isSome = true) ↔
      model.isSelf fp = false ∧ ∃ handle config state,
        model.clients.lookup handle = some (config, state) ∧ state.peerFingerprint = some fp := by
    constructor
    · rintro ⟨handle, -, some⟩
      obtain ⟨send, is⟩ := Option.isSome_iff_exists.mp some
      obtain ⟨-, found, pin⟩ := model.sendAt_eq_some.mp is
      obtain ⟨pin, other⟩ := model.pinned_eq_some.mp pin
      exact ⟨other, handle, send.config, send.state, found, pin⟩
    · rintro ⟨other, handle, config, state, found, pin⟩
      refine ⟨handle, mem_handles.mpr ⟨_, found⟩, Option.isSome_iff_exists.mpr
        ⟨⟨handle, config, state⟩, model.sendAt_eq_some.mpr ⟨rfl, found, ?_⟩⟩⟩
      exact model.pinned_eq_some.mpr ⟨pin, other⟩
  have unrequested : ∀ before : Option (Device Addr), before.isSome = true →
      model.Stage (model.sentTo fp) fp before → model.requestAt fp before = before := by
    intro before some stage
    obtain ⟨device, rfl⟩ := Option.isSome_iff_exists.mp some
    rw [requestAt, Option.getD_some, ite_self]
  rw [cardAt, Listed]
  cases after : model.handles.foldl (model.clientAt isIp fp)
      (model.pairedAt fp (model.authorizedAt fp none)) with
  | some device =>
    rw [after] at stage clientsSome
    rw [unrequested (some device) rfl stage]
    refine ⟨fun other same => Option.some.inj same ▸ stage, iff_of_true rfl ?_⟩
    rcases clientsSome.mp rfl with isPaired | sent
    · obtain ⟨other, list | row⟩ := pairedSome.mp isPaired
      · exact ⟨other, .inl list⟩
      · exact ⟨other, .inr (.inl row)⟩
    · obtain ⟨other, device⟩ := sends.mp sent
      exact ⟨other, .inr (.inr (.inl device))⟩
  | none =>
    rw [after] at stage clientsSome
    obtain ⟨unsent, known⟩ := stage
    have absent := mt clientsSome.mpr Bool.false_ne_true
    have notPaired := mt pairedSome.mpr fun paired => absent (.inl paired)
    have notSent := mt sends.mpr fun sent => absent (.inr sent)
    rw [requestAt]
    split
    · next asks =>
      obtain ⟨pending, list, other⟩ := asks
      refine ⟨fun device is => ?_, iff_of_true rfl ⟨other, .inr (.inr (.inr pending))⟩⟩
      obtain rfl := Option.some.inj is
      rcases known with own | ⟨-, controls⟩
      · rw [other] at own
        cases own
      · exact ⟨other, rfl, unsent.symm, by rw [list]; rfl, controls.symm⟩
    · next quiet =>
      refine ⟨fun _ is => (nomatch is), iff_of_false Bool.false_ne_true ?_⟩
      rintro ⟨other, list | row | device | pending⟩
      · exact notPaired ⟨other, .inl list⟩
      · exact notPaired ⟨other, .inr row⟩
      · exact notSent ⟨other, device⟩
      · refine quiet ⟨pending, ?_, other⟩
        exact Option.not_isSome_iff_eq_none.mp fun list => notPaired ⟨other, .inl list⟩

end HopsFormal.Frontend.AppModel
