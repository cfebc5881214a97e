import HopsFormal.Canvas.Boxes
import HopsFormal.Edges.OnePerEdge

/-!
# A drop and the daemon's answer

The daemon moves a device as it is asked to, trading edges where another one that is switched on
uses the edge, and tells of each device it changes.  Once what it told is folded in, the boxes are
those that were drawn at once for the drop.
-/

namespace HopsFormal.Canvas

open Capture (Position)
open Option Edges
open Lib ClientManager Service

variable {Ip : Type}

/-- What the daemon tells of a device, and the notices that change none. -/
inductive FrontendEvent (Ip : Type) where
  | state (handle : Nat) (device : Device Ip)
  | noSuchClient (handle : Nat)
  | activity (text : String)
  | error (text : String)

/-- Fold an event into what a frontend knows. -/
def apply (model : Model Ip) : FrontendEvent Ip → Model Ip
  | .state handle device => model.insert handle device
  | .noSuchClient _ => model
  | .activity _ => model
  | .error _ => model

def edgeName : Position → String
  | .left => "left"
  | .right => "right"
  | .top => "top"
  | .bottom => "bottom"

/-- The service, and what it told the frontends. -/
structure Daemon (Ip : Type) where
  service : Service Ip
  told : List (FrontendEvent Ip)

namespace Daemon

def notifyFrontend (daemon : Daemon Ip) (event : FrontendEvent Ip) : Daemon Ip :=
  { daemon with told := daemon.told ++ [event] }

def withClients (daemon : Daemon Ip) (clients : ClientManager Ip) : Daemon Ip :=
  { daemon with service := { daemon.service with clients := clients } }

def name (daemon : Daemon Ip) (handle : Nat) : String :=
  ((daemon.service.clients.device handle).bind (·.hostname)).getD ("device " ++ toString handle)

def broadcastClient (daemon : Daemon Ip) (handle : Nat) : Daemon Ip :=
  match daemon.service.clients.device handle with
  | some device => daemon.notifyFrontend (.state handle device)
  | none => daemon.notifyFrontend (.noSuchClient handle)

def deactivateClient (daemon : Daemon Ip) (handle : Nat) : Daemon Ip :=
  let next := { daemon with service := daemon.service.deactivateClient handle }
  if (daemon.service.clients.deactivateClient handle).1 then next.broadcastClient handle else next

/-- Switch off another device that uses an edge, and say so. -/
def freeEdge (daemon : Daemon Ip) (handle : Nat) (pos : Position) : Daemon Ip :=
  match daemon.service.clients.clientAt pos with
  | some other =>
    if other ≠ handle then
      (daemon.deactivateClient other).notifyFrontend
        (.error ("Switched off \"" ++ daemon.name other ++ "\" — it was using the " ++
          edgeName pos ++ " edge, and two devices cannot share one edge."))
    else daemon
  | none => daemon

def switchOn (daemon : Daemon Ip) (handle : Nat) : Daemon Ip :=
  let (switched, clients) := daemon.service.clients.activateClient handle
  if switched then (daemon.withClients clients).broadcastClient handle
  else daemon.withClients clients

def activateClient (daemon : Daemon Ip) (handle : Nat) : Daemon Ip :=
  match daemon.service.clients.getPos handle with
  | none => daemon
  | some pos => (daemon.freeEdge handle pos).switchOn handle

/-- Move the device that was at an edge to the one its new user left. -/
def trade (daemon : Daemon Ip) (handle other : Nat) (vacated pos : Position) : Daemon Ip :=
  let traded :=
    match daemon.service.clients.setPos other vacated with
    | (true, clients) =>
      let moved := ((daemon.withClients (clients.setGeometry other none)).deactivateClient
        other).activateClient other
      moved.notifyFrontend
        (.activity ("Moved \"" ++ moved.name other ++ "\" to the " ++ edgeName vacated ++
          " edge — \"" ++ moved.name handle ++ "\" now uses the " ++ edgeName pos ++
          " edge, and two devices cannot share one edge."))
    | (false, clients) => daemon.withClients clients
  traded.broadcastClient other

def updatePos (daemon : Daemon Ip) (handle : Nat) (pos : Position) : Daemon Ip :=
  let old := daemon.service.clients.getPos handle
  let holder := (daemon.service.clients.clientAt pos).filter (· ≠ handle)
  let cleared := { daemon with service := daemon.service.clearSpot handle pos }
  let placed :=
    match cleared.service.clients.setPos handle pos with
    | (false, clients) => cleared.withClients clients
    | (true, clients) =>
      let moved := (cleared.withClients clients).deactivateClient handle
      let traded :=
        match holder, old with
        | some other, some vacated => moved.trade handle other vacated pos
        | _, _ => moved
      traded.activateClient handle
  placed.broadcastClient handle

def updateGeometry (daemon : Daemon Ip) (handle : Nat) (geometry : Option Geometry) : Daemon Ip :=
  (daemon.withClients (daemon.service.clients.setGeometry handle geometry)).broadcastClient handle

def handle (daemon : Daemon Ip) : FrontendRequest → Daemon Ip
  | .updatePosition handle edge => daemon.updatePos handle edge
  | .updateGeometry handle geometry => daemon.updateGeometry handle geometry

/-! ## The service underneath -/

variable (daemon : Daemon Ip)

@[simp] theorem service_notifyFrontend (event : FrontendEvent Ip) :
    (daemon.notifyFrontend event).service = daemon.service := rfl

@[simp] theorem service_withClients (clients : ClientManager Ip) :
    (daemon.withClients clients).service = { daemon.service with clients := clients } := rfl

@[simp] theorem service_broadcastClient (handle : Nat) :
    (daemon.broadcastClient handle).service = daemon.service := by
  unfold broadcastClient
  split <;> rfl

@[simp] theorem service_deactivateClient (handle : Nat) :
    (daemon.deactivateClient handle).service = daemon.service.deactivateClient handle := by
  unfold deactivateClient
  split
  · exact service_broadcastClient _ handle
  · rfl

theorem service_switchOn (handle : Nat) : (daemon.switchOn handle).service =
      { daemon.service with clients := (daemon.service.clients.activateClient handle).2 } := by
  unfold switchOn
  split
  next switched clients outcome =>
    rw [outcome]
    split
    · exact service_broadcastClient _ handle
    · rfl

@[simp] theorem service_activateClient (handle : Nat) :
    (daemon.activateClient handle).service = daemon.service.activateClient handle := by
  unfold activateClient Service.activateClient freeEdge
  cases daemon.service.clients.getPos handle with
  | none => rfl
  | some pos =>
    dsimp only
    rw [service_switchOn]
    cases daemon.service.clients.clientAt pos with
    | none => rfl
    | some other =>
      by_cases own : other = handle
      · simp [own]
      · simp [own, switchOff]

@[simp] theorem service_trade (handle other : Nat) (vacated pos : Position) :
    (daemon.trade handle other vacated pos).service = daemon.service.trade other vacated := by
  unfold trade Service.trade
  rw [service_broadcastClient]
  generalize daemon.service.clients.setPos other vacated = outcome
  obtain ⟨moved, clients⟩ := outcome
  cases moved <;> simp

theorem service_updatePos (handle : Nat) (pos : Position) :
    (daemon.updatePos handle pos).service = daemon.service.updatePos handle pos := by
  unfold updatePos Service.updatePos
  dsimp only
  rw [service_broadcastClient]
  generalize (daemon.service.clearSpot handle pos).clients.setPos handle pos = outcome
  obtain ⟨moved, clients⟩ := outcome
  cases moved with
  | false => rfl
  | true =>
    cases (daemon.service.clients.clientAt pos).filter (· ≠ handle) with
    | none => simp
    | some other => cases daemon.service.clients.getPos handle <;> simp

/-! ## What is told -/

/--
What the frontend knew, with everything told folded in, is what there is, but for devices that
are still to be told of.
-/
def Shown (start : Model Ip) (daemon : Daemon Ip) (untold : Set Nat) : Prop :=
  ∀ handle, (daemon.told.foldl apply start).lookup handle = daemon.service.clients.device handle ∨
    handle ∈ untold ∧ (daemon.service.clients.device handle).isSome = true

namespace Shown

variable {start : Model Ip} {daemon : Daemon Ip} {untold : Set Nat}

theorem mono (shown : Shown start daemon untold) {more : Set Nat} (fewer : untold ⊆ more) :
    Shown start daemon more :=
  fun handle => (shown handle).imp_right fun ⟨there, known⟩ => ⟨fewer there, known⟩

theorem notice (shown : Shown start daemon untold) {event : FrontendEvent Ip}
    (idle : ∀ model, apply model event = model) :
    Shown start (daemon.notifyFrontend event) untold := by
  intro handle
  have same : (daemon.notifyFrontend event).told.foldl apply start =
      daemon.told.foldl apply start := by
    rw [notifyFrontend, List.foldl_append, List.foldl_cons, List.foldl_nil, idle]
  rw [same]
  exact shown handle

/-- A device that is told of is not untold any more. -/
theorem broadcastClient {handle : Nat} (shown : Shown start daemon (insert handle untold)) :
    Shown start (daemon.broadcastClient handle) untold := by
  intro each
  rw [service_broadcastClient]
  unfold Daemon.broadcastClient
  cases known : daemon.service.clients.device handle with
  | none =>
    rw [show (daemon.notifyFrontend (.noSuchClient handle)).told.foldl apply start =
      daemon.told.foldl apply start by simp [notifyFrontend, apply]]
    rcases shown each with same | ⟨rfl | there, present⟩
    · exact .inl same
    · rw [known] at present
      cases present
    · exact .inr ⟨there, present⟩
  | some device =>
    rw [show (daemon.notifyFrontend (.state handle device)).told.foldl apply start =
      (daemon.told.foldl apply start).insert handle device by simp [notifyFrontend, apply]]
    by_cases own : each = handle
    · subst own
      rw [AList.lookup_insert, known]
      exact .inl rfl
    · rw [AList.lookup_insert_ne own]
      rcases shown each with same | ⟨rfl | there, present⟩
      · exact .inl same
      · exact absurd rfl own
      · exact .inr ⟨there, present⟩

section

variable (shown : Shown start daemon untold)
include shown

theorem change {handle : Nat} (there : handle ∈ untold) {service : Service Ip}
    {change : Device Ip → Device Ip} (made : ∀ other, service.clients.device other =
      if other = handle then (daemon.service.clients.device other).map change
      else daemon.service.clients.device other) :
    Shown start { daemon with service := service } untold := by
  intro each
  rw [made]
  split
  · next own =>
    subst own
    cases known : daemon.service.clients.device each with
    | none =>
      rw [map_none]
      rcases shown each with same | ⟨-, present⟩
      · exact .inl (same.trans known)
      · rw [known] at present
        cases present
    | some device => exact .inr ⟨there, rfl⟩
  · exact shown each

theorem deactivateClient (handle : Nat) : Shown start (daemon.deactivateClient handle) untold := by
  unfold Daemon.deactivateClient
  split
  · have wider := shown.mono (Set.subset_insert handle untold)
    exact (wider.change (Set.mem_insert _ _)
      (device_deactivateClient daemon.service handle)).broadcastClient
  · next off =>
    have same : daemon.service.deactivateClient handle = daemon.service := by
      unfold Service.deactivateClient ClientManager.deactivateClient
      unfold ClientManager.deactivateClient at off
      split at off
      · exact absurd rfl off
      · next idle => rw [if_neg idle]
    rw [same]
    exact shown

theorem freeEdge (handle : Nat) (pos : Position) :
    Shown start (daemon.freeEdge handle pos) untold := by
  unfold Daemon.freeEdge
  split
  · split
    · exact (shown.deactivateClient _).notice fun _ => rfl
    · exact shown
  · exact shown

theorem switchOn (handle : Nat) : Shown start (daemon.switchOn handle) untold := by
  have seats := device_activateClient daemon.service.clients handle
  have idle : (daemon.service.clients.activateClient handle).1 = false →
      (daemon.service.clients.activateClient handle).2 = daemon.service.clients := by
    unfold ClientManager.activateClient
    split
    · exact fun on => absurd on (by simp)
    · exact fun _ => rfl
  unfold Daemon.switchOn
  generalize daemon.service.clients.activateClient handle = outcome at seats idle
  obtain ⟨switched, clients⟩ := outcome
  cases switched with
  | true =>
    have wider := shown.mono (Set.subset_insert handle untold)
    exact (wider.change (Set.mem_insert _ _) seats).broadcastClient
  | false =>
    dsimp only at idle ⊢
    rw [idle rfl]
    exact shown

theorem activateClient (handle : Nat) : Shown start (daemon.activateClient handle) untold := by
  unfold Daemon.activateClient
  split
  · exact shown
  · exact (shown.freeEdge handle _).switchOn handle

theorem trade {handle : Nat} (other : Nat) (vacated pos : Position) :
    Shown start (daemon.trade handle other vacated pos) untold := by
  have wider := shown.mono (Set.subset_insert other untold)
  have seats := device_setPos daemon.service.clients other vacated
  unfold Daemon.trade
  generalize daemon.service.clients.setPos other vacated = outcome at seats
  obtain ⟨moved, clients⟩ := outcome
  refine Shown.broadcastClient ?_
  have seated : Shown start (daemon.withClients clients) (insert other untold) :=
    wider.change (Set.mem_insert _ _) seats
  cases moved with
  | false => exact seated
  | true =>
    refine ((Shown.deactivateClient ?_ other).activateClient other).notice fun _ => rfl
    exact seated.change (Set.mem_insert _ _) (device_setGeometry clients other none)

theorem updatePos (handle : Nat) (pos : Position) :
    Shown start (daemon.updatePos handle pos) untold := by
  have wider := shown.mono (Set.subset_insert handle untold)
  have cleared : Shown start { daemon with service := daemon.service.clearSpot handle pos }
      (insert handle untold) := by
    unfold clearSpot
    split
    · exact wider.change (Set.mem_insert _ _) (device_setGeometry _ handle none)
    · exact wider
  refine Shown.broadcastClient ?_
  generalize daemon.service.clearSpot handle pos = spot at cleared
  have seats := device_setPos spot.clients handle pos
  generalize spot.clients.setPos handle pos = outcome at seats
  obtain ⟨moved, clients⟩ := outcome
  have seated : Shown start
      (Daemon.withClients { daemon with service := spot } clients) (insert handle untold) :=
    cleared.change (Set.mem_insert _ _) seats
  cases moved with
  | false => exact seated
  | true =>
    refine Shown.activateClient ?_ handle
    have off := seated.deactivateClient handle
    split
    · exact off.trade _ _ _
    · exact off

theorem updateGeometry (handle : Nat) (geometry : Option Geometry) :
    Shown start (daemon.updateGeometry handle geometry) untold := by
  have wider := shown.mono (Set.subset_insert handle untold)
  exact (wider.change (Set.mem_insert _ _)
    (device_setGeometry daemon.service.clients handle geometry)).broadcastClient

theorem handle (request : FrontendRequest) : Shown start (daemon.handle request) untold := by
  cases request with
  | updatePosition handle edge => exact shown.updatePos handle edge
  | updateGeometry handle geometry => exact shown.updateGeometry handle geometry

end

theorem foldl_handle (requests : List FrontendRequest) (shown : Shown start daemon untold) :
    Shown start (requests.foldl Daemon.handle daemon) untold := by
  induction requests generalizing daemon with
  | nil => exact shown
  | cons request rest ih => exact ih (shown.handle request)

end Shown

end Daemon

/-! ## The boxes after a drop -/

variable {model : Model Ip} {service : Service Ip} {handle : Nat} {x y : Option ℚ}

/-- What the frontend knows once it was told what a drop led to. -/
def answered (model : Model Ip) (service : Service Ip) (handle : Nat) (x y : Option ℚ) :
    Model Ip :=
  (((dropRequests model handle x y).foldl Daemon.handle ⟨service, []⟩).told).foldl apply model

theorem lookup_answered (synced : ∀ each, model.lookup each = service.clients.device each)
    (each : Nat) : (answered model service handle x y).lookup each =
      ((dropRequests model handle x y).foldl Daemon.handle
        ⟨service, []⟩).service.clients.device each := by
  have start : Daemon.Shown model ⟨service, []⟩ ∅ := fun each => .inl (synced each)
  exact (start.foldl_handle _ each).resolve_right fun ⟨there, _⟩ => there

theorem draw_updateGeometry (daemon : Daemon Ip) (handle : Nat) (geometry : Option Geometry)
    (each : Nat) :
    ((daemon.updateGeometry handle geometry).service.clients.device each).map
        (draw none none each) =
      (daemon.service.clients.device each).map (draw none none each) := by
  unfold Daemon.updateGeometry
  rw [Daemon.service_broadcastClient, Daemon.service_withClients, device_setGeometry]
  split
  · rw [Option.map_map]
    rfl
  · rfl

theorem trades_eq {mover : Device Ip} (found : model.lookup handle = some mover)
    {edge : Position} (moves : mover.pos ≠ edge) : trades model (some (handle, edge)) =
      if mover.active then (holder model handle edge).map (·, mover.pos) else none := by
  unfold trades
  cases on : mover.active <;> cases held : holder model handle edge <;>
    simp [found, held, on, moves]

theorem draw_updatePos (synced : ∀ each, model.lookup each = service.clients.device each)
    (apart : Apart service.clients) {mover : Device Ip}
    (found : model.lookup handle = some mover) {edge : Position} (moves : mover.pos ≠ edge)
    (each : Nat) :
    ((service.updatePos handle edge).clients.device each).map (draw none none each) =
      (model.lookup each).map
        (draw (some (handle, edge)) (trades model (some (handle, edge))) each) := by
  have there := (synced handle).symm.trans found
  rw [trades_eq found moves]
  by_cases alone : mover.active = true ∧ ∃ other, holder model handle edge = some other
  · obtain ⟨on, other, held⟩ := alone
    obtain ⟨two, user, uses, busy, at_⟩ := holder_some held
    rw [device_updatePos_trade apart there on ((synced other).symm.trans uses) busy at_
      (Ne.symm two), if_pos on, held, map_some]
    by_cases own : each = handle
    · subst own
      rw [if_pos rfl, found, map_some, map_some, draw, draw, sideOf_mover]
      rfl
    · rw [if_neg own]
      by_cases trader : each = other
      · subst trader
        rw [if_pos rfl, uses, map_some, map_some, draw, draw,
          sideOf_traded (Ne.symm own)]
        rfl
      · rw [if_neg trader, ← synced]
        refine Option.map_congr fun device _ => ?_
        rw [draw, draw, sideOf_rest (Ne.symm own) _ _ (by simpa using Ne.symm trader)]
        rfl
  · have nobody : mover.active = true → ∀ other, service.clients.onAt other = some edge →
        other = handle := by
      intro on other uses
      obtain ⟨user, known, busy, at_⟩ := onAt_eq_some.mp uses
      have free : holder model handle edge = none :=
        eq_none_iff_forall_ne_some.mpr fun other held => alone ⟨on, other, held⟩
      exact holder_none free ((synced other).trans known) busy at_
    have still : (if mover.active then (holder model handle edge).map (·, mover.pos) else none) =
        none := by
      split
      · next on =>
        rw [map_eq_none_iff]
        exact eq_none_iff_forall_ne_some.mpr fun other held => alone ⟨on, other, held⟩
      · rfl
    rw [device_updatePos_alone there nobody, still]
    by_cases own : each = handle
    · subst own
      rw [if_pos rfl, found, map_some, map_some, draw, draw, sideOf_mover]
      rfl
    · rw [if_neg own, ← synced]
      refine Option.map_congr fun device _ => ?_
      rw [draw, draw, sideOf_rest (Ne.symm own) _ _ (by simp)]
      rfl

theorem dropped_eq (synced : ∀ each, model.lookup each = service.clients.device each)
    (apart : Apart service.clients) :
    dropped model handle x y = canvasBoxes (answered model service handle x y) none := by
  refine canvasBoxes_congr fun each => ?_
  rw [lookup_answered synced, trades_none]
  unfold dropRequests
  cases found : model.lookup handle with
  | none =>
    change _ = (service.clients.device each).map _
    rw [← synced]
    rfl
  | some mover =>
    cases dropEdge x y with
    | none =>
      change _ = (service.clients.device each).map _
      rw [← synced]
      rfl
    | some edge =>
      have still : (model.lookup each).map (draw none (trades model none) each) =
          (service.clients.device each).map (draw none none each) := by
        rw [← synced, trades_none]
      by_cases stays : mover.pos = edge
      · by_cases saved : mover.geometry = some (spot edge)
        · simpa [stays, saved, moveOf] using still
        · simpa [stays, saved, moveOf, Daemon.handle, draw_updateGeometry] using still
      · have moves := draw_updatePos synced apart found stays each
        rw [← Daemon.service_updatePos ⟨service, []⟩] at moves
        simpa [stays, moveOf, Daemon.handle, draw_updateGeometry] using moves.symm

/--
The boxes drawn at once for a drop are those of the model after the daemon's answer, and every
spot of a side lies on the canvas, in the zone of its own edge, apart from the other spots of the
side and clear of every box on another side.
-/
theorem canvas_agrees :
    (∀ (model : Model Ip) (service : Service Ip) (handle : Nat) (x y : Option ℚ),
      (∀ each, model.lookup each = service.clients.device each) →
      Apart service.clients →
      dropped model handle x y = canvasBoxes (answered model service handle x y) none) ∧
    ∀ (pos : Position) (k n : Nat), k < n →
      OnCanvas (edgeSpot pos k n) ∧
      dropEdge (some (edgeSpot pos k n).1) (some (edgeSpot pos k n).2) = some pos ∧
      (∀ j, j < n → j ≠ k → edgeSpot pos j n ≠ edgeSpot pos k n) ∧
      ∀ other, pos ≠ other → ∀ j m, j < m → ¬Overlap (edgeSpot pos k n) (edgeSpot other j m) := by
  refine ⟨fun _ _ _ _ _ synced apart => dropped_eq synced apart, fun pos k n within => ?_⟩
  refine ⟨edgeSpot_onCanvas pos within, dropEdge_edgeSpot pos within, ?_, ?_⟩
  · intro j first two same
    exact two (edgeSpot_injective pos first within same)
  · intro other two j m withinToo
    exact edgeSpot_apart two within withinToo

/-- Two devices that are on, at the left and at the right edge. -/
def deskAndRig : List (ConfigClient Nat) :=
  [⟨some "desk", {1}, none, 4722, .left, true, none, none, none⟩,
    ⟨some "rig", {2}, none, 4722, .right, true, none, none, none⟩]

/-- The first device is dropped where the second is. -/
theorem canvas_agrees_trade :
    let service := run deskAndRig nothingKnown []
    dropped service.clients.entries 0 (some 360) (some 150) =
        canvasBoxes (answered service.clients.entries service 0 (some 360) (some 150)) none ∧
      OnCanvas (edgeSpot .left 2 3) ∧ edgeSpot .left 0 3 ≠ edgeSpot .left 2 3 ∧
      ¬Overlap (edgeSpot .left 2 3) (edgeSpot .top 0 5) := by
  obtain ⟨orderly, -⟩ := orderly_run deskAndRig nothingKnown []
  obtain ⟨agrees, spots⟩ := @canvas_agrees Nat
  obtain ⟨there, -, apart, clear⟩ := spots .left 2 3 (by decide)
  exact ⟨agrees _ _ 0 (some 360) (some 150) (fun _ => rfl) orderly.apart, there,
    apart 0 (by decide) (by decide), clear .top (by decide) 0 5 (by decide)⟩

end HopsFormal.Canvas
