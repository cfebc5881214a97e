import HopsFormal.Frontend.AppModel

/-!
# Where one device's connection stands

The facts about a device are gathered once and mapped to the one state that its dot and
its words are drawn from.
-/

namespace HopsFormal.Frontend

/-- One device's connection, as the dot and the status words show it. -/
inductive Connection where
  | serviceGone
  | noLongerTrusts
  | pairAgain
  | comparingNumber
  | awaitingOtherMachine
  | notAcceptingInput
  | connected
  | off
  | notPaired
  | unreachable
  | awaitingItsDial
  | notConnected

/-- Where the number of a pairing stands on this machine. -/
inductive Number where
  | notYet
  | onScreen
  | answered

inductive Standing where
  | pairing (number : Number)
  | paired
  | notPaired
  | pairAgain

/-- The link of a switched-on device. -/
inductive Link where
  | down (unanswered : Bool)
  | up (accepting : Bool)

/-- This machine's sending side of a device. -/
inductive SendFacet where
  | none
  | off
  | on (link : Link)

/-- Everything the state of a device is derived from. -/
structure Facts where
  service : Bool
  standing : Standing
  send : SendFacet
  inbound : Bool
  removedByPeer : Bool
  dialsUs : Bool

/-- The one state these facts are in. -/
def Connection.of (facts : Facts) : Connection :=
  match facts.service, facts.removedByPeer, facts.standing, facts.send, facts.inbound,
      facts.dialsUs with
  | false, _, _, _, _, _ => .serviceGone
  | true, true, _, _, _, _ => .noLongerTrusts
  | true, false, .pairAgain, _, _, _ => .pairAgain
  | true, false, _, .on (.up false), _, _ => .notAcceptingInput
  | true, false, _, .on (.up true), _, _ => .connected
  | true, false, .pairing .onScreen, _, _, _ => .comparingNumber
  | true, false, .pairing .notYet, _, _, _ => .awaitingOtherMachine
  | true, false, .pairing .answered, _, _, _ => .awaitingOtherMachine
  | true, false, _, .off, _, _ => .off
  | true, false, .paired, .on (.down true), _, true => .awaitingItsDial
  | true, false, .paired, .on (.down true), _, false => .unreachable
  | true, false, .notPaired, .none, true, _ => .connected
  | true, false, .notPaired, .on (.down _), true, _ => .connected
  | true, false, .paired, .none, true, _ => .connected
  | true, false, .paired, .on (.down false), true, _ => .connected
  | true, false, .notPaired, .on (.down _), false, _ => .notPaired
  | true, false, .paired, .on (.down false), false, true => .awaitingItsDial
  | true, false, .paired, .on (.down false), false, false => .notConnected
  | true, false, .paired, .none, false, true => .awaitingItsDial
  | true, false, .paired, .none, false, false => .notConnected
  | true, false, .notPaired, .none, false, _ => .notConnected

end HopsFormal.Frontend
