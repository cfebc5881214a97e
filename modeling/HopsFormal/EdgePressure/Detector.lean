import HopsFormal.Files.TemporaryNames
import HopsFormal.Trust.Identity
import Mathlib.Algebra.Order.Field.Rat

/-!
# Crossing an edge by pushing against it

Motion that the edge of the desktop blocks adds up while it is pushed on, and the side is crossed
once it comes to the side's threshold.  The thresholds are learned from what follows a crossing:
lowered when it took several pushes, raised when the pointer came straight back.  Lengths are in
pixels and times in milliseconds.
-/

namespace HopsFormal.EdgePressure

open Files (Text splitOnce)
open Trust (isWhitespace)

inductive Side where
  | left
  | right
  | top
  | bottom
  deriving DecidableEq

def sides : List Side := [.left, .right, .top, .bottom]

def gestureGap : ℚ := 200
def defaultThreshold : ℚ := 60
def thresholdMin : ℚ := 24
def thresholdMax : ℚ := 240
def inwardReset : ℚ := 8
def unionCache : ℚ := 1000
def unionTolerance : ℚ := 3 / 2
def crossConfirm : ℚ := 500
def regretWindow : ℚ := 800
def bounceCancel : ℚ := 1500
def effortWindow : ℚ := 2000

def clamp (value : ℚ) : ℚ := max thresholdMin (min value thresholdMax)

/-! ## The thresholds to begin with -/

/-- What a number in a text reads as. -/
inductive Number where
  | finite (value : ℚ)
  | infinite (negative : Bool)
  | nan

def trim (text : Text) : Text :=
  (text.dropWhile isWhitespace).rdropWhile isWhitespace

def sideOf (key : Text) : Option Side :=
  let key := key.map Char.toLower
  if key = "left".toList then some .left
  else if key = "right".toList then some .right
  else if key = "top".toList then some .top
  else if key = "bottom".toList then some .bottom
  else none

/-- The threshold a line of the file sets, if it sets one. -/
def readLine (parse : Text → Option Number) (line : Text) : Option (Side × ℚ) :=
  let line := trim line
  if line = [] ∨ line.head? = some '#' then none
  else (splitOnce '=' line).bind fun (key, value) =>
    match parse (trim value) with
    | some (.finite value) => (sideOf (trim key)).map fun side => (side, clamp value)
    | _ => none

/-- Later lines go before earlier ones; what the file leaves out is the default. -/
def loadEdgeThresholds (parse : Text → Option Number) (contents : Option Text) : Side → ℚ :=
  ((contents.getD []).splitOn '\n').foldl (fun threshold line =>
    match readLine parse line with
    | some (side, value) => Function.update threshold side value
    | none => threshold) fun _ => defaultThreshold

/-- The three variables and the file, where they are there and can be read. -/
structure Environment where
  adaptiveEdge : Option Text
  edgeLearn : Option Text
  edgeThreshold : Option Text
  file : Option Text

def off (variable_ : Option Text) : Bool :=
  variable_.any fun value => value.map Char.toLower ∈
    ["off".toList, "0".toList, "false".toList, "no".toList, "disabled".toList]

/-- A threshold given for every side. -/
def forced (parse : Text → Option Number) (environment : Environment) : Option ℚ :=
  match environment.edgeThreshold.bind parse with
  | some (.finite value) => if 0 < value then some (clamp value) else none
  | some (.infinite false) => some thresholdMax
  | _ => none

/-! ## The detector -/

structure Display where
  x : ℚ
  y : ℚ
  width : ℚ
  height : ℚ

structure Bounds where
  xmin : ℚ
  xmax : ℚ
  ymin : ℚ
  ymax : ℚ

def Bounds.grow (bounds : Bounds) (display : Display) : Bounds where
  xmin := min bounds.xmin display.x
  xmax := max bounds.xmax (display.x + display.width)
  ymin := min bounds.ymin display.y
  ymax := max bounds.ymax (display.y + display.height)

/-- The bounds of the desktop, if any display is there. -/
def unionOf : List Display → Option Bounds
  | [] => none
  | first :: rest => some (rest.foldl Bounds.grow
      ⟨first.x, first.x + first.width, first.y, first.y + first.height⟩)

/-- What was asked for, what of it the edge blocked, and where the pointer was put. -/
structure Motion where
  dx : ℚ
  dy : ℚ
  blockedX : ℚ
  blockedY : ℚ
  clampedX : ℚ
  clampedY : ℚ

/-- No more counts as blocked than was asked for, and nothing the other way. -/
def pushed (requested blocked : ℚ) : ℚ :=
  if 0 < requested ∧ 0 < blocked then min blocked requested
  else if requested < 0 ∧ blocked < 0 then max blocked requested
  else 0

/-- The part of a vector that points out at a side. -/
def Side.toward : Side → ℚ → ℚ → ℚ
  | .left, x, _ => -x
  | .right, x, _ => x
  | .top, _, y => -y
  | .bottom, _, y => y

def Motion.outward (motion : Motion) (side : Side) : ℚ :=
  side.toward (pushed motion.dx motion.blockedX) (pushed motion.dy motion.blockedY)

/-- Moved away from a side on purpose. -/
def Motion.inward (motion : Motion) (side : Side) : Bool :=
  side.toward motion.dx motion.dy < -inwardReset

/-- The pointer is at the outer edge on a side. -/
def Motion.atEdge (motion : Motion) (bounds : Bounds) : Side → Bool
  | .left => |motion.clampedX - bounds.xmin| ≤ unionTolerance
  | .right => |motion.clampedX - (bounds.xmax - 1)| ≤ unionTolerance
  | .top => |motion.clampedY - bounds.ymin| ≤ unionTolerance
  | .bottom => |motion.clampedY - (bounds.ymax - 1)| ≤ unionTolerance

/-- One motion, at a time, with the displays there are then, if they are known. -/
structure Update where
  now : ℚ
  displays : Option (List Display)
  motion : Motion

/-- What a threshold is changed for. -/
inductive Signal where
  | effort
  | regret
  deriving DecidableEq

def Signal.factor : Signal → ℚ
  | .effort => 85 / 100
  | .regret => 125 / 100

/-- The log has every change of a threshold. -/
structure Detector where
  enabled : Bool
  learn : Bool
  threshold : Side → ℚ
  pressure : Side → ℚ
  latched : Side → Bool
  lastUpdate : Option ℚ
  lastFire : Option (Side × ℚ × Bool)
  lastCross : Option (Side × ℚ)
  pendingRegret : Option (Side × ℚ)
  lastAttempt : Option (Side × ℚ)
  union : Option (Bounds × ℚ)
  log : List (Side × Signal)

def fromEnv (parse : Text → Option Number) (environment : Environment) : Detector where
  enabled := !off environment.adaptiveEdge
  learn := !off environment.edgeLearn
  threshold :=
    match forced parse environment with
    | some value => fun _ => value
    | none => loadEdgeThresholds parse environment.file
  pressure _ := 0
  latched _ := false
  lastUpdate := none
  lastFire := none
  lastCross := none
  pendingRegret := none
  lastAttempt := none
  union := none
  log := []

/-- The first of the sides with the most, of those that count. -/
def strongest (amount : Side → ℚ) (counts : Side → Bool) : Option Side :=
  sides.foldl (fun best side =>
    if counts side && best.all fun other => amount other < amount side then some side else best) none

namespace Detector

variable (detector : Detector)

def setThreshold (side : Side) (signal : Signal) : Detector :=
  { detector with
    threshold := Function.update detector.threshold side
      (clamp (detector.threshold side * signal.factor))
    log := detector.log ++ [(side, signal)] }

/-- No pressure, and no side that has fired. -/
def reset : Detector :=
  { detector with
    pressure := fun _ => 0
    latched := fun _ => false }

/-- A push that came half-way is an attempt, abandoned when the motion stopped. -/
def onGestureEnd (now gap : ℚ) : Detector :=
  match strongest (fun side => detector.pressure side / detector.threshold side) fun side =>
      !detector.latched side && 1 / 2 ≤ detector.pressure side / detector.threshold side with
  | some side => { detector with lastAttempt := some (side, now - gap) }
  | none => detector

def pause (now : ℚ) : Detector :=
  match detector.lastUpdate with
  | some prev =>
    if gestureGap < now - prev then (detector.onGestureEnd now (now - prev)).reset else detector
  | none => detector

/-- A raise that no bounce took back is made. -/
def commitRegret (now : ℚ) : Detector :=
  match detector.pendingRegret with
  | some (side, returned) =>
    if bounceCancel < now - returned then
      let kept := { detector with pendingRegret := none }
      if detector.learn then kept.setThreshold side .regret else kept
    else detector
  | none => detector

/-- Motion inward ends the push on a side. -/
def moveAway (motion : Motion) : Detector :=
  { detector with
    pressure := fun side => if motion.inward side then 0 else detector.pressure side
    latched := fun side => if motion.inward side then false else detector.latched side }

/-- What is done before the motion counts. -/
def settle (update : Update) : Detector :=
  ({ detector.pause update.now with lastUpdate := some update.now }.commitRegret
    update.now).moveAway update.motion

def unionBounds (update : Update) : Option (Bounds × ℚ) :=
  match detector.union with
  | some (bounds, computedAt) =>
    if update.now - computedAt < unionCache then some (bounds, computedAt)
    else (update.displays.bind unionOf).map fun bounds => (bounds, update.now)
  | none => (update.displays.bind unionOf).map fun bounds => (bounds, update.now)

def counted (bounds : Bounds) (motion : Motion) (side : Side) : ℚ :=
  if 0 < motion.outward side ∧ motion.atEdge bounds side = true then
    min (motion.outward side) (detector.threshold side / 2)
  else 0

def press (bounds : Bounds) (motion : Motion) : Detector :=
  { detector with
    pressure := fun side =>
      if detector.latched side then detector.pressure side
      else detector.pressure side + detector.counted bounds motion side }

/-- The motion counts; blocked motion counts for nothing while no display is known. -/
def feel (update : Update) : Option Detector :=
  if pushed update.motion.dx update.motion.blockedX ≠ 0 ∨
      pushed update.motion.dy update.motion.blockedY ≠ 0 then
    (detector.unionBounds update).map fun read =>
      { detector with union := some read }.press read.1 update.motion
  else some detector

/-- A fire that may still turn out to cross. -/
def inFlight (now : ℚ) : Bool :=
  detector.lastFire.any fun (_, fired, _) => now - fired ≤ crossConfirm

/-- A bounce takes back the raise it follows; otherwise an attempt shortly before arms the fire. -/
def onFire (side : Side) (now : ℚ) : Detector × Bool :=
  if detector.pendingRegret.any fun (other, returned) =>
      other = side && now - returned ≤ bounceCancel then
    ({ detector with pendingRegret := none }, false)
  else if detector.lastAttempt.any fun (other, abandoned) =>
      other = side && now - abandoned ≤ effortWindow then
    ({ detector with lastAttempt := none }, true)
  else (detector, false)

/-- The strongest side whose pressure has come to its threshold. -/
def best : Option Side :=
  strongest detector.pressure fun side =>
    !detector.latched side && detector.threshold side ≤ detector.pressure side

/-- A side fires once in a push. -/
def fire (side : Side) (now : ℚ) : Detector :=
  let latched := { detector with
    latched := Function.update detector.latched side true
    pressure := Function.update detector.pressure side 0 }
  let (learned, armed) := if detector.learn then latched.onFire side now else (latched, false)
  { learned with lastFire := some (side, now, armed) }

/-- The side to cross, if one is, unless one fired just before. -/
def conclude (now : ℚ) : Detector × Option Side :=
  match detector.best with
  | some side =>
    if detector.inFlight now then (detector, none) else (detector.fire side now, some side)
  | none => (detector, none)

def update (update : Update) : Detector × Option Side :=
  if detector.enabled then
    match (detector.settle update).feel update with
    | some felt => felt.conclude update.now
    | none => (detector.settle update, none)
  else (detector, none)

/-- The fire that the end of a session confirms, if it does. -/
def confirmed (now : ℚ) : Option (Side × ℚ × Bool) :=
  detector.lastFire.filter fun (_, fired, _) => now - fired ≤ crossConfirm

/-- A fire just before crossed, and if it was armed its threshold is lowered. -/
def confirm (now : ℚ) : Detector :=
  match detector.confirmed now with
  | some (side, _, armed) =>
    let crossed := { detector with lastFire := none, lastCross := some (side, now) }
    if detector.learn && armed then crossed.setThreshold side .effort else crossed
  | none => { detector with lastFire := none }

/-- A raise that is pending is taken back, or made if it was to be by now. -/
def resolve (now : ℚ) : Detector :=
  { detector.commitRegret now with pendingRegret := none }

def onSessionDestroyed (now : ℚ) : Detector :=
  { ((detector.confirm now).resolve now).reset with
    lastUpdate := none
    lastAttempt := none }

/-- A session with a peer begins; shortly after a crossing, the crossing may be regretted. -/
def onSessionCreated (now : ℚ) : Detector :=
  { detector.reset with
    lastUpdate := none
    lastFire := none
    lastAttempt := none
    lastCross := none
    pendingRegret :=
      match detector.lastCross with
      | some (side, crossed) =>
        if detector.learn = true ∧ now - crossed ≤ regretWindow then some (side, now)
        else detector.pendingRegret
      | none => detector.pendingRegret }

end Detector

/-- What happens to the detector. -/
inductive Act where
  | update (event : Update)
  | reset
  | created (now : ℚ)
  | destroyed (now : ℚ)

def Detector.step (detector : Detector) : Act → Detector × Option Side
  | .update event => detector.update event
  | .reset => (detector.reset, none)
  | .created now => (detector.onSessionCreated now, none)
  | .destroyed now => (detector.onSessionDestroyed now, none)

/-- When it happens; a reset does not look at the time. -/
def Act.now : Act → Option ℚ
  | .update event => some event.now
  | .reset => none
  | .created now | .destroyed now => some now

def Detector.run (detector : Detector) (acts : List Act) : Detector :=
  acts.foldl (fun detector act => (detector.step act).1) detector

/-- What the detector answers to the last of some acts. -/
def Detector.told (detector : Detector) (acts : List Act) (act : Act) : Option Side :=
  ((detector.run acts).step act).2

/-- Times do not go back. -/
def Timely (acts : List Act) : Prop :=
  (acts.filterMap Act.now).Pairwise (· ≤ ·)

end HopsFormal.EdgePressure
