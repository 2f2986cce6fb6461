import SAeroRP.Routing.EncryptionCalls
import SAeroRP.System.Frame

/-! The timers that make a node advertise and authenticate itself. Start sets the timers of the
node's role, and each timer that sends advertisements schedules itself again when it expires,
after its interval and a random delay. Time does not pass an expiry. -/

namespace SAeroRP

open Library

/-! ### Timers -/

/-- A timer of the simulator: whether it has a function to call, and when, while it runs. -/
structure Timer where
  hasFunction : Bool := false
  expiry : Option Time := none

namespace Timer

def setFunction (t : Timer) : Timer := { t with hasFunction := true }

def cancel (t : Timer) : Timer := { t with expiry := none }

/-- A timer without a function, one that runs already and a delay into the past are errors the
simulator ends with. -/
def schedule (now delay : Time) (t : Timer) : Except Fault Timer :=
  if t.hasFunction ∧ t.expiry = none ∧ 0 ≤ delay then .ok { t with expiry := some (now + delay) }
  else .error .assertion

/-- The timer when its function is called: it does not run any more. -/
def expired (t : Timer) : Timer := { t with expiry := none }

theorem schedule_ok {now delay : Time} {t t' : Timer} (h : t.schedule now delay = .ok t') :
    t.expiry = none ∧ 0 ≤ delay ∧ t' = ⟨true, some (now + delay)⟩ := by
  unfold schedule at h
  split_ifs at h with hok
  obtain ⟨hfunction, hexpiry, hdelay⟩ := hok
  cases h
  exact ⟨hexpiry, hdelay, by rw [hfunction]⟩

theorem schedule_eq {now delay : Time} {t : Timer} (h : t.hasFunction = true)
    (hexpiry : t.expiry = none) (hdelay : 0 ≤ delay) :
    t.schedule now delay = .ok ⟨true, some (now + delay)⟩ := by
  rw [schedule, if_pos ⟨h, hexpiry, hdelay⟩, h]

end Timer

/-! ### The node with its timers -/

/-- The intervals, with the values a new node has. -/
structure Intervals where
  helloInterval : Time := Time.seconds 1
  gsInterval : Time := Time.seconds 5
  authenticationInterval : Time := Time.seconds 3

namespace Intervals

variable (I : Intervals)

/-- A value of JITTER: up to half the interval of the HELLO messages, early or late. -/
def IsJitter (jitter : Time) : Prop := -I.helloInterval ≤ 2 * jitter ∧ 2 * jitter ≤ I.helloInterval

/-- A value of FIRST_JITTER. -/
def IsFirstJitter (jitter : Time) : Prop := 0 ≤ jitter ∧ 2 * jitter ≤ I.helloInterval

/-- A value of FIRSTAUTH_JITTER. -/
def IsFirstAuthJitter (jitter : Time) : Prop := 0 ≤ jitter ∧ jitter ≤ I.authenticationInterval

instance (jitter : Time) : Decidable (I.IsJitter jitter) := inferInstanceAs (Decidable (_ ∧ _))

instance (jitter : Time) : Decidable (I.IsFirstJitter jitter) :=
  inferInstanceAs (Decidable (_ ∧ _))

instance (jitter : Time) : Decidable (I.IsFirstAuthJitter jitter) :=
  inferInstanceAs (Decidable (_ ∧ _))

end Intervals

/-- A node and the timers of its advertisements and of its authentication. -/
structure Advertiser where
  now : Time
  node : Node
  helloIntervalTimer : Timer := {}
  gsTimer : Timer := {}
  authenticationTimer : Timer := {}

namespace Advertiser

/-- Start, for the random delays it draws. -/
def start (created : Credentials) (generated : Block SHARED_KEY_SIZE)
    (firstJitter authenticatedJitter firstAuthJitter : Time) (s : Advertiser) :
    Except Fault Advertiser := do
  let node := s.node.start created generated
  if s.node.securityState then
    if s.node.isGroundStation then
      let gsTimer ← s.gsTimer.setFunction.schedule s.now firstJitter
      return { s with node, gsTimer }
    else
      let authenticationTimer := s.authenticationTimer.setFunction
      if (s.node.authenticationIntialize created).authenticationStatus = .unauth then
        let authenticationTimer ← authenticationTimer.schedule s.now firstAuthJitter
        let helloIntervalTimer ← s.helloIntervalTimer.setFunction.schedule s.now firstJitter
        return { s with node, authenticationTimer, helloIntervalTimer }
      else
        let authenticationTimer := authenticationTimer.cancel
        let helloIntervalTimer ← s.helloIntervalTimer.setFunction.schedule s.now authenticatedJitter
        let helloIntervalTimer ← helloIntervalTimer.setFunction.schedule s.now firstJitter
        return { s with node, authenticationTimer, helloIntervalTimer }
  else if s.node.isGroundStation then
    let gsTimer ← s.gsTimer.setFunction.schedule s.now firstJitter
    return { s with node, gsTimer }
  else
    let helloIntervalTimer ← s.helloIntervalTimer.setFunction.schedule s.now firstJitter
    return { s with node, helloIntervalTimer }

section
variable {created : Credentials} {generated : Block SHARED_KEY_SIZE}
  {firstJitter authenticatedJitter firstAuthJitter : Time} {s t : Advertiser}

/-- Start leaves the role of the node as it is. -/
theorem role_start (created : Credentials) (generated : Block SHARED_KEY_SIZE) (n : Node) :
    (n.start created generated).isGroundStation = n.isGroundStation ∧
      (n.start created generated).securityState = n.securityState := by
  unfold Node.start
  dsimp only
  split_ifs <;> exact ⟨rfl, rfl⟩

/-- A ground station gets its timer; an airborne node gets the timer of the HELLO messages, and
in secure mode one for its authentication. -/
theorem start_ok
    (h : s.start created generated firstJitter authenticatedJitter firstAuthJitter = .ok t) :
    t.node = s.node.start created generated ∧ t.now = s.now ∧
    (s.node.isGroundStation = true →
      s.gsTimer.setFunction.schedule s.now firstJitter = .ok t.gsTimer ∧
      t.helloIntervalTimer = s.helloIntervalTimer ∧
      t.authenticationTimer = s.authenticationTimer) ∧
    (s.node.isGroundStation = false →
      s.helloIntervalTimer.setFunction.schedule s.now firstJitter = .ok t.helloIntervalTimer ∧
      t.gsTimer = s.gsTimer ∧
      if s.node.securityState = true then
        s.authenticationTimer.setFunction.schedule s.now firstAuthJitter = .ok t.authenticationTimer
      else t.authenticationTimer = s.authenticationTimer) := by
  unfold start at h
  dsimp only at h
  cases hsecure : s.node.securityState <;> cases hgs : s.node.isGroundStation <;>
    simp only [hsecure, hgs, Bool.false_eq_true, if_false, if_true] at h
  · obtain ⟨timer, htimer, h⟩ := bind_eq_ok.mp h
    cases h
    simp [htimer]
  · obtain ⟨timer, htimer, h⟩ := bind_eq_ok.mp h
    cases h
    simp [htimer]
  · -- AuthenticationIntialize has just made the node unauthenticated
    have hunauth : (s.node.authenticationIntialize created).authenticationStatus = .unauth := rfl
    rw [if_pos hunauth] at h
    obtain ⟨auth, hauth, h⟩ := bind_eq_ok.mp h
    obtain ⟨timer, htimer, h⟩ := bind_eq_ok.mp h
    cases h
    simp [htimer, hauth]
  · obtain ⟨timer, htimer, h⟩ := bind_eq_ok.mp h
    cases h
    simp [htimer]

end

/-- HelloTimerExpire. -/
def helloTimerExpire (I : Intervals) (outOfRange : ℚ → UInt32) (jitter : Time) (s : Advertiser) :
    Except Fault (Advertiser × List Effect) := do
  let delay := I.helloInterval + jitter
  let timer := s.helloIntervalTimer.expired
  let timer ←
    if s.node.authenticationStatus = .auth ∧ s.node.securityState = true then
      timer.cancel.schedule s.now delay
    else .ok timer
  let timer ←
    if s.node.authenticationStatus = .unauth ∧ s.node.securityState = true then
      timer.schedule s.now delay
    else .ok timer
  let timer ←
    if s.node.securityState = false then timer.cancel.schedule s.now delay
    else .ok timer
  return ({ s with helloIntervalTimer := timer }, s.node.helloTimerExpire outOfRange)

/-- GSTimerExpire, for what SendGroundStationPackets reads. -/
def gsTimerExpire (I : Intervals) (outOfRange : ℚ → UInt32) (god : GodGroundStation)
    (attackState : Bool) (nodes : List Ipv4Address) (jitter : Time) (s : Advertiser) :
    Except Fault (Advertiser × List Effect) := do
  let timer := s.gsTimer.expired.cancel
  let timer ← timer.schedule s.now (I.gsInterval + jitter)
  return ({ s with gsTimer := timer },
    s.node.sendGroundStationPackets outOfRange god attackState nodes)

/-- In every mode the timer is scheduled again, once. -/
theorem helloTimerExpire_eq (I : Intervals) (outOfRange : ℚ → UInt32) (jitter : Time)
    (s : Advertiser) : s.helloTimerExpire I outOfRange jitter = do
      let timer ← s.helloIntervalTimer.expired.schedule s.now (I.helloInterval + jitter)
      return ({ s with helloIntervalTimer := timer }, s.node.helloTimerExpire outOfRange) := by
  have hcancel : s.helloIntervalTimer.expired.cancel = s.helloIntervalTimer.expired := rfl
  unfold helloTimerExpire
  cases hsecure : s.node.securityState <;> cases hstatus : s.node.authenticationStatus <;>
    simp [hcancel, -bind_pure_comp]

/-- AuthenticationTimerExpire. The timer is not scheduled again. -/
def authenticationTimerExpire {β : Type} (E : Env β) (chance : Chance) (s : Advertiser) :
    Except Fault (Advertiser × List Effect) := do
  let effects ← s.node.sendAuthenticationRequestPacket E s.now chance
  return ({ s with authenticationTimer := s.authenticationTimer.expired.cancel }, effects)

section
variable {I : Intervals} {outOfRange : ℚ → UInt32} {jitter : Time} {s t : Advertiser}
  {es : List Effect}

theorem helloTimerExpire_ok (h : s.helloTimerExpire I outOfRange jitter = .ok (t, es)) :
    0 ≤ I.helloInterval + jitter ∧ es = s.node.helloTimerExpire outOfRange ∧
      t = { s with helloIntervalTimer := ⟨true, some (s.now + (I.helloInterval + jitter))⟩ } := by
  rw [helloTimerExpire_eq] at h
  obtain ⟨timer, htimer, h⟩ := bind_eq_ok.mp h
  obtain ⟨-, hdelay, rfl⟩ := Timer.schedule_ok htimer
  cases h
  exact ⟨hdelay, rfl, rfl⟩

theorem gsTimerExpire_ok {god : GodGroundStation} {attackState : Bool} {nodes : List Ipv4Address}
    (h : s.gsTimerExpire I outOfRange god attackState nodes jitter = .ok (t, es)) :
    0 ≤ I.gsInterval + jitter ∧
      es = s.node.sendGroundStationPackets outOfRange god attackState nodes ∧
      t = { s with gsTimer := ⟨true, some (s.now + (I.gsInterval + jitter))⟩ } := by
  obtain ⟨timer, htimer, h⟩ := bind_eq_ok.mp h
  obtain ⟨-, hdelay, rfl⟩ := Timer.schedule_ok htimer
  cases h
  exact ⟨hdelay, rfl, rfl⟩

theorem authenticationTimerExpire_ok {β : Type} {E : Env β} {chance : Chance}
    (h : s.authenticationTimerExpire E chance = .ok (t, es)) :
    s.node.sendAuthenticationRequestPacket E s.now chance = .ok es ∧
      t = { s with authenticationTimer := s.authenticationTimer.expired } := by
  obtain ⟨effects, hsend, h⟩ := bind_eq_ok.mp h
  cases h
  exact ⟨hsend, rfl⟩

end

/-! ### Steps -/

/-- What may happen to a node with its timers. -/
inductive Event where
  | advance (dt : Time)
  | start
  | helloTimer
  | gsTimer
  | authenticationTimer
  | call (e : SAeroRP.Event)

/-- The other events of a node: the clock and the timer of the authentication are events here. -/
def IsCall : SAeroRP.Event → Prop
  | .advance _ => False
  | .authenticationTimer _ => False
  | _ => True

variable {β : Type} [Preorder β] [DecidableLT β] [DecidableEq β] [Zero β]

/-- `Does E I outOfRange s e t es`: in state `s` the event `e` may happen, leads to `t` and puts
out the effects `es`. -/
inductive Does (E : Env β) (I : Intervals) (outOfRange : ℚ → UInt32) (s : Advertiser) :
    Event → Advertiser → List Effect → Prop
  | advance {dt : Time}
      (hnode : Sys.Does E ⟨s.now, s.node⟩ (.advance dt) ⟨s.now + dt, s.node⟩ {})
      (htimers : ∀ timer ∈ [s.helloIntervalTimer, s.gsTimer, s.authenticationTimer],
        ∀ t, timer.expiry = some t → s.now + dt ≤ t) :
      Does E I outOfRange s (.advance dt) { s with now := s.now + dt } []
  | start {created : Credentials} {generated : Block SHARED_KEY_SIZE}
      {firstJitter authenticatedJitter firstAuthJitter : Time} {t : Advertiser}
      (hfirst : I.IsFirstJitter firstJitter) (hauthenticated : I.IsFirstJitter authenticatedJitter)
      (hauth : I.IsFirstAuthJitter firstAuthJitter)
      (h : s.start created generated firstJitter authenticatedJitter firstAuthJitter = .ok t) :
      Does E I outOfRange s .start t []
  | helloTimer {jitter : Time} {t : Advertiser} {es : List Effect}
      (hdue : s.helloIntervalTimer.expiry = some s.now) (hjitter : I.IsJitter jitter)
      (h : s.helloTimerExpire I outOfRange jitter = .ok (t, es)) :
      Does E I outOfRange s .helloTimer t es
  | gsTimer {god : GodGroundStation} {attackState : Bool} {nodes : List Ipv4Address} {jitter : Time}
      {t : Advertiser} {es : List Effect} (hdue : s.gsTimer.expiry = some s.now)
      (hjitter : I.IsJitter jitter)
      (h : s.gsTimerExpire I outOfRange god attackState nodes jitter = .ok (t, es)) :
      Does E I outOfRange s .gsTimer t es
  | authenticationTimer {chance : Chance} {t : Advertiser} {es : List Effect}
      (hdue : s.authenticationTimer.expiry = some s.now)
      (h : s.authenticationTimerExpire E chance = .ok (t, es)) :
      Does E I outOfRange s .authenticationTimer t es
  | call {e : SAeroRP.Event} {node : Node} {o : Output} (he : IsCall e)
      (h : Sys.Does E ⟨s.now, s.node⟩ e ⟨s.now, node⟩ o) :
      Does E I outOfRange s (.call e) { s with node } o.effects

def Step (E : Env β) (I : Intervals) (outOfRange : ℚ → UInt32)
    (x : Transition Advertiser Event (List Effect)) : Prop :=
  Does E I outOfRange x.pre x.event x.post x.out

/-- A node that was not started yet. -/
structure New (s : Advertiser) : Prop where
  helloIntervalTimer : s.helloIntervalTimer = {}
  gsTimer : s.gsTimer = {}
  authenticationTimer : s.authenticationTimer = {}

end Advertiser

end SAeroRP
