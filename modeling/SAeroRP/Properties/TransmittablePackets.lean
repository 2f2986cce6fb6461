import SAeroRP.Properties.LinkDelivery

/-! Packets that a device admits and its MAC cannot transmit. The MTU of a device leaves room
for the LLC header in 2304 bytes, but the controller asserts that a packet with that header has
less than 1500. -/

namespace SAeroRP

open Library

/-- The devices of a channel with their MTUs. -/
structure DeviceState where
  link : LinkState
  devices : MacPtr → TdmaNetDevice

inductive DeviceEvent where
  | link (e : LinkEvent)
  | setMtu (mac : MacPtr) (mtu : UInt16)

namespace LinkState

variable {L : Link} {s t : LinkState} {e : LinkEvent}

/-- What waits in the queue of a MAC was sent on its device. -/
def Waits (L : Link) (s : LinkState) : Prop :=
  ∀ mac, ∀ i ∈ (s.queues mac).queue, ∃ x ∈ s.sent, x.mac = mac ∧ x.frame L = i.frame

theorem Waits.setQueue (h : s.Waits L) {mac : MacPtr} {q : TdmaMacQueue}
    (hq : q.queue.Sublist (s.queues mac).queue) : (s.setQueue mac q).Waits L := by
  intro mac' i hi
  by_cases hmac : mac' = mac
  · subst hmac
    rw [queues_setQueue_self] at hi
    exact h mac' i (hq.subset hi)
  · rw [queues_setQueue_of_ne s q hmac] at hi
    exact h mac' i hi

theorem Waits.send (h : s.Waits L) (x : Sent) :
    ({ s.setQueue x.mac (x.call L s.now (s.queues x.mac)).2 with
      sent := s.sent ++ [x] } : LinkState).Waits L := by
  intro mac i hi
  by_cases hmac : mac = x.mac
  · subst hmac
    obtain ⟨l, hl, hqueue⟩ := x.queue_call L s.now (s.queues x.mac)
    have hi : i ∈ (x.call L s.now (s.queues x.mac)).2.queue := by
      rwa [← queues_setQueue_self s x.mac (x.call L s.now (s.queues x.mac)).2]
    have hframe := List.mem_map_of_mem (f := Item.frame) hi
    rw [hqueue, List.mem_append] at hframe
    obtain hold | hnew := hframe
    · obtain ⟨j, hj, hframe⟩ := List.mem_map.mp hold
      obtain ⟨y, hy, hmac, hsent⟩ :=
        h x.mac j (((s.queues x.mac).sublist_cleanup s.now).subset hj)
      exact ⟨y, List.mem_append_left _ hy, hmac, hsent.trans hframe⟩
    · exact ⟨x, by simp, rfl, (List.mem_singleton.mp (hl.subset hnew)).symm⟩
  · have hi : i ∈ (s.queues mac).queue := by
      rwa [← queues_setQueue_of_ne s (x.call L s.now (s.queues x.mac)).2 hmac]
    obtain ⟨y, hy, hy'⟩ := h mac i hi
    exact ⟨y, List.mem_append_left _ hy, hy'⟩

theorem Does.waits (hdoes : Does L s e t) (h : s.Waits L) : t.Waits L := by
  cases hdoes with
  | advance => exact h
  | send x => exact h.send x
  | startTransmission hstart => exact h.setQueue (sublist_of_startTransmission hstart)
  | @sendPacketDown mac g frame q hsend =>
    obtain ⟨i, rest, hqueue, -, hrest, -⟩ := TdmaCentralMac.sendPacketDown_ok hsend
    have hsub : (i :: rest).Sublist (s.queues mac).queue :=
      hqueue ▸ (s.queues mac).sublist_cleanup s.now
    refine h.setQueue ?_
    rw [hrest]
    exact (List.sublist_cons_self i rest).trans hsub
  | setMaxQueueSize mac size => exact h.setQueue (List.Sublist.refl _)
  | setMaxQueueDelay mac delay => exact h.setQueue (List.Sublist.refl _)
  | receive => exact h

/-- What has been sent was sent before or is being sent. -/
theorem Does.mem_sent (hdoes : Does L s e t) {x : Sent} (hx : x ∈ t.sent) :
    x ∈ s.sent ∨ e = .send x := by
  cases hdoes with
  | send y =>
    obtain hx | hx := List.mem_append.mp hx
    · exact .inl hx
    · exact .inr (congrArg _ (List.mem_singleton.mp hx).symm)
  | advance | startTransmission | sendPacketDown | setMaxQueueSize | setMaxQueueDelay | receive =>
    exact .inl hx

/-- The packet is the first that has not expired in the queue of its device. -/
def AtHead (L : Link) (s : LinkState) (mac : MacPtr) (x : Sent) : Prop :=
  x ∈ s.sent ∧ x.mac = mac ∧
    ((s.queues mac).cleanup s.now).queue.head?.map Item.frame = some (x.frame L)

/-- Whenever the MAC is given a slot now, the packet is not too long for the controller. -/
def Transmittable (s : LinkState) (mac : MacPtr) : Prop :=
  ∀ (c : TdmaController) (us : ℤ),
    TdmaCentralMac.startTransmission c s.now us (s.queues mac) ≠ .error .assertion

theorem transmittable_iff_head {mac : MacPtr} : s.Transmittable mac ↔
    ∀ i, ((s.queues mac).cleanup s.now).queue.head? = some i → i.packet.getSize < 1500 := by
  unfold Transmittable
  simp only [TdmaCentralMac.startTransmission_eq]
  cases ((s.queues mac).cleanup s.now).queue with
  | nil => simp
  | cons i rest =>
    simp only [List.head?_cons, Option.some.injEq, forall_eq', TdmaController.calculateTxTime]
    split_ifs with hsize
    · simp [hsize]
    · simp only [hsize, iff_false]
      exact fun h => h Sample.controller 0 rfl

/-- The assertion counts the LLC header in. -/
theorem Waits.transmittable_iff_size (h : s.Waits L) {mac : MacPtr} :
    s.Transmittable mac ↔ ∀ x, s.AtHead L mac x → x.packet.getSize ≤ 1491 := by
  have hsize : ∀ x : Sent, (x.frame L).packet.getSize = 8 + x.packet.getSize := fun x => by
    show (LlcSnapHeader.serialize _ ++ x.packet.bytes).length = _
    rw [List.length_append, LlcSnapHeader.length_serialize]
    rfl
  rw [transmittable_iff_head]
  constructor
  · rintro hhead x ⟨-, -, hx⟩
    obtain ⟨i, hi, hframe⟩ := Option.map_eq_some_iff.mp hx
    have hlt : i.frame.packet.getSize < 1500 := hhead i hi
    rw [hframe, hsize] at hlt
    omega
  · intro hle i hi
    obtain ⟨x, hx, hmac, hframe⟩ := h mac i
      (((s.queues mac).sublist_cleanup s.now).subset (List.mem_of_mem_head? hi))
    have hle := hle x ⟨hx, hmac, by rw [hi, hframe]; rfl⟩
    show i.frame.packet.getSize < 1500
    rw [← hframe, hsize]
    omega

end LinkState

namespace DeviceState

structure Initial (s : DeviceState) : Prop where
  link : s.link.Initial
  /-- The attribute takes no other values. -/
  mtu : ∀ mac, 1 ≤ (s.devices mac).mtu.toNat ∧ (s.devices mac).mtu.toNat ≤ 2296

/-- No packet is sent that is longer than the MTU of its device. -/
def Step (L : Link) (x : Transition DeviceState DeviceEvent Unit) : Prop :=
  match x.event with
  | .link e => LinkState.Does L x.pre.link e x.post.link ∧ x.post.devices = x.pre.devices ∧
      ∀ y, e = .send y → y.packet.getSize ≤ (x.pre.devices y.mac).getMtu.toNat
  | .setMtu mac mtu => x.post = { x.pre with
      devices := Function.update x.pre.devices mac ((x.pre.devices mac).setMtu mtu).2 }

/-- No MTU is so great that a packet can be too long. -/
structure Small (s : DeviceState) : Prop where
  mtu : ∀ mac, (s.devices mac).mtu.toNat ≤ 1491
  sent : ∀ x ∈ s.link.sent, x.packet.getSize ≤ 1491

variable {L : Link} {x : Transition DeviceState DeviceEvent Unit}

theorem step_waits (hx : Step L x) (h : x.pre.link.Waits L) : x.post.link.Waits L := by
  unfold Step at hx
  split at hx
  · exact hx.1.waits h
  · rw [hx]
    exact h

theorem step_small (hx : Step L x)
    (hmtu : ∀ mac mtu, x.event = .setMtu mac mtu → mtu.toNat ≤ 1491) (h : x.pre.Small) :
    x.post.Small := by
  unfold Step at hx
  split at hx
  · obtain ⟨hdoes, hdevices, hsend⟩ := hx
    refine ⟨by rw [hdevices]; exact h.mtu, fun y hy => ?_⟩
    obtain hy | he := hdoes.mem_sent hy
    · exact h.sent y hy
    · exact (hsend y he).trans (h.mtu y.mac)
  · rename_i mac mtu he
    have hdevices : x.post.devices =
        Function.update x.pre.devices mac ((x.pre.devices mac).setMtu mtu).2 :=
      congrArg DeviceState.devices hx
    refine ⟨fun mac' => ?_, by rw [hx]; exact h.sent⟩
    rw [hdevices]
    by_cases hmac : mac' = mac
    · subst hmac
      rw [Function.update_self, TdmaNetDevice.setMtu]
      split_ifs
      · exact h.mtu mac'
      · exact hmtu mac' mtu he
    · rw [Function.update_of_ne hmac]
      exact h.mtu mac'

theorem Initial.waits {s : DeviceState} (h : s.Initial) : s.link.Waits L := fun mac i hi => by
  rw [h.link.queues mac] at hi
  cases hi

/-- In every state reached a MAC that is given a slot passes the assertion exactly if the packet
at the head of its queue has no more than 1491 bytes, as they all have if no MTU is greater. -/
theorem transmittable_iff (L : Link) {s u : DeviceState}
    {tr : List (Transition DeviceState DeviceEvent Unit)} (hs : s.Initial)
    (hrun : Run (Step L) s tr u) :
    (∀ mac, u.link.Transmittable mac ↔
      ∀ x, u.link.AtHead L mac x → x.packet.getSize ≤ 1491) ∧
    ((∀ mac, (s.devices mac).getMtu.toNat ≤ 1491) →
      (∀ x ∈ tr, ∀ mac mtu, x.event = .setMtu mac mtu → mtu.toNat ≤ 1491) →
        ∀ mac, u.link.Transmittable mac) := by
  have hwaits : u.link.Waits L :=
    (hrun.invariant (I := fun s => s.link.Waits L) (fun x hx h => step_waits hx h) hs.waits).1
  refine ⟨fun mac => hwaits.transmittable_iff_size, fun hstart hmtu mac => ?_⟩
  have hsmall : s.Small := ⟨hstart, by simp [hs.link.sent]⟩
  have hend := (hrun.invariant_of (I := Small) (fun x hx hC h => step_small hx hC h) hmtu
    hsmall).1
  exact hwaits.transmittable_iff_size.mpr fun x hx => hend.sent x hx.1

/-! ### One packet -/

/-- A packet of so many bytes, to the second of three devices. -/
def sending (size : ℕ) : Sent :=
  ⟨0, ⟨List.replicate size 0, 1, false⟩, none, Sample.macAddress 1, 0x0800⟩

/-- The three devices before and after it is sent. -/
def before (mtu : UInt16) : DeviceState := ⟨⟨0, fun _ => {}, [], [], [], []⟩, fun _ => ⟨mtu⟩⟩

def after (mtu : UInt16) (size : ℕ) : DeviceState :=
  { before mtu with
    link := { (before mtu).link.setQueue 0 ((sending size).call LinkState.threeDevices 0 {}).2 with
      sent := [sending size] } }

theorem initial_before {mtu : UInt16} (hpos : 1 ≤ mtu.toNat) (h : mtu.toNat ≤ 2296) :
    (before mtu).Initial :=
  ⟨⟨fun _ => rfl, rfl, rfl, rfl, rfl⟩, fun _ => ⟨hpos, h⟩⟩

theorem run_sending {m : UInt16} {size : ℕ} (h : size ≤ m.toNat) :
    Run (Step LinkState.threeDevices) (before m)
      [⟨before m, .link (.send (sending size)), (), after m size⟩] (after m size) := by
  have hmtu : ∀ y, LinkEvent.send (sending size) = .send y → y.packet.getSize ≤ m.toNat := by
    rintro y ⟨⟩
    exact List.length_replicate.trans_le h
  have hstep : Step LinkState.threeDevices
      ⟨before m, .link (.send (sending size)), (), after m size⟩ :=
    ⟨LinkState.Does.send (sending size), rfl, hmtu⟩
  exact Run.single _ hstep

theorem atHead_after (mtu : UInt16) (size : ℕ) :
    (after mtu size).link.AtHead LinkState.threeDevices 0 (sending size) :=
  ⟨List.mem_singleton.mpr rfl, rfl, rfl⟩

/-- The greatest packet of a device with an MTU of 1491. -/
theorem transmittable_iff_small : (after 1491 1491).link.Transmittable 0 := by
  have h := transmittable_iff LinkState.threeDevices (initial_before (by decide) (by decide))
    (run_sending (m := 1491) (le_refl 1491))
  refine h.2 (fun _ => le_refl 1491) (fun x hx mac mtu hmtu => ?_) 0
  rw [List.mem_singleton.mp hx] at hmtu
  cases hmtu

/-- The greatest packet of a device with the default MTU. -/
theorem not_transmittable : ¬ (after 2296 2296).link.Transmittable 0 ∧
    ¬ ∀ (L : Link) (s u : DeviceState) (tr : List (Transition DeviceState DeviceEvent Unit)),
      s.Initial → Run (Step L) s tr u → ∀ mac, u.link.Transmittable mac := by
  have hs : (before 2296).Initial := initial_before (by decide) (by decide)
  have hrun := run_sending (m := 2296) (le_refl 2296)
  have hwaits := (hrun.invariant (I := fun s => s.link.Waits LinkState.threeDevices)
    (fun x hx h => step_waits hx h) hs.waits).1
  have hnot : ¬ (after 2296 2296).link.Transmittable 0 := fun h => by
    have hle := hwaits.transmittable_iff_size.mp h _ (atHead_after 2296 2296)
    have hsize : (sending 2296).packet.getSize = 2296 := List.length_replicate
    rw [hsize] at hle
    exact absurd hle (by decide)
  exact ⟨hnot, fun h => hnot (h _ _ _ _ hs hrun 0)⟩

end DeviceState

end SAeroRP
