import SAeroRP.Packet.Codec

/-! The comparison of two header objects, as each class writes it. The arrays of an object are
compared with those of another by address, so the comparison is one of objects in memory. -/

namespace SAeroRP

/-- Where an object lies in memory. -/
abbrev ObjectPtr := ℕ

/-- Whether an array of one object is at the address of the same array of another. -/
def sameArray (p q : ObjectPtr) : Bool := p == q

/-! ### Operators -/

def TypeHeader.operatorEq (h o : TypeHeader) : Bool := h.type == o.type && h.valid == o.valid

def HelloHeader.operatorEq (h o : HelloHeader) : Bool :=
  h.originPosx == o.originPosx && h.originPosy == o.originPosy && h.originPosz == o.originPosz &&
    h.velSign == o.velSign && h.originVelx == o.originVelx && h.originVely == o.originVely &&
    h.originVelz == o.originVelz

/-- The node is not compared. -/
def GSGeoLocationHeader.operatorEq (h o : GSGeoLocationHeader) : Bool :=
  h.nodePosx == o.nodePosx && h.nodePosy == o.nodePosy && h.nodePosz == o.nodePosz &&
    h.nodeVelocityx == o.nodeVelocityx && h.nodeVelocityy == o.nodeVelocityy &&
    h.nodeVelocityz == o.nodeVelocityz && h.startTime == o.startTime && h.endTime == o.endTime

def GSTopologyHeader.operatorEq (h o : GSTopologyHeader) : Bool :=
  h.node1 == o.node1 && h.node2 == o.node2 && h.linkCost == o.linkCost &&
    h.linkStartTime == o.linkStartTime && h.linkEndTime == o.linkEndTime

def AuthenticationRequestHeader.operatorEq (objects : ObjectPtr → AuthenticationRequestHeader)
    (p q : ObjectPtr) : Bool :=
  sameArray p q && (objects p).timeStamp == (objects q).timeStamp &&
    (objects p).randomNo == (objects q).randomNo &&
    (objects p).identification == (objects q).identification && sameArray p q

def AuthenticationReplyHeader.operatorEq (objects : ObjectPtr → AuthenticationReplyHeader)
    (p q : ObjectPtr) : Bool :=
  sameArray p q && (objects p).timeStamp == (objects q).timeStamp &&
    (objects p).randomNo == (objects q).randomNo &&
    (objects p).oldRandomNo == (objects q).oldRandomNo &&
    (objects p).identification == (objects q).identification && sameArray p q && sameArray p q

def SecureHelloHeader.operatorEq (p q : ObjectPtr) : Bool := sameArray p q && sameArray p q

def SecureGSGeoLocationHeader.operatorEq (p q : ObjectPtr) : Bool := sameArray p q && sameArray p q

namespace HeaderClass

/-- The object at `p` compared with that at `q`. -/
def operatorEq : (c : HeaderClass) → (ObjectPtr → c.Header) → ObjectPtr → ObjectPtr → Bool
  | type, objects, p, q => TypeHeader.operatorEq (objects p) (objects q)
  | hello, objects, p, q => HelloHeader.operatorEq (objects p) (objects q)
  | gsGeoLocation, objects, p, q => GSGeoLocationHeader.operatorEq (objects p) (objects q)
  | gsTopology, objects, p, q => GSTopologyHeader.operatorEq (objects p) (objects q)
  | authenticationRequest, objects, p, q => AuthenticationRequestHeader.operatorEq objects p q
  | authenticationReply, objects, p, q => AuthenticationReplyHeader.operatorEq objects p q
  | secureHello, _, p, q => SecureHelloHeader.operatorEq p q
  | secureGSGeoLocation, _, p, q => SecureGSGeoLocationHeader.operatorEq p q

end HeaderClass

/-! ### What they compare -/

theorem TypeHeader.operatorEq_iff {h o : TypeHeader} : h.operatorEq o = true ↔ h = o := by
  cases h
  cases o
  simp [operatorEq]

theorem HelloHeader.operatorEq_iff {h o : HelloHeader} : h.operatorEq o = true ↔ h = o := by
  cases h
  cases o
  simp [operatorEq, and_assoc]

/-- Whatever the node of the first is. -/
theorem GSGeoLocationHeader.operatorEq_iff {h o : GSGeoLocationHeader} :
    h.operatorEq o = true ↔ { h with node := o.node } = o := by
  cases h
  cases o
  simp [operatorEq, and_assoc]

theorem GSTopologyHeader.operatorEq_iff {h o : GSTopologyHeader} :
    h.operatorEq o = true ↔ h = o := by
  cases h
  cases o
  simp [operatorEq, and_assoc]

section
variable {p q : ObjectPtr}

@[simp] theorem sameArray_iff : sameArray p q = true ↔ p = q := beq_iff_eq

/-- A comparison of an array, and of what is equal in one object, tells all objects apart. -/
theorem and_sameArray_iff {fields : Bool} (h : p = q → fields = true) :
    (fields && sameArray p q) = true ↔ p = q := by
  rw [Bool.and_eq_true, sameArray_iff]
  exact ⟨fun hboth => hboth.2, fun hpq => ⟨h hpq, hpq⟩⟩

theorem AuthenticationRequestHeader.operatorEq_iff
    {objects : ObjectPtr → AuthenticationRequestHeader} : operatorEq objects p q = true ↔ p = q := by
  refine and_sameArray_iff ?_
  rintro rfl
  simp

theorem AuthenticationReplyHeader.operatorEq_iff
    {objects : ObjectPtr → AuthenticationReplyHeader} : operatorEq objects p q = true ↔ p = q := by
  refine and_sameArray_iff ?_
  rintro rfl
  simp

theorem SecureHelloHeader.operatorEq_iff : operatorEq p q = true ↔ p = q :=
  and_sameArray_iff sameArray_iff.mpr

theorem SecureGSGeoLocationHeader.operatorEq_iff : operatorEq p q = true ↔ p = q :=
  and_sameArray_iff sameArray_iff.mpr

end

end SAeroRP
