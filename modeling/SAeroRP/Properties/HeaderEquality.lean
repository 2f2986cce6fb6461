import SAeroRP.Packet.Comparison

/-! Header equality against equality on the wire. Of the eight comparisons three are right, one
forgets a field, and four compare arrays by address. -/

namespace SAeroRP.HeaderClass

open Library

/-- The headers are written as the same bytes; of two type headers both or none has a known
type. -/
def WireEqual (c : HeaderClass) (h o : c.Header) : Prop :=
  c.serialize h = c.serialize o ∧ (c.Known h ↔ c.Known o)

theorem serialize_injective {c : HeaderClass} (hc : c ≠ .type) :
    Function.Injective c.serialize := by
  intro h o heq
  have happend : c.serialize h ++ [] = c.serialize o ++ [] := congrArg (· ++ []) heq
  exact ((exact_readFields h hc).append_inj happend).1

theorem toU8_injective : Function.Injective MessageType.toU8 := by
  intro t t' heq
  have hsome := congrArg MessageType.ofU8 heq
  rw [MessageType.ofU8_toU8, MessageType.ofU8_toU8] at hsome
  exact Option.some.inj hsome

/-- The bytes, with the mark of a type header, are all there is to a header. -/
theorem wireEqual_iff {c : HeaderClass} {h o : c.Header} : c.WireEqual h o ↔ h = o := by
  constructor
  · rintro ⟨hbytes, hknown⟩
    by_cases hc : c = .type
    · subst hc
      obtain ⟨t, v⟩ : TypeHeader := h
      obtain ⟨t', v'⟩ : TypeHeader := o
      have ht : t = t' := toU8_injective (List.singleton_inj.mp hbytes)
      have hv : v = v' := Bool.eq_iff_iff.mpr hknown
      rw [ht, hv]
    · exact serialize_injective hc hbytes
  · rintro rfl
    exact ⟨rfl, Iff.rfl⟩

/-- Equality is equality on the wire. -/
def ComparesWire (c : HeaderClass) (objects : ObjectPtr → c.Header) (p q : ObjectPtr) : Prop :=
  c.operatorEq objects p q = true ↔ c.WireEqual (objects p) (objects q)

/-- The headers do not differ in the node alone; the objects are one, or have not the same
contents. -/
def Distinguished : (c : HeaderClass) → (ObjectPtr → c.Header) → ObjectPtr → ObjectPtr → Prop
  | type, _, _, _ | hello, _, _, _ | gsTopology, _, _, _ => True
  | gsGeoLocation, objects, p, q =>
    let h : GSGeoLocationHeader := objects p
    let o : GSGeoLocationHeader := objects q
    h.node = o.node ∨ { h with node := o.node } ≠ o
  | authenticationRequest, objects, p, q => p = q ∨ objects p ≠ objects q
  | authenticationReply, objects, p, q => p = q ∨ objects p ≠ objects q
  | secureHello, objects, p, q => p = q ∨ objects p ≠ objects q
  | secureGSGeoLocation, objects, p, q => p = q ∨ objects p ≠ objects q

/-- A comparison by address is right about an object and itself and about different contents. -/
theorem address_iff {α : Type} {objects : ObjectPtr → α} {p q : ObjectPtr} :
    (p = q ↔ objects p = objects q) ↔ p = q ∨ objects p ≠ objects q := by
  by_cases hpq : p = q
  · simp [hpq]
  · simp [hpq]

/-- A comparison of all fields but the node is right unless the node alone is different. -/
theorem node_iff {h o : GSGeoLocationHeader} :
    ({ h with node := o.node } = o ↔ h = o) ↔ h.node = o.node ∨ { h with node := o.node } ≠ o := by
  have hsplit : h = o ↔ h.node = o.node ∧ { h with node := o.node } = o := by
    cases h
    cases o
    simp
  rw [hsplit]
  by_cases hrest : { h with node := o.node } = o
  · simp [hrest]
  · simp [hrest]

/-- Equality is equality on the wire exactly for these pairs of objects. -/
theorem comparesWire_iff (c : HeaderClass) (objects : ObjectPtr → c.Header) (p q : ObjectPtr) :
    c.ComparesWire objects p q ↔ c.Distinguished objects p q := by
  rw [ComparesWire, wireEqual_iff]
  cases c with
  | type => exact iff_true_intro TypeHeader.operatorEq_iff
  | hello => exact iff_true_intro HelloHeader.operatorEq_iff
  | gsTopology => exact iff_true_intro GSTopologyHeader.operatorEq_iff
  | gsGeoLocation => exact (iff_congr GSGeoLocationHeader.operatorEq_iff Iff.rfl).trans node_iff
  | authenticationRequest =>
    exact (iff_congr AuthenticationRequestHeader.operatorEq_iff Iff.rfl).trans address_iff
  | authenticationReply =>
    exact (iff_congr AuthenticationReplyHeader.operatorEq_iff Iff.rfl).trans address_iff
  | secureHello => exact (iff_congr SecureHelloHeader.operatorEq_iff Iff.rfl).trans address_iff
  | secureGSGeoLocation =>
    exact (iff_congr SecureGSGeoLocationHeader.operatorEq_iff Iff.rfl).trans address_iff

/-- Two objects with the same cipher and tag are different, and the positions of two nodes are
equal. -/
theorem not_comparesWire :
    let cipher : SecureHelloHeader := ⟨List.Vector.replicate _ 0, List.Vector.replicate _ 0⟩
    let position (node : Ipv4Address) : GSGeoLocationHeader := ⟨node, 0, 0, 0, 0, 0, 0, 0, 0⟩
    secureHello.operatorEq (fun _ => cipher) 0 1 = false ∧
      gsGeoLocation.operatorEq (fun p => position (UInt32.ofNat p)) 1 2 = true ∧
      ¬ ∀ (c : HeaderClass) (objects : ObjectPtr → c.Header) (p q : ObjectPtr),
        c.ComparesWire objects p q := by
  intro cipher position
  refine ⟨rfl, rfl, fun h => ?_⟩
  have hwire : secureHello.WireEqual cipher cipher := wireEqual_iff.mpr rfl
  exact absurd ((h .secureHello (fun _ => cipher) 0 1).mpr hwire) (by decide)

end SAeroRP.HeaderClass
