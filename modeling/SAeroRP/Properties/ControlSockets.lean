import Mathlib.Data.Nat.Basic
import SAeroRP.System.Interfaces

/-! The control sockets are as they should be after every notification exactly as long as
the notifications are among those the protocol handles. Until then there is at most one
socket in each map: that of the data interface for its first address, and that of the
authentication interface since it came up. -/

namespace SAeroRP

open Library

namespace Interfaces

/-! ### Maps with at most one socket -/

section
variable {m : Std.ExtTreeMap SocketId Ipv4InterfaceAddress} {r r' : SocketRegistry} {i j : ℕ}
  {a : Ipv4InterfaceAddress} {o : Option Ipv4InterfaceAddress} {k : SocketId}

/-- The map holds an open socket of the interface for the address, or nothing. -/
def Holds (r : SocketRegistry) (m : Std.ExtTreeMap SocketId Ipv4InterfaceAddress) (i : ℕ) :
    Option Ipv4InterfaceAddress → Prop
  | none => m = ∅
  | some a => ∃ k, m = (∅ : Std.ExtTreeMap SocketId Ipv4InterfaceAddress).insert k a ∧
      ∃ c, r.sockets k = some c ∧ c.interface = i ∧ c.isOpen = true

theorem mem_singleton : j ∈ (∅ : Std.ExtTreeMap SocketId Ipv4InterfaceAddress).insert k a ↔
    k = j := by
  simp [Std.ExtTreeMap.mem_insert]

theorem toList_singleton (k : SocketId) (a : Ipv4InterfaceAddress) :
    ((∅ : Std.ExtTreeMap SocketId Ipv4InterfaceAddress).insert k a).toList = [(k, a)] := by
  have hlen : ((∅ : Std.ExtTreeMap SocketId Ipv4InterfaceAddress).insert k a).toList.length = 1 := by
    simp [Std.ExtTreeMap.length_toList, Std.ExtTreeMap.size_insert]
  obtain ⟨x, hx⟩ := List.length_eq_one_iff.mp hlen
  have hmem : (k, a) ∈ ((∅ : Std.ExtTreeMap SocketId Ipv4InterfaceAddress).insert k a).toList :=
    Std.ExtTreeMap.mem_toList_iff_getElem?_eq_some.mpr (by simp)
  rw [hx] at hmem ⊢
  rw [List.mem_singleton.mp hmem]

theorem erase_singleton (k : SocketId) (a : Ipv4InterfaceAddress) :
    ((∅ : Std.ExtTreeMap SocketId Ipv4InterfaceAddress).insert k a).erase k = ∅ := by
  rw [Std.ExtTreeMap.erase_eq_empty_iff]
  right
  simp [Std.ExtTreeMap.size_insert]

theorem Holds.interface (h : Holds r m i o) (howns : Owns r m j k) : j = i ∧ o.isSome = true := by
  cases o with
  | none =>
    rw [Holds] at h
    subst h
    exact absurd howns.1 Std.ExtTreeMap.not_mem_empty
  | some a =>
    obtain ⟨k', rfl, c, hc, rfl, -⟩ := h
    obtain ⟨hmem, c', hc', rfl, -⟩ := howns
    obtain rfl := mem_singleton.mp hmem
    rw [hc] at hc'
    cases hc'
    exact ⟨rfl, rfl⟩

/-- Nothing is owned while nothing is held. -/
theorem Holds.not_owns (h : Holds r m i none) : ¬ Owns r m j k := fun howns => by
  cases (h.interface howns).2

theorem Holds.existsUnique (h : Holds r m i (some a)) : ∃! k, Owns r m i k := by
  obtain ⟨k, rfl, hc⟩ := h
  exact ⟨k, ⟨mem_singleton.mpr rfl, hc⟩, fun k' hk' => (mem_singleton.mp hk'.1).symm⟩

/-- Other sockets do not matter. -/
theorem Holds.congr (h : Holds r m i o)
    (hsockets : ∀ k c, r.sockets k = some c → c.interface = i → r'.sockets k = some c) :
    Holds r' m i o := by
  cases o with
  | none => exact h
  | some a =>
    obtain ⟨k, hm, c, hc, hi, hopen⟩ := h
    exact ⟨k, hm, c, hsockets k c hc hi, hi, hopen⟩

/-- A socket that is new does not matter. -/
theorem update_of_new (hnew : r.sockets k = none) {c : ControlSocket} (v : Option ControlSocket)
    (hc : r.sockets j = some c) : Function.update r.sockets k v j = some c := by
  have hne : j ≠ k := by
    rintro rfl
    rw [hnew] at hc
    cases hc
  rw [Function.update_of_ne hne, hc]

/-- The search finds the address that is registered. -/
theorem Holds.find_isSome_iff (h : Holds r r.socketAddresses i o) :
    (r.findSocketWithInterfaceAddress a).isSome = true ↔ o = some a := by
  rw [SocketRegistry.findSocketWithInterfaceAddress]
  cases o with
  | none =>
    rw [Holds] at h
    simp [h]
  | some a' =>
    obtain ⟨k, hm, -⟩ := h
    rw [hm, toList_singleton]
    by_cases ha : a' = a <;> simp [ha]

/-- The socket that is found is the only one. -/
theorem Holds.find_eq_some (h : Holds r r.socketAddresses i o)
    (hk : r.findSocketWithInterfaceAddress a = some k) :
    o = some a ∧ r.socketAddresses.erase k = ∅ ∧
      ∃ c, r.sockets k = some c ∧ c.interface = i ∧ c.isOpen = true := by
  have ho := h.find_isSome_iff.mp (by rw [hk]; rfl)
  subst ho
  obtain ⟨k', hm, hc⟩ := h
  rw [SocketRegistry.findSocketWithInterfaceAddress, hm, toList_singleton] at hk
  have hkk : k' = k := by simpa using hk
  subst hkk
  exact ⟨rfl, by rw [hm, erase_singleton], hc⟩

end

/-! ### What holds between notifications -/

/-- The data interface holds a socket for its first address while it is up; the
authentication interface holds one while it is up. -/
structure Kept (s : Interfaces) : Prop where
  loopback : s.l3.addresses 0 ≠ []
  data : Holds s.registry s.registry.socketAddresses 1 (s.l3.first 1)
  authentication : ∃ o, Holds s.registry s.registry.authSocketAddresses 2 o ∧
    (o.isSome = s.l3.isUp 2)

variable {s : Interfaces} {x : Transition Interfaces Event (Option Fault)}

theorem first_of_up {l3 : Ipv4L3Protocol} {i : ℕ} (h : l3.isUp i = true) :
    l3.first i = (l3.addresses i).head? := if_pos h

theorem first_of_down {l3 : Ipv4L3Protocol} {i : ℕ} (h : l3.isUp i = false) : l3.first i = none := by
  rw [Ipv4L3Protocol.first, h]
  rfl

theorem Initial.kept (h : s.Initial) : s.Kept where
  loopback := h.loopback
  data := by
    rw [first_of_down (h.isUp 1 (.inl rfl))]
    exact h.socketAddresses
  authentication := ⟨none, h.authSocketAddresses, by rw [h.isUp 2 (.inr rfl)]; rfl⟩

theorem Kept.registered (h : s.Kept) : s.Registered := by
  obtain ⟨o, hauth, ho⟩ := h.authentication
  constructor
  · intro hup hne
    obtain ⟨a, l, hl⟩ := List.exists_cons_of_ne_nil hne
    have hdata := h.data
    rw [first_of_up hup, hl] at hdata
    exact ⟨hdata.existsUnique, fun k howns => absurd (hauth.interface howns).1 (by decide)⟩
  · intro hup _
    rw [hup] at ho
    obtain ⟨a, rfl⟩ := Option.isSome_iff_exists.mp ho
    exact ⟨hauth.existsUnique, fun k howns => absurd (h.data.interface howns).1 (by decide)⟩
  · intro i _ hdown k
    constructor
    · intro howns
      obtain ⟨rfl, hsome⟩ := h.data.interface howns
      rw [first_of_down hdown] at hsome
      cases hsome
    · intro howns
      obtain ⟨rfl, hsome⟩ := hauth.interface howns
      rw [ho, hdown] at hsome
      cases hsome

/-- What an event on the other interface changes does not matter. -/
theorem first_congr {l3 l3' : Ipv4L3Protocol} {i : ℕ} (hup : l3'.isUp i = l3.isUp i)
    (haddresses : l3'.addresses i = l3.addresses i) : l3'.first i = l3.first i := by
  simp only [Ipv4L3Protocol.first, hup, haddresses]

theorem Kept.of_first {l3 : Ipv4L3Protocol} {r : SocketRegistry} {o : Option Ipv4InterfaceAddress}
    (hloopback : l3.addresses 0 ≠ []) (hfirst : l3.first 1 = o)
    (hdata : Holds r r.socketAddresses 1 o)
    (hauth : ∃ o, Holds r r.authSocketAddresses 2 o ∧ o.isSome = l3.isUp 2) : Kept ⟨l3, r⟩ :=
  ⟨hloopback, hfirst ▸ hdata, hauth⟩

/-- The authentication interface, while what is registered for it and its state stay. -/
theorem Kept.authentication_congr (h : s.Kept) {l3 : Ipv4L3Protocol} {r : SocketRegistry}
    (hup : l3.isUp 2 = s.l3.isUp 2)
    (hmap : r.authSocketAddresses = s.registry.authSocketAddresses)
    (hsockets : ∀ k c, s.registry.sockets k = some c → c.interface = 2 → r.sockets k = some c) :
    ∃ o, Holds r r.authSocketAddresses 2 o ∧ o.isSome = l3.isUp 2 := by
  obtain ⟨o, hauth, ho⟩ := h.authentication
  exact ⟨o, hmap ▸ hauth.congr hsockets, ho.trans hup.symm⟩

/-- The first socket that is created. -/
theorem holds_register {r : SocketRegistry} (new : SocketId) {c : ControlSocket} {i : ℕ}
    {a : Ipv4InterfaceAddress} (hempty : r.socketAddresses = ∅) (hc : c.interface = i)
    (hopen : c.isOpen = true) :
    Holds (r.register new c a) (r.register new c a).socketAddresses i (some a) := by
  refine ⟨new, ?_, c, Function.update_self .., hc, hopen⟩
  rw [SocketRegistry.register, hempty]

theorem not_registered_data {l3 : Ipv4L3Protocol} {r : SocketRegistry} (hup : l3.isUp 1 = true)
    (hne : l3.addresses 1 ≠ []) (hnone : ∀ k, ¬ Owns r r.socketAddresses 1 k) :
    ¬ Registered ⟨l3, r⟩ := by
  intro hreg
  obtain ⟨⟨k, hk, -⟩, -⟩ := hreg.data hup hne
  exact hnone k hk

/-! ### One notification -/

/-- The event is handled and what holds is kept, or it is not and the sockets are wrong. -/
def Settled (x : Transition Interfaces Event (Option Fault)) : Prop :=
  x.pre.Handles x.event ∧ x.out = none ∧ x.post.Kept ∨ ¬ x.pre.Handles x.event ∧ ¬ Lawful x

section
variable {e : Event} {o : Option Fault} {t : Interfaces} {i index : ℕ}
  {new newAuth : SocketId} {address : Ipv4InterfaceAddress}

theorem Step.settled_error (h : Step ⟨s, e, o, t⟩) {f : Fault}
    (hf : notify (change s.l3 e) s.registry e = .error f) (hunhandled : ¬ s.Handles e) :
    Settled ⟨s, e, o, t⟩ := by
  have hperform : (t, o) = (_, some f) := h.2.trans (by simp only [perform, hf]; rfl)
  cases hperform
  exact .inr ⟨hunhandled, fun hlawful => nomatch hlawful.1⟩

theorem Step.settled_ok (h : Step ⟨s, e, o, t⟩) {r : SocketRegistry}
    (hr : notify (change s.l3 e) s.registry e = .ok r)
    (hcase : s.Handles e ∧ Kept ⟨change s.l3 e, r⟩ ∨
      ¬ s.Handles e ∧ ¬ Registered ⟨change s.l3 e, r⟩) : Settled ⟨s, e, o, t⟩ := by
  have hperform : (t, o) = (⟨change s.l3 e, r⟩, none) := h.2.trans (by simp only [perform, hr])
  cases hperform
  rcases hcase with ⟨hhandled, hkept⟩ | ⟨hunhandled, hnot⟩
  · exact .inl ⟨hhandled, rfl, hkept⟩
  · exact .inr ⟨hunhandled, fun hlawful => hnot hlawful.2⟩

theorem settled_start (h : Step ⟨s, .start, o, t⟩) (hs : s.Kept) : Settled ⟨s, .start, o, t⟩ :=
  h.settled_ok rfl (.inl ⟨trivial, hs.loopback, hs.data, hs.authentication⟩)

/-- An interface that comes up without a new socket has none. -/
theorem not_registered_setUp (hs : s.Kept) (hi : IsControl i) (hdown : s.l3.isUp i = false)
    (hne : s.l3.addresses i ≠ []) : ¬ Registered ⟨s.l3.setUp i, s.registry⟩ := by
  have hup : (s.l3.setUp i).isUp i = true := Function.update_self ..
  rcases hi with rfl | rfl
  · have hdata := hs.data
    rw [first_of_down hdown] at hdata
    exact not_registered_data hup hne fun k => hdata.not_owns
  · intro hreg
    obtain ⟨⟨k, howns, -⟩, -⟩ := hreg.authentication hup hne
    obtain ⟨o, hauth, ho⟩ := hs.authentication
    rw [hdown, Option.isSome_eq_false_iff, Option.isNone_iff_eq_none] at ho
    subst ho
    exact hauth.not_owns howns

/-- The socket that is created for an interface that comes up is its first. -/
theorem kept_setUp (hs : s.Kept) (hi : IsControl i) (hdown : s.l3.isUp i = false)
    (hnew : s.registry.sockets new = none) {a : Ipv4InterfaceAddress}
    (hhead : (s.l3.addresses i).head? = some a) :
    Kept ⟨s.l3.setUp i, if i = 1 then s.registry.register new ⟨i, some i, true, true⟩ a
      else if i = 2 then s.registry.registerAuth new ⟨i, some i, false, true⟩ a
      else s.registry⟩ := by
  have hup : (s.l3.setUp i).isUp i = true := Function.update_self ..
  rcases hi with rfl | rfl
  · have hempty := hs.data
    rw [first_of_down hdown, Holds] at hempty
    have hfirst : (s.l3.setUp 1).first 1 = some a := (first_of_up hup).trans hhead
    exact .of_first hs.loopback hfirst (holds_register new hempty rfl rfl)
      (hs.authentication_congr rfl rfl fun k c hc _ => update_of_new hnew _ hc)
  · obtain ⟨o, hauth, ho⟩ := hs.authentication
    rw [hdown, Option.isSome_eq_false_iff, Option.isNone_iff_eq_none] at ho
    subst ho
    have hfirst : (s.l3.setUp 2).first 1 = s.l3.first 1 := first_congr rfl rfl
    refine .of_first hs.loopback hfirst (hs.data.congr fun k c hc _ => update_of_new hnew _ hc)
      ⟨some a, ⟨new, ?_, _, Function.update_self .., rfl, rfl⟩, hup.symm⟩
    show s.registry.authSocketAddresses.insert new a = _
    rw [show s.registry.authSocketAddresses = ∅ from hauth]

theorem settled_setUp (h : Step ⟨s, .setUp i new, o, t⟩) (hs : s.Kept) :
    Settled ⟨s, .setUp i new, o, t⟩ := by
  obtain ⟨hi, hdown, hnew⟩ : IsControl i ∧ s.l3.isUp i = false ∧ s.registry.sockets new = none := h.1
  cases hhead : (s.l3.addresses i).head? with
  | none =>
    have hnil := List.head?_eq_none_iff.mp hhead
    refine h.settled_error (SocketRegistry.notifyInterfaceUp_nil (s.l3.setUp i) new hnil) ?_
    rintro ⟨a, ha, -⟩
    rw [hhead] at ha
    cases ha
  | some a =>
    refine h.settled_ok (SocketRegistry.notifyInterfaceUp_eq (s.l3.setUp i) new hhead) ?_
    by_cases ha : a.localAddress = Ipv4Address.loopback
    · right
      rw [if_pos ha]
      refine ⟨fun ⟨b, hb, hnot⟩ => ?_,
        not_registered_setUp hs hi hdown (List.ne_nil_of_mem (List.mem_of_head? hhead))⟩
      rw [hhead] at hb
      cases hb
      exact hnot ha
    · left
      rw [if_neg ha]
      exact ⟨⟨a, hhead, ha⟩, kept_setUp hs hi hdown hnew hhead⟩

theorem close_of_ne {r : SocketRegistry} {k j : SocketId} {c d : ControlSocket}
    (hk : r.sockets k = some c) (hj : r.sockets j = some d) (hne : c.interface ≠ d.interface) :
    (r.close k).sockets j = some d := by
  have hjk : j ≠ k := by
    rintro rfl
    rw [hk] at hj
    cases hj
    exact hne rfl
  exact (Function.update_of_ne hjk ..).trans hj

theorem settled_setDown (h : Step ⟨s, .setDown i, o, t⟩) (hs : s.Kept) :
    Settled ⟨s, .setDown i, o, t⟩ := by
  obtain ⟨hi, hup⟩ : IsControl i ∧ s.l3.isUp i = true := h.1
  have hdown : (s.l3.setDown i).isUp i = false := Function.update_self ..
  cases hhead : (s.l3.addresses i).head? with
  | none =>
    have hnil := List.head?_eq_none_iff.mp hhead
    refine h.settled_error (SocketRegistry.notifyInterfaceDown_nil (s.l3.setDown i) hnil) ?_
    rintro ⟨rfl, hne, -⟩
    exact hne hnil
  | some a =>
    cases hfind : s.registry.findSocketWithInterfaceAddress a with
    | none =>
      refine h.settled_error
        (SocketRegistry.notifyInterfaceDown_none (s.l3.setDown i) hhead hfind) ?_
      rintro ⟨rfl, -, -⟩
      have hfirst := hs.data.find_isSome_iff.mpr ((first_of_up hup).trans hhead)
      rw [hfind] at hfirst
      cases hfirst
    | some k =>
      obtain ⟨-, hlast, c, hc, hinterface, -⟩ := hs.data.find_eq_some hfind
      have hcall := SocketRegistry.notifyInterfaceDown_last (s.l3.setDown i) hhead hfind hlast
      by_cases hgod : s.registry.godGroundStation = true
      · rw [if_pos hgod] at hcall
        refine h.settled_ok hcall ?_
        rcases hi with rfl | rfl
        · refine .inl ⟨⟨rfl, List.ne_nil_of_mem (List.mem_of_head? hhead), hgod⟩,
            .of_first hs.loopback (first_of_down hdown) ?_ ?_⟩
          · exact hlast
          · refine hs.authentication_congr rfl rfl fun j d hd hdi => close_of_ne hc hd ?_
            rw [hinterface, hdi]
            decide
        · refine .inr ⟨fun ⟨heq, _⟩ => absurd heq (by decide), fun hreg => ?_⟩
          obtain ⟨o, hauth, ho⟩ := hs.authentication
          rw [hup] at ho
          obtain ⟨b, rfl⟩ := Option.isSome_iff_exists.mp ho
          obtain ⟨j, ⟨hmem, d, hd, hdi, hopen⟩, -⟩ := hauth.existsUnique
          have hclosed := close_of_ne hc hd (by rw [hinterface, hdi]; decide)
          exact (hreg.down 2 (.inr rfl) hdown j).2 ⟨hmem, d, hclosed, hdi, hopen⟩
      · rw [if_neg hgod] at hcall
        exact h.settled_error hcall fun hhandled => hgod hhandled.2.2

/-- An address that is added to the data interface is registered if it is the first. -/
theorem settled_addAddress_data (h : Step ⟨s, .addAddress 1 address new newAuth, o, t⟩)
    (hs : s.Kept) (hup : s.l3.isUp 1 = true) :
    Settled ⟨s, .addAddress 1 address new newAuth, o, t⟩ := by
  obtain ⟨-, hnew, -⟩ := h.1
  have haddresses := s.l3.addresses_addAddress 1 address
  have hne : (s.l3.addAddress 1 address).addresses 1 ≠ [] := by
    rw [haddresses]
    simp
  have hfirst : (s.l3.addAddress 1 address).first 1 = (s.l3.addresses 1 ++ [address]).head? := by
    rw [← haddresses]
    exact first_of_up hup
  cases hl : s.l3.addresses 1 with
  | nil =>
    have hempty := hs.data
    rw [first_of_up hup, hl, List.head?_nil] at hempty
    rw [hl] at haddresses hfirst
    have hnone : ¬ (s.registry.findSocketWithInterfaceAddress address).isSome = true := by
      rw [Holds.find_isSome_iff (i := 1) (o := none) hempty]
      exact nofun
    have hcall := SocketRegistry.notifyAddAddress_up (s.l3.addAddress 1 address) new newAuth
      (r := s.registry) (a := address) hup hne
      (by rw [haddresses]; rfl)
    by_cases ha : address.localAddress = Ipv4Address.loopback
    · rw [if_pos (.inr ha)] at hcall
      refine h.settled_ok hcall (.inr ⟨fun hhandled => ?_, ?_⟩)
      · exact hhandled hup hl ha
      · exact not_registered_data hup hne fun k => Holds.not_owns (i := 1) hempty
    · rw [if_neg (not_or.mpr ⟨hnone, ha⟩)] at hcall
      refine h.settled_ok hcall (.inl ⟨fun _ _ => ha, ?_⟩)
      exact .of_first hs.loopback hfirst (holds_register new hempty rfl rfl)
        (hs.authentication_congr rfl rfl fun k c hc _ => update_of_new hnew _ hc)
  | cons a l =>
    have hregistered : s.l3.first 1 = some a := by
      rw [first_of_up hup, hl]
      rfl
    have hcall := SocketRegistry.notifyAddAddress_up (s.l3.addAddress 1 address) new newAuth
      (r := s.registry) (a := a) hup hne
      (by rw [haddresses, hl]; rfl)
    rw [if_pos (.inl (hs.data.find_isSome_iff.mpr hregistered))] at hcall
    refine h.settled_ok hcall (.inl ⟨fun _ hnil => ?_, ?_⟩)
    · rw [hl] at hnil
      cases hnil
    · rw [hl, List.cons_append, List.head?_cons, ← hregistered] at hfirst
      exact .of_first hs.loopback hfirst hs.data hs.authentication

/-- For an address that is added to the authentication interface a socket is created in the
map of the data interface, unless the first address is found there. -/
theorem settled_addAddress_authentication
    (h : Step ⟨s, .addAddress 2 address new newAuth, o, t⟩) (hs : s.Kept)
    (hup : s.l3.isUp 2 = true) : Settled ⟨s, .addAddress 2 address new newAuth, o, t⟩ := by
  have haddresses := s.l3.addresses_addAddress 2 address
  have hfirst : (s.l3.addAddress 2 address).first 1 = s.l3.first 1 := first_congr rfl rfl
  have hne : s.l3.addresses 2 ++ [address] ≠ [] := by simp
  obtain ⟨a, l, hl⟩ := List.exists_cons_of_ne_nil hne
  have hhead : (s.l3.addresses 2 ++ [address]).head? = some a := by
    rw [hl]
    rfl
  have hcall := SocketRegistry.notifyAddAddress_up (s.l3.addAddress 2 address) new newAuth
    (r := s.registry) (a := a) hup hs.loopback
    (by rw [haddresses, hhead])
  by_cases hfind : (s.registry.findSocketWithInterfaceAddress a).isSome = true ∨
      a.localAddress = Ipv4Address.loopback
  · rw [if_pos hfind] at hcall
    refine h.settled_ok hcall (.inl ⟨fun _ => ?_, ?_⟩)
    · rw [if_neg (by decide)]
      exact ⟨a, hhead, hfind.symm.imp_right hs.data.find_isSome_iff.mp⟩
    · exact .of_first hs.loopback hfirst hs.data hs.authentication
  · rw [if_neg hfind] at hcall
    refine h.settled_ok hcall (.inr ⟨fun hhandled => ?_, fun hreg => ?_⟩)
    · have hcase := hhandled hup
      rw [if_neg (by decide)] at hcase
      obtain ⟨b, hb, hcase⟩ := hcase
      rw [hhead] at hb
      cases hb
      exact hfind (hcase.symm.imp_left hs.data.find_isSome_iff.mpr)
    · have hnot := (hreg.authentication hup (haddresses ▸ hne)).2 new
      refine hnot ⟨?_, _, Function.update_self .., rfl, rfl⟩
      exact Std.ExtTreeMap.mem_insert_self

theorem settled_addAddress (h : Step ⟨s, .addAddress i address new newAuth, o, t⟩)
    (hs : s.Kept) : Settled ⟨s, .addAddress i address new newAuth, o, t⟩ := by
  obtain ⟨hi, -⟩ := h.1
  cases hup : s.l3.isUp i with
  | true =>
    rcases hi with rfl | rfl
    · exact settled_addAddress_data h hs hup
    · exact settled_addAddress_authentication h hs hup
  | false =>
    have hcall := SocketRegistry.notifyAddAddress_down (s.l3.addAddress i address) new newAuth
      (r := s.registry) hup
    refine h.settled_ok hcall (.inl ⟨fun htrue => ?_, ?_⟩)
    · rw [hup] at htrue
      cases htrue
    · rcases hi with rfl | rfl
      · have hdata := hs.data
        rw [first_of_down hup] at hdata
        exact .of_first hs.loopback (first_of_down hup) hdata hs.authentication
      · exact .of_first hs.loopback (first_congr rfl rfl) hs.data hs.authentication

/-- An address that is not found does not concern the sockets. -/
theorem settled_removeAddress_none (h : Step ⟨s, .removeAddress i index address new, o, t⟩)
    (hs : s.Kept) (hfind : s.registry.findSocketWithInterfaceAddress address = none) :
    Settled ⟨s, .removeAddress i index address new, o, t⟩ := by
  obtain ⟨hi, haddress, -⟩ : IsControl i ∧ (s.l3.addresses i)[index]? = some address ∧ _ := h.1
  have hnot : s.l3.first 1 ≠ some address := by
    rw [Ne, ← hs.data.find_isSome_iff, hfind]
    exact nofun
  have hcall := SocketRegistry.notifyRemoveAddress_none (s.l3.removeAddress i index) new
    (i := i) hfind
  refine h.settled_ok hcall (.inl ?_)
  rcases hi with rfl | rfl
  · cases hup : s.l3.isUp 1 with
    | true =>
      rw [first_of_up hup] at hnot
      -- the address is not the first one
      have hindex : index ≠ 0 := by
        rintro rfl
        rw [← List.head?_eq_getElem?] at haddress
        exact hnot haddress
      have hlt : index < (s.l3.addresses 1).length := (List.getElem?_eq_some_iff.mp haddress).1
      refine ⟨fun _ hone => by omega, .of_first hs.loopback (o := s.l3.first 1) ?_ hs.data
        hs.authentication⟩
      have hfirst : (s.l3.removeAddress 1 index).first 1 =
          ((s.l3.addresses 1).eraseIdx index).head? := by
        rw [← s.l3.addresses_removeAddress]
        exact first_of_up hup
      refine hfirst.trans ?_
      rw [first_of_up hup, List.head?_eq_getElem?, List.head?_eq_getElem?,
        List.getElem?_eraseIdx_of_lt (Nat.pos_of_ne_zero hindex)]
    | false =>
      have hdata := hs.data
      rw [first_of_down hup] at hdata
      refine ⟨fun htrue => ?_, .of_first hs.loopback (first_of_down hup) hdata hs.authentication⟩
      rw [hup] at htrue
      cases htrue
  · exact ⟨hnot, .of_first hs.loopback (first_congr rfl rfl) hs.data hs.authentication⟩

/-- A socket that is found belongs to the data interface, which is up. -/
theorem up_of_find (hs : s.Kept) {k : SocketId}
    (hfind : s.registry.findSocketWithInterfaceAddress address = some k) :
    s.l3.isUp 1 = true ∧ s.l3.addresses 1 ≠ [] := by
  have hregistered := (hs.data.find_eq_some hfind).1
  have hup : s.l3.isUp 1 = true := by
    by_contra hdown
    rw [first_of_down (Bool.eq_false_iff.mpr hdown)] at hregistered
    cases hregistered
  rw [first_of_up hup] at hregistered
  exact ⟨hup, List.ne_nil_of_mem (List.mem_of_head? hregistered)⟩

/-- When the first address of the data interface is removed from it, its next address takes
over; otherwise the socket was another one's. -/
theorem settled_removeAddress_next (h : Step ⟨s, .removeAddress i index address new, o, t⟩)
    (hs : s.Kept) {k : SocketId} {a : Ipv4InterfaceAddress}
    (hfind : s.registry.findSocketWithInterfaceAddress address = some k)
    (hhead : ((s.l3.addresses i).eraseIdx index).head? = some a) :
    Settled ⟨s, .removeAddress i index address new, o, t⟩ := by
  obtain ⟨hi, haddress, hnew⟩ : IsControl i ∧ (s.l3.addresses i)[index]? = some address ∧
    s.registry.sockets new = none := h.1
  obtain ⟨hregistered, hlast, -⟩ := hs.data.find_eq_some hfind
  obtain ⟨hup, hne⟩ := up_of_find hs hfind
  have haddresses := s.l3.addresses_removeAddress i index
  have hlt : index < (s.l3.addresses i).length := (List.getElem?_eq_some_iff.mp haddress).1
  have hcall := SocketRegistry.notifyRemoveAddress_head (s.l3.removeAddress i index) new
    (haddresses ▸ hhead) hfind
  refine h.settled_ok hcall ?_
  rcases hi with rfl | rfl
  · refine .inl ⟨fun _ hone => ?_, ?_⟩
    · have hnil := List.length_eraseIdx_of_lt hlt
      rw [hone] at hnil
      rw [List.length_eq_zero_iff.mp hnil] at hhead
      cases hhead
    · have hfirst : (s.l3.removeAddress 1 index).first 1 = some a := by
        rw [← hhead, ← haddresses]
        exact first_of_up hup
      exact .of_first hs.loopback hfirst (holds_register new hlast rfl rfl)
        (hs.authentication_congr rfl rfl fun k c hc _ => update_of_new hnew _ hc)
  · refine .inr ⟨fun hhandled => hhandled hregistered, ?_⟩
    refine not_registered_data hup hne fun j howns => ?_
    have hother := holds_register new (c := ⟨2, none, true, true⟩) (i := 2) (a := a)
      (r := s.registry.erase k) hlast rfl rfl
    exact absurd (hother.interface howns).1 (by decide)

/-- When no address is left, the maps are cleared, which needs the object of the ground
station. -/
theorem settled_removeAddress_last (h : Step ⟨s, .removeAddress i index address new, o, t⟩)
    (hs : s.Kept) {k : SocketId}
    (hfind : s.registry.findSocketWithInterfaceAddress address = some k)
    (hnil : (s.l3.addresses i).eraseIdx index = []) :
    Settled ⟨s, .removeAddress i index address new, o, t⟩ := by
  obtain ⟨hi, haddress, -⟩ : IsControl i ∧ (s.l3.addresses i)[index]? = some address ∧ _ := h.1
  obtain ⟨hregistered, hlast, -⟩ := hs.data.find_eq_some hfind
  obtain ⟨hup, hne⟩ := up_of_find hs hfind
  have haddresses := s.l3.addresses_removeAddress i index
  have hlt : index < (s.l3.addresses i).length := (List.getElem?_eq_some_iff.mp haddress).1
  have hcall := SocketRegistry.notifyRemoveAddress_last (s.l3.removeAddress i index) new
    (haddresses.trans hnil) hfind hlast
  by_cases hgod : s.registry.godGroundStation = true
  · rw [if_pos hgod] at hcall
    refine h.settled_ok hcall ?_
    rcases hi with rfl | rfl
    · have hfirst : (s.l3.removeAddress 1 index).first 1 = none := by
        rw [← List.head?_nil, ← hnil, ← haddresses]
        exact first_of_up hup
      exact .inl ⟨fun _ _ => hgod, .of_first hs.loopback hfirst hlast hs.authentication⟩
    · refine .inr ⟨fun hhandled => hhandled hregistered, ?_⟩
      exact not_registered_data hup hne fun j => Holds.not_owns (i := 1) hlast
  · rw [if_neg hgod] at hcall
    refine h.settled_error hcall fun hhandled => ?_
    rcases hi with rfl | rfl
    · have hone := List.length_eraseIdx_of_lt hlt
      rw [hnil, List.length_nil] at hone
      exact hgod (hhandled hup (by omega))
    · exact hhandled hregistered

end

/-- A notification that is handled keeps the sockets right, and one that is not does not
leave them right. -/
theorem settled (h : Step x) (hs : x.pre.Kept) : Settled x := by
  obtain ⟨s, e, o, t⟩ := x
  cases e with
  | start => exact settled_start h hs
  | setUp => exact settled_setUp h hs
  | setDown => exact settled_setDown h hs
  | addAddress => exact settled_addAddress h hs
  | removeAddress i index address new =>
    cases hfind : s.registry.findSocketWithInterfaceAddress address with
    | none => exact settled_removeAddress_none h hs hfind
    | some k =>
      cases hhead : ((s.l3.addresses i).eraseIdx index).head? with
      | some a => exact settled_removeAddress_next h hs hfind hhead
      | none => exact settled_removeAddress_last h hs hfind (List.head?_eq_none_iff.mp hhead)

/-! ### Runs -/

theorem Settled.lawful_iff (h : Settled x) : Lawful x ↔ x.pre.Handles x.event := by
  rcases h with ⟨hhandled, hout, hkept⟩ | ⟨hunhandled, hnot⟩
  · exact iff_of_true ⟨hout, hkept.registered⟩ hhandled
  · exact iff_of_false hnot hunhandled

theorem Settled.kept (h : Settled x) (hhandled : x.pre.Handles x.event) : x.post.Kept := by
  rcases h with ⟨-, -, hkept⟩ | ⟨hunhandled, -⟩
  · exact hkept
  · exact absurd hhandled hunhandled

/-- In a run from the start every call completes and leaves the sockets as they should be
exactly if the protocol handles every event. -/
theorem lawful_iff_handles {s u : Interfaces}
    {tr : List (Transition Interfaces Event (Option Fault))} (hs : s.Initial)
    (h : Run Step s tr u) : (∀ x ∈ tr, Lawful x) ↔ ∀ x ∈ tr, x.pre.Handles x.event := by
  exact h.forall_iff (fun x hx hpre => (settled hx hpre).lawful_iff)
    (fun x hx hhandled hpre => (settled hx hpre).kept hhandled) hs.kept

/-! ### Two nodes -/

/-- A node whose interfaces have just been created. -/
def created (isGroundStation : Bool) : Interfaces where
  l3 := { isUp i := i = 0, addresses i := if i = 0 then [⟨Ipv4Address.loopback, 0, 0⟩] else [] }
  registry := { isGroundStation }

theorem initial_created (isGroundStation : Bool) : (created isGroundStation).Initial where
  isUp i hi := by rcases hi with rfl | rfl <;> rfl
  loopback := by simp [created]
  sockets _ := rfl
  socketAddresses := rfl
  authSocketAddresses := rfl

/-- A ground station is started, and its data interface comes up and goes down. -/
theorem lawful_iff_handles_station :
    (created true).Initial ∧
      ∀ x ∈ (created true).transitions
        [.start, .addAddress 1 ⟨7, 0, 0⟩ 1 2, .setUp 1 3, .setDown 1], Lawful x := by
  refine ⟨initial_created true,
    (lawful_iff_handles (initial_created true) (run_transitions _ _ ?_)).mpr ?_⟩
  · simp only [transitions, List.forall_mem_cons]
    exact ⟨trivial, ⟨.inl rfl, rfl, rfl, by decide⟩, ⟨.inl rfl, rfl, rfl⟩, ⟨.inl rfl, rfl⟩,
      List.forall_mem_nil _⟩
  · simp only [transitions, List.forall_mem_cons]
    refine ⟨trivial, fun hup => ?_, ⟨⟨7, 0, 0⟩, rfl, by decide⟩, ⟨rfl, ?_, rfl⟩,
      List.forall_mem_nil _⟩
    · exact absurd hup (by decide)
    · exact List.cons_ne_nil _ _

/-- The authentication interface comes up and goes down: its socket is not found, and the
null socket is dereferenced. -/
theorem authentication_down_faults :
    ((created false).transitions [.addAddress 2 ⟨7, 0, 0⟩ 1 2, .setUp 2 3, .setDown 2]).map
        Transition.out = [none, none, some .nullPointer] ∧
    ¬ ∀ (s u : Interfaces) (tr : List (Transition Interfaces Event (Option Fault))),
      s.Initial → Run Step s tr u → ∀ x ∈ tr, Lawful x := by
  refine ⟨by decide, fun hall => ?_⟩
  have hrun := run_transitions (created false)
    [.addAddress 2 ⟨7, 0, 0⟩ 1 2, .setUp 2 3, .setDown 2] <| by
      simp only [transitions, List.forall_mem_cons]
      exact ⟨⟨.inr rfl, rfl, rfl, by decide⟩, ⟨.inr rfl, rfl, rfl⟩, ⟨.inr rfl, rfl⟩,
        List.forall_mem_nil _⟩
  have hlawful := hall _ _ _ (initial_created false) hrun
  simp only [transitions, List.forall_mem_cons] at hlawful
  obtain ⟨-, -, ⟨hout, -⟩, -⟩ := hlawful
  exact absurd hout (by decide)

end Interfaces

end SAeroRP
