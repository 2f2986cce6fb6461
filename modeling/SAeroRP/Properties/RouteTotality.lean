import SAeroRP.Properties.RewrittenPackets

/-! When RouteOutput comes back with an answer. In secure mode it reads the packet before it
tests that there is one. It asks the stack for the addresses of its interfaces, and the stack
expects that they have some. Without a packet, for the broadcast address and without a next
hop it leaves the source to LoopbackRoute, which takes the address of the first socket or
looks for one on the output device and expects to find it. -/

namespace SAeroRP.RouteTotality

open Node

/-! ### Sources of loopback routes -/

/-- One of the sockets' addresses is on the device, and those before it are on others. -/
def FirstOn (oif : NetDevice) (n : Node) (l : List (SocketId × Ipv4InterfaceAddress)) : Prop :=
  ∃ before j after, l = before ++ j :: after ∧
    (∀ k ∈ before, ∃ i, n.ipv4.getInterfaceForAddress k.2.localAddress = some i ∧ i ≠ oif) ∧
    n.ipv4.getInterfaceForAddress j.2.localAddress = some oif ∧
    j.2.localAddress ≠ Ipv4Address.unset

/-- LoopbackRoute finds a source: the address of the first socket without an output device,
else the first address on the device. -/
def FindsSource (oif : Option NetDevice) (n : Node) : Prop :=
  match oif with
  | none => ∃ j rest, n.socketAddresses.toList = j :: rest ∧ j.2.localAddress ≠ Ipv4Address.unset
  | some oif => FirstOn oif n n.socketAddresses.toList

section
variable {oif : NetDevice} {n : Node} {j : SocketId × Ipv4InterfaceAddress}
  {l rest : List (SocketId × Ipv4InterfaceAddress)}

theorem firstOn_cons : FirstOn oif n (j :: rest) ↔
    n.ipv4.getInterfaceForAddress j.2.localAddress = some oif ∧
        j.2.localAddress ≠ Ipv4Address.unset ∨
      (∃ i, n.ipv4.getInterfaceForAddress j.2.localAddress = some i ∧ i ≠ oif) ∧
        FirstOn oif n rest := by
  constructor
  · rintro ⟨before, k, after, h, hbefore, hk, hset⟩
    cases before with
    | nil =>
      cases h
      exact .inl ⟨hk, hset⟩
    | cons b before =>
      cases h
      obtain ⟨hb, hbefore⟩ := List.forall_mem_cons.mp hbefore
      exact .inr ⟨hb, before, k, after, rfl, hbefore, hk, hset⟩
  · rintro (⟨hj, hset⟩ | ⟨hj, before, k, after, rfl, hbefore, hk, hset⟩)
    · exact ⟨[], j, rest, rfl, by simp, hj, hset⟩
    · exact ⟨j :: before, k, after, rfl, List.forall_mem_cons.mpr ⟨hj, hbefore⟩, hk, hset⟩

/-- The walk over the sockets ends at the first address on the device. -/
theorem sourceOn_iff :
    (∃ source, n.sourceOn oif l = .ok source ∧ source ≠ Ipv4Address.unset) ↔ FirstOn oif n l := by
  induction l with
  | nil =>
    constructor
    · rintro ⟨source, h, hset⟩
      cases h
      exact absurd rfl hset
    · rintro ⟨before, j, after, h, -⟩
      exact absurd h.symm (by simp)
  | cons j rest ih =>
    rw [firstOn_cons, sourceOn]
    cases hj : n.ipv4.getInterfaceForAddress j.2.localAddress with
    | none => simp
    | some i =>
      by_cases hi : oif = i
      · subst hi
        simp
      · simp [hi, Ne.symm hi, ih]

end

theorem loopbackSource_iff {oif : Option NetDevice} {n : Node} :
    (∃ source, n.loopbackSource oif = .ok source ∧ source ≠ Ipv4Address.unset) ↔
      FindsSource oif n := by
  cases oif with
  | some oif => exact sourceOn_iff
  | none =>
    cases hl : n.socketAddresses.toList with
    | nil => simp [FindsSource, loopbackSource, hl]
    | cons j rest => simp [FindsSource, loopbackSource, hl]

/-! ### Answers -/

/-- RouteOutput comes back with a route that has a source, or with no route and the error. -/
def Answers (x : Except Fault RouteOutputResult) : Prop :=
  ∃ r, x = .ok r ∧ ((∃ route, r.route = some route ∧ route.source ≠ Ipv4Address.unset) ∨
    r.route = none ∧ r.sockerr = .errorNoRouteToHost)

theorem answers_ok_some {route : Ipv4Route} {sockerr : SocketErrno} {p : Option Packet} {n : Node} :
    Answers (.ok ⟨some route, sockerr, p, n⟩) ↔ route.source ≠ Ipv4Address.unset := by
  constructor
  · rintro ⟨r, h, hr⟩
    cases h
    rcases hr with ⟨route', h, hset⟩ | ⟨h, -⟩
    · cases h
      exact hset
    · cases h
  · exact fun h => ⟨_, rfl, .inl ⟨route, rfl, h⟩⟩

theorem answers_noRoute (p : Option Packet) (n : Node) :
    Answers (.ok ⟨none, .errorNoRouteToHost, p, n⟩) := ⟨_, rfl, .inr ⟨rfl, rfl⟩⟩

theorem not_answers_error (e : Fault) : ¬ Answers (.error e) := by
  rintro ⟨r, h, -⟩
  cases h

/-- A loopback route is an answer if a source is found. -/
theorem answers_loopbackRoute {header : Ipv4Header} {oif : Option NetDevice}
    {sockerr : SocketErrno} {p : Option Packet} {n m : Node} :
    Answers (do
      let route ← n.loopbackRoute header oif
      return ⟨some route, sockerr, p, m⟩) ↔ FindsSource oif n := by
  rw [← loopbackSource_iff, loopbackRoute]
  cases n.loopbackSource oif with
  | error e =>
    refine iff_of_false (not_answers_error e) ?_
    rintro ⟨source, h, -⟩
    cases h
  | ok source =>
    rw [ok_bind]
    by_cases hset : source = Ipv4Address.unset
    · subst hset
      refine iff_of_false (not_answers_error .assertion) ?_
      rintro ⟨source, h, hset⟩
      cases h
      exact hset rfl
    · rw [if_neg hset]
      refine iff_of_true (answers_ok_some.mpr hset) ⟨source, rfl, hset⟩

/-! ### Packets -/

section
variable {β : Type} [Preorder β] [DecidableLT β] [DecidableEq β] [Zero β] {E : Env β} {now : Time}
  {p : Packet} {header : Ipv4Header} {oif : Option NetDevice} {n : Node}

variable (E now n) in
/-- There is no node to send to: the node is the best neighbour itself, or the neighbour to
send to, which is the destination or the best neighbour, is 0.0.0.0. -/
def NoNextHop (dst : Ipv4Address) : Prop :=
  n.bestToward E now (n.nodesPosition.getPosition dst) = n.myAddress ∨
    if (n.neighbors.purge now).isNeighbour dst then dst = Ipv4Address.getZero
    else n.bestToward E now (n.nodesPosition.getPosition dst) = Ipv4Address.getZero

theorem outputNextHop_eq_none_iff {dst : Ipv4Address} :
    (n.outputNextHop E now dst).1 = none ↔ NoNextHop E now n dst := by
  rw [outputNextHop_eq, NoNextHop]
  split_ifs <;> simp_all

theorem routeSource_ne_unset {myAddress : Ipv4Address} :
    routeSource myAddress header ≠ Ipv4Address.unset ↔
      header.source ≠ Ipv4Address.unset ∨ myAddress ≠ Ipv4Address.unset := by
  rw [routeSource]
  split_ifs with h
  · simp [h]
  · simp [h]

theorem answers_routeUnicast : Answers (n.routeUnicast E now p header oif) ↔
    (NoNextHop E now n header.destination → FindsSource oif n) ∧
      (¬ NoNextHop E now n header.destination → oif = none ∨ oif = some 1 →
        header.source ≠ Ipv4Address.unset ∨ n.myAddress ≠ Ipv4Address.unset) := by
  have hnode := outputNextHop_node E now header.destination n
  rw [← outputNextHop_eq_none_iff, ← routeSource_ne_unset]
  cases hnext : (n.outputNextHop E now header.destination).1 with
  | none =>
    have hpair : n.outputNextHop E now header.destination =
        (none, { n with neighbors := n.neighbors.purge now }) := Prod.ext hnext hnode
    have hsource : FindsSource oif { n with neighbors := n.neighbors.purge now } ↔
        FindsSource oif n := by
      cases oif <;> exact Iff.rfl
    rw [routeUnicast, hpair]
    exact (answers_loopbackRoute.trans hsource).trans
      ⟨fun h => ⟨fun _ => h, fun hno => absurd rfl hno⟩, fun h => h.1 rfl⟩
  | some nextHop =>
    have hpair : n.outputNextHop E now header.destination =
        (some nextHop, { n with neighbors := n.neighbors.purge now }) := Prod.ext hnext hnode
    have hsome : some nextHop ≠ none := Option.some_ne_none nextHop
    rw [routeUnicast, hpair]
    dsimp only
    by_cases hoif : oif ≠ none ∧ oif ≠ some 1
    · rw [if_pos hoif]
      refine iff_of_true (answers_noRoute _ _) ⟨fun h => absurd h hsome, fun _ h => ?_⟩
      exact absurd h (by tauto)
    · rw [if_neg hoif]
      exact answers_ok_some.trans ⟨fun h => ⟨fun h => absurd h hsome, fun _ _ => h⟩,
        fun h => h.2 hsome (by tauto)⟩

variable (E now header oif n) in
/-- A packet gets an answer: with a socket both interfaces have an address, where its route is
a loopback route a source is found, and the source of another route is set. -/
structure Routable : Prop where
  addresses : n.socketAddresses.isEmpty = false → n.ipv4.HasAddress 1 ∧ n.ipv4.HasAddress 2
  broadcast : n.socketAddresses.isEmpty = false →
    header.destination = (n.ipv4.address 1).broadcast → FindsSource oif n
  toGroundStation : n.socketAddresses.isEmpty = false →
    header.destination ≠ (n.ipv4.address 1).broadcast →
    header.destination = Ipv4Address.groundStation → n.securityState = true →
    n.authAddress ≠ Ipv4Address.unset
  unicast : n.RoutesUnicast header →
    (NoNextHop E now n header.destination → FindsSource oif n) ∧
      (¬ NoNextHop E now n header.destination → oif = none ∨ oif = some 1 →
        header.source ≠ Ipv4Address.unset ∨ n.myAddress ≠ Ipv4Address.unset)

theorem answers_routePacket :
    Answers (n.routePacket E now p header oif) ↔ Routable E now header oif n := by
  by_cases hsock : n.socketAddresses.isEmpty = true
  · have hno : ¬ n.socketAddresses.isEmpty = false := by simp [hsock]
    rw [routePacket, if_pos hsock]
    exact iff_of_true (answers_noRoute _ _) ⟨fun h => absurd h hno, fun h => absurd h hno,
      fun h => absurd h hno, fun h => absurd h.interfaces hno⟩
  have hsome : n.socketAddresses.isEmpty = false := by simpa using hsock
  rw [routePacket_of_sockets hsome]
  by_cases haddresses : n.ipv4.HasAddress 1 ∧ n.ipv4.HasAddress 2
  swap
  · rw [if_neg haddresses]
    exact iff_of_false (not_answers_error .assertion) fun h => haddresses (h.addresses hsome)
  rw [if_pos haddresses, routeAmong]
  by_cases hbc : header.destination = (n.ipv4.address 1).broadcast
  · rw [if_pos hbc]
    exact answers_loopbackRoute.trans ⟨fun h => ⟨fun _ => haddresses, fun _ _ => h, fun _ hno => absurd hbc hno,
      fun hu => absurd hbc hu.notBroadcast⟩, fun h => h.broadcast hsome hbc⟩
  rw [if_neg hbc]
  by_cases hto : header.destination = Ipv4Address.groundStation ∧ n.securityState = true
  · rw [if_pos hto]
    exact answers_ok_some.trans ⟨fun h => ⟨fun _ => haddresses, fun _ hyes => absurd hyes hbc, fun _ _ _ _ => h,
      fun hu => absurd hto hu.notToGroundStation⟩,
      fun h => h.toGroundStation hsome hbc hto.1 hto.2⟩
  rw [if_neg hto]
  have hto' : header.destination = Ipv4Address.groundStation → n.securityState = true →
      n.authAddress ≠ Ipv4Address.unset := fun hdst hsec => absurd ⟨hdst, hsec⟩ hto
  by_cases hfrom : (n.ipv4.address 2).localAddress = Ipv4Address.groundStation ∧
      n.securityState = true ∧ header.destination ≠ (n.ipv4.address 2).broadcast
  · have hset : (n.authRoute header.destination).source ≠ Ipv4Address.unset := by
      show (n.ipv4.address 2).localAddress ≠ Ipv4Address.unset
      rw [hfrom.1]
      decide
    rw [if_pos hfrom]
    exact iff_of_true (answers_ok_some.mpr hset) ⟨fun _ => haddresses,
      fun _ hyes => absurd hyes hbc,
      fun _ _ => hto', fun hu => absurd hfrom hu.notFromGroundStation⟩
  · rw [if_neg hfrom]
    exact answers_routeUnicast.trans ⟨fun h => ⟨fun _ => haddresses, fun _ hyes => absurd hyes hbc, fun _ _ => hto',
      fun _ => h⟩, fun h => h.unicast ⟨hsome, hbc, hto, hfrom⟩⟩

/-! ### Calls -/

variable (E now header oif n) in
/-- In secure mode there are a packet and an address of the data interface; without a packet
a source is found. -/
structure Answerable (p : Option Packet) : Prop where
  packet : n.securityState = true → p ≠ none
  address : n.securityState = true → n.ipv4.HasAddress 1
  noPacket : p = none → FindsSource oif n
  routable : p ≠ none → Routable E now header oif n

/-- RouteOutput answers a call if and only if it finds a packet where it reads one, an address
where it asks the stack for one, and a source for the route it decides on. -/
theorem routeOutput_answers_iff (chance : Chance) (p : Option Packet) (sockerr : SocketErrno) :
    Answers (n.routeOutput E now chance p header oif sockerr) ↔
      Answerable E now header oif n p := by
  by_cases haddress : n.securityState = true → n.ipv4.HasAddress 1
  swap
  · push Not at haddress
    rw [routeOutput_of_noAddress haddress.1 haddress.2]
    exact iff_of_false (not_answers_error .assertion) fun h => haddress.2 (h.address haddress.1)
  rw [routeOutput_of_hasAddress haddress]
  cases p with
  | none =>
    rw [securedPacket]
    split_ifs with hsec
    · exact iff_of_false (not_answers_error .nullPointer) fun h => h.packet hsec rfl
    · exact answers_loopbackRoute.trans ⟨fun h => ⟨fun h => absurd h hsec, haddress, fun _ => h,
        fun h => absurd rfl h⟩, fun h => h.noPacket rfl⟩
  | some p =>
    have hsome : some p ≠ none := Option.some_ne_none p
    obtain ⟨q, hq⟩ : ∃ q, n.securedPacket E chance (some p) header = .ok (some q) := by
      rw [securedPacket]
      split_ifs
      · obtain ⟨q, hq, -⟩ := RewrittenPackets.securePacket_rewritten E chance n header p
        exact ⟨q, by simp only [hq]; rfl⟩
      · exact ⟨p, rfl⟩
    rw [hq]
    exact (answers_routePacket (p := q)).trans ⟨fun h => ⟨fun _ => hsome, haddress,
      fun h => absurd h hsome, fun _ => h⟩, fun h => h.routable hsome⟩

end

/-- Without a packet there is no answer in secure mode, and none without an output device
before the first socket is opened. -/
theorem no_packet_not_answered :
    ¬ Answers ((Sample.secureNode 1).routeOutput Sample.env 0 Sample.chance none
        ⟨Ipv4Address.unset, .ofOctets 10 1 1 1⟩ none .errorNotError) ∧
      ¬ Answers ({ Sample.node 1 with socketAddresses := ∅ }.routeOutput Sample.env 0 Sample.chance
        none ⟨Ipv4Address.unset, .ofOctets 10 1 1 1⟩ none .errorNotError) :=
  ⟨not_answers_error .nullPointer, not_answers_error .endIterator⟩

end SAeroRP.RouteTotality
