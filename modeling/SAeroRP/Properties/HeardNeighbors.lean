import SAeroRP.Properties.PlainFleet

/-! A neighbour that is heard is known. The timer of the HELLO messages expires often enough that
an entry is written again before its life time has passed, whatever else happens to the node that
holds it: from an interval and a half after Start on, up to the delay of the medium, the entry is
never missing. -/

namespace SAeroRP.Fleet

open Library Node

variable {ι : Type} [DecidableEq ι] {β : Type} [Preorder β] [DecidableLT β] [DecidableEq β] [Zero β]
  {E : Env β} {I : Intervals} {outOfRange : ℚ → UInt32} {M : Medium ι} {s₀ s t u : Fleet ι}
  {T : Transition (Fleet ι) (Event ι) (List (Flight ι)) → Prop} {e : Event ι}
  {ms : List (Flight ι)} {tr : List (Transition (Fleet ι) (Event ι) (List (Flight ι)))}
  {i j : ι} {a : Ipv4Address} {D : Time}

/-- Each node of the fleet takes a step of its own, or none. -/
theorem Does.node (h : Does E I outOfRange M s e t ms) (k : ι) :
    t.nodes k = s.nodes k ∨
      ∃ e' es, Advertiser.Does E I outOfRange (s.nodes k) e' (t.nodes k) es := by
  cases h with
  | advance hnodes => exact .inr ⟨_, _, hnodes k⟩
  | @act i e n es _ he h =>
    by_cases hk : k = i
    · subst hk
      exact .inr ⟨e, es, by simpa using h⟩
    · exact .inl (Function.update_of_ne hk ..)
  | @deliver m chance n es _ _ h =>
    by_cases hk : k = m.destination
    · subst hk
      exact .inr ⟨_, es, by simpa using h⟩
    · exact .inl (Function.update_of_ne hk ..)

theorem Does.advertises (h : Does E I outOfRange M s e t ms) (hs : (s.nodes j).Advertises I) :
    (t.nodes j).Advertises I := by
  rcases h.node j with heq | ⟨e', es, hnode⟩
  · rwa [heq]
  · exact (hs.step hnode).1

/-- A message from the address reaches node `i` by half of `D`: one is on its way, or the timer of
node `j` expires early enough. -/
def Due (M : Medium ι) (i j : ι) (a : Ipv4Address) (D : Time) (s : Fleet ι) : Prop :=
  (∃ m ∈ s.inFlight, m.destination = i ∧ m.sender = a ∧ 2 * m.deadline ≤ D) ∨
    ∃ expiry, (s.nodes j).ownTimer = ⟨true, some expiry⟩ ∧ 2 * (expiry + M.delay) ≤ D

omit [DecidableEq ι] in
theorem Due.le (h : Due M i j a D s) (hs : Sound I M outOfRange s₀ T s)
    (hj : (s.nodes j).Advertises I) : 2 * s.now ≤ D := by
  rcases h with ⟨m, hm, -, -, hle⟩ | ⟨expiry, hown, hle⟩
  · linarith [hs.pending m hm]
  · have hnow : (s.nodes j).now ≤ expiry := hj.now_le (by rw [hown])
    rw [hs.clock j] at hnow
    linarith [M.delay_nonneg]

/-- The message that is due stays due until one arrives. -/
theorem Due.does (hdue : Due M i j a D s) (hs₀ : Initial s₀)
    (hs : Sound I M outOfRange s₀ T s) (hj : (s.nodes j).Advertises I)
    (hairborne : (s₀.nodes j).node.isGroundStation = false)
    (ha : (s₀.nodes j).node.HasAddress a) (hhears : M.hears i a)
    (h : Does E I outOfRange M s e t ms) :
    Due M i j a D t ∨ ∃ m, e = .deliver m ∧ m.destination = i ∧ m.sender = a := by
  rcases hdue with ⟨m, hm, hi, hsender, hle⟩ | ⟨expiry, hown, hle⟩
  · cases h with
    | advance => exact .inl (.inl ⟨m, hm, hi, hsender, hle⟩)
    | act => exact .inl (.inl ⟨m, List.mem_append_left _ hm, hi, hsender, hle⟩)
    | @deliver m' =>
      by_cases hne : m = m'
      · exact .inr ⟨m', rfl, hne ▸ hi, hne ▸ hsender⟩
      · exact .inl (.inl ⟨m, List.mem_append_left _ ((List.mem_erase_of_ne hne).mpr hm), hi,
          hsender, hle⟩)
  · left
    cases h with
    | advance => exact .inr ⟨expiry, hown, hle⟩
    | @act k e n es _ he h hms =>
      by_cases hk : j = k
      · subst hk
        rcases (hj.step h).2 with ⟨hevent, hrearms⟩ | ⟨-, hsame, -⟩
        · have hnow : s.now = expiry := by
            have hdue := hrearms.own
            rw [hown, hs.clock j] at hdue
            cases hdue
            rfl
          have hhello : e = .helloTimer := by
            rw [hevent, Advertiser.ownEvent, hs.isGroundStation, hairborne]
            rfl
          subst hhello
          have hsends := h.sends_hello (hs.plain hs₀ j) (hs.hasAddress.mpr ha)
          obtain ⟨m, hm, hi, hsender, -⟩ := hms.heard _ _ hsends i hhears
          refine .inl ⟨m, List.mem_append_right _ hm, hi, hsender, ?_⟩
          linarith [(hms.sent m hm).2.2]
        · exact .inr ⟨expiry, by simp only [Function.update_self]; rw [hsame, hown], hle⟩
      · exact .inr ⟨expiry, by simp only [Function.update_of_ne hk]; exact hown, hle⟩
    | @deliver m chance n es _ _ h =>
      by_cases hk : j = m.destination
      · subst hk
        rcases (hj.step h).2 with ⟨hevent, -⟩ | ⟨-, hsame, -⟩
        · have hadvertises := Advertiser.advertises_ownEvent (s.nodes m.destination)
          rw [← hevent] at hadvertises
          cases hadvertises
        · exact .inr ⟨expiry, by simp only [Function.update_self]; rw [hsame, hown], hle⟩
      · exact .inr ⟨expiry, by simp only [Function.update_of_ne hk]; exact hown, hle⟩

/-- Node `i` holds an entry for the address, and the next message arrives within two intervals of
its time, less half of one. -/
def Known (I : Intervals) (M : Medium ι) (i j : ι) (a : Ipv4Address) (s : Fleet ι) : Prop :=
  ∃ e : NeighborTableEntry × Time, (s.nodes i).node.neighbors.table[a]? = some e ∧
    Due M i j a (2 * e.2 + 3 * I.helloInterval + 2 * M.delay) s

/-- A message that arrives is entered with the present time. -/
theorem known_of_deliver (hI : 0 ≤ I.gsInterval) (hs₀ : Initial s₀)
    (hs : Sound I M outOfRange s₀ T s) (hj : (s.nodes j).Advertises I)
    (hairborne : (s₀.nodes j).node.isGroundStation = false)
    (ha : (s₀.nodes j).node.HasAddress a) {m : Flight ι}
    (h : Does E I outOfRange M s (.deliver m) t ms) (hT : T ⟨s, .deliver m, ms, t⟩)
    (hi : m.destination = i) (hsender : m.sender = a) : Known I M i j a t := by
  have hadvertises := h.advertises hj
  have hsound := hs.does hI hs₀ h hT
  obtain ⟨-, node, -, hwrites, rfl⟩ := hs.deliver hs₀ h
  cases hwrites with
  | @greeted x k chance =>
    refine ⟨(⟨helloPosition ((x.pre.nodes k).node.helloHeader outOfRange),
      helloVelocity chance ((x.pre.nodes k).node.helloHeader outOfRange)⟩, s.now), ?_, .inr ?_⟩
    · simp only [hi, Function.update_self, greeted, NeighborTable.addEntry]
      rw [EntryTable.getElem?_addEntry, if_pos hsender]
    · obtain ⟨expiry, hwaits⟩ := hadvertises.waits
      have hsoon := hwaits.soon
      rw [hsound.clock j, Advertiser.ownInterval, hsound.isGroundStation, hairborne,
        if_neg Bool.false_ne_true] at hsoon
      exact ⟨expiry, hwaits.own, by linarith⟩
  | @located x k hdr _ _ _ hlocates =>
    -- the address is that of an airborne node
    have hk : k = j := hs₀.distinct k j a (hsender ▸ hlocates.address) ha
    rw [← hk, hlocates.ground] at hairborne
    cases hairborne

/-- Nothing but a message from the address touches an entry that is live. -/
theorem Does.keeps_entry (hs₀ : Initial s₀) (hs : Sound I M outOfRange s₀ T s)
    (h : Does E I outOfRange M s e t ms) (hne : ∀ m, e = .deliver m → m.destination = i → m.sender ≠ a)
    (ha : a ≠ Ipv4Address.getZero) {v : NeighborTableEntry × Time}
    (hv : (s.nodes i).node.neighbors.table[a]? = some v)
    (hlive : s.now < v.2 + NeighborTable.entryLifeTime) :
    (t.nodes i).node.neighbors.table[a]? = some v := by
  cases e with
  | advance dt =>
    cases h with
    | advance => exact hv
  | act k e =>
    cases h with
    | act he h =>
      by_cases hk : i = k
      · subst hk
        simp only [Function.update_self]
        rcases (h.keepsTables he).neighbors with heq | heq <;> rw [heq]
        · exact hv
        · refine EntryTable.getElem?_purge_eq_some.mpr ⟨hv, ?_⟩
          rw [EntryTable.updateTime, if_neg ha, hs.clock i]
          linarith
      · simp only [Function.update_of_ne hk]
        exact hv
  | deliver m =>
    obtain ⟨-, node, -, hwrites, rfl⟩ := hs.deliver hs₀ h
    by_cases hk : i = m.destination
    · subst hk
      simp only [Function.update_self]
      cases hwrites with
      | greeted =>
        rw [greeted, NeighborTable.addEntry, EntryTable.getElem?_addEntry,
          if_neg (hne m rfl rfl)]
        exact hv
      | located => exact hv
    · simp only [Function.update_of_ne hk]
      exact hv

/-- A message is due by half of `D`, or the address is known. -/
def Heard (I : Intervals) (M : Medium ι) (i j : ι) (a : Ipv4Address) (D : Time) (s : Fleet ι) :
    Prop :=
  (s.nodes j).Advertises I ∧ (Due M i j a D s ∨ Known I M i j a s)

theorem Heard.does (hI : 0 ≤ I.gsInterval) (hs₀ : Initial s₀)
    (hairborne : (s₀.nodes j).node.isGroundStation = false)
    (haddress : (s₀.nodes j).node.HasAddress a) (ha : a ≠ Ipv4Address.getZero)
    (hhears : M.hears i a)
    (hlife : 3 * I.helloInterval + 2 * M.delay < 2 * NeighborTable.entryLifeTime)
    (hs : Sound I M outOfRange s₀ T s) (hheard : Heard I M i j a D s)
    (h : Does E I outOfRange M s e t ms) (hT : T ⟨s, e, ms, t⟩) : Heard I M i j a D t := by
  obtain ⟨hj, hheard⟩ := hheard
  refine ⟨h.advertises hj, ?_⟩
  by_cases harrives : ∃ m, e = .deliver m ∧ m.destination = i ∧ m.sender = a
  · obtain ⟨m, rfl, hi, hsender⟩ := harrives
    exact .inr (known_of_deliver hI hs₀ hs hj hairborne haddress h hT hi hsender)
  rcases hheard with hdue | ⟨v, hv, hdue⟩
  · exact .inl ((hdue.does hs₀ hs hj hairborne haddress hhears h).resolve_right harrives)
  · have hle := hdue.le hs hj
    refine .inr ⟨v, h.keeps_entry hs₀ hs ?_ ha hv (by linarith),
      (hdue.does hs₀ hs hj hairborne haddress hhears h).resolve_right harrives⟩
    rintro m rfl hi hsender
    exact harrives ⟨m, rfl, hi, hsender⟩

/-- A node that was started advertises. -/
theorem Does.advertises_of_start (hI : 0 ≤ I.gsInterval) (hs : Sound I M outOfRange s₀ T s)
    (h : Does E I outOfRange M s (.act j .start) t ms) : (t.nodes j).Advertises I := by
  cases h with
  | act _ h =>
    simp only [Function.update_self]
    rcases hs.phase j with hnew | hadvertises
    · rcases hnew.step h with ⟨-, hpost⟩ | ⟨-, -, hne, -⟩
      · exact hpost hI
      · exact absurd rfl hne
    · exact absurd rfl (hadvertises.ne_start h)

/-- Start makes the first message due. -/
theorem due_of_start (hI : 0 ≤ I.gsInterval) (hs₀ : Initial s₀)
    (hairborne : (s₀.nodes j).node.isGroundStation = false) (hs : Sound I M outOfRange s₀ T s)
    (h : Does E I outOfRange M s (.act j .start) t ms) (hT : T ⟨s, .act j .start, ms, t⟩) :
    Due M i j a (2 * s.now + 3 * I.helloInterval + 2 * M.delay) t := by
  have hsound := hs.does hI hs₀ h hT
  have hnow : t.now = s.now := by
    cases h with
    | act => rfl
  obtain ⟨expiry, hwaits⟩ := (h.advertises_of_start hI hs).waits
  have hsoon := hwaits.soon
  rw [hsound.clock j, Advertiser.ownInterval, hsound.isGroundStation, hairborne,
    if_neg Bool.false_ne_true, hnow] at hsoon
  exact .inr ⟨expiry, hwaits.own, by linarith⟩

theorem Does.now_le (h : Does E I outOfRange M s e t ms) (k : ι) : s.now ≤ t.now := by
  cases h with
  | advance hnodes => linarith [(hnodes k).nonneg]
  | act => exact le_rfl
  | deliver => exact le_rfl

/-- Times do not go back along a run. -/
theorem now_le_of_run (h : Run (Step E I outOfRange M) s tr u) (k : ι) :
    s.now ≤ u.now ∧ ∀ y ∈ tr, s.now ≤ y.pre.now :=
  h.invariant (I := fun t => s.now ≤ t.now) (fun _ hy hle => hle.trans (hy.now_le k)) le_rfl

/-- From Start on, a message is due or the address is known; until then it is early. -/
theorem heard_run (hI : 0 ≤ I.gsInterval) (hs₀ : Initial s₀)
    (h : Run (Step E I outOfRange M) s₀ tr u)
    (hairborne : (s₀.nodes j).node.isGroundStation = false)
    (haddress : (s₀.nodes j).node.HasAddress a) (ha : a ≠ Ipv4Address.getZero)
    (hhears : M.hears i a)
    (hlife : 3 * I.helloInterval + 2 * M.delay < 2 * NeighborTable.entryLifeTime)
    {x : Transition (Fleet ι) (Event ι) (List (Flight ι))} (hx : x ∈ tr)
    (hstart : x.event = .act j .start)
    (hD : D = 2 * x.pre.now + 3 * I.helloInterval + 2 * M.delay) :
    Heard I M i j a D u ∧ ∀ y ∈ tr, 2 * y.pre.now ≤ D ∨ Heard I M i j a D y.pre := by
  have hsound := (sound_run hI hs₀ h).2
  have hstep := h.step_of_mem x hx
  rw [Step, hstart] at hstep
  have hadvertises := hstep.advertises_of_start hI (hsound x hx)
  have hdue : Due M i j a D x.post := hD ▸
    due_of_start hI hs₀ hairborne (hsound x hx) hstep (by rwa [← hstart])
  obtain ⟨tr₁, tr₂, rfl, h₁, h₂⟩ := h.exists_split hx
  have hlater := h₂.invariant_of (C := (· ∈ tr₁ ++ x :: tr₂)) (I := Heard I M i j a D)
    (fun y hy hT hpre => hpre.does hI hs₀ hairborne haddress ha hhears hlife (hsound y hT) hy hT)
    (fun y hy => List.mem_append_right _ (List.mem_cons_of_mem _ hy)) ⟨hadvertises, .inl hdue⟩
  refine ⟨hlater.1, fun y hy => ?_⟩
  -- a transition up to Start is not later than Start, and what is due then is not over
  have hle : 2 * x.pre.now ≤ D := by
    have hnow : x.pre.now ≤ x.post.now := hstep.now_le j
    linarith [hdue.le ((hsound x hx).does hI hs₀ (h.step_of_mem x hx) hx) hadvertises]
  rcases List.mem_append.mp hy with hy | hy
  · obtain ⟨_, _, rfl, _, hrest⟩ := h₁.exists_split hy
    have hnow : y.pre.now ≤ y.post.now := (h₁.step_of_mem y (by simp)).now_le j
    exact .inl (by linarith [(now_le_of_run hrest j).1])
  · rcases List.mem_cons.mp hy with rfl | hy
    · exact .inl hle
    · exact .inr (hlater.2 y hy)

omit [DecidableEq ι] in
/-- Once the first message has arrived, the address is in the table, with an entry that lives. -/
theorem Heard.known (hheard : Heard I M i j a D s) (hs : Sound I M outOfRange s₀ T s)
    (ha : a ≠ Ipv4Address.getZero)
    (hlife : 3 * I.helloInterval + 2 * M.delay < 2 * NeighborTable.entryLifeTime)
    (hlate : D < 2 * s.now) :
    ∃ e : NeighborTableEntry × Time, (s.nodes i).node.neighbors.table[a]? = some e ∧
      ((s.nodes i).node.neighbors.purge s.now).table[a]? = some e ∧
      2 * (s.now - e.2) ≤ 3 * I.helloInterval + 2 * M.delay := by
  obtain ⟨hj, hdue | ⟨e, he, hdue⟩⟩ := hheard
  · exact absurd (hdue.le hs hj) (by linarith)
  · have hle := hdue.le hs hj
    refine ⟨e, he, EntryTable.getElem?_purge_eq_some.mpr ⟨he, ?_⟩, by linarith⟩
    rw [EntryTable.updateTime, if_neg ha]
    linarith

/-- From an interval and a half after Start on, up to the delay of the medium, a neighbour that is
heard is in the table, with an entry that is no older than that and says where the neighbour was
when it sent it. -/
theorem heard_neighbor_known (hI : 0 ≤ I.gsInterval) (hs₀ : Initial s₀)
    (h : Run (Step E I outOfRange M) s₀ tr u)
    (hairborne : (s₀.nodes j).node.isGroundStation = false)
    (haddress : (s₀.nodes j).node.HasAddress a) (ha : a ≠ Ipv4Address.getZero)
    (hhears : M.hears i a)
    (hlife : 3 * I.helloInterval + 2 * M.delay < 2 * NeighborTable.entryLifeTime)
    {x : Transition (Fleet ι) (Event ι) (List (Flight ι))} (hx : x ∈ tr)
    (hstart : x.event = .act j .start)
    (hlate : 2 * x.pre.now + 3 * I.helloInterval + 2 * M.delay < 2 * u.now) :
    ∃ e : NeighborTableEntry × Time,
      ((u.nodes i).node.neighbors.purge u.now).table[a]? = some e ∧
      2 * (u.now - e.2) ≤ 3 * I.helloInterval + 2 * M.delay ∧
      ∃ y ∈ tr, y.event = .act j .helloTimer ∧ y.pre.now ≤ e.2 ∧ e.2 ≤ y.pre.now + M.delay ∧
        Describes (y.pre.nodes j).node e.1 := by
  have hheard := (heard_run hI hs₀ h hairborne haddress ha hhears hlife hx hstart rfl).1
  obtain ⟨e, he, hlive, hage⟩ := hheard.known (sound_run hI hs₀ h).1 ha hlife hlate
  refine ⟨e, hlive, hage, ?_⟩
  obtain ⟨y, k, m, hy, hgreets, hsender, hfrom, hto, hdescribes⟩ :=
    (truthful_run hI hs₀ h i).neighbors a e he
  have hk : k = j := hs₀.distinct k j a (hsender ▸ hgreets.address) haddress
  subst hk
  exact ⟨y, hy, hgreets.event, hfrom, hto, hdescribes⟩

/-- Node 1 starts and sends two messages, and a moment passes. -/
theorem exists_run_again : ∃ tr listener, Run (Step Sample.env {} (fun _ => 0) radio)
    (pair 0 (Sample.node 0) {} [])
    (⟨pair 0 (Sample.node 0) {} [], .act true .start, [],
      pair 0 (Sample.node 0) ⟨true, some 0⟩ []⟩ :: tr)
    (pair (Time.milliSeconds 1600) listener ⟨true, some (Time.milliSeconds 3000)⟩ []) := by
  obtain ⟨tr, hrun⟩ := exists_run_pair
  have hplain : (saluted 0 (Sample.node 0)).securityState = false := rfl
  have hwait : Does Sample.env {} (fun _ => 0) radio
      (pair 0 (saluted 0 (Sample.node 0)) ⟨true, some (Time.milliSeconds 1500)⟩ [])
      (.advance (Time.milliSeconds 1500))
      (pair (Time.milliSeconds 1500) (saluted 0 (Sample.node 0))
        ⟨true, some (Time.milliSeconds 1500)⟩ []) [] :=
    advance_pair (by decide) rfl (fun _ ht => by cases ht) (by decide)
  obtain ⟨tr', hrun'⟩ := exists_salute_run (Time.milliSeconds 1500) (Time.seconds 5) {} hplain
  have hmoment : Does Sample.env {} (fun _ => 0) radio
      (pair (Time.milliSeconds 1500) (saluted (Time.milliSeconds 1500) (saluted 0 (Sample.node 0)))
        ⟨true, some (Time.milliSeconds 3000)⟩ []) (.advance (Time.milliSeconds 100))
      (pair (Time.milliSeconds 1600) (saluted (Time.milliSeconds 1500) (saluted 0 (Sample.node 0)))
        ⟨true, some (Time.milliSeconds 3000)⟩ []) [] :=
    advance_pair (by decide) rfl (fun _ ht => by cases ht) (by decide)
  exact ⟨_, _, hrun.append (.cons (x := ⟨_, _, _, _⟩) rfl hwait
    (hrun'.append (.single ⟨_, _, _, _⟩ hmoment)))⟩

theorem heard_neighbor_known_pair : ∃ (tr : List (Transition (Fleet Bool) (Event Bool) _))
    (listener : Node), Run (Step Sample.env {} (fun _ => 0) radio)
      (pair 0 (Sample.node 0) {} []) tr
      (pair (Time.milliSeconds 1600) listener ⟨true, some (Time.milliSeconds 3000)⟩ []) ∧
    ∃ e, (listener.neighbors.purge (Time.milliSeconds 1600)).table[Ipv4Address.ofOctets 10 1 1 2]? =
      some e := by
  obtain ⟨tr, listener, hrun⟩ := exists_run_again
  obtain ⟨e, he, -⟩ := heard_neighbor_known (i := false) (j := true)
    (a := Ipv4Address.ofOctets 10 1 1 2) (by decide) pair_initial hrun rfl
    (hasAddress_node.mpr rfl) (by decide) rfl (by decide) List.mem_cons_self rfl
    (show 2 * (0 : ℤ) + 3 * Time.seconds 1 + 2 * 0 < 2 * Time.milliSeconds 1600 by decide)
  exact ⟨_, listener, hrun, e, he⟩

end SAeroRP.Fleet
