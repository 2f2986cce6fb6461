import Mathlib.Data.List.Basic
import Mathlib.Tactic.Ring

/-! Byte strings. A natural number is written as a fixed number of bytes, least
significant first, and read back; a reader consumes bytes from the front of a
string and may run out. `Reads r bs a` says that `r` reads exactly the bytes
`bs`, whatever follows, and returns `a`; it composes along `bind`, so a writer
made of appends and a reader made of binds are matched field by field. -/

namespace SAeroRP.Library

abbrev Bytes := List UInt8

/-! ### Little-endian words -/

/-- The low `w` bytes of `n`, least significant first. -/
def leBytes : ℕ → ℕ → Bytes
  | 0, _ => []
  | w + 1, n => UInt8.ofNat n :: leBytes w (n / 256)

/-- The number a byte string stands for, least significant byte first. -/
def leValue : Bytes → ℕ
  | [] => 0
  | b :: bs => b.toNat + 256 * leValue bs

@[simp] theorem length_leBytes (w n : ℕ) : (leBytes w n).length = w := by
  induction w generalizing n with
  | zero => rfl
  | succ w ih => simp [leBytes, ih]

theorem leValue_leBytes (w n : ℕ) : leValue (leBytes w n) = n % 256 ^ w := by
  induction w generalizing n with
  | zero => simp [leBytes, leValue, Nat.mod_one]
  | succ w ih =>
    have hbyte : (UInt8.ofNat n).toNat = n % 256 := UInt8.toNat_ofNat'
    rw [leBytes, leValue, ih, hbyte, pow_succ', Nat.mod_mul]

/-- A number that fits its width survives being written and read. -/
theorem leValue_leBytes_of_lt {w n : ℕ} (h : n < 256 ^ w) : leValue (leBytes w n) = n := by
  rw [leValue_leBytes, Nat.mod_eq_of_lt h]

theorem leValue_lt (bs : Bytes) : leValue bs < 256 ^ bs.length := by
  induction bs with
  | nil => simp [leValue]
  | cons b bs ih =>
    have hb : b.toNat < 256 := b.toNat_lt
    simp only [leValue, List.length_cons, pow_succ']
    omega

/-- Reading bytes as a number and writing it at the same width gives them back. -/
theorem leBytes_leValue (bs : Bytes) : leBytes bs.length (leValue bs) = bs := by
  induction bs with
  | nil => rfl
  | cons b bs ih =>
    have hb : b.toNat < 256 := b.toNat_lt
    have hdiv : leValue (b :: bs) / 256 = leValue bs := by
      rw [leValue]
      omega
    have hlow : UInt8.ofNat (leValue (b :: bs)) = b := by
      rw [← UInt8.toNat_inj, UInt8.toNat_ofNat', leValue]
      omega
    rw [List.length_cons, leBytes, hdiv, ih, hlow]

/-! ### Readers -/

/-- A reader returns its value and the bytes left, or `none` past the end. -/
abbrev Reader := StateT Bytes Option

namespace Reader

/-- The next `n` bytes. -/
def take (n : ℕ) : Reader Bytes := fun bs =>
  if n ≤ bs.length then some (bs.take n, bs.drop n) else none

/-- `r` consumes exactly `bs` and returns `a`. -/
def Reads {α : Type} (r : Reader α) (bs : Bytes) (a : α) : Prop :=
  ∀ rest, r (bs ++ rest) = some (a, rest)

variable {α β : Type}

theorem reads_take {n : ℕ} {bs : Bytes} (h : bs.length = n) : Reads (take n) bs bs := by
  intro rest
  subst h
  simp [take]

theorem reads_pure (a : α) : Reads (pure a : Reader α) [] a := fun _ => rfl

theorem Reads.bind {r : Reader α} {f : α → Reader β} {bs cs : Bytes} {a : α} {b : β}
    (hr : Reads r bs a) (hf : Reads (f a) cs b) : Reads (r >>= f) (bs ++ cs) b := by
  intro rest
  show (r (bs ++ cs ++ rest)).bind (fun p => f p.1 p.2) = some (b, rest)
  rw [List.append_assoc, hr]
  exact hf rest

theorem Reads.map {r : Reader α} {bs : Bytes} {a : α} (hr : Reads r bs a) (f : α → β) :
    Reads (f <$> r) bs (f a) := by
  intro rest
  show (r (bs ++ rest)).bind (fun p => some (f p.1, p.2)) = some (f a, rest)
  rw [hr]
  rfl

/-- `r` accepts exactly the strings that begin with something `w` writes, and returns
what was written. -/
def Exact (r : Reader α) (w : α → Bytes) : Prop :=
  ∀ bs a rest, r bs = some (a, rest) ↔ bs = w a ++ rest

theorem Exact.iff {r : Reader α} {w : α → Bytes} (h : Exact r w) {bs rest : Bytes} {a : α} :
    r bs = some (a, rest) ↔ bs = w a ++ rest := h bs a rest

/-- What is written is read back, and nothing else is accepted. -/
theorem Exact.of_reads {r : Reader α} {w : α → Bytes} (hreads : ∀ a, Reads r (w a) a)
    (h : ∀ bs a rest, r bs = some (a, rest) → bs = w a ++ rest) : Exact r w := by
  intro bs a rest
  refine ⟨h bs a rest, ?_⟩
  rintro rfl
  exact hreads a rest

/-- What is written can be told apart, whatever follows it. -/
theorem Exact.append_inj {r : Reader α} {w : α → Bytes} (h : Exact r w) {a b : α}
    {rest rest' : Bytes} (heq : w a ++ rest = w b ++ rest') : a = b ∧ rest = rest' := by
  have hread : r (w a ++ rest) = some (a, rest) := h.iff.mpr rfl
  rw [heq, h.iff.mpr rfl, Option.some.injEq, Prod.mk.injEq] at hread
  exact ⟨hread.1.symm, hread.2.symm⟩

theorem take_eq_some {n : ℕ} {bs cs rest : Bytes} :
    take n bs = some (cs, rest) ↔ bs = cs ++ rest ∧ cs.length = n := by
  unfold take
  constructor
  · intro h
    split_ifs at h with hn
    cases h
    exact ⟨(List.take_append_drop n bs).symm, List.length_take_of_le hn⟩
  · rintro ⟨rfl, rfl⟩
    simp

theorem bind_eq_some {r : Reader α} {f : α → Reader β} {bs rest : Bytes} {b : β} :
    (r >>= f) bs = some (b, rest) ↔ ∃ a mid, r bs = some (a, mid) ∧ f a mid = some (b, rest) := by
  show (r bs).bind (fun p => f p.1 p.2) = some (b, rest) ↔ _
  rw [Option.bind_eq_some_iff]
  exact ⟨fun ⟨p, hr, hf⟩ => ⟨p.1, p.2, hr, hf⟩, fun ⟨a, mid, hr, hf⟩ => ⟨(a, mid), hr, hf⟩⟩

theorem pure_eq_some {a b : α} {bs rest : Bytes} :
    (pure a : Reader α) bs = some (b, rest) ↔ a = b ∧ bs = rest := by
  show some (a, bs) = some (b, rest) ↔ _
  rw [Option.some.injEq, Prod.mk.injEq]

/-- A word of `n` bytes, decoded by `f` and encoded by `w`, which are inverse. -/
theorem exact_map_take {n : ℕ} {f : Bytes → α} {w : α → Bytes} (hlen : ∀ a, (w a).length = n)
    (hf : ∀ a, f (w a) = a) (hw : ∀ bs, bs.length = n → w (f bs) = bs) :
    Exact (f <$> take n) w := by
  intro bs a rest
  show (take n bs).bind (fun p => some (f p.1, p.2)) = some (a, rest) ↔ _
  rw [Option.bind_eq_some_iff]
  constructor
  · rintro ⟨⟨cs, mid⟩, hr, ha⟩
    obtain ⟨rfl, hcs⟩ := take_eq_some.mp hr
    cases ha
    rw [hw cs hcs]
  · rintro rfl
    exact ⟨(w a, rest), take_eq_some.mpr ⟨rfl, hlen a⟩, by rw [hf]⟩

/-- `r` takes `n` bytes off every string that has as many, and fails on the others. -/
structure Consumes (r : Reader α) (n : ℕ) : Prop where
  run : ∀ bs, n ≤ bs.length → ∃ a, r bs = some (a, bs.drop n)
  pastEnd : ∀ bs, bs.length < n → r bs = none

theorem consumes_take (n : ℕ) : Consumes (take n) n :=
  ⟨fun bs hn => ⟨bs.take n, if_pos hn⟩, fun _ hn => if_neg hn.not_ge⟩

theorem consumes_pure (a : α) : Consumes (pure a : Reader α) 0 :=
  ⟨fun _ _ => ⟨a, rfl⟩, fun _ hn => absurd hn (Nat.not_lt_zero _)⟩

theorem Consumes.map {r : Reader α} {n : ℕ} (hr : Consumes r n) (f : α → β) :
    Consumes (f <$> r) n := by
  constructor
  · intro bs hn
    obtain ⟨a, ha⟩ := hr.run bs hn
    refine ⟨f a, ?_⟩
    show (r bs).bind (fun p => some (f p.1, p.2)) = _
    rw [ha]
    rfl
  · intro bs hn
    show (r bs).bind (fun p => some (f p.1, p.2)) = none
    rw [hr.pastEnd bs hn]
    rfl

theorem Consumes.bind {r : Reader α} {f : α → Reader β} {m n : ℕ} (hr : Consumes r m)
    (hf : ∀ a, Consumes (f a) n) : Consumes (r >>= f) (m + n) := by
  constructor
  · intro bs hn
    obtain ⟨a, ha⟩ := hr.run bs (by omega)
    obtain ⟨b, hb⟩ := (hf a).run (bs.drop m) (by rw [List.length_drop]; omega)
    exact ⟨b, bind_eq_some.mpr ⟨a, _, ha, by rw [hb, List.drop_drop]⟩⟩
  · intro bs hn
    show (r bs).bind (fun p => f p.1 p.2) = none
    by_cases hm : m ≤ bs.length
    · obtain ⟨a, ha⟩ := hr.run bs hm
      rw [ha]
      exact (hf a).pastEnd _ (by rw [List.length_drop]; omega)
    · rw [hr.pastEnd bs (by omega)]
      rfl

/-- A string of the length that is read is one that is written. -/
theorem Exact.of_length {r : Reader α} {w : α → Bytes} {n : ℕ} (hr : Exact r w)
    (hc : Consumes r n) {bs : Bytes} (h : bs.length = n) : ∃ a, bs = w a := by
  obtain ⟨a, ha⟩ := hc.run bs h.ge
  refine ⟨a, ?_⟩
  rw [hr.iff.mp ha, List.drop_of_length_le h.le, List.append_nil]

/-- What a reader returns for a string it was matched with. -/
theorem Reads.run {r : Reader α} {bs : Bytes} {a : α} (hr : Reads r bs a) (rest : Bytes) :
    r (bs ++ rest) = some (a, rest) := hr rest

theorem Reads.run_nil {r : Reader α} {bs : Bytes} {a : α} (hr : Reads r bs a) :
    r bs = some (a, []) := by
  simpa using hr []

end Reader

end SAeroRP.Library
