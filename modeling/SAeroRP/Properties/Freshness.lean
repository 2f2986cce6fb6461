import SAeroRP.Routing.RecvAERORP

/-! The time check on authentication messages. The receiver never looks at the
time stamp a message carries: FromInteger returns a new time and leaves the
object it is called through at its default, so the check compares 5 s with the
clock. -/

namespace SAeroRP.Freshness

open Node

/-- The message was sent at most 5 s before `now`; the stamp counts milliseconds. -/
def Fresh (ts : UInt64) (now : Time) : Prop :=
  Time.milliSeconds ts.toNat + Time.seconds 5 ≥ now

/-- The time check on a message that carries the stamp. -/
def Accepts (ts : UInt64) (now : Time) : Prop :=
  verifyTimeStamp now (receivedTimeStamp ts) = true

instance (ts : UInt64) (now : Time) : Decidable (Fresh ts now) :=
  inferInstanceAs (Decidable (_ ≥ _))

instance (ts : UInt64) (now : Time) : Decidable (Accepts ts now) :=
  inferInstanceAs (Decidable (_ = _))

theorem accepts_iff (ts : UInt64) (now : Time) : Accepts ts now ↔ now ≤ Time.seconds 5 := by
  simp [Accepts, verifyTimeStamp, receivedTimeStamp]

section
variable {β : Type} (E : Env β) (now : Time) (n : Node)

/-- The check on the stamp is one of the four that CheckPacketValidity makes on a
request, and on a reply. -/
theorem requestValid_eq_true (hdr : AuthenticationRequestHeader) :
    n.requestValid E now hdr = .ok true ↔
      n.verifyCert E (E.ssl.d2iX509 hdr.certificate) = .ok true ∧ Accepts hdr.timeStamp now ∧
        verifySign E (setANData hdr.timeStamp hdr.randomNo hdr.identification).toList hdr.sign
          ((E.ssl.d2iX509 hdr.certificate).bind X509.pubkey) = true ∧
        n.verifyIdentification hdr.identification = true :=
  checkPacketValidity_eq_true E

theorem replyValid_eq_true (hdr : AuthenticationReplyHeader) :
    n.replyValid E now hdr = .ok true ↔
      n.verifyCert E (E.ssl.d2iX509 hdr.certificate) = .ok true ∧ Accepts hdr.timeStamp now ∧
        verifySign E (setGSData hdr.timeStamp hdr.randomNo hdr.oldRandomNo hdr.identification
          hdr.sharedKey).toList hdr.sign ((E.ssl.d2iX509 hdr.certificate).bind X509.pubkey) = true ∧
        n.verifyIdentification hdr.identification = true :=
  checkPacketValidity_eq_true E

end

/-- The check gives the right answer exactly in the first 5 s of the simulation
and for messages that are too old. -/
theorem accepts_iff_fresh_iff (ts : UInt64) (now : Time) :
    (Accepts ts now ↔ Fresh ts now) ↔
      now ≤ Time.seconds 5 ∨ Time.milliSeconds ts.toNat + Time.seconds 5 < now := by
  rw [accepts_iff]
  have hts : (0 : ℤ) ≤ Time.milliSeconds ts.toNat := by
    unfold Time.milliSeconds
    positivity
  unfold Fresh
  constructor
  · intro h
    by_cases hnow : now ≤ Time.seconds 5
    · exact .inl hnow
    · exact .inr (lt_of_not_ge (mt h.mpr hnow))
  · rintro (hnow | hold)
    · exact iff_of_true hnow (by linarith)
    · exact iff_of_false (by linarith) (not_le.mpr hold)

/-- A request sent and received 10 s into the simulation is rejected. -/
theorem fresh_not_accepted :
    ¬ ∀ (ts : UInt64) (now : Time), Accepts ts now ↔ Fresh ts now := by
  intro h
  have hstamp : Fresh (sentTimeStamp (Time.seconds 10)) (Time.seconds 10) := by decide
  exact absurd ((h _ _).mpr hstamp) (by decide)

end SAeroRP.Freshness
