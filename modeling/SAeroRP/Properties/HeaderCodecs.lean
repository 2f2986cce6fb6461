import SAeroRP.Packet.Codec

/-! The headers survive being written and read, for every class that announces the
size it writes. The topology header announces 16 bytes, writes and reads 28, and so
fails the assertion at the end of Deserialize. -/

namespace SAeroRP

open Library

namespace HeaderClass

/-- What Serialize wrote, Deserialize restores, and it consumes exactly those bytes,
whatever follows, unless the header is a topology header. What Deserialize returns is
written as the bytes it consumed. The fields alone are restored and written back for
every class. -/
theorem deserialize_serialize_iff (c : HeaderClass) :
    (∀ (old h : c.Header) (rest : Bytes),
      c.deserialize old (c.serialize h ++ rest) = .ok (c.written h, (c.serialize h).length) ↔
        c ≠ .gsTopology) ∧
    (∀ (old h : c.Header) (bs : Bytes) (n : ℕ), c.deserialize old bs = .ok (h, n) → c.Known h →
      c.serialize h = bs.take n) ∧
    (∀ (old h : c.Header) (rest : Bytes),
      c.readFields old (c.serialize h ++ rest) = some (c.written h, rest)) ∧
    ∀ (old h : c.Header) (bs rest : Bytes), c.readFields old bs = some (h, rest) → c.Known h →
      c.serialize h ++ rest = bs := by
  refine ⟨fun old h rest => ?_, fun old h bs n hd hknown => ?_, c.readFields_serialize,
    fun old h bs rest hr hknown => ?_⟩
  · rw [deserialize_of_readFields (c.readFields_serialize old h rest), length_serialize]
    constructor
    · intro hok
      by_contra hc
      rw [if_neg fun heq => (c.writtenSize_eq_iff.mp heq) hc] at hok
      cases hok
    · intro hc
      rw [if_pos (c.writtenSize_eq_iff.mpr hc)]
  · obtain ⟨rest, hr, rfl, -⟩ := of_deserialize hd
    obtain ⟨cs, rfl, hlen, hcs⟩ := of_readFields hr
    rw [hcs hknown, List.take_left' hlen]
  · obtain ⟨cs, rfl, -, hcs⟩ := of_readFields hr
    rw [hcs hknown]

/-- A topology header of zeros does not come back from Deserialize. -/
theorem deserialize_serialize_gsTopology :
    gsTopology.deserialize (⟨0, 0, 0, 0, 0⟩ : GSTopologyHeader)
        (gsTopology.serialize (⟨0, 0, 0, 0, 0⟩ : GSTopologyHeader)) = .error .assertion ∧
      ¬ ∀ (c : HeaderClass) (old h : c.Header) (rest : Bytes),
        c.deserialize old (c.serialize h ++ rest) =
          .ok (c.written h, (c.serialize h).length) := by
  have hfail := deserialize_of_readFields
    (gsTopology.readFields_serialize (⟨0, 0, 0, 0, 0⟩ : GSTopologyHeader)
      (⟨0, 0, 0, 0, 0⟩ : GSTopologyHeader) [])
  rw [if_neg (by decide), List.append_nil] at hfail
  refine ⟨hfail, fun hall => ?_⟩
  have hok := hall .gsTopology (⟨0, 0, 0, 0, 0⟩ : GSTopologyHeader)
    (⟨0, 0, 0, 0, 0⟩ : GSTopologyHeader) []
  rw [List.append_nil, hfail] at hok
  cases hok

/-- The size that is announced is the number of bytes that are written and the number
that are consumed, unless the header is a topology header; and it is the size the
encryption of the messages counts on. -/
theorem getSerializedSize_iff (c : HeaderClass) :
    (∀ h : c.Header, (c.serialize h).length = c.getSerializedSize ↔ c ≠ .gsTopology) ∧
    (∀ (old h : c.Header) (bs rest : Bytes), c.readFields old bs = some (h, rest) →
      (bs.length - rest.length = c.getSerializedSize ↔ c ≠ .gsTopology)) ∧
    hello.getSerializedSize = HELLO_PACKET_SIZE ∧
    gsGeoLocation.getSerializedSize = GS_PACKET_SIZE ∧
    secureHello.getSerializedSize = HELLO_PACKET_SIZE + TAG_SIZE ∧
    secureGSGeoLocation.getSerializedSize = GS_PACKET_SIZE + TAG_SIZE := by
  refine ⟨fun h => ?_, fun old h bs rest hr => ?_, rfl, rfl, rfl, rfl⟩
  · rw [length_serialize, writtenSize_eq_iff]
  · obtain ⟨cs, rfl, hlen, -⟩ := of_readFields hr
    rw [List.length_append, hlen, Nat.add_sub_cancel, writtenSize_eq_iff]

/-- A topology header of zeros is written in 28 bytes, not in 16. -/
theorem getSerializedSize_gsTopology :
    (gsTopology.serialize (⟨0, 0, 0, 0, 0⟩ : GSTopologyHeader)).length = 28 ∧
      ¬ ∀ (c : HeaderClass) (h : c.Header), (c.serialize h).length = c.getSerializedSize := by
  have hlen := gsTopology.length_serialize (⟨0, 0, 0, 0, 0⟩ : GSTopologyHeader)
  refine ⟨hlen, fun hall => ?_⟩
  have hsize := hall .gsTopology (⟨0, 0, 0, 0, 0⟩ : GSTopologyHeader)
  rw [hlen] at hsize
  exact absurd hsize (by decide)

end HeaderClass

end SAeroRP
