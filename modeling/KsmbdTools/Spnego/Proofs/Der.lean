import KsmbdTools.Spnego.Proofs.InToken

/-! Elements with definite lengths, as the decoder reads them and the encoder writes them. -/

namespace KsmbdTools.Spnego

def derLength (len : Nat) : List UInt8 :=
  if len < 2 ^ 7 then Bytes.encode false 1 len
  else if len < 2 ^ 8 then 129 :: Bytes.encode false 1 len
  else if len < 2 ^ 16 then 130 :: Bytes.encode false 2 len
  else if len < 2 ^ 24 then 131 :: Bytes.encode false 3 len
  else 132 :: Bytes.encode false 4 len

theorem derLength_cases {len : Nat} (fits : len < 2 ^ 32) :
    len < 2 ^ 7 ∧ derLength len = [UInt8.ofNat len] ∨
      ∃ width, 1 ≤ width ∧ width ≤ 4 ∧ len < 256 ^ width ∧
        derLength len = UInt8.ofNat (128 + width) :: Bytes.encode false width len := by
  unfold derLength
  split
  · next short => exact .inl ⟨short, rfl⟩
  · split
    · next one => exact .inr ⟨1, by decide, by decide, one, rfl⟩
    · split
      · next two => exact .inr ⟨2, by decide, by decide, two, rfl⟩
      · split
        · next three => exact .inr ⟨3, by decide, by decide, three, rfl⟩
        · exact .inr ⟨4, by decide, by decide, fits, rfl⟩

namespace Asn1Id

def octet (id : Asn1Id) : UInt8 := UInt8.ofNat (id.cls % 4 * 64 + id.con % 2 * 32 + id.tag % 32)

structure Low (id : Asn1Id) : Prop where
  cls : id.cls < 4
  con : id.con < 2
  tag : id.tag < 31

namespace Low

theorem application : application.Low := ⟨by decide, by decide, by decide⟩

theorem objectId : objectId.Low := ⟨by decide, by decide, by decide⟩

theorem sequence : sequence.Low := ⟨by decide, by decide, by decide⟩

theorem octetString : octetString.Low := ⟨by decide, by decide, by decide⟩

theorem enumerated : enumerated.Low := ⟨by decide, by decide, by decide⟩

theorem context {number : Nat} (small : number < 31) : (context number).Low :=
  ⟨show 2 < 4 by decide, show 1 < 2 by decide, small⟩

end Low
end Asn1Id

def tlv (id : Asn1Id) (contents : List UInt8) : List UInt8 := id.octet :: (derLength contents.length ++ contents)

theorem Asn1Id.Low.identifier {id : Asn1Id} (low : id.Low) : Identifier [id.octet] id := by
  obtain ⟨cls, con, tag⟩ := id
  obtain ⟨classes, forms, tags⟩ := low
  dsimp only at classes forms tags
  have value : (Asn1Id.octet ⟨cls, con, tag⟩).toNat = cls * 64 + con * 32 + tag := by
    simp only [Asn1Id.octet, UInt8.toNat_ofNat']
    omega
  have parts : (cls * 64 + con * 32 + tag) / 64 = cls ∧ (cls * 64 + con * 32 + tag) / 32 % 2 = con ∧
      (cls * 64 + con * 32 + tag) % 32 = tag := by omega
  have read := Identifier.low (Asn1Id.octet ⟨cls, con, tag⟩) (by omega)
  rwa [value, parts.1, parts.2.1, parts.2.2] at read

theorem bigEndian_encode {width len : Nat} (narrow : width ≤ 4) (fits : len < 256 ^ width) :
    bigEndian (Bytes.encode false width len) = len := by
  have cases : width = 0 ∨ width = 1 ∨ width = 2 ∨ width = 3 ∨ width = 4 := by omega
  rcases cases with rfl | rfl | rfl | rfl | rfl <;>
    simp [bigEndian, Bytes.encode, Bytes.encodeLittle] at fits ⊢ <;> omega

theorem derLength_field {len : Nat} (fits : len < 2 ^ 32) : LengthField (derLength len) (some len) := by
  rcases derLength_cases fits with ⟨short, same⟩ | ⟨width, count, narrow, bound, same⟩
  · have value : (UInt8.ofNat len).toNat = len := by
      rw [UInt8.toNat_ofNat']
      omega
    have field := LengthField.short (UInt8.ofNat len) (by rw [UInt8.lt_iff_toNat_lt, value]; exact short)
    rwa [value, ← same] at field
  · have value : (UInt8.ofNat (128 + width)).toNat = 128 + width := by
      rw [UInt8.toNat_ofNat']
      omega
    have large : 128 < UInt8.ofNat (128 + width) := by
      rw [UInt8.lt_iff_toNat_lt, value]
      exact Nat.lt_add_of_pos_right count
    have field := LengthField.long (UInt8.ofNat (128 + width)) large (Bytes.encode false width len)
      (by rw [Bytes.length_encode, value]; omega)
    rwa [bigEndian_encode narrow bound, Nat.mod_eq_of_lt fits, ← same] at field

theorem tlv_length (id : Asn1Id) (contents : List UInt8) :
    (tlv id contents).length = 1 + (derLength contents.length).length + contents.length := by
  simp only [tlv, List.length_cons, List.length_append]
  omega

section Reading
variable {buffer : List UInt8} {start : Nat}

theorem HeaderAt.of_tlv {id : Asn1Id} {contents : List UInt8} (low : id.Low) (fits : contents.length < 2 ^ 32)
    (held : At buffer start (tlv id contents)) (inside : start ≤ buffer.length) :
    ∃ body, HeaderAt buffer start id (some contents.length) body ∧ At buffer body contents ∧
      body + contents.length = start + (tlv id contents).length := by
  have parts : At buffer start (([id.octet] ++ derLength contents.length) ++ contents) := held
  obtain ⟨header, body⟩ := parts.append
  have ends : start + ([id.octet] ++ derLength contents.length).length + contents.length =
      start + (tlv id contents).length := by
    rw [tlv_length, List.length_append, List.length_singleton]
    omega
  refine ⟨_, ⟨⟨_, _, low.identifier, derLength_field fits, header, rfl⟩, ?_, nofun⟩, body, ends⟩
  rw [Option.getD_some, ends]
  exact held.inside inside

theorem OidAt.of_tlv {bytes : List UInt8} {value : Nat} {values : List Nat} (short : bytes.length < 2 ^ 29 - 1)
    (complete : Subids bytes (value :: values)) (held : At buffer start (tlv .objectId bytes))
    (inside : start ≤ buffer.length) :
    OidAt buffer start (firstArcs (value % 2 ^ 64) ++ values.map (· % 2 ^ 64)) (start + (tlv .objectId bytes).length) := by
  obtain ⟨body, header, held, ends⟩ := HeaderAt.of_tlv Asn1Id.Low.objectId (by omega) held inside
  have counted := complete.length_le
  rw [List.length_cons] at counted
  have fits : RoomFits (arcRoom bytes.length) ∧ 2 + values.length ≤ arcRoom bytes.length := by
    unfold RoomFits arcRoom
    omega
  have contents := complete.contents fits.1 fits.2 held
  rw [ends] at contents
  exact OidOctets.read ⟨_, _, header, contents⟩

end Reading

theorem Runs.read {buffer bytes : List UInt8} {start : Nat} (held : At buffer start bytes)
    (inside : start ≤ buffer.length) :
    Runs buffer (asn1Read bytes.length) start (.ok bytes) (start + bytes.length) := by
  have whole := held.inside inside
  refine ⟨[some (start + bytes.length)], ?_, fun used => ?_⟩
  · intro use member
    rw [List.mem_singleton.mp member]
    exact ⟨_, whole, rfl⟩
  · obtain ⟨behind, same⟩ := held
    simp [asn1Read, Nat.not_lt.mpr whole, Asn1Ctx.move, ← same]

theorem Element.descend {buffer : List UInt8} {start : Nat} {id : Asn1Id} {contents : List UInt8} (low : id.Low)
    (size : buffer.length < 2 ^ 32) (held : At buffer start (tlv id contents)) (inside : start ≤ buffer.length) :
    ∃ body, Element buffer start id (some (start + (tlv id contents).length)) body ∧ At buffer body contents ∧
      body ≤ buffer.length ∧ body + contents.length = start + (tlv id contents).length := by
  have whole := held.inside inside
  have length := tlv_length id contents
  obtain ⟨body, header, held, ends⟩ := HeaderAt.of_tlv low (by omega) held inside
  have element := Runs.header header
  rw [Option.map_some, ends] at element
  exact ⟨body, element, held, header.place, ends⟩

end KsmbdTools.Spnego
