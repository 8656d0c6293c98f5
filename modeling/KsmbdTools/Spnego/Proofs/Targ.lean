import KsmbdTools.Spnego.Proofs.Extraction

/-! The reply token: the sizes computed beforehand are the ones the elements need. -/

namespace KsmbdTools.Spnego

def tlvSize (len : Nat) : Nat := 1 + (derLength len).length + len

theorem length_tlv (id : Asn1Id) (contents : List UInt8) : (tlv id contents).length = tlvSize contents.length :=
  tlv_length id contents

theorem length_derLength (len : Nat) : (derLength len).length =
    if len < 2 ^ 7 then 1 else if len < 2 ^ 8 then 2 else if len < 2 ^ 16 then 3 else if len < 2 ^ 24 then 4 else 5 := by
  unfold derLength
  split
  · simp
  · split
    · simp
    · split
      · simp
      · split <;> simp

theorem asn1HeaderLen_succ {len : Nat} (fits : tlvSize len < 2 ^ 32) (depth : Nat) :
    asn1HeaderLen len (depth + 1) = asn1HeaderLen (tlvSize len) depth := by
  have size := length_derLength len
  unfold tlvSize at fits ⊢
  rw [asn1HeaderLen]
  congr 1
  split_ifs at size ⊢ <;> omega

def header (id : Asn1Id) (len : Nat) : List UInt8 := id.octet :: derLength len

theorem tlv_eq (id : Asn1Id) (contents : List UInt8) : tlv id contents = header id contents.length ++ contents := rfl

theorem asn1HeaderEncode_size (id : Asn1Id) (len : Nat) :
    asn1HeaderEncode id.cls id.con id.tag (tlvSize len) = some (header id len, len) := by
  have size := length_derLength len
  unfold asn1HeaderEncode tlvSize
  rw [size]
  unfold header derLength
  by_cases short : len < 2 ^ 7
  · simp only [short, if_true]
    rw [if_neg (by omega), if_pos (by omega), show 1 + 1 + len - 1 - 1 = len by omega]
    rfl
  · by_cases one : len < 2 ^ 8
    · simp only [short, one, if_true, if_false]
      rw [if_neg (by omega), if_neg (by omega), if_pos (by omega), show 1 + 2 + len - 1 - 2 = len by omega]
      rfl
    · by_cases two : len < 2 ^ 16
      · simp only [short, one, two, if_true, if_false]
        rw [if_neg (by omega), if_neg (by omega), if_neg (by omega), if_pos (by omega),
          show 1 + 3 + len - 1 - 3 = len by omega]
        rfl
      · by_cases three : len < 2 ^ 24
        · simp only [short, one, two, three, if_true, if_false]
          rw [if_neg (by omega), if_neg (by omega), if_neg (by omega), if_neg (by omega), if_pos (by omega),
            show 1 + 4 + len - 1 - 4 = len by omega]
          rfl
        · simp only [short, one, two, three, if_false]
          rw [if_neg (by omega), if_neg (by omega), if_neg (by omega), if_neg (by omega), if_neg (by omega),
            show 1 + 5 + len - 1 - 5 = len by omega]
          rfl

namespace TargBuffer

theorem header_size (buffer : TargBuffer) (id : Asn1Id) (len : Nat) :
    buffer.header id (tlvSize len) = (buffer.put (Spnego.header id len), len) := by
  unfold TargBuffer.header
  rw [asn1HeaderEncode_size]

theorem copy_all (buffer : TargBuffer) (bytes : List UInt8) : buffer.copy bytes bytes.length = buffer.put bytes := rfl

def fresh (size : Nat) : TargBuffer := { memory := List.replicate size 0, position := 0 }

theorem put_put (size : Nat) (first second : List UInt8) :
    ((fresh size).put first).put second = (fresh size).put (first ++ second) := by
  have start : Bytes.overlay (List.replicate size 0) 0 first = first ++ List.replicate (size - first.length) 0 := by
    simp [Bytes.overlay]
  have whole : Bytes.overlay (List.replicate size 0) 0 (first ++ second) =
      first ++ second ++ List.replicate (size - (first.length + second.length)) 0 := by
    simp [Bytes.overlay]
  simp only [put, fresh, Nat.zero_add, List.length_append, whole, start]
  have left : size - first.length - second.length = size - (first.length + second.length) := by omega
  simp [Bytes.overlay, left]

theorem put_all {size : Nat} {bytes : List UInt8} (same : bytes.length = size) :
    ((fresh size).put bytes).memory = bytes := by
  simp [put, fresh, Bytes.overlay, same]

end TargBuffer

def repWrapper (blob : List UInt8) : List UInt8 := tlv .application (tlv .objectId Mech.krb5.bytes ++ ([2, 0] ++ blob))

def targElements (blob : List UInt8) (mech : Mech) : List UInt8 :=
  tlv (.context 0) (tlv .enumerated [0]) ++ (tlv (.context 1) (tlv .objectId mech.bytes) ++
    tlv (.context 2) (tlv .octetString (repWrapper blob)))

def targBytes (blob : List UInt8) (mech : Mech) : List UInt8 := tlv (.context 1) (tlv .sequence (targElements blob mech))

theorem asn1OidEncode_mech (mech : Mech) : asn1OidEncode mech.oid = mech.bytes := by
  cases mech <;> decide +kernel

theorem tlvSize_ge (len : Nat) : len ≤ tlvSize len := Nat.le_add_left _ _

theorem encodeNegTokenTarg_eq (blob : List UInt8) (mech : Mech) (fits : (targBytes blob mech).length < 2 ^ 31) :
    (encodeNegTokenTarg blob mech.oid).1.memory = targBytes blob mech ∧
      (encodeNegTokenTarg blob mech.oid).2 = (targBytes blob mech).length := by
  have krb5 : asn1OidEncode krb5Oid = Mech.krb5.bytes := asn1OidEncode_mech .krb5
  have sizes : (targBytes blob mech).length = tlvSize (tlvSize (tlvSize (tlvSize 1) + (tlvSize (tlvSize mech.bytes.length) +
      tlvSize (tlvSize (tlvSize (tlvSize Mech.krb5.bytes.length + (2 + blob.length))))))) := by
    simp only [targBytes, targElements, repWrapper, length_tlv, List.length_append, List.length_cons, List.length_nil]
  generalize contents : tlvSize Mech.krb5.bytes.length + (2 + blob.length) = body at sizes
  generalize elements : tlvSize (tlvSize 1) + (tlvSize (tlvSize mech.bytes.length) + tlvSize (tlvSize (tlvSize body))) =
    inner at sizes
  have outer := tlvSize_ge (tlvSize inner)
  have outer' := tlvSize_ge inner
  have token := tlvSize_ge (tlvSize (tlvSize body))
  have token' := tlvSize_ge (tlvSize body)
  have token'' := tlvSize_ge body
  have negResult : asn1HeaderLen 1 2 = tlvSize (tlvSize 1) := by decide
  have supMech : asn1HeaderLen mech.bytes.length 2 = tlvSize (tlvSize mech.bytes.length) := by cases mech <;> decide
  have oid : asn1HeaderLen Mech.krb5.bytes.length 1 = tlvSize Mech.krb5.bytes.length := by decide
  have repToken : asn1HeaderLen ((tlvSize Mech.krb5.bytes.length + 2 + blob.length) % 2 ^ 32) 3 =
      tlvSize (tlvSize (tlvSize body)) := by
    rw [Nat.add_assoc, contents, Nat.mod_eq_of_lt (by omega), asn1HeaderLen_succ (by omega), asn1HeaderLen_succ (by omega),
      asn1HeaderLen_succ (by omega)]
    rfl
  have all : asn1HeaderLen ((tlvSize (tlvSize 1) + tlvSize (tlvSize mech.bytes.length) + tlvSize (tlvSize (tlvSize body))) %
      2 ^ 32) 2 = tlvSize (tlvSize inner) := by
    rw [Nat.add_assoc, elements, Nat.mod_eq_of_lt (by omega), asn1HeaderLen_succ (by omega), asn1HeaderLen_succ (by omega)]
    rfl
  unfold encodeNegTokenTarg
  rw [asn1OidEncode_mech, krb5]
  simp only [negResult, supMech, oid, repToken, all, TargBuffer.header_size, TargBuffer.copy_all]
  refine ⟨?_, sizes.symm⟩
  have last (buffer : TargBuffer) : Bytes.overlay buffer.memory buffer.position blob = (buffer.put blob).memory := rfl
  have start : ({ memory := List.replicate (tlvSize (tlvSize inner)) 0, position := 0 } : TargBuffer) =
      .fresh (tlvSize (tlvSize inner)) := rfl
  rw [last, start]
  simp only [TargBuffer.put_put]
  rw [← sizes]
  have wrapped : (tlv .objectId Mech.krb5.bytes ++ ([2, 0] ++ blob)).length = body := by
    simp only [List.length_append, length_tlv, List.length_cons, List.length_nil]
    exact contents
  have listed : (targElements blob mech).length = inner := by
    simp only [targElements, repWrapper, List.length_append, length_tlv, wrapped, List.length_cons, List.length_nil]
    exact elements
  refine (congrArg (fun bytes => ((TargBuffer.fresh (targBytes blob mech).length).put bytes).memory) ?_).trans
    (TargBuffer.put_all rfl)
  rw [targBytes, tlv_eq, length_tlv, tlv_eq .sequence, listed, targElements, tlv_eq (.context 0), length_tlv,
    tlv_eq .enumerated, tlv_eq (.context 1), length_tlv, tlv_eq .objectId mech.bytes, tlv_eq (.context 2), length_tlv,
    repWrapper, tlv_eq .octetString, length_tlv, tlv_eq .application, wrapped, tlv_eq .objectId Mech.krb5.bytes]
  simp

/-- What the chain of header decodes finds in the reply: every element ends where its parent
has its next one, or where the parent ends. -/
def TargDecodes (token : List UInt8) (oid : List Nat) (blob : List UInt8) : Prop :=
  ∃ sequence elements result mechType response enum value wrapped octets body rep,
    Element token 0 (.context 1) (some token.length) sequence ∧
    Element token sequence .sequence (some token.length) elements ∧
    -- negResult
    Element token elements (.context 0) (some result) enum ∧ Element token enum .enumerated (some result) value ∧
    At token value [0] ∧ value + 1 = result ∧
    -- supportedMech
    Element token result (.context 1) (some response) mechType ∧ OidAt token mechType oid response ∧
    -- responseToken
    Element token response (.context 2) (some token.length) octets ∧
    Element token octets .octetString (some token.length) wrapped ∧
    Element token wrapped .application (some token.length) body ∧ OidAt token body krb5Oid rep ∧
    token.drop rep = [2, 0] ++ blob

theorem targBytes_decodes (blob : List UInt8) (mech : Mech) (fits : (targBytes blob mech).length < 2 ^ 31) :
    TargDecodes (targBytes blob mech) mech.oid blob := by
  have size : (targBytes blob mech).length < 2 ^ 32 := by omega
  have all : At (targBytes blob mech) 0 (targBytes blob mech) := List.prefix_rfl
  obtain ⟨sequence, outermost, held, inside, ends⟩ := Element.descend (.context (by decide)) size all (Nat.zero_le _)
  obtain ⟨elements, list, held, inside, ends'⟩ := Element.descend .sequence size held inside
  obtain ⟨result, held⟩ := held.append
  obtain ⟨sup, response⟩ := held.append
  obtain ⟨enum, negResult, held, place, resultEnds⟩ := Element.descend (.context (by decide)) size result inside
  obtain ⟨value, enumerated, zero, place, valueEnds⟩ := Element.descend .enumerated size held place
  have inside := result.inside inside
  obtain ⟨mechType, supMech, held, place, mechEnds⟩ := Element.descend (.context (by decide)) size sup inside
  have oid := OidAt.mech held place
  have inside := sup.inside inside
  obtain ⟨octets, token, held, place, tokenEnds⟩ := Element.descend (.context (by decide)) size response inside
  obtain ⟨wrapped, string, held, place, stringEnds⟩ := Element.descend .octetString size held place
  obtain ⟨body, wrapper, held, place, wrapperEnds⟩ := Element.descend .application size held place
  obtain ⟨krb5, rest⟩ := held.append
  have rep := OidAt.mech krb5 place
  -- the ends, from the outermost element inwards
  have whole : sequence + (tlv .sequence (targElements blob mech)).length = (targBytes blob mech).length :=
    ends.trans (Nat.zero_add _)
  have last : elements + (tlv (.context 0) (tlv .enumerated [0])).length +
      (tlv (.context 1) (tlv .objectId mech.bytes)).length +
      (tlv (.context 2) (tlv .octetString (repWrapper blob))).length = (targBytes blob mech).length := by
    rw [targElements, List.length_append, List.length_append] at ends'
    rw [targElements] at whole
    omega
  have wrapped' : wrapped + (repWrapper blob).length = octets + (tlv .octetString (repWrapper blob)).length := stringEnds
  rw [whole] at list
  rw [resultEnds] at enumerated valueEnds
  rw [mechEnds] at oid
  rw [last] at token tokenEnds
  rw [tokenEnds] at string wrapped'
  have inner : wrapped + (tlv .application (tlv .objectId Mech.krb5.bytes ++ ([2, 0] ++ blob))).length =
      (targBytes blob mech).length := wrapped'
  rw [inner] at wrapper wrapperEnds
  rw [List.length_append] at wrapperEnds
  have outermost : Element (targBytes blob mech) 0 (.context 1) (some (targBytes blob mech).length) sequence := by
    rw [Nat.zero_add] at outermost
    exact outermost
  refine ⟨sequence, elements, _, mechType, _, enum, value, wrapped, octets, body, _, outermost, list, negResult,
    enumerated, zero, valueEnds, supMech, oid, token, string, wrapper, rep, ?_⟩
  refine (rest.eq_of_length ?_).symm
  rw [List.length_drop]
  omega

/-- The reply fills its buffer and decodes to the elements it was made from. -/
theorem targ_well_formed (blob : List UInt8) (mech : Mech) (fits : (targBytes blob mech).length < 2 ^ 31) :
    (encodeNegTokenTarg blob mech.oid).1.memory.length = (encodeNegTokenTarg blob mech.oid).2 ∧
      TargDecodes (encodeNegTokenTarg blob mech.oid).1.memory mech.oid blob := by
  obtain ⟨memory, size⟩ := encodeNegTokenTarg_eq blob mech fits
  rw [memory, size]
  exact ⟨rfl, targBytes_decodes blob mech fits⟩

/-- The lengths around it need a second octet. -/
def longBlob : List UInt8 := List.replicate 130 7

theorem targ_well_formed_long : (encodeNegTokenTarg longBlob Mech.krb5.oid).1.memory.take 2 = [0xa1, 0x81] ∧
    TargDecodes (encodeNegTokenTarg longBlob Mech.krb5.oid).1.memory Mech.krb5.oid longBlob :=
  ⟨by decide +kernel, (targ_well_formed longBlob .krb5 (by decide +kernel)).2⟩

end KsmbdTools.Spnego
