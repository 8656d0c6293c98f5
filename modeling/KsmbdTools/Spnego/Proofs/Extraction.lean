import KsmbdTools.Spnego.Proofs.Der

/-! What the decoder takes for the AP-REQ of a well-formed token. -/

namespace KsmbdTools.Spnego

/-- A `negTokenInit` in which `mechToken` directly follows `mechTypes`. -/
structure InitToken where
  mech : Mech
  /-- The mechanisms behind the first one. -/
  others : List UInt8
  request : List UInt8
  /-- The elements behind `mechToken`. -/
  extras : List UInt8

def spnegoBytes : List UInt8 := [0x2b, 6, 1, 5, 5, 2]

def Mech.bytes : Mech → List UInt8
  | .mskrb5 => [0x2a, 0x86, 0x48, 0x82, 0xf7, 0x12, 1, 2, 2]
  | .krb5 => [0x2a, 0x86, 0x48, 0x86, 0xf7, 0x12, 1, 2, 2]

namespace InitToken

def mechList (token : InitToken) : List UInt8 := tlv .sequence (tlv .objectId token.mech.bytes ++ token.others)

def wrapper (token : InitToken) : List UInt8 :=
  tlv .application (tlv .objectId Mech.krb5.bytes ++ ([1, 0] ++ token.request))

def bytes (token : InitToken) : List UInt8 :=
  tlv .application (tlv .objectId spnegoBytes ++ tlv (.context 0) (tlv .sequence
    (tlv (.context 0) token.mechList ++ (tlv (.context 2) (tlv .octetString token.wrapper) ++ token.extras))))

end InitToken

theorem spnegoBytes_subids : Subids spnegoBytes [43, 6, 1, 5, 5, 2] :=
  .single (by decide) (.single (by decide) (.single (by decide) (.single (by decide) (.single (by decide)
    (.single (by decide) .nil)))))

theorem OidAt.spnego {buffer : List UInt8} {start : Nat} (held : At buffer start (tlv .objectId spnegoBytes))
    (inside : start ≤ buffer.length) : OidAt buffer start spnegoOid (start + (tlv .objectId spnegoBytes).length) :=
  OidAt.of_tlv (by decide) spnegoBytes_subids held inside

theorem OidAt.mech {buffer : List UInt8} {start : Nat} {mech : Mech} (held : At buffer start (tlv .objectId mech.bytes))
    (inside : start ≤ buffer.length) : OidAt buffer start mech.oid (start + (tlv .objectId mech.bytes).length) := by
  have second : Subid [0x86, 0x48] 840 := ⟨.cons (by decide) (.last (by decide)), rfl⟩
  have tail : Subids [1, 2, 2] [1, 2, 2] := .single (by decide) (.single (by decide) (.single (by decide) .nil))
  cases mech with
  | mskrb5 =>
    have third : Subid [0x82, 0xf7, 0x12] 48018 := ⟨.cons (by decide) (.cons (by decide) (.last (by decide))), rfl⟩
    have complete : Subids Mech.mskrb5.bytes [42, 840, 48018, 1, 2, 2] :=
      .single (by decide) (.cons second (.cons third tail))
    exact OidAt.of_tlv (by decide) complete held inside
  | krb5 =>
    have third : Subid [0x86, 0xf7, 0x12] 113554 := ⟨.cons (by decide) (.cons (by decide) (.last (by decide))), rfl⟩
    have complete : Subids Mech.krb5.bytes [42, 840, 113554, 1, 2, 2] :=
      .single (by decide) (.cons second (.cons third tail))
    exact OidAt.of_tlv (by decide) complete held inside

theorem isSupportedMech_oid (mech : Mech) : isSupportedMech mech.oid = some mech := by
  cases mech <;> decide

/-- The decoder finds the first mechanism, and the list's end is where `mechToken` starts. -/
theorem InitToken.mechTypes_read (token : InitToken) (fits : token.bytes.length < 2 ^ 31) :
    ∃ place last, Runs token.bytes decodeMechTypes 0 (.ok (token.mech, some place)) last ∧
      place ≤ token.bytes.length ∧
      At token.bytes place (tlv (.context 2) (tlv .octetString token.wrapper) ++ token.extras) ∧
      place + (tlv (.context 2) (tlv .octetString token.wrapper) ++ token.extras).length = token.bytes.length := by
  have size : token.bytes.length < 2 ^ 32 := by omega
  have all : At token.bytes 0 token.bytes := List.prefix_rfl
  obtain ⟨inner, application, held, inside, whole⟩ := Element.descend .application size all (Nat.zero_le _)
  obtain ⟨oid, held⟩ := held.append
  have spnego := OidAt.spnego oid inside
  obtain ⟨_, init, held, inside, within⟩ := Element.descend (.context (by decide)) size held (oid.inside inside)
  obtain ⟨body, sequence, held, inside, within'⟩ := Element.descend .sequence size held inside
  obtain ⟨types, rest⟩ := held.append
  obtain ⟨start, mechTypes, list, listInside, listEnds⟩ := Element.descend (.context (by decide)) size types inside
  obtain ⟨place, list, mechs, placeInside, -⟩ := Element.descend .sequence size list listInside
  obtain ⟨first, -⟩ := mechs.append
  obtain ⟨_, _, header, ran⟩ := OidAt.mech first placeInside
  have reached : start + (tlv .sequence (tlv .objectId token.mech.bytes ++ token.others)).length =
      body + (tlv (.context 0) token.mechList).length := listEnds
  rw [reached] at list
  refine ⟨_, place + (tlv .objectId token.mech.bytes).length, ?_, types.inside inside, rest, ?_⟩
  · refine application.runs.bind (spnego.runs.bind (init.runs.bind (sequence.runs.bind (mechTypes.runs.bind
      (list.runs.bind (header.runs.bind (ran.bind ?_)))))))
    rw [isSupportedMech_oid]
    exact .pure _
  · have total : inner + (tlv .objectId spnegoBytes ++ tlv (.context 0) (tlv .sequence
        (tlv (.context 0) token.mechList ++ (tlv (.context 2) (tlv .octetString token.wrapper) ++ token.extras)))).length =
        token.bytes.length := whole.trans (Nat.zero_add _)
    rw [List.length_append] at total within'
    omega

theorem InitToken.mechToken_read (token : InitToken) (fits : token.bytes.length < 2 ^ 31) {place : Nat}
    (inside : place ≤ token.bytes.length)
    (held : At token.bytes place (tlv (.context 2) (tlv .octetString token.wrapper) ++ token.extras))
    (ends : place + (tlv (.context 2) (tlv .octetString token.wrapper) ++ token.extras).length = token.bytes.length) :
    ∃ offset, Runs token.bytes (decodeMechToken token.mech) place
        (.ok { mech := token.mech, offset, length := token.bytes.length - offset }) offset ∧
      At token.bytes offset token.request ∧
      offset + token.request.length + token.extras.length = token.bytes.length := by
  have size : token.bytes.length < 2 ^ 32 := by omega
  obtain ⟨element, -⟩ := held.append
  obtain ⟨_, context, held, inside, first⟩ := Element.descend (.context (by decide)) size element inside
  obtain ⟨_, octets, held, inside, second⟩ := Element.descend .octetString size held inside
  obtain ⟨body, wrapper, held, inside, third⟩ := Element.descend .application size held inside
  obtain ⟨oid, held⟩ := held.append
  obtain ⟨id, request⟩ := held.append
  have krb5 := OidAt.mech oid inside
  have read := Runs.read id (oid.inside inside)
  refine ⟨_, ?_, request, ?_⟩
  · refine context.runs.bind (octets.runs.bind (wrapper.runs.bind (krb5.runs.bind (read.bind ?_))))
    rw [if_neg (by simp)]
    exact .get_bind (fun _ => rfl) (.pure _)
  · have last : body + (tlv .objectId Mech.krb5.bytes ++ ([1, 0] ++ token.request)).length + token.extras.length =
        token.bytes.length := by
      rw [third]
      have outer : _ + token.wrapper.length = _ := second
      rw [List.length_append] at ends
      unfold InitToken.wrapper at *
      omega
    simp only [List.length_append] at last ⊢
    omega

/-- The request is taken for what it is exactly if nothing follows the mechanism token. -/
theorem ap_req_exact_iff (token : InitToken) (fits : token.bytes.length < 2 ^ 31) :
    ∃ found ctx, decodeNegTokenInit (asn1Open token.bytes) = (.ok found, ctx) ∧ found.mech = token.mech ∧
      ((token.bytes.drop found.offset).take found.length = token.request ↔ token.extras = []) := by
  obtain ⟨place, last, types, inside, held, ends⟩ := token.mechTypes_read fits
  obtain ⟨offset, ran, request, total⟩ := token.mechToken_read fits inside held ends
  have all : Runs token.bytes decodeNegTokenInit 0
      (.ok { mech := token.mech, offset, length := token.bytes.length - offset }) offset :=
    types.bind ((Runs.jump inside).bind ran)
  obtain ⟨uses, -, decoded⟩ := all
  refine ⟨_, _, decoded [some 0], rfl, ?_⟩
  have rest : (token.bytes.drop offset).length = token.bytes.length - offset := List.length_drop
  rw [← rest, List.take_length]
  obtain ⟨behind, same⟩ := request
  have size : behind.length = token.extras.length := by
    have counted := congrArg List.length same
    rw [List.length_append, rest] at counted
    omega
  rw [← same, List.append_right_eq_self, ← List.length_eq_zero_iff, size, List.length_eq_zero_iff]

/-- A token with the request `07` and, behind `mechToken`, an empty `mechListMIC`. -/
def micToken : InitToken := { mech := .krb5, others := [], request := [7], extras := tlv (.context 3) [] }

/-- The element behind the mechanism token is taken for a part of the request. -/
theorem mic_taken_for_request :
    (decodeNegTokenInit (asn1Open micToken.bytes)).1 = .ok { mech := .krb5, offset := 48, length := 3 } ∧
      (micToken.bytes.drop 48).take 3 = [7, 0xa3, 0] := by
  decide +kernel

theorem ap_req_exact_iff_alone :
    ∃ found ctx, decodeNegTokenInit (asn1Open { micToken with extras := [] }.bytes) = (.ok found, ctx) ∧
      found.mech = .krb5 ∧ ({ micToken with extras := [] }.bytes.drop found.offset).take found.length = [7] := by
  obtain ⟨found, ctx, decoded, mech, exact_⟩ := ap_req_exact_iff { micToken with extras := [] } (by decide +kernel)
  exact ⟨found, ctx, decoded, mech, exact_.mpr rfl⟩

end KsmbdTools.Spnego
