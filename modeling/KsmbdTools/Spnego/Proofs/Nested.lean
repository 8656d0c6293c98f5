import KsmbdTools.Spnego.Proofs.Targ

/-! Nested headers: the size computed beforehand, the encoder and the decoder agree at every depth. -/

namespace KsmbdTools.Spnego

/-- `asn1_header_encode` once for each level, from the outermost; `len` is left by each call for the next. -/
def encodeHeaders : List Asn1Id → Nat → Option (List UInt8 × Nat)
  | [], len => some ([], len)
  | id :: ids, len => do
    let (octets, left) ← asn1HeaderEncode id.cls id.con id.tag len
    let (inner, last) ← encodeHeaders ids left
    return (octets ++ inner, last)

def headers : List Asn1Id → Nat → List UInt8
  | [], _ => []
  | id :: ids, len => header id (asn1HeaderLen len ids.length) ++ headers ids len

theorem tlvSize_le (len : Nat) : tlvSize len ≤ len + 6 := by
  have size := length_derLength len
  unfold tlvSize
  split_ifs at size <;> omega

/-- As long as the size stays an `int`, one more level is one more header around it. -/
theorem asn1HeaderLen_outer {len depth : Nat} (small : ∀ level ≤ depth, asn1HeaderLen len level < 2 ^ 31) :
    asn1HeaderLen len (depth + 1) = tlvSize (asn1HeaderLen len depth) := by
  have bound : len < 2 ^ 31 := small 0 (Nat.zero_le _)
  have fits : tlvSize len < 2 ^ 32 := by
    have := tlvSize_le len
    omega
  rw [asn1HeaderLen_succ fits]
  induction depth generalizing len with
  | zero => rfl
  | succ depth ih =>
    have inner : ∀ level ≤ depth, asn1HeaderLen (tlvSize len) level < 2 ^ 31 := by
      intro level bound
      rw [← asn1HeaderLen_succ fits]
      exact small (level + 1) (by omega)
    have next : tlvSize len < 2 ^ 31 := inner 0 (Nat.zero_le _)
    have wide : tlvSize (tlvSize len) < 2 ^ 32 := by
      have := tlvSize_le (tlvSize len)
      omega
    rw [asn1HeaderLen_succ fits, asn1HeaderLen_succ wide, ih inner next wide]

section Levels
variable {ids : List Asn1Id} {len : Nat}

theorem headers_length (small : ∀ level ≤ ids.length, asn1HeaderLen len level < 2 ^ 31) :
    (headers ids len).length + len = asn1HeaderLen len ids.length := by
  induction ids with
  | nil => exact Nat.zero_add len
  | cons id ids ih =>
    have inner : ∀ level ≤ ids.length, asn1HeaderLen len level < 2 ^ 31 :=
      fun level bound => small level (Nat.le_succ_of_le bound)
    have rest := ih inner
    rw [List.length_cons, asn1HeaderLen_outer inner, tlvSize]
    simp only [headers, header, List.cons_append, List.length_cons, List.length_append]
    omega

theorem encodeHeaders_eq (small : ∀ level ≤ ids.length, asn1HeaderLen len level < 2 ^ 31) :
    encodeHeaders ids (asn1HeaderLen len ids.length) = some (headers ids len, len) := by
  induction ids with
  | nil => rfl
  | cons id ids ih =>
    have inner : ∀ level ≤ ids.length, asn1HeaderLen len level < 2 ^ 31 :=
      fun level bound => small level (Nat.le_succ_of_le bound)
    rw [List.length_cons, asn1HeaderLen_outer inner, encodeHeaders, asn1HeaderEncode_size, Option.bind_eq_bind,
      Option.bind_some]
    dsimp only
    rw [ih inner]
    rfl

/-- The decoder reads the levels one by one; each of them ends where the contents do. -/
theorem Runs.headers {buffer contents : List UInt8} {start : Nat} (low : ∀ id ∈ ids, id.Low)
    (small : ∀ level ≤ ids.length, asn1HeaderLen contents.length level < 2 ^ 31)
    (held : At buffer start (Spnego.headers ids contents.length ++ contents)) (inside : start ≤ buffer.length)
    (size : buffer.length < 2 ^ 32) :
    Runs buffer (Proc.collect ids.length asn1HeaderDecode) start
      (.ok (ids.map fun id => (some (start + asn1HeaderLen contents.length ids.length), id)))
      (start + (Spnego.headers ids contents.length).length) := by
  induction ids generalizing start with
  | nil => exact .pure []
  | cons id ids ih =>
    have inner : ∀ level ≤ ids.length, asn1HeaderLen contents.length level < 2 ^ 31 :=
      fun level bound => small level (Nat.le_succ_of_le bound)
    have rest := headers_length inner
    have total := headers_length small
    have nested : Spnego.headers (id :: ids) contents.length ++ contents =
        tlv id (Spnego.headers ids contents.length ++ contents) := by
      rw [Spnego.headers, tlv_eq, List.length_append, rest, List.append_assoc]
    rw [nested] at held
    obtain ⟨body, element, inward, bound, ends⟩ := Element.descend (low id List.mem_cons_self) size held inside
    have whole : (tlv id (Spnego.headers ids contents.length ++ contents)).length =
        asn1HeaderLen contents.length (ids.length + 1) := by
      rw [← nested, List.length_append, total, List.length_cons]
    rw [whole] at element ends
    rw [List.length_append, rest] at ends
    have later := ih (fun other member => low other (List.mem_cons_of_mem _ member)) inner inward bound
    rw [ends] at later
    have last : body + (Spnego.headers ids contents.length).length =
        start + (Spnego.headers (id :: ids) contents.length).length := by
      rw [List.length_cons] at total
      omega
    rw [last] at later
    exact element.bind (later.bind (.pure _))

end Levels

/-- The sizes, the headers that are written and the ones that are read agree. The loop of `asn1_header_len` stays
below `INT_MAX` at every level. -/
theorem nested_headers_agree (payload : List UInt8) (ids : List Asn1Id) (low : ∀ id ∈ ids, id.Low)
    (small : ∀ level ≤ ids.length, asn1HeaderLen payload.length level < 2 ^ 31) :
    ∃ octets, encodeHeaders ids (asn1HeaderLen payload.length ids.length) = some (octets, payload.length) ∧
      octets.length = asn1HeaderLen payload.length ids.length - payload.length ∧
      (octets ++ payload).length = asn1HeaderLen payload.length ids.length ∧
      (Proc.collect ids.length asn1HeaderDecode (asn1Open (octets ++ payload))).1 =
        .ok (ids.map fun id => (some (octets ++ payload).length, id)) := by
  have total := headers_length small
  have bound := small ids.length le_rfl
  have whole : (headers ids payload.length ++ payload).length = asn1HeaderLen payload.length ids.length := by
    rw [List.length_append, total]
  obtain ⟨uses, -, ran⟩ := @Runs.headers ids (headers ids payload.length ++ payload) payload 0 low small
    (List.prefix_refl _) (Nat.zero_le _) (by omega)
  refine ⟨headers ids payload.length, encodeHeaders_eq small, by omega, whole, ?_⟩
  rw [asn1Open, ran, whole, Nat.zero_add]

theorem nested_headers_agree_two :
    ∃ octets, encodeHeaders [.sequence, .octetString] (asn1HeaderLen 3 2) = some (octets, 3) ∧ octets.length = 4 ∧
      (Proc.collect 2 asn1HeaderDecode (asn1Open (octets ++ [1, 2, 3]))).1 =
        .ok [(some 7, .sequence), (some 7, .octetString)] := by
  obtain ⟨octets, encoded, size, whole, decoded⟩ := nested_headers_agree [1, 2, 3] [.sequence, .octetString]
    (by simp only [List.forall_mem_cons]; exact ⟨.sequence, .octetString, List.forall_mem_nil _⟩) (by decide)
  rw [whole] at decoded
  exact ⟨octets, encoded, size, decoded⟩

end KsmbdTools.Spnego
