import KsmbdTools.Spnego.Proofs.Cursor

/-! Headers and object identifiers by their octets, whatever reads them. The decoder accepts just these, and returns
what the octets say: `Runs` lemmas are the one direction, `Bounded` lemmas the other. -/

namespace KsmbdTools.Spnego

def At (buffer : List UInt8) (start : Nat) (bytes : List UInt8) : Prop := bytes <+: buffer.drop start

namespace At
variable {buffer bytes rest : List UInt8} {start : Nat}

theorem append (held : At buffer start (bytes ++ rest)) : At buffer start bytes ∧ At buffer (start + bytes.length) rest := by
  obtain ⟨behind, whole⟩ := held
  refine ⟨⟨rest ++ behind, by rw [← whole, List.append_assoc]⟩, behind, ?_⟩
  rw [← List.drop_drop, ← whole, List.append_assoc, List.drop_left]

theorem inside (held : At buffer start bytes) (place : start ≤ buffer.length) : start + bytes.length ≤ buffer.length := by
  have short := held.length_le
  rw [List.length_drop] at short
  omega

theorem cons {byte : UInt8} (held : At buffer start (byte :: rest)) :
    buffer[start]? = some byte ∧ At buffer (start + 1) rest := by
  refine ⟨?_, (append (show At buffer start ([byte] ++ rest) from held)).2⟩
  obtain ⟨behind, whole⟩ := held
  have first := congrArg List.head? whole
  rw [List.head?_drop] at first
  exact first.symm

end At

/-- The octets stand from the one place to the other. -/
structure Spans (buffer : List UInt8) (start last : Nat) (octets : List UInt8) : Prop where
  held : At buffer start octets
  ends : last = start + octets.length

namespace Spans
variable {buffer octets rest : List UInt8} {start middle last : Nat}

theorem nil : Spans buffer start start [] := ⟨List.nil_prefix, rfl⟩

theorem append (first : Spans buffer start middle octets) (second : Spans buffer middle last rest) :
    Spans buffer start last (octets ++ rest) := by
  obtain ⟨⟨behind, whole⟩, rfl⟩ := first
  obtain ⟨⟨more, left⟩, rfl⟩ := second
  refine ⟨⟨more, ?_⟩, by rw [List.length_append, Nat.add_assoc]⟩
  rw [← List.drop_drop, ← whole, List.drop_left] at left
  rw [List.append_assoc, left, whole]

theorem octet {ch : UInt8} (read : buffer[start]? = some ch) : Spans buffer start (start + 1) [ch] := by
  obtain ⟨bound, same⟩ := List.getElem?_eq_some_iff.mp read
  refine ⟨⟨buffer.drop (start + 1), ?_⟩, rfl⟩
  rw [List.drop_eq_getElem_cons bound, same]
  rfl

theorem split (whole : Spans buffer start last (octets ++ rest)) :
    Spans buffer start (start + octets.length) octets ∧ Spans buffer (start + octets.length) last rest := by
  obtain ⟨first, second⟩ := whole.held.append
  exact ⟨⟨first, rfl⟩, second, by rw [whole.ends, List.length_append, Nat.add_assoc]⟩

theorem uncons {ch : UInt8} (whole : Spans buffer start last (ch :: rest)) :
    buffer[start]? = some ch ∧ Spans buffer (start + 1) last rest :=
  ⟨whole.held.cons.1, (split (show Spans buffer start last ([ch] ++ rest) from whole)).2⟩

end Spans

def Continues (octet : UInt8) : Prop := octet.toNat / 128 = 1

instance (octet : UInt8) : Decidable (Continues octet) := inferInstanceAs (Decidable (octet.toNat / 128 = 1))

/-- Octets that continue, and the one that does not behind them. -/
inductive Terminated : List UInt8 → Prop where
  | last {octet : UInt8} (ended : ¬Continues octet) : Terminated [octet]
  | cons {octet : UInt8} {octets : List UInt8} (more : Continues octet) (others : Terminated octets) :
      Terminated (octet :: octets)

def groups (octets : List UInt8) (value : Nat) : Nat :=
  octets.foldl (fun value octet => value * 128 + octet.toNat % 128) value

def bigEndian (octets : List UInt8) : Nat := octets.foldl (fun total octet => total * 256 + octet.toNat) 0

/-- Identifier octets and what they say; a high tag number is kept in 32 bits. -/
inductive Identifier : List UInt8 → Asn1Id → Prop where
  | low (octet : UInt8) (small : octet.toNat % 32 ≠ 31) :
      Identifier [octet] ⟨octet.toNat / 64, octet.toNat / 32 % 2, octet.toNat % 32⟩
  | high (octet : UInt8) (large : octet.toNat % 32 = 31) {septets : List UInt8} (whole : Terminated septets) :
      Identifier (octet :: septets) ⟨octet.toNat / 64, octet.toNat / 32 % 2, groups septets 0 % 2 ^ 32⟩

/-- Length octets and what they say, `none` for the indefinite form; a long length is kept in 32 bits. -/
inductive LengthField : List UInt8 → Option Nat → Prop where
  | indefinite : LengthField [128] none
  | short (octet : UInt8) (small : octet < 128) : LengthField [octet] (some octet.toNat)
  | long (first : UInt8) (large : 128 < first) (octets : List UInt8) (count : octets.length = first.toNat % 128) :
      LengthField (first :: octets) (some (bigEndian octets % 2 ^ 32))

/-- Identifier and length octets, with contents that end in the buffer. Only a constructed element can lack an end. -/
structure HeaderAt (buffer : List UInt8) (start : Nat) (id : Asn1Id) (len : Option Nat) (last : Nat) : Prop where
  octets : ∃ identifier field, Identifier identifier id ∧ LengthField field len ∧
    Spans buffer start last (identifier ++ field)
  fits : last + len.getD 0 ≤ buffer.length
  constructed : len = none → id.con ≠ 0

/-- The octets of one sub-identifier and its value. -/
structure Subid (octets : List UInt8) (value : Nat) : Prop where
  form : Terminated octets
  value : groups octets 0 = value

/-- Complete sub-identifiers one behind the other, and their values. -/
inductive Subids : List UInt8 → List Nat → Prop where
  | nil : Subids [] []
  | cons {octets rest : List UInt8} {value : Nat} {values : List Nat} (first : Subid octets value)
      (others : Subids rest values) : Subids (octets ++ rest) (value :: values)

/-- Sub-identifiers from the place on, to the first that ends at the end of the contents or behind it. -/
inductive SubidsTo (eoc : Nat) : Nat → List UInt8 → List Nat → Prop where
  | nil {start : Nat} (behind : eoc ≤ start) : SubidsTo eoc start [] []
  | cons {start : Nat} {octets rest : List UInt8} {value : Nat} {values : List Nat} (before : start < eoc)
      (first : Subid octets value) (others : SubidsTo eoc (start + octets.length) rest values) :
      SubidsTo eoc start (octets ++ rest) (value :: values)

/-- The room for arcs, as it is computed from the length of the contents. -/
def arcRoom (length : Nat) : Nat := (length + 1) % 2 ^ 32

def RoomFits (size : Nat) : Prop := 2 ≤ size ∧ size ≤ (2 ^ 32 - 1) / 8

/-- Contents of this length that say these arcs, each kept in 64 bits. -/
structure OidContents (buffer : List UInt8) (start length : Nat) (arcs : List Nat) (last : Nat) : Prop where
  room : RoomFits (arcRoom length)
  octets : ∃ octets value rest, Spans buffer start last octets ∧ SubidsTo (start + length) start octets (value :: rest) ∧
    2 + rest.length ≤ arcRoom length ∧ arcs = firstArcs (value % 2 ^ 64) ++ rest.map (· % 2 ^ 64)

theorem step_mod {kept total modulus : Nat} (same : kept = total % modulus) (factor part : Nat) :
    (kept * factor + part) % modulus = (total * factor + part) % modulus := by
  rw [same, Nat.add_mod, Nat.mul_mod, Nat.mod_mod, ← Nat.mul_mod, ← Nat.add_mod]

namespace Terminated
variable {octets : List UInt8}

theorem ne_nil (whole : Terminated octets) : octets ≠ [] := by
  cases whole <;> exact List.cons_ne_nil _ _

theorem continued {tail : List UInt8} (whole : Terminated octets) (more : ∀ octet ∈ tail, Continues octet) :
    Terminated (tail ++ octets) := by
  induction tail with
  | nil => exact whole
  | cons octet tail ih =>
    obtain ⟨first, others⟩ := List.forall_mem_cons.mp more
    exact .cons first (ih others)

end Terminated

theorem Subid.length_pos {octets : List UInt8} {value : Nat} (one : Subid octets value) : 0 < octets.length :=
  List.length_pos_iff.mpr one.form.ne_nil

namespace Subids
variable {octets : List UInt8} {values : List Nat}

theorem single {octet : UInt8} (alone : octet.toNat < 128) (others : Subids octets values) :
    Subids (octet :: octets) (octet.toNat :: values) := by
  have one : Subid [octet] octet.toNat := ⟨.last (by unfold Continues; omega), by simp [groups]; omega⟩
  exact .cons one others

theorem length_le (complete : Subids octets values) : values.length ≤ octets.length := by
  induction complete with
  | nil => simp
  | cons first others ih =>
    have := first.length_pos
    rw [List.length_cons, List.length_append]
    omega

/-- Nothing is read beyond contents that end with a sub-identifier. -/
theorem subidsTo (complete : Subids octets values) (start : Nat) :
    SubidsTo (start + octets.length) start octets values := by
  induction complete generalizing start with
  | nil => exact .nil (Nat.le_refl _)
  | cons first others ih =>
    have := first.length_pos
    rw [List.length_append, ← Nat.add_assoc]
    exact .cons (by omega) first (ih _)

theorem contents {buffer : List UInt8} {start value : Nat} {rest : List Nat} (complete : Subids octets (value :: rest))
    (fits : RoomFits (arcRoom octets.length)) (room : 2 + rest.length ≤ arcRoom octets.length)
    (held : At buffer start octets) :
    OidContents buffer start octets.length (firstArcs (value % 2 ^ 64) ++ rest.map (· % 2 ^ 64)) (start + octets.length) :=
  ⟨fits, octets, value, rest, ⟨held, rfl⟩, complete.subidsTo start, room, rfl⟩

end Subids

section Reading
variable {buffer : List UInt8} {start last : Nat}

theorem Runs.septets {width fuel : Nat} {octets : List UInt8} (whole : Terminated octets)
    (spans : Spans buffer start last octets) (enough : octets.length ≤ fuel) {value kept : Nat}
    (same : kept = value % 2 ^ width) :
    Runs buffer (septets width fuel kept) start (.ok (groups octets value % 2 ^ width)) last := by
  induction whole generalizing start fuel value kept with
  | @last octet ended =>
    obtain ⟨fuel, rfl⟩ : ∃ less, fuel = less + 1 := ⟨fuel - 1, by rw [List.length_singleton] at enough; omega⟩
    obtain ⟨read, -, rfl⟩ := spans.uncons
    refine (Runs.octet read).bind ?_
    rw [if_neg (show ¬octet.toNat / 128 = 1 from ended), step_mod same]
    exact .pure _
  | @cons octet _ more others ih =>
    obtain ⟨fuel, rfl⟩ : ∃ less, fuel = less + 1 := ⟨fuel - 1, by rw [List.length_cons] at enough; omega⟩
    obtain ⟨read, rest⟩ := spans.uncons
    refine (Runs.octet read).bind ?_
    rw [if_pos (show octet.toNat / 128 = 1 from more)]
    exact ih rest (by simpa using enough) (step_mod same _ _)

theorem Bounded.septets {width fuel value kept : Nat} (inside : start ≤ buffer.length)
    (enough : buffer.length - start < fuel) (same : kept = value % 2 ^ width) :
    Bounded buffer (septets width fuel kept) start fun result last => ∃ octets,
      Spans buffer start last octets ∧ Terminated octets ∧ result = groups octets value % 2 ^ width := by
  induction fuel generalizing start value kept with
  | zero => omega
  | succ fuel ih =>
    refine octet.bind fun ch middle bound found _ => ?_
    obtain ⟨read, rfl⟩ := found
    have step := step_mod same 128 (ch.toNat % 128)
    dsimp only
    split
    · next more =>
      refine (ih bound (by omega) step).mono fun result last later => ?_
      obtain ⟨octets, spans, whole, same⟩ := later
      exact ⟨ch :: octets, (Spans.octet read).append spans, .cons more whole, same⟩
    · next ended => exact .pure bound ⟨[ch], .octet read, .last ended, step⟩

theorem Spans.length_lt {octets : List UInt8} (spans : Spans buffer start last octets) (inside : start ≤ buffer.length) :
    octets.length ≤ buffer.length + 1 := by
  have := spans.held.inside inside
  omega

theorem Runs.subid {octets : List UInt8} {value : Nat} (one : Subid octets value) (spans : Spans buffer start last octets)
    (inside : start ≤ buffer.length) : Runs buffer asn1SubidDecode start (.ok (value % 2 ^ 64)) last := by
  obtain ⟨whole, rfl⟩ := one
  exact .get_bind (fun _ => rfl) (Runs.septets whole spans (spans.length_lt inside) (Nat.zero_mod _).symm)

theorem Bounded.subid (inside : start ≤ buffer.length) :
    Bounded buffer asn1SubidDecode start fun result last => ∃ octets value,
      Spans buffer start last octets ∧ Subid octets value ∧ result = value % 2 ^ 64 := by
  have read := @septets buffer start 64 (buffer.length + 1) 0 0 inside (by omega) (Nat.zero_mod _).symm
  refine .get_bind (fun _ => rfl) (read.mono fun result last found => ?_)
  obtain ⟨octets, spans, whole, same⟩ := found
  exact ⟨octets, _, spans, ⟨whole, rfl⟩, same⟩

theorem Runs.identifier {octets : List UInt8} {id : Asn1Id} (one : Identifier octets id)
    (spans : Spans buffer start last octets) : Runs buffer asn1IdDecode start (.ok id) last := by
  obtain ⟨octet, small⟩ | ⟨octet, large, whole⟩ := one
  · obtain ⟨read, -, rfl⟩ := spans.uncons
    refine (Runs.octet read).bind ?_
    rw [if_neg small]
    exact .pure _
  · obtain ⟨read, rest⟩ := spans.uncons
    obtain ⟨bound, -⟩ := List.getElem?_eq_some_iff.mp read
    have tag : Runs buffer asn1TagDecode (start + 1) (.ok _) last :=
      .get_bind (fun _ => rfl) (Runs.septets whole rest (rest.length_lt bound) (Nat.zero_mod _).symm)
    refine (Runs.octet read).bind ?_
    rw [if_pos large]
    exact tag.bind (.pure _)

theorem Bounded.id :
    Bounded buffer asn1IdDecode start fun id last => ∃ octets, Identifier octets id ∧ Spans buffer start last octets := by
  refine octet.bind fun ch middle bound found _ => ?_
  obtain ⟨read, rfl⟩ := found
  dsimp only
  split
  · next large =>
    have septets := @septets buffer (start + 1) 32 (buffer.length + 1) 0 0 bound (by omega) (Nat.zero_mod _).symm
    refine .bind (.get_bind (fun _ => rfl) septets) fun tag last bound found _ => ?_
    obtain ⟨octets, spans, whole, rfl⟩ := found
    exact .pure bound ⟨ch :: octets, .high ch large whole, (Spans.octet read).append spans⟩
  · next small => exact .pure bound ⟨[ch], .low ch small, .octet read⟩

theorem Runs.lengthOctets {octets : List UInt8} {len kept : Nat} (spans : Spans buffer start last octets)
    (same : kept = len % 2 ^ 32) :
    Runs buffer (lengthOctets octets.length kept) start
      (.ok (octets.foldl (fun total octet => total * 256 + octet.toNat) len % 2 ^ 32)) last := by
  induction octets generalizing start len kept with
  | nil =>
    obtain ⟨-, rfl⟩ := spans
    rw [List.foldl_nil, ← same]
    exact .pure _
  | cons ch octets ih =>
    obtain ⟨read, rest⟩ := spans.uncons
    exact (Runs.octet read).bind (ih rest (step_mod same _ _))

theorem Bounded.lengthOctets {count len kept : Nat} (inside : start ≤ buffer.length) (same : kept = len % 2 ^ 32) :
    Bounded buffer (lengthOctets count kept) start fun result last => ∃ octets,
      Spans buffer start last octets ∧ octets.length = count ∧
        result = octets.foldl (fun total octet => total * 256 + octet.toNat) len % 2 ^ 32 := by
  induction count generalizing start len kept with
  | zero => exact .pure inside ⟨[], .nil, rfl, same⟩
  | succ count ih =>
    refine octet.bind fun ch middle bound found _ => ?_
    obtain ⟨read, rfl⟩ := found
    refine (ih bound (step_mod same _ _)).mono fun result last later => ?_
    obtain ⟨octets, spans, rfl, same⟩ := later
    exact ⟨ch :: octets, (Spans.octet read).append spans, rfl, same⟩

theorem Runs.lengthForm {ch : UInt8} {octets : List UInt8} {len : Option Nat} (field : LengthField (ch :: octets) len)
    (spans : Spans buffer start last octets) : Runs buffer (lengthForm ch) start (.ok len) last := by
  unfold Spnego.lengthForm
  cases field with
  | indefinite =>
    obtain ⟨-, rfl⟩ := spans
    exact .pure none
  | short _ small =>
    obtain ⟨-, rfl⟩ := spans
    rw [if_neg (UInt8.ne_of_lt small), if_pos small]
    exact .pure _
  | long _ large _ count =>
    have read := Runs.lengthOctets spans (Nat.zero_mod (2 ^ 32)).symm
    rw [count] at read
    rw [if_neg (UInt8.ne_of_lt large).symm, if_neg (UInt8.lt_asymm large)]
    exact read.bind (.pure _)

theorem Bounded.lengthForm {ch : UInt8} (inside : start ≤ buffer.length) :
    Bounded buffer (lengthForm ch) start fun len last => ∃ octets,
      LengthField (ch :: octets) len ∧ Spans buffer start last octets := by
  unfold Spnego.lengthForm
  split
  · next same =>
    subst same
    exact .pure inside ⟨[], .indefinite, .nil⟩
  · next other =>
    split
    · next small => exact .pure inside ⟨[], .short ch small, .nil⟩
    · next large =>
      refine .bind (lengthOctets inside (Nat.zero_mod _).symm) fun len last bound found _ => ?_
      obtain ⟨octets, spans, count, rfl⟩ := found
      have above : 128 < ch := UInt8.lt_of_le_of_ne (UInt8.not_lt.mp large) (Ne.symm other)
      exact .pure bound ⟨octets, .long ch above octets count, spans⟩

theorem Runs.checkLength {len : Nat} (inside : start + len ≤ buffer.length) :
    Runs buffer (checkLength len) start (.ok ()) start :=
  ⟨[], by simp, fun used => by simp [Spnego.checkLength, Nat.not_lt.mpr inside]⟩

theorem Runs.checkLength_stop {len : Nat} (outside : buffer.length < start + len) :
    Runs buffer (Spnego.checkLength len) start (.stop ()) start :=
  ⟨[], by simp, fun used => by simp [Spnego.checkLength, outside]⟩

theorem Bounded.checkLength {len : Nat} (inside : start ≤ buffer.length) :
    Bounded buffer (checkLength len) start fun _ last => last = start ∧ start + len ≤ buffer.length := by
  rcases Nat.lt_or_ge buffer.length (start + len) with long | fits
  · exact .inl ⟨start, .checkLength_stop long⟩
  · exact .inr ⟨(), start, inside, .checkLength fits, rfl, fits⟩

theorem LengthField.cons {field : List UInt8} {len : Option Nat} (said : LengthField field len) :
    ∃ ch rest, field = ch :: rest := by
  cases said <;> exact ⟨_, _, rfl⟩

theorem Runs.length {field : List UInt8} {len : Option Nat} (said : LengthField field len)
    (spans : Spans buffer start last field) (fits : last + len.getD 0 ≤ buffer.length) :
    Runs buffer asn1LengthDecode start (.ok len) last := by
  obtain ⟨ch, rest, rfl⟩ := said.cons
  obtain ⟨read, rest⟩ := spans.uncons
  exact (Runs.octet read).bind ((Runs.lengthForm said rest).bind ((Runs.checkLength fits).bind (.pure len)))

theorem Runs.length_stop {field : List UInt8} {len : Option Nat} (said : LengthField field len)
    (spans : Spans buffer start last field) (outside : buffer.length < last + len.getD 0) :
    Runs buffer asn1LengthDecode start (.stop ()) last := by
  obtain ⟨ch, rest, rfl⟩ := said.cons
  obtain ⟨read, rest⟩ := spans.uncons
  exact (Runs.octet read).bind ((Runs.lengthForm said rest).bind (Runs.checkLength_stop outside).bind_stop)

theorem Bounded.length :
    Bounded buffer asn1LengthDecode start fun len last => last + len.getD 0 ≤ buffer.length ∧ ∃ field,
      LengthField field len ∧ Spans buffer start last field := by
  refine octet.bind fun ch middle bound read _ => (lengthForm bound).bind fun len after bound said _ => ?_
  refine (checkLength bound).bind fun _ last bound fits _ => .pure bound ?_
  obtain ⟨read, rfl⟩ := read
  obtain ⟨rest, field, spans⟩ := said
  obtain ⟨rfl, fits⟩ := fits
  exact ⟨fits, ch :: rest, field, (Spans.octet read).append spans⟩

theorem Runs.header {id : Asn1Id} {len : Option Nat} (header : HeaderAt buffer start id len last) :
    Runs buffer asn1HeaderDecode start (.ok (len.map (last + ·), id)) last := by
  obtain ⟨⟨octets, field, one, said, spans⟩, fits, constructed⟩ := header
  obtain ⟨front, behind⟩ := spans.split
  refine (Runs.identifier one front).bind ((Runs.length said behind fits).bind ?_)
  rw [if_neg fun both => constructed both.2 both.1]
  cases len <;> exact .get_bind (fun _ => rfl) (.pure _)

/-- The end that is returned is behind the contents, or there is none. -/
theorem Bounded.header :
    Bounded buffer asn1HeaderDecode start fun found last => ∃ len,
      HeaderAt buffer start found.2 len last ∧ found.1 = len.map (last + ·) := by
  refine id.bind fun id middle _ found _ => ?_
  obtain ⟨octets, one, front⟩ := found
  refine length.bind fun len last bound found _ => ?_
  obtain ⟨fits, field, said, behind⟩ := found
  split
  · exact .stop
  · next allowed =>
    refine .get_bind (fun _ => rfl) (.pure bound ⟨len, ⟨⟨octets, field, one, said, front.append behind⟩, fits, ?_⟩, ?_⟩)
    · exact fun indefinite primitive => allowed ⟨primitive, indefinite⟩
    · cases len <;> rfl

end Reading

section Oids
variable {buffer : List UInt8} {start last length : Nat}

theorem Runs.arcs {octets : List UInt8} {values found : List Nat} {eoc size fuel : Nat}
    (subids : SubidsTo eoc start octets values) (spans : Spans buffer start last octets) (inside : start ≤ buffer.length)
    (enough : octets.length < fuel) (room : found.length + values.length ≤ size) :
    Runs buffer (oidArcs eoc size fuel found) start (.ok (found ++ values.map (· % 2 ^ 64))) last := by
  induction subids generalizing fuel found with
  | nil behind =>
    obtain ⟨fuel, rfl⟩ : ∃ less, fuel = less + 1 := ⟨fuel - 1, by omega⟩
    obtain ⟨-, rfl⟩ := spans
    refine .get_bind (fun _ => rfl) ?_
    show Runs buffer (if _ < eoc then _ else _) _ _ _
    rw [if_neg (Nat.not_lt.mpr behind), List.map_nil, List.append_nil]
    exact .pure found
  | @cons start octets rest value values before first others ih =>
    obtain ⟨fuel, rfl⟩ : ∃ less, fuel = less + 1 := ⟨fuel - 1, by omega⟩
    obtain ⟨front, behind⟩ := spans.split
    have some := first.length_pos
    rw [List.length_append] at enough
    rw [List.length_cons] at room
    refine .get_bind (fun _ => rfl) ?_
    show Runs buffer (if start < eoc then _ else _) start _ _
    rw [if_pos before, if_neg (by omega)]
    have later := @ih (found ++ [value % 2 ^ 64]) fuel behind (front.held.inside inside) (by omega)
      (by rw [List.length_append, List.length_singleton]; omega)
    rw [List.append_assoc] at later
    exact (Runs.subid first front inside).bind later

theorem Bounded.arcs {eoc size fuel : Nat} {found : List Nat} (inside : start ≤ buffer.length)
    (enough : buffer.length - start < fuel) (room : found.length ≤ size) :
    Bounded buffer (oidArcs eoc size fuel found) start fun arcs last => ∃ octets values, Spans buffer start last octets ∧
      SubidsTo eoc start octets values ∧ found.length + values.length ≤ size ∧ arcs = found ++ values.map (· % 2 ^ 64) := by
  induction fuel generalizing start found with
  | zero => omega
  | succ fuel ih =>
    refine .get_bind (fun _ => rfl) ?_
    show Bounded buffer (if start < eoc then _ else _) start _
    split
    · next before =>
      split
      · exact .stop
      · next free =>
        refine (subid inside).bind fun _ middle bound one _ => ?_
        obtain ⟨octets, value, front, first, rfl⟩ := one
        have ends := front.ends
        have some := first.length_pos
        have grown : (found ++ [value % 2 ^ 64]).length = found.length + 1 := by simp
        refine (ih bound (by omega) (by omega)).mono fun arcs last later => ?_
        obtain ⟨rest, values, behind, others, fits, same⟩ := later
        subst ends
        refine ⟨octets ++ rest, value :: values, front.append behind, .cons before first others, ?_, by simpa using same⟩
        rw [List.length_cons]
        omega
    · next behind => exact .pure inside ⟨[], [], .nil, .nil (Nat.not_lt.mp behind), room, (List.append_nil _).symm⟩

theorem length_firstArcs (subid : Nat) : (firstArcs subid).length = 2 := by
  unfold firstArcs
  split
  · rfl
  · split <;> rfl

theorem arcRoom_eq (start length : Nat) :
    ((((start + length : Nat) : Int) - start + 1) % 2 ^ 32).toNat = arcRoom length := by
  unfold arcRoom
  omega

theorem Runs.noted (inside : start + length ≤ buffer.length) :
    Runs buffer (Proc.modify (·.note (some (start + length)))) start (.ok ()) start := by
  refine ⟨[some (start + length)], ?_, fun used => rfl⟩
  intro use member
  rw [List.mem_singleton.mp member]
  exact ⟨_, inside, rfl⟩

theorem Runs.oid {arcs : List Nat} (contents : OidContents buffer start length arcs last)
    (inside : start + length ≤ buffer.length) :
    Runs buffer (asn1OidDecode (some (start + length))) start (.ok arcs) last := by
  obtain ⟨fits, octets, value, rest, spans, subids, room, rfl⟩ := contents
  have place : start ≤ buffer.length := by omega
  refine (Runs.noted inside).bind (.get_bind (fun _ => rfl) ?_)
  show Runs buffer (if _ then _ else _) start _ _
  rw [arcRoom_eq, if_neg (by unfold RoomFits at fits; omega)]
  cases subids with
  | cons before first others =>
    obtain ⟨front, behind⟩ := spans.split
    have bound := front.held.inside place
    have short := behind.held.inside bound
    refine (Runs.subid first front place).bind (Runs.arcs others behind bound (by dsimp only; omega) ?_)
    rw [length_firstArcs]
    exact room

theorem Bounded.oid (inside : start + length ≤ buffer.length) :
    Bounded buffer (asn1OidDecode (some (start + length))) start fun arcs last =>
      OidContents buffer start length arcs last := by
  have place : start ≤ buffer.length := by omega
  have noted : Bounded buffer (Proc.modify (·.note (some (start + length)))) start fun _ after => after = start :=
    .inr ⟨(), start, place, .noted inside, rfl⟩
  refine noted.bind fun _ after _ same _ => ?_
  subst same
  refine .get_bind (fun _ => rfl) ?_
  show Bounded buffer (if _ then _ else _) after _
  rw [arcRoom_eq]
  split
  · exact .stop
  · next enough =>
    have fits : RoomFits (arcRoom length) := by
      unfold RoomFits
      omega
    have pair {value : Nat} := length_firstArcs value
    refine (subid place).bind fun _ middle bound one _ => ?_
    obtain ⟨octets, value, front, first, rfl⟩ := one
    refine (arcs bound (by dsimp only; omega) (by rw [pair]; exact fits.1)).mono fun found last later => ?_
    obtain ⟨rest, values, behind, others, room, same⟩ := later
    rw [pair] at room
    have ends := front.ends
    subst ends
    have nonempty : 0 < length := by
      have := fits.1
      unfold arcRoom at this
      omega
    exact ⟨fits, octets ++ rest, value, values, front.append behind, .cons (by omega) first others, room, same⟩

end Oids

end KsmbdTools.Spnego
