import KsmbdTools.Spnego.Proofs.Lengths

/-! Object identifiers. A sub-identifier is read to the first octet that does not continue it, wherever that is in
the buffer, and kept in 64 bits; the loop over them looks at the end of the contents in between. -/

namespace KsmbdTools.Spnego

theorem exists_terminator (octets : List UInt8) : (∀ octet ∈ octets, Continues octet) ∨
    ∃ front rest, octets = front ++ rest ∧ Terminated front := by
  induction octets with
  | nil => exact .inl (List.forall_mem_nil _)
  | cons octet octets ih =>
    by_cases more : Continues octet
    · rcases ih with all | ⟨front, rest, rfl, whole⟩
      · exact .inl (List.forall_mem_cons.mpr ⟨more, all⟩)
      · exact .inr ⟨octet :: front, rest, rfl, .cons more whole⟩
    · exact .inr ⟨[octet], octets, rfl, .last more⟩

namespace Terminated
variable {octets others rest rest' tail behind : List UInt8}

theorem unique (one : Terminated octets) (two : Terminated others) (same : octets ++ rest = others ++ rest') :
    octets = others ∧ rest = rest' := by
  induction one generalizing others with
  | last ended =>
    cases two with
    | last _ =>
      obtain ⟨head, behind⟩ := List.cons.inj same
      exact ⟨by rw [head], behind⟩
    | cons more _ => exact absurd ((List.cons.inj same).1 ▸ more) ended
  | cons more _ ih =>
    cases two with
    | last ended => exact absurd ((List.cons.inj same).1 ▸ more) ended
    | cons _ two =>
      obtain ⟨head, behind⟩ := List.cons.inj same
      obtain ⟨fronts, rests⟩ := ih two behind
      exact ⟨by rw [head, fronts], rests⟩

/-- Octets that continue are passed, and one that does not is found behind them. -/
theorem reaches (whole : Terminated octets) (continued : ∀ octet ∈ tail, Continues octet)
    (same : octets ++ rest = tail ++ behind) :
    tail.length < octets.length ∧ ¬∀ octet ∈ behind, Continues octet := by
  induction whole generalizing tail behind with
  | last ended =>
    cases tail with
    | nil =>
      subst same
      exact ⟨Nat.one_pos, fun all => ended (all _ List.mem_cons_self)⟩
    | cons octet tail => exact absurd ((List.cons.inj same).1 ▸ continued octet List.mem_cons_self) ended
  | cons more others ih =>
    cases tail with
    | nil =>
      subst same
      obtain ⟨-, more⟩ := @ih [] _ (List.forall_mem_nil _) rfl
      exact ⟨Nat.succ_pos _, fun all => more fun octet member => all octet (List.mem_cons_of_mem _ member)⟩
    | cons octet tail =>
      obtain ⟨longer, more⟩ := ih (List.forall_mem_cons.mp continued).2 (List.cons.inj same).2
      exact ⟨Nat.succ_lt_succ longer, more⟩

end Terminated

/-- One more sub-identifier where the octets break off. -/
def broken (tail : List UInt8) : Nat := if tail = [] then 0 else 1

/-- Contents that end with these octets: what is read of them, if it can be read at all. -/
theorem SubidsTo.split {done tail behind octets more : List UInt8} {eoc start : Nat} {values others : List Nat}
    (read : SubidsTo eoc start octets others) (complete : Subids done values) (continued : ∀ octet ∈ tail, Continues octet)
    (same : octets ++ more = done ++ (tail ++ behind)) (ends : eoc = start + (done ++ tail).length) :
    (tail = [] → octets = done ∧ others = values) ∧ others.length = values.length + broken tail ∧
      (tail ≠ [] → ¬∀ octet ∈ behind, Continues octet) := by
  induction complete generalizing start octets others with
  | nil =>
    rw [List.nil_append] at same ends
    cases read with
    | nil after =>
      have none : tail = [] := List.eq_nil_of_length_eq_zero (by omega)
      exact ⟨fun _ => ⟨rfl, rfl⟩, by rw [broken, if_pos none]; rfl, fun some => absurd none some⟩
    | cons before first later =>
      rw [List.append_assoc] at same
      obtain ⟨longer, further⟩ := first.form.reaches continued same
      have some : tail ≠ [] := fun none => by
        rw [none, List.length_nil] at ends
        omega
      refine ⟨fun none => absurd none some, ?_, fun _ => further⟩
      cases later with
      | nil _ => rw [broken, if_neg some]; rfl
      | cons before' _ _ => omega
  | @cons octets' rest value values first' complete ih =>
    have some := first'.length_pos
    rw [List.append_assoc, List.length_append] at ends
    cases read with
    | nil after => omega
    | cons before first later =>
      rw [List.append_assoc, List.append_assoc] at same
      obtain ⟨rfl, left⟩ := first.form.unique first'.form same
      obtain ⟨exactly, count, further⟩ := ih later left (by omega)
      obtain ⟨-, rfl⟩ := first
      obtain ⟨-, rfl⟩ := first'
      refine ⟨fun none => ?_, by rw [List.length_cons, count, List.length_cons, Nat.add_right_comm], further⟩
      obtain ⟨rfl, rfl⟩ := exactly none
      exact ⟨rfl, rfl⟩

/-- Contents that break off, with the octets behind them that end the last sub-identifier. -/
theorem Subids.broken_off {done tail front : List UInt8} {values : List Nat} (complete : Subids done values)
    (some : tail ≠ []) (continued : ∀ octet ∈ tail, Continues octet) (whole : Terminated front) (start : Nat) :
    SubidsTo (start + (done ++ tail).length) start (done ++ (tail ++ front)) (values ++ [groups (tail ++ front) 0]) := by
  induction complete generalizing start with
  | nil =>
    have := List.length_pos_iff.mpr some
    have one : Subid (tail ++ front) (groups (tail ++ front) 0) := ⟨whole.continued continued, rfl⟩
    have read := SubidsTo.cons (show start < start + tail.length by omega) one
      (.nil (by rw [List.length_append, ← Nat.add_assoc]; exact Nat.le_add_right _ _))
    rwa [List.append_nil] at read
  | cons first others ih =>
    have := first.length_pos
    rw [List.append_assoc, List.append_assoc, List.length_append, ← Nat.add_assoc]
    exact .cons (by omega) first (ih _)

/-- The arcs are the true values of the sub-identifiers in the contents, which are read to their end and no further. -/
def ExactOid (contents : List UInt8) (eoc : Nat) (arcs : List Nat) (after : Asn1Ctx) : Prop :=
  after.pointer = some eoc ∧ ∃ value rest, Subids contents (value :: rest) ∧ (∀ subid ∈ value :: rest, subid < 2 ^ 64) ∧
    arcs = firstArcs value ++ rest

theorem ExactOid.of_small {contents : List UInt8} {eoc value : Nat} {rest : List Nat} {after : Asn1Ctx}
    (place : after.pointer = some eoc) (subids : Subids contents (value :: rest))
    (small : ∀ subid ∈ value :: rest, subid < 2 ^ 64) :
    ExactOid contents eoc (firstArcs (value % 2 ^ 64) ++ rest.map (· % 2 ^ 64)) after := by
  obtain ⟨first, later⟩ := List.forall_mem_cons.mp small
  have kept : rest.map (· % 2 ^ 64) = rest :=
    (List.map_congr_left fun subid member => Nat.mod_eq_of_lt (later subid member)).trans (List.map_id _)
  rw [kept, Nat.mod_eq_of_lt first]
  exact ⟨place, value, rest, subids, small, rfl⟩

theorem Subids.unique {octets : List UInt8} {values others : List Nat} (one : Subids octets values)
    (two : Subids octets others) : values = others := by
  have same : octets ++ [] = octets ++ ([] ++ []) := rfl
  exact (((one.subidsTo 0).split two (List.forall_mem_nil _) same (by simp)).1 rfl).2

theorem Subids.not_broken {done tail : List UInt8} {values others : List Nat} (complete : Subids done values)
    (continued : ∀ octet ∈ tail, Continues octet) (some : tail ≠ []) : ¬Subids (done ++ tail) others := by
  intro whole
  have same : (done ++ tail) ++ [] = done ++ (tail ++ []) := by simp
  exact ((whole.subidsTo 0).split complete continued same rfl).2.2 some (List.forall_mem_nil _)

/-- What the decoder returns is what the contents say. -/
theorem asn1OidDecode_ok {buffer : List UInt8} {start length : Nat} {used : List (Option Nat)} {arcs : List Nat}
    {after : Asn1Ctx} (inside : start + length ≤ buffer.length)
    (decoded : asn1OidDecode (some (start + length)) ⟨buffer, some start, used⟩ = (.ok arcs, after)) :
    ∃ last, OidContents buffer start length arcs last ∧ after.pointer = some last := by
  rcases Bounded.oid inside with ⟨last, uses, -, ran⟩ | ⟨found, last, -, ⟨uses, -, ran⟩, contents⟩
  · rw [ran used] at decoded
    cases decoded
  · rw [ran used] at decoded
    cases decoded
    exact ⟨last, contents, rfl⟩

/-- Contents that break off are read on, up to the octet behind them that ends the last sub-identifier. -/
theorem Subids.contents_further {buffer done tail behind : List UInt8} {start : Nat} {values : List Nat}
    (complete : Subids done values) (some : tail ≠ []) (continued : ∀ octet ∈ tail, Continues octet)
    (rest : buffer.drop start = done ++ (tail ++ behind)) (ends : ¬∀ octet ∈ behind, Continues octet)
    (fits : RoomFits (arcRoom (done ++ tail).length)) (room : 1 + values.length + 1 ≤ arcRoom (done ++ tail).length) :
    ∃ arcs last, OidContents buffer start (done ++ tail).length arcs last := by
  obtain ⟨front, others, same, whole⟩ := (exists_terminator behind).resolve_left ends
  have further := complete.broken_off some continued whole start
  obtain ⟨value, later, form⟩ := List.exists_cons_of_ne_nil (List.append_ne_nil_of_right_ne_nil values
    (List.cons_ne_nil (groups (tail ++ front) 0) []))
  have count := congrArg List.length form
  rw [List.length_append, List.length_singleton, List.length_cons] at count
  rw [form] at further
  have held : At buffer start (done ++ (tail ++ front)) := ⟨others, by rw [rest, same]; simp⟩
  exact ⟨_, _, fits, _, value, later, ⟨held, rfl⟩, further, by omega, rfl⟩

/-- The contents are decoded exactly, or not at all, unless a sub-identifier needs more than 64 bits or goes on
behind them; a size that leaves no room for the arcs is refused, and so is a buffer that ends before the
sub-identifier. -/
theorem oid_contents_iff (buffer done tail : List UInt8) (start eoc : Nat) (values : List Nat) (used : List (Option Nat))
    (before : start < eoc) (inside : eoc ≤ buffer.length) (split : (buffer.drop start).take (eoc - start) = done ++ tail)
    (subids : Subids done values) (continued : ∀ octet ∈ tail, Continues octet) :
    (∀ arcs after, asn1OidDecode (some eoc) ⟨buffer, some start, used⟩ = (.ok arcs, after) →
        ExactOid (done ++ tail) eoc arcs after) ↔
      (tail = [] ∧ ∀ value ∈ values, value < 2 ^ 64) ∨
      ¬(RoomFits (arcRoom (eoc - start)) ∧ 1 + values.length + broken tail ≤ arcRoom (eoc - start)) ∨
      (tail ≠ [] ∧ ∀ octet ∈ buffer.drop eoc, Continues octet) := by
  obtain ⟨length, rfl⟩ : ∃ length, eoc = start + length := ⟨eoc - start, by omega⟩
  rw [Nat.add_sub_cancel_left] at split ⊢
  have size : (done ++ tail).length = length := by
    rw [← split, List.length_take, List.length_drop]
    omega
  have rest : buffer.drop start = done ++ (tail ++ buffer.drop (start + length)) := by
    rw [← List.append_assoc, ← split, ← List.drop_drop, List.take_append_drop]
  constructor
  · intro exactly
    have read {arcs : List Nat} {last : Nat} (contents : OidContents buffer start length arcs last) :
        ∃ after, ExactOid (done ++ tail) (start + length) arcs after := by
      obtain ⟨uses, -, ran⟩ := Runs.oid contents inside
      exact ⟨_, exactly _ _ (ran used)⟩
    by_cases room : RoomFits (arcRoom length) ∧ 1 + values.length + broken tail ≤ arcRoom length
    case neg => exact .inr (.inl room)
    case pos =>
      by_cases none : tail = []
      · -- The contents end with a sub-identifier.
        subst none
        rw [List.append_nil] at size read
        rw [broken, if_pos rfl] at room
        cases subids with
        | nil => exact absurd size (by rw [List.length_nil]; omega)
        | cons first others =>
          have held : At buffer start _ := ⟨_, rest.symm⟩
          subst size
          obtain ⟨_, -, value', others', complete', small, -⟩ :=
            read ((Subids.cons first others).contents room.1 (by rw [List.length_cons] at room; omega) held)
          rw [(Subids.cons first others).unique complete']
          exact .inl ⟨rfl, small⟩
      · -- The contents break off: what is behind them was read too.
        refine .inr (.inr ⟨none, ?_⟩)
        by_contra more
        rw [broken, if_neg none] at room
        subst size
        obtain ⟨_, _, contents⟩ := subids.contents_further none continued rest more room.1 room.2
        obtain ⟨_, -, _, _, complete, -⟩ := read contents
        exact subids.not_broken continued none complete
  · intro cases arcs after decoded
    obtain ⟨last, ⟨fits, octets, value, others, ⟨⟨more, same⟩, rfl⟩, read, room, rfl⟩, place⟩ :=
      asn1OidDecode_ok inside decoded
    rw [rest] at same
    obtain ⟨exactly, count, further⟩ := read.split subids continued same (by rw [size])
    rcases cases with ⟨none, small⟩ | refused | ⟨some, all⟩
    · obtain ⟨rfl, rfl⟩ := exactly none
      rw [none, List.append_nil] at size ⊢
      exact .of_small (by rw [place, size]) subids small
    · rw [List.length_cons] at count
      exact absurd ⟨fits, by omega⟩ refused
    · exact absurd all (further some)

/-- The arcs 1.2.840 that Kerberos starts with, in three octets. -/
theorem oid_contents_kerberos : ExactOid [42, 134, 72] 3 [1, 2, 840]
    (asn1OidDecode (some 3) (asn1Open [42, 134, 72])).2 := by
  have first : Subid [42] 42 := ⟨.last (by decide), rfl⟩
  have second : Subid [134, 72] 840 := ⟨.cons (by decide) (.last (by decide)), rfl⟩
  exact (oid_contents_iff [42, 134, 72] [42, 134, 72] [] 0 3 [42, 840] [some 0] (by decide) (by decide) rfl
    (.cons first (.cons second .nil)) (List.forall_mem_nil _)).mpr (.inl ⟨rfl, by decide⟩) _ _ (Prod.ext (by decide) rfl)

/-- Contents of one octet that continues: the octet behind them is taken, and two arcs are returned. -/
theorem oid_contents_run_over : asn1OidDecode (some 1) (asn1Open [129, 5]) =
    (.ok [2, 53], ⟨[129, 5], some 2, [some 2, some 1, some 1, some 0]⟩) ∧ ∀ values, ¬Subids [129] values :=
  ⟨by decide, fun _ => Subids.not_broken .nil (by decide +kernel) (by decide +kernel)⟩

section Encode

theorem arcOctets_cases (arc : Nat) :
    arc < 2 ^ 7 ∧ arcOctets arc = [] ++ [UInt8.ofNat (arc % 128)] ∨
    arc < 2 ^ 14 ∧ arcOctets arc = [UInt8.ofNat (128 + arc / 2 ^ 7 % 128)] ++ [UInt8.ofNat (arc % 128)] ∨
    arc < 2 ^ 21 ∧ arcOctets arc = [UInt8.ofNat (128 + arc / 2 ^ 14 % 128), UInt8.ofNat (128 + arc / 2 ^ 7 % 128)] ++
      [UInt8.ofNat (arc % 128)] ∨
    arc < 2 ^ 28 ∧ arcOctets arc = [UInt8.ofNat (128 + arc / 2 ^ 21 % 128), UInt8.ofNat (128 + arc / 2 ^ 14 % 128),
      UInt8.ofNat (128 + arc / 2 ^ 7 % 128)] ++ [UInt8.ofNat (arc % 128)] ∨
    arcOctets arc = [UInt8.ofNat (128 + arc / 2 ^ 28 % 128), UInt8.ofNat (128 + arc / 2 ^ 21 % 128),
      UInt8.ofNat (128 + arc / 2 ^ 14 % 128), UInt8.ofNat (128 + arc / 2 ^ 7 % 128)] ++ [UInt8.ofNat (arc % 128)] := by
  unfold arcOctets
  rcases Nat.lt_or_ge arc (2 ^ 7) with one | one
  · refine .inl ⟨one, ?_⟩
    rw [if_neg (by omega), if_neg (by omega), if_neg (by omega), if_neg (by omega)]
    rfl
  rcases Nat.lt_or_ge arc (2 ^ 14) with two | two
  · refine .inr (.inl ⟨two, ?_⟩)
    rw [if_neg (by omega), if_neg (by omega), if_neg (by omega), if_pos one]
    rfl
  rcases Nat.lt_or_ge arc (2 ^ 21) with three | three
  · refine .inr (.inr (.inl ⟨three, ?_⟩))
    rw [if_neg (by omega), if_neg (by omega), if_pos two, if_pos one]
    rfl
  rcases Nat.lt_or_ge arc (2 ^ 28) with four | four
  · refine .inr (.inr (.inr (.inl ⟨four, ?_⟩)))
    rw [if_neg (by omega), if_pos three, if_pos two, if_pos one]
    rfl
  · refine .inr (.inr (.inr (.inr ?_)))
    rw [if_pos four, if_pos three, if_pos two, if_pos one]
    rfl

theorem group_step (value width : Nat) : value / 128 % width * 128 + value % 128 = value % (128 * width) := by
  rw [Nat.mod_mul, Nat.mul_comm, Nat.add_comm]

theorem arcOctets_subid (arc : Nat) : Subid (arcOctets arc) (arc % 2 ^ 35) := by
  have more (part : Nat) : Continues (UInt8.ofNat (128 + part % 128)) := by
    rw [Continues, UInt8.toNat_ofNat']
    omega
  have ended : ¬Continues (UInt8.ofNat (arc % 128)) := by
    rw [Continues, UInt8.toNat_ofNat']
    omega
  have group (part : Nat) : (UInt8.ofNat (128 + part % 128)).toNat % 128 = part % 128 := by
    rw [UInt8.toNat_ofNat']
    omega
  have least : (UInt8.ofNat (arc % 128)).toNat % 128 = arc % 128 := by
    rw [UInt8.toNat_ofNat']
    omega
  have one : arc / 2 ^ 14 = arc / 2 ^ 7 / 128 := (Nat.div_div_eq_div_mul arc (2 ^ 7) 128).symm
  have two : arc / 2 ^ 21 = arc / 2 ^ 7 / 128 / 128 := by
    simp only [Nat.div_div_eq_div_mul, Nat.reducePow, Nat.reduceMul]
  have three : arc / 2 ^ 28 = arc / 2 ^ 7 / 128 / 128 / 128 := by
    simp only [Nat.div_div_eq_div_mul, Nat.reducePow, Nat.reduceMul]
  rcases arcOctets_cases arc with ⟨bound, same⟩ | ⟨bound, same⟩ | ⟨bound, same⟩ | ⟨bound, same⟩ | same
  all_goals
    rw [same]
    refine ⟨(Terminated.last ended).continued ?_, ?_⟩
    · simp only [List.forall_mem_cons, more, true_and, List.not_mem_nil, false_implies, implies_true]
    · simp only [groups, List.cons_append, List.nil_append, List.foldl_cons, List.foldl_nil, group, least, Nat.zero_mul,
        Nat.zero_add, three, two, one, group_step, show 2 ^ 7 = 128 from rfl]
      omega

theorem length_arcOctets (arc : Nat) : (arcOctets arc).length ≤ 5 := by
  rcases arcOctets_cases arc with ⟨-, same⟩ | ⟨-, same⟩ | ⟨-, same⟩ | ⟨-, same⟩ | same <;> simp [same]

theorem flatMap_subids (arcs : List Nat) : Subids (arcs.flatMap arcOctets) (arcs.map (· % 2 ^ 35)) := by
  induction arcs with
  | nil => exact .nil
  | cons arc arcs ih => exact .cons (arcOctets_subid arc) ih

theorem length_flatMap_arcOctets (arcs : List Nat) : (arcs.flatMap arcOctets).length ≤ 5 * arcs.length := by
  induction arcs with
  | nil => simp
  | cons arc arcs ih =>
    have := length_arcOctets arc
    rw [List.flatMap_cons, List.length_append, List.length_cons]
    omega

theorem asn1OidEncode_cons (a b : Nat) (later : List Nat) :
    asn1OidEncode (a :: b :: later) = UInt8.ofNat (40 * a + b) :: later.flatMap arcOctets := rfl

def RoundTrips (oid : List Nat) : Prop :=
  (asn1OidDecode (some (asn1OidEncode oid).length) (asn1Open (asn1OidEncode oid))).1 = .ok oid

/-- The first two arcs make one octet that stands alone, and none of the others is too wide. -/
def Encodable : List Nat → Prop
  | a :: b :: later => (a ≤ 1 ∧ b < 40 ∨ a = 2 ∧ b < 48) ∧ ∀ arc ∈ later, arc < 2 ^ 35
  | _ => False

theorem firstArcs_eq_iff {a b : Nat} (alone : (40 * a + b) % 256 < 128) :
    firstArcs ((40 * a + b) % 256) = [a, b] ↔ a ≤ 1 ∧ b < 40 ∨ a = 2 ∧ b < 48 := by
  constructor
  · intro same
    unfold firstArcs at same
    split_ifs at same <;> simp only [List.cons.injEq, and_true] at same <;> omega
  · intro valid
    have small : 40 * a + b < 256 := by omega
    have cases : a = 0 ∧ b < 40 ∨ a = 1 ∧ b < 40 ∨ a = 2 ∧ b < 48 := by omega
    rw [Nat.mod_eq_of_lt small]
    unfold firstArcs
    rcases cases with ⟨rfl, low⟩ | ⟨rfl, low⟩ | ⟨rfl, low⟩
    · rw [if_pos (by omega), show 40 * 0 + b = b by omega]
    · rw [if_neg (by omega), if_pos (by omega), show 40 * 1 + b - 40 = b by omega]
    · rw [if_neg (by omega), if_neg (by omega), show 40 * 2 + b - 80 = b by omega]

theorem map_mod_eq_self_iff (arcs : List Nat) : arcs.map (· % 2 ^ 35) = arcs ↔ ∀ arc ∈ arcs, arc < 2 ^ 35 := by
  induction arcs with
  | nil => simp
  | cons arc arcs ih =>
    rw [List.map_cons, List.cons.injEq, ih, List.forall_mem_cons]
    refine and_congr_left fun _ => ⟨fun same => ?_, Nat.mod_eq_of_lt⟩
    rw [← same]
    exact Nat.mod_lt _ (by decide)

/-- A buffer of complete sub-identifiers is decoded where there is room for the arcs, and refused otherwise. -/
theorem Subids.decoded {octets : List UInt8} {values : List Nat} (complete : Subids octets values) (some : octets ≠ []) :
    (¬(RoomFits (arcRoom octets.length) ∧ 1 + values.length ≤ arcRoom octets.length) ∧
      (asn1OidDecode (Option.some octets.length) (asn1Open octets)).1 = .stop ()) ∨
    ((RoomFits (arcRoom octets.length) ∧ 1 + values.length ≤ arcRoom octets.length) ∧ ∃ value rest, values = value :: rest ∧
      (asn1OidDecode (Option.some octets.length) (asn1Open octets)).1 =
        .ok (firstArcs (value % 2 ^ 64) ++ rest.map (· % 2 ^ 64))) := by
  have inside : 0 + octets.length ≤ octets.length := Nat.le_of_eq (Nat.zero_add _)
  cases complete with
  | nil => exact absurd rfl some
  | @cons first rest value values one others =>
    have complete : Subids (first ++ rest) (value :: values) := .cons one others
    by_cases room : RoomFits (arcRoom (first ++ rest).length) ∧ 1 + (value :: values).length ≤ arcRoom (first ++ rest).length
    · obtain ⟨uses, -, ran⟩ := Runs.oid (complete.contents room.1 (by rw [List.length_cons] at room; omega)
        (show At (first ++ rest) 0 (first ++ rest) from List.prefix_rfl)) inside
      rw [Nat.zero_add] at ran
      exact .inr ⟨room, value, values, rfl, congrArg Prod.fst (ran [Option.some 0])⟩
    · rcases Bounded.oid inside with ⟨last, uses, -, ran⟩ | ⟨_, _, -, -, fits, octets, _, _, ⟨⟨more, same⟩, -⟩,
        read, enough, -⟩
      · rw [Nat.zero_add] at ran
        exact .inl ⟨room, congrArg Prod.fst (ran [Option.some 0])⟩
      · have same : octets ++ more = (first ++ rest) ++ ([] ++ []) := by simpa using same
        have count := (read.split complete (List.forall_mem_nil _) same (by simp)).2.1
        rw [broken, if_pos rfl, List.length_cons] at count
        exact absurd ⟨fits, by omega⟩ room

/-- With five octets for an arc at most, the room is too small for the arcs only where the octets are too many. -/
theorem Subids.room_iff {octets : List UInt8} {values : List Nat} (complete : Subids octets values) (some : octets ≠ [])
    (wide : octets.length ≤ 5 * values.length) :
    (RoomFits (arcRoom octets.length) ∧ 1 + values.length ≤ arcRoom octets.length) ↔ octets.length < 2 ^ 29 - 1 := by
  have nonempty := List.length_pos_iff.mpr some
  have counted := complete.length_le
  unfold RoomFits arcRoom
  omega

section Arcs
variable {a b : Nat} {later : List Nat}

/-- The first octet stands alone: there is a sub-identifier for every arc behind the first two. -/
theorem roundTrips_alone (alone : (40 * a + b) % 256 < 128) :
    RoundTrips (a :: b :: later) ↔
      Encodable (a :: b :: later) ∧ (asn1OidEncode (a :: b :: later)).length < 2 ^ 29 - 1 := by
  have value : (UInt8.ofNat (40 * a + b)).toNat = (40 * a + b) % 256 := UInt8.toNat_ofNat'
  have first : Subid [UInt8.ofNat (40 * a + b)] ((40 * a + b) % 256) := by
    refine ⟨.last ?_, ?_⟩
    · rw [Continues, value]
      omega
    · simp only [groups, List.foldl_cons, List.foldl_nil, value]
      omega
  have complete : Subids (asn1OidEncode (a :: b :: later)) ((40 * a + b) % 256 :: later.map (· % 2 ^ 35)) :=
    .cons first (flatMap_subids later)
  have some : asn1OidEncode (a :: b :: later) ≠ [] := List.cons_ne_nil _ _
  have wide : (asn1OidEncode (a :: b :: later)).length ≤ 5 * ((40 * a + b) % 256 :: later.map (· % 2 ^ 35)).length := by
    have := length_flatMap_arcOctets later
    rw [asn1OidEncode_cons, List.length_cons, List.length_cons, List.length_map]
    omega
  have room := complete.room_iff some wide
  unfold RoundTrips
  rcases complete.decoded some with ⟨refused, stopped⟩ | ⟨fits, _, _, same, decoded⟩
  · rw [stopped]
    exact iff_of_false (by simp) fun short => refused (room.mpr short.2)
  · cases same
    have wider : (later.map (· % 2 ^ 35)).map (· % 2 ^ 64) = later.map (· % 2 ^ 35) := by
      rw [List.map_map]
      refine List.map_congr_left fun arc _ => ?_
      simp only [Function.comp_apply]
      omega
    rw [Nat.mod_eq_of_lt (show (40 * a + b) % 256 < 2 ^ 64 by omega), wider] at decoded
    rw [decoded, Outcome.ok.injEq, Encodable, ← firstArcs_eq_iff alone, ← map_mod_eq_self_iff,
      and_iff_left (room.mp fits)]
    constructor
    · intro same
      have parts : firstArcs ((40 * a + b) % 256) ++ later.map (· % 2 ^ 35) = [a, b] ++ later := same
      exact List.append_inj parts (length_firstArcs _)
    · rintro ⟨start, rest⟩
      rw [start, rest]
      rfl

/-- It is continued by what follows, so that there is one arc less, or nothing at all to end it. -/
theorem not_roundTrips_continued (more : Continues (UInt8.ofNat (40 * a + b))) : ¬RoundTrips (a :: b :: later) := by
  intro whole
  cases later with
  | nil =>
    obtain ⟨last, ⟨-, octets, _, _, ⟨⟨more', same⟩, -⟩, read, -⟩, -⟩ :=
      asn1OidDecode_ok (show 0 + 1 ≤ [UInt8.ofNat (40 * a + b)].length from Nat.le_refl _) (Prod.ext whole rfl)
    exact (read.split .nil (List.forall_mem_singleton.mpr more) same rfl).2.2 (List.cons_ne_nil _ _) (List.forall_mem_nil _)
  | cons arc later =>
    have merged : Subid (UInt8.ofNat (40 * a + b) :: arcOctets arc) (groups (UInt8.ofNat (40 * a + b) :: arcOctets arc) 0) :=
      ⟨.cons more (arcOctets_subid arc).form, rfl⟩
    have complete : Subids (asn1OidEncode (a :: b :: arc :: later)) _ := .cons merged (flatMap_subids later)
    rcases complete.decoded (List.cons_ne_nil _ _) with ⟨-, stopped⟩ | ⟨-, _, _, same, decoded⟩
    · exact nomatch stopped.symm.trans whole
    · cases same
      have length := congrArg List.length (Outcome.ok.inj (decoded.symm.trans whole))
      simp only [List.length_append, length_firstArcs, List.length_map, List.length_cons] at length
      omega

end Arcs

/-- The encoder stays in its buffer, and its octets are decoded to the same arcs exactly where the arcs can be
encoded and the octets are few enough for the decoder. -/
theorem oid_round_trip_iff (a b : Nat) (later : List Nat) :
    (asn1OidEncode (a :: b :: later)).length ≤ 5 * (a :: b :: later).length ∧
    (RoundTrips (a :: b :: later) ↔
      Encodable (a :: b :: later) ∧ (asn1OidEncode (a :: b :: later)).length < 2 ^ 29 - 1) := by
  constructor
  · have := length_flatMap_arcOctets later
    rw [asn1OidEncode_cons, List.length_cons, List.length_cons, List.length_cons]
    omega
  · by_cases alone : (40 * a + b) % 256 < 128
    · exact roundTrips_alone alone
    · have more : Continues (UInt8.ofNat (40 * a + b)) := by
        rw [Continues, UInt8.toNat_ofNat']
        omega
      have invalid : ¬Encodable (a :: b :: later) := by
        rintro ⟨valid, -⟩
        rw [Nat.mod_eq_of_lt (by omega)] at alone
        omega
      exact iff_of_false (not_roundTrips_continued more) fun valid => invalid valid.1

/-- Arcs that can be encoded, and are too many for the decoder. -/
theorem long_oid_refused :
    Encodable (0 :: 0 :: List.replicate (2 ^ 29) 0) ∧ ¬RoundTrips (0 :: 0 :: List.replicate (2 ^ 29) 0) := by
  have length : (asn1OidEncode (0 :: 0 :: List.replicate (2 ^ 29) 0)).length = 2 ^ 29 + 1 := by
    rw [asn1OidEncode_cons, List.length_cons, List.length_flatMap, List.map_replicate, List.sum_replicate_nat]
    rfl
  constructor
  · refine ⟨.inl ⟨Nat.zero_le _, by decide⟩, fun arc member => ?_⟩
    rw [List.eq_of_mem_replicate member]
    decide
  · intro whole
    have short := ((roundTrips_alone (by decide)).mp whole).2
    rw [length] at short
    omega

end Encode

end KsmbdTools.Spnego
