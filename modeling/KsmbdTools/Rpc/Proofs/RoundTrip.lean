import KsmbdTools.Rpc.Proofs.Layout
import KsmbdTools.Rpc.Proofs.PipeRequests

/-! Values written one after the other are read back as they were written, whatever
the alignment leaves between them. -/

namespace KsmbdTools.Rpc
open Bytes

/-- The types that have both a write and a read function. -/
inductive NdrType where
  | int8
  | int16
  | int32
  | int64
  | unionInt32
  | bytes (size : Nat)
  | sid
  deriving DecidableEq

inductive NdrValue where
  | int8 (value : UInt8)
  | int16 (value : UInt16)
  | int32 (value : UInt32)
  | int64 (value : UInt64)
  | unionInt32 (value : UInt32)
  | bytes (data : List UInt8)
  | sid (identifier : SmbSid)

namespace NdrValue

def type : NdrValue → NdrType
  | .int8 _ => .int8
  | .int16 _ => .int16
  | .int32 _ => .int32
  | .int64 _ => .int64
  | .unionInt32 _ => .unionInt32
  | .bytes data => .bytes data.length
  | .sid _ => .sid

/-- The calls that write the value. The discriminant of a union is written twice. -/
def items : NdrValue → List Item
  | .int8 value => [.int8 value]
  | .int16 value => [.int16 value]
  | .int32 value => [.int32 value]
  | .int64 value => [.int64 value]
  | .unionInt32 value => [.int32 value, .int32 value]
  | .bytes data => [.bytes data]
  | .sid identifier => identifier.items

def write (platform : Platform) (value : NdrValue) : Ndr Unit := ndrWrite platform value.items

def Populated : NdrValue → Prop
  | .sid identifier => 0 < identifier.numSubauth.val
  | _ => True

/-- The same value. Of an identifier, the sub-authorities it counts are part of it. -/
def Matches : NdrValue → NdrValue → Prop
  | .sid first, .sid second =>
    first.revision = second.revision ∧ first.numSubauth = second.numSubauth ∧ first.authority = second.authority ∧
      first.subAuth.toList.take first.numSubauth = second.subAuth.toList.take second.numSubauth
  | first, second => first = second

end NdrValue

def NdrType.read : NdrType → Ndr NdrValue
  | .int8 => do return .int8 (← ndrReadInt8)
  | .int16 => do return .int16 (← ndrReadInt16)
  | .int32 => do return .int32 (← ndrReadInt32)
  | .int64 => do return .int64 (← ndrReadInt64)
  | .unionInt32 => do return .unionInt32 (← ndrReadUnionInt32)
  | .bytes size => do return .bytes (← ndrReadBytes size)
  | .sid => do return .sid (← smbReadSid)

def Item.blocks (flags : NdrFlags) : Item → Blocks
  | .int8 value => [(1, encode flags.littleEndian 1 value.toNat)]
  | .int16 value => [(2, encode flags.littleEndian 2 value.toNat)]
  | .int32 value => [(4, encode flags.littleEndian 4 value.toNat)]
  | .int64 value => [(8, encode flags.littleEndian 8 value.toNat)]
  | .bytes data => [(2, data)]
  | _ => []

namespace NdrValue

def blocks (flags : NdrFlags) (value : NdrValue) : Blocks := value.items.flatMap (Item.blocks flags)

theorem pieces_eq (platform : Platform) (flags : NdrFlags) (value : NdrValue) :
    value.items.flatMap (Item.pieces platform flags) =
      (value.blocks flags).map fun block => Piece.put block.1 block.2 := by
  have plain : ∀ item ∈ value.items, item.pieces platform flags =
      (item.blocks flags).map fun block => Piece.put block.1 block.2 := by
    intro item member
    cases value with
    | sid identifier =>
      simp only [items, SmbSid.items, List.mem_append, List.mem_cons, List.not_mem_nil, or_false, List.mem_map] at member
      rcases member with ((rfl | rfl) | ⟨_, _, rfl⟩) | ⟨_, _, rfl⟩ <;> rfl
    | unionInt32 =>
      simp only [items, List.mem_cons, List.not_mem_nil, or_false, or_self] at member
      subst member
      rfl
    | _ =>
      simp only [items, List.mem_singleton] at member
      subst member
      rfl
  rw [blocks, List.map_flatMap]
  exact List.flatMap_congr plain

theorem write_lays (platform : Platform) (value : NdrValue) : Lays (value.write platform) (blocks · value) := by
  intro stream after ran
  rw [write, ndrWrite, pieces_eq] at ran
  exact Lays.puts _ stream after ran

end NdrValue

private abbrev intBlock (width value : Nat) (flags : NdrFlags) : Blocks :=
  [(width, encode flags.littleEndian width value)]

theorem ndrReadUnionInt32_decodes (value : UInt32) :
    Decodes ndrReadUnionInt32 (NdrValue.blocks · (.unionInt32 value)) value := by
  show Decodes ndrReadUnionInt32 (fun flags => intBlock 4 value.toNat flags ++ (intBlock 4 value.toNat flags ++ [])) value
  unfold ndrReadUnionInt32
  refine .bind (.int32 value) (.bind (.int32 value) ?_)
  simpa using Decodes.pure value

private def SmbSid.trimmed (sid : SmbSid) : SmbSid :=
  { sid with subAuth := Vector.ofFn fun index : Fin 15 => (sid.subAuth.toList.take sid.numSubauth).getD index 0 }

theorem smbReadSid_decodes {sid : SmbSid} (populated : 0 < sid.numSubauth.val) :
    Decodes smbReadSid (NdrValue.blocks · (.sid sid)) sid.trimmed := by
  have authority := Decodes.collect Decodes.int8 sid.authority.toList
  have subs := Decodes.collect Decodes.int32 (sid.subAuth.toList.take sid.numSubauth)
  have counted : (UInt8.ofNat sid.numSubauth).toNat = sid.numSubauth := by
    rw [UInt8.toNat_ofNat']
    omega
  have length : (sid.subAuth.toList.take sid.numSubauth).length = sid.numSubauth := by
    simp
    omega
  rw [Vector.length_toList] at authority
  rw [length] at subs
  have laid : (NdrValue.blocks · (.sid sid)) = fun flags => intBlock 1 sid.revision.toNat flags ++
      (intBlock 1 (UInt8.ofNat sid.numSubauth).toNat flags ++
        (sid.authority.toList.flatMap (fun value => intBlock 1 value.toNat flags) ++
          ((sid.subAuth.toList.take sid.numSubauth).flatMap (fun value => intBlock 4 value.toNat flags) ++ []))) := by
    funext flags
    simp only [NdrValue.blocks, NdrValue.items, SmbSid.items, List.flatMap_append, List.flatMap_map, List.append_assoc,
      List.append_nil]
    rfl
  rw [laid]
  unfold smbReadSid
  refine .bind (.int8 sid.revision) (.bind (.int8 (UInt8.ofNat sid.numSubauth)) ?_)
  have accepted : ¬(UInt8.ofNat sid.numSubauth = 0 ∨ sidMaxSubAuthorities < (UInt8.ofNat sid.numSubauth).toNat) := by
    rintro (none | many)
    · rw [none] at counted
      exact Nat.ne_of_lt populated counted
    · rw [counted, sidMaxSubAuthorities] at many
      omega
  rw [if_neg accepted]
  simp only [counted]
  refine .bind authority (.bind subs ?_)
  have result : sid.trimmed = {
      revision := sid.revision
      numSubauth := Fin.ofNat 16 sid.numSubauth
      authority := Vector.ofFn fun index : Fin 6 => sid.authority.toList.getD index 0
      subAuth := Vector.ofFn fun index : Fin 15 => (sid.subAuth.toList.take sid.numSubauth).getD index 0 } := by
    have bytes : (Vector.ofFn fun index : Fin 6 => sid.authority.toList.getD index 0) = sid.authority := by
      ext index inside
      simp [List.getD]
    have count : Fin.ofNat 16 sid.numSubauth = sid.numSubauth := Fin.ext (Nat.mod_eq_of_lt sid.numSubauth.isLt)
    rw [bytes, count]
    rfl
  rw [result]
  exact .pure _

theorem SmbSid.trimmed_matches (sid : SmbSid) : NdrValue.Matches (.sid sid.trimmed) (.sid sid) := by
  simp only [NdrValue.Matches, SmbSid.trimmed, true_and]
  have bound := sid.numSubauth.isLt
  apply List.ext_getElem
  · simp
  · intro index inside _
    simp only [List.length_take, Vector.length_toList] at inside
    have counted : index < sid.numSubauth.val := by omega
    have room : index < 15 := by omega
    simp [List.getD, counted, room]

namespace NdrValue

theorem decodes {value : NdrValue} (populated : value.Populated) :
    ∃ read : NdrValue, Decodes value.type.read (blocks · value) read ∧ read.Matches value := by
  cases value with
  | int8 value => exact ⟨_, (Decodes.int8 value).map NdrValue.int8, rfl⟩
  | int16 value => exact ⟨_, (Decodes.int16 value).map NdrValue.int16, rfl⟩
  | int32 value => exact ⟨_, (Decodes.int32 value).map NdrValue.int32, rfl⟩
  | int64 value => exact ⟨_, (Decodes.int64 value).map NdrValue.int64, rfl⟩
  | unionInt32 value => exact ⟨_, (ndrReadUnionInt32_decodes value).map NdrValue.unionInt32, rfl⟩
  | bytes data => exact ⟨_, (Decodes.aligned 2 data).map NdrValue.bytes, rfl⟩
  | sid identifier => exact ⟨_, (smbReadSid_decodes populated).map NdrValue.sid, identifier.trimmed_matches⟩

theorem decodes_all {values : List NdrValue} (populated : ∀ value ∈ values, value.Populated) :
    ∃ read, Decodes ((values.map type).mapM NdrType.read) (fun flags => values.flatMap (blocks flags)) read ∧
      List.Forall₂ Matches read values := by
  induction values with
  | nil => exact ⟨[], .pure [], .nil⟩
  | cons value rest ih =>
    obtain ⟨head, one, same⟩ := decodes (populated value List.mem_cons_self)
    obtain ⟨tail, all, agree⟩ := ih fun other member => populated other (List.mem_cons_of_mem _ member)
    refine ⟨head :: tail, ?_, .cons same agree⟩
    rw [List.map_cons, List.mapM_cons]
    exact .bind one (all.map (head :: ·))

end NdrValue

/-- Writing values and reading their types from the same offset gives the values and ends
at the same offset. -/
theorem ndr_round_trip (platform : Platform) {values : List NdrValue} {stream written : Stream}
    (populated : ∀ value ∈ values, value.Populated)
    (wrote : Proc.each values (NdrValue.write platform) stream = (.ok (), written)) :
    ∃ read after, (values.map NdrValue.type).mapM NdrType.read { written with offset := stream.offset } = (.ok read, after) ∧
      List.Forall₂ NdrValue.Matches read values ∧ after.offset = written.offset := by
  have laid := Lays.each (NdrValue.write_lays platform) values stream written wrote
  obtain ⟨read, decodes, agree⟩ := NdrValue.decodes_all populated
  have stands : Laid written.payload written.payloadSz stream.offset
      (values.flatMap (NdrValue.blocks written.flags)) := by
    rw [laid.moved.flags, laid.moved.payloadSz]
    exact laid.laid
  refine ⟨read, _, decodes { written with offset := stream.offset } stands, agree, ?_⟩
  rw [laid.offset, ← laid.moved.flags]

def Scenario.values : List NdrValue :=
  [.int8 7, .int64 0x0102030405060708, .bytes [1, 2, 3], .int16 515, .sid (smbSid 5 [21, 9]), .unionInt32 77, .int32 8]

def Scenario.paper : Stream where
  payload := []
  payloadSz := 80
  offset := 3
  flags := { littleEndian := false, align4 := false, align8 := true }

theorem ndr_round_trip_values : ∃ written,
    Proc.each Scenario.values (NdrValue.write Scenario.machine.toPlatform) Scenario.paper = (.ok (), written) ∧
    ∃ read after, (Scenario.values.map NdrValue.type).mapM NdrType.read { written with offset := Scenario.paper.offset } =
        (.ok read, after) ∧
      List.Forall₂ NdrValue.Matches read Scenario.values ∧ after.offset = written.offset := by
  have populated : ∀ value ∈ Scenario.values, value.Populated := by
    simp [Scenario.values, NdrValue.Populated, smbSid]
  have ran : (Proc.each Scenario.values (NdrValue.write Scenario.machine.toPlatform) Scenario.paper).1 = .ok () := by
    decide +kernel
  obtain ⟨written, wrote⟩ := Proc.exists_of_ok ran
  exact ⟨written, wrote, ndr_round_trip Scenario.machine.toPlatform populated wrote⟩

end KsmbdTools.Rpc
