import KsmbdTools.Rpc.Proofs.Writing

/-! What write calls leave in the payload, and what read calls make of it. Both are
told by the blocks of bytes that stand there, each at its alignment. -/

namespace KsmbdTools.Rpc
open Bytes

abbrev Blocks := List (Nat × List UInt8)

/-- The second stream is the first with these blocks put behind its offset. -/
structure Stream.LaidOut (before after : Stream) (blocks : Blocks) : Prop where
  moved : before.Moved after
  offset : after.offset = laidEnd before.offset blocks
  laid : Laid after.payload before.payloadSz before.offset blocks
  inside : blocks ≠ [] → after.offset ≤ after.payload.length
  grown : before.payload.length ≤ after.payload.length
  kept : ∀ count, count ≤ before.offset → count ≤ before.payload.length →
    after.payload.take count = before.payload.take count

namespace Stream.LaidOut

theorem refl (stream : Stream) : stream.LaidOut stream [] :=
  ⟨.refl stream, rfl, trivial, fun some => absurd rfl some, Nat.le_refl _, fun _ _ _ => rfl⟩

theorem trans {before middle after : Stream} {first second : Blocks} (earlier : before.LaidOut middle first)
    (later : middle.LaidOut after second) : before.LaidOut after (first ++ second) where
  moved := earlier.moved.trans later.moved
  offset := by rw [later.offset, earlier.offset, laidEnd_append]
  laid := by
    refine Laid.append_iff.mpr ⟨?_, ?_⟩
    · cases first with
      | nil => trivial
      | cons block rest =>
        -- What the first part put ends where the second part starts to write.
        refine Laid.congr ?_ earlier.laid
        rw [← earlier.offset]
        exact later.kept _ (Nat.le_refl _) (earlier.inside (List.cons_ne_nil _ _))
    · rw [← earlier.offset, ← earlier.moved.payloadSz]
      exact later.laid
  inside := by
    intro some
    cases second with
    | nil =>
      have started : first ≠ [] := by simpa using some
      rw [later.offset]
      exact Nat.le_trans (earlier.inside started) later.grown
    | cons block rest => exact later.inside (List.cons_ne_nil _ _)
  grown := Nat.le_trans earlier.grown later.grown
  kept := by
    intro count before inside
    have reached : count ≤ middle.offset := by
      rw [earlier.offset]
      exact Nat.le_trans before (le_laidEnd _ _)
    exact (later.kept count reached (Nat.le_trans inside earlier.grown)).trans (earlier.kept count before inside)

end Stream.LaidOut

/-- A program that has put these blocks behind its start if it runs to its end. -/
def Lays (program : Ndr Unit) (blocks : NdrFlags → Blocks) : Prop :=
  ∀ stream after, program stream = (.ok (), after) → stream.LaidOut after (blocks stream.flags)

namespace Lays

theorem put (width : Nat) (data : NdrFlags → List UInt8) :
    Lays (fun stream => ndrPut width (data stream.flags) stream) fun flags => [(width, data flags)] := by
  intro stream after wrote
  have ran : ndrPut width (data stream.flags) stream = (.ok (), after) := wrote
  rcases Nat.lt_or_ge stream.payloadSz (alignUp stream.offset width + (data stream.flags).length) with short | room
  · rw [ndrPut_full short] at ran
    cases ran
  rw [ndrPut_room room] at ran
  cases ran
  have length := length_overlay stream.payload (alignUp stream.offset width) (data stream.flags)
  exact {
    moved := ⟨rfl, rfl⟩
    offset := rfl
    laid := ⟨room, drop_overlay _ _ _, trivial⟩
    inside := fun _ => by rw [length]; exact Nat.le_max_right _ _
    grown := by rw [length]; exact Nat.le_max_left _ _
    kept := fun count before inside => take_overlay_before _ (Nat.le_trans before (le_alignUp _ _)) inside }

theorem bind {first second : Ndr Unit} {blocks more : NdrFlags → Blocks} (start : Lays first blocks)
    (rest : Lays second more) : Lays (first >>= fun _ => second) fun flags => blocks flags ++ more flags := by
  intro stream after ran
  obtain ⟨_, middle, wrote, ran⟩ := Proc.bind_eq_ok.mp ran
  have earlier := start stream middle wrote
  have later := rest middle after ran
  rw [earlier.moved.flags] at later
  exact earlier.trans later

theorem each {α : Type} {body : α → Ndr Unit} {blocks : NdrFlags → α → Blocks}
    (one : ∀ value, Lays (body value) (blocks · value)) (values : List α) :
    Lays (Proc.each values body) fun flags => values.flatMap (blocks flags) := by
  induction values with
  | nil =>
    intro stream after ran
    cases ran
    exact .refl stream
  | cons value rest ih => exact bind (one value) ih

theorem puts (blocks : Blocks) :
    Lays (Proc.each (blocks.map fun block => Piece.put block.1 block.2) Piece.write) fun _ => blocks := by
  induction blocks with
  | nil =>
    intro stream after ran
    cases ran
    exact .refl stream
  | cons block rest ih => exact bind (put block.1 fun _ => block.2) ih

end Lays

theorem Reach.pieces_puts {limit offset : Nat} {blocks : Blocks} (fits : laidEnd offset blocks ≤ limit) :
    Reach.pieces limit offset (blocks.map fun block => Piece.put block.1 block.2) = ⟨laidEnd offset blocks, true⟩ := by
  induction blocks generalizing offset with
  | nil => rfl
  | cons block rest ih =>
    have room : alignUp offset block.1 + block.2.length ≤ limit := Nat.le_trans (le_laidEnd _ rest) fits
    simp only [List.map_cons, Reach.pieces, Reach.piece, Reach.put, if_pos room, ↓reduceIte]
    exact ih fits

theorem puts_laid {blocks : Blocks} {stream : Stream} (fits : laidEnd stream.offset blocks ≤ stream.payloadSz) :
    ∃ laid : Stream, stream.LaidOut laid blocks ∧
      Proc.each (blocks.map fun block => Piece.put block.1 block.2) Piece.write stream = (.ok (), laid) := by
  obtain ⟨ran, _, _⟩ := pieces_writes (blocks.map fun block => Piece.put block.1 block.2) stream
  rw [Reach.pieces_puts fits] at ran
  exact ⟨_, Lays.puts blocks stream _ ran, ran⟩

/-! The payload as one text, where writing starts from nothing and only goes forward. -/

/-- The bytes up to the offset are these; those not written yet are zero. -/
structure Stream.Filled (bytes : List UInt8) (stream : Stream) : Prop where
  text : stream.payload ++ List.replicate (stream.offset - stream.payload.length) 0 = bytes
  offset : stream.offset = bytes.length

/-- What an integer, a block, an alignment or a gap makes of the text. -/
def Piece.append (bytes : List UInt8) : Piece → List UInt8
  | .put width data => padTo bytes width ++ data
  | .align width => padTo bytes width
  | .skip count => bytes ++ List.replicate count 0
  | _ => bytes

def Piece.plain : Piece → Bool
  | .put .. | .align _ | .skip _ => true
  | _ => false

/-- Integers, blocks and moves of the offset, but no strings and no references. -/
def Item.plain : Item → Bool
  | .int8 _ | .int16 _ | .int32 _ | .int64 _ | .bytes _ | .align _ | .skip _ => true
  | _ => false

theorem Item.plain_pieces {items : List Item} (plain : items.all Item.plain = true) (platform : Platform)
    (flags : NdrFlags) : ∀ piece ∈ items.flatMap (Item.pieces platform flags), piece.plain = true := by
  intro piece member
  obtain ⟨item, among, here⟩ := List.mem_flatMap.mp member
  have one := List.all_eq_true.mp plain item among
  cases item with
  | ref => cases one
  | vstring str => cases one
  | string str => cases one
  | lsaString str => cases one
  | _ =>
    simp only [Item.pieces, Item.int, List.mem_singleton] at here
    subst here
    rfl

namespace Stream.Filled
variable {bytes : List UInt8} {stream after : Stream}

theorem gap (empty : stream.payload = []) : stream.Filled (List.replicate stream.offset 0) :=
  ⟨by simp [empty], by simp⟩

private theorem payload_le (filled : stream.Filled bytes) : stream.payload.length ≤ stream.offset := by
  have length := congrArg List.length filled.text
  have offset := filled.offset
  simp only [List.length_append, List.length_replicate] at length
  omega

private theorem text_to {place : Nat} (filled : stream.Filled bytes) (later : stream.offset ≤ place) :
    stream.payload ++ List.replicate (place - stream.payload.length) 0 =
      bytes ++ List.replicate (place - bytes.length) 0 := by
  have inside := filled.payload_le
  rw [← filled.offset, ← filled.text, List.append_assoc, List.replicate_append_replicate]
  congr 2
  omega

theorem put {width : Nat} {data : List UInt8} (filled : stream.Filled bytes)
    (ran : ndrPut width data stream = (.ok (), after)) :
    after.Filled (padTo bytes width ++ data) ∧ after.payload = padTo bytes width ++ data := by
  rcases Nat.lt_or_ge stream.payloadSz (alignUp stream.offset width + data.length) with short | room
  · rw [ndrPut_full short] at ran
    cases ran
  rw [ndrPut_room room] at ran
  cases ran
  have inside := filled.payload_le
  have later := le_alignUp stream.offset width
  have payload : overlay stream.payload (alignUp stream.offset width) data = padTo bytes width ++ data := by
    rw [overlay, List.drop_of_length_le (by omega), List.append_nil, List.take_of_length_le, filled.text_to later, padTo,
      filled.offset]
    simp only [List.length_append, List.length_replicate]
    omega
  have length : alignUp stream.offset width + data.length = (padTo bytes width ++ data).length := by
    rw [List.length_append, length_padTo, filled.offset]
  refine ⟨⟨?_, length⟩, payload⟩
  rw [payload, length, Nat.sub_self, List.replicate_zero, List.append_nil]

theorem piece {piece : Piece} (plain : piece.plain = true) (filled : stream.Filled bytes)
    (ran : piece.write stream = (.ok (), after)) : after.Filled (piece.append bytes) := by
  cases piece with
  | put width data => exact (filled.put ran).1
  | align width =>
    cases ran
    refine ⟨?_, ?_⟩
    · show stream.payload ++ List.replicate (alignUp stream.offset width - stream.payload.length) 0 = _
      rw [filled.text_to (le_alignUp _ _), filled.offset]
      rfl
    · show alignUp stream.offset width = (padTo bytes width).length
      rw [length_padTo, filled.offset]
  | skip count =>
    cases ran
    refine ⟨?_, ?_⟩
    · show stream.payload ++ List.replicate (stream.offset + count - stream.payload.length) 0 = _
      rw [filled.text_to (Nat.le_add_right _ _), filled.offset, Nat.add_sub_cancel_left]
      rfl
    · show stream.offset + count = (bytes ++ List.replicate count 0).length
      simp [filled.offset]
  | text data behind => cases plain
  | ref => cases plain
  | unconverted => cases plain

theorem pieces {list : List Piece} (plain : ∀ piece ∈ list, piece.plain = true) (filled : stream.Filled bytes)
    (ran : Proc.each list Piece.write stream = (.ok (), after)) : after.Filled (list.foldl Piece.append bytes) := by
  induction list generalizing stream bytes with
  | nil =>
    cases ran
    exact filled
  | cons head rest ih =>
    obtain ⟨first, others⟩ := List.forall_mem_cons.mp plain
    obtain ⟨_, middle, wrote, ran⟩ := Proc.bind_eq_ok.mp ran
    exact ih others (filled.piece first wrote) ran

theorem ended {list : List Piece} {width : Nat} {data : List UInt8} (plain : ∀ piece ∈ list, piece.plain = true)
    (filled : stream.Filled bytes) (ran : Proc.each (list ++ [Piece.put width data]) Piece.write stream = (.ok (), after)) :
    after.payload = (list ++ [Piece.put width data]).foldl Piece.append bytes ∧ after.offset = after.payload.length := by
  rw [Proc.each_append] at ran
  obtain ⟨_, middle, earlier, ran⟩ := Proc.bind_eq_ok.mp ran
  obtain ⟨_, last, wrote, ran⟩ := Proc.bind_eq_ok.mp ran
  cases ran
  obtain ⟨whole, payload⟩ := (filled.pieces plain earlier).put wrote
  rw [List.foldl_append]
  exact ⟨payload, whole.offset.trans (congrArg List.length payload).symm⟩

end Stream.Filled

def Contiguous : Nat → List (Nat × List UInt8) → Prop
  | _, [] => True
  | place, (width, data) :: rest => alignUp place width = place ∧ Contiguous (place + data.length) rest

theorem puts_ok {list : List (Nat × List UInt8)} {stream after : Stream} (contiguous : Contiguous stream.offset list)
    (inside : stream.offset ≤ stream.payload.length)
    (ran : Proc.each (list.map fun put => Piece.put put.1 put.2) Piece.write stream = (.ok (), after)) :
    after.payload.take after.offset = stream.payload.take stream.offset ++ list.flatMap (·.2) ∧
      after.offset = stream.offset + (list.flatMap (·.2)).length ∧
      after.payload.drop after.offset = stream.payload.drop after.offset := by
  induction list generalizing stream with
  | nil =>
    cases ran
    simp
  | cons put rest ih =>
    obtain ⟨width, data⟩ := put
    obtain ⟨aligned, behind⟩ := contiguous
    obtain ⟨_, middle, wrote, ran⟩ := Proc.bind_eq_ok.mp ran
    rcases Nat.lt_or_ge stream.payloadSz (alignUp stream.offset width + data.length) with short | room
    · rw [show Piece.write (.put width data) stream = _ from ndrPut_full short] at wrote
      cases wrote
    rw [show Piece.write (.put width data) stream = _ from ndrPut_room room, aligned] at wrote
    cases wrote
    have length := length_overlay stream.payload stream.offset data
    obtain ⟨taken, offset, left⟩ := ih behind (by rw [length]; exact Nat.le_max_right _ _) ran
    refine ⟨?_, ?_, left.trans (drop_overlay_behind (by rw [offset]; exact Nat.le_add_right _ _))⟩
    · rw [taken, take_overlay data inside]
      simp
    · rw [offset]
      simp [Nat.add_assoc]

theorem foldl_puts {text : List UInt8} {list : List (Nat × List UInt8)} (contiguous : Contiguous text.length list) :
    (list.map fun put => Piece.put put.1 put.2).foldl Piece.append text = text ++ list.flatMap (·.2) := by
  induction list generalizing text with
  | nil => simp
  | cons put rest ih =>
    obtain ⟨aligned, behind⟩ := contiguous
    have added : Piece.append text (.put put.1 put.2) = text ++ put.2 := by
      rw [Piece.append, padTo, aligned, Nat.sub_self, List.replicate_zero, List.append_nil]
    rw [List.map_cons, List.foldl_cons, added, ih (by rwa [List.length_append]), List.flatMap_cons, List.append_assoc]

theorem Reach.pieces_contiguous {limit offset : Nat} {list : List (Nat × List UInt8)} (contiguous : Contiguous offset list)
    (room : offset + (list.flatMap (·.2)).length ≤ limit) :
    Reach.pieces limit offset (list.map fun put => Piece.put put.1 put.2) =
      ⟨offset + (list.flatMap (·.2)).length, true⟩ := by
  induction list generalizing offset with
  | nil => rfl
  | cons put rest ih =>
    obtain ⟨aligned, behind⟩ := contiguous
    simp only [List.flatMap_cons, List.length_append] at room ⊢
    have fits : offset + put.2.length ≤ limit := by omega
    simp only [List.map_cons, Reach.pieces, Reach.piece, Reach.put, aligned, if_pos fits, ↓reduceIte]
    rw [ih behind (by omega), Nat.add_assoc]

/-- A program that reads this value where these blocks stand, and moves behind them. -/
def Decodes {α : Type} (program : Ndr α) (blocks : NdrFlags → Blocks) (value : α) : Prop :=
  ∀ stream : Stream, Laid stream.payload stream.payloadSz stream.offset (blocks stream.flags) →
    program stream = (.ok value, { stream with offset := laidEnd stream.offset (blocks stream.flags) })

namespace Decodes
variable {α β : Type}

theorem pure (value : α) : Decodes (Pure.pure value) (fun _ => []) value := fun _ _ => rfl

theorem bind {first : Ndr α} {next : α → Ndr β} {blocks more : NdrFlags → Blocks} {value : α} {last : β}
    (start : Decodes first blocks value) (rest : Decodes (next value) more last) :
    Decodes (first >>= next) (fun flags => blocks flags ++ more flags) last := by
  intro stream laid
  obtain ⟨here, behind⟩ := Laid.append_iff.mp laid
  rw [Proc.bind_ok (start stream here), laidEnd_append]
  exact rest { stream with offset := laidEnd stream.offset (blocks stream.flags) } behind

theorem map {first : Ndr α} {blocks : NdrFlags → Blocks} {value : α} (f : α → β) (start : Decodes first blocks value) :
    Decodes (do return f (← first)) blocks (f value) := by
  have whole : Decodes (first >>= fun result => Pure.pure (f result)) _ _ := start.bind (pure (f value))
  simpa only [List.append_nil] using whole

theorem aligned (width : Nat) (data : List UInt8) :
    Decodes (ndrReadAligned width data.length) (fun _ => [(width, data)]) data := by
  rintro stream ⟨room, here, -⟩
  rw [ndrReadAligned]
  simp only [Stream.alignOffset, if_neg (Nat.not_lt.mpr room), here]
  rfl

theorem int {width value : Nat} (fits : value < 256 ^ width) :
    Decodes (ndrReadInt width) (fun flags => [(width, encode flags.littleEndian width value)]) value := by
  intro stream laid
  have taken := aligned width (encode stream.flags.littleEndian width value) stream laid
  rw [length_encode] at taken
  rw [ndrReadInt, Proc.bind_ok taken]
  show (Outcome.ok (decode stream.flags.littleEndian _), _) = _
  rw [decode_encode _ fits]

theorem int8 (value : UInt8) :
    Decodes ndrReadInt8 (fun flags => [(1, encode flags.littleEndian 1 value.toNat)]) value := by
  have fits : value.toNat < 256 ^ 1 := value.toNat_lt
  have read := (int fits).map UInt8.ofNat
  rwa [UInt8.ofNat_toNat] at read

theorem int16 (value : UInt16) :
    Decodes ndrReadInt16 (fun flags => [(2, encode flags.littleEndian 2 value.toNat)]) value := by
  have fits : value.toNat < 256 ^ 2 := value.toNat_lt
  have read := (int fits).map UInt16.ofNat
  rwa [UInt16.ofNat_toNat] at read

theorem int32 (value : UInt32) :
    Decodes ndrReadInt32 (fun flags => [(4, encode flags.littleEndian 4 value.toNat)]) value := by
  have fits : value.toNat < 256 ^ 4 := value.toNat_lt
  have read := (int fits).map UInt32.ofNat
  rwa [UInt32.ofNat_toNat] at read

theorem int64 (value : UInt64) :
    Decodes ndrReadInt64 (fun flags => [(8, encode flags.littleEndian 8 value.toNat)]) value := by
  have fits : value.toNat < 256 ^ 8 := value.toNat_lt
  have read := (int fits).map UInt64.ofNat
  rwa [UInt64.ofNat_toNat] at read

theorem collect {program : Ndr α} {blocks : NdrFlags → α → Blocks} (one : ∀ value, Decodes program (blocks · value) value)
    (values : List α) :
    Decodes (Proc.collect values.length program) (fun flags => values.flatMap (blocks flags)) values := by
  induction values with
  | nil => exact pure []
  | cons value rest ih =>
    have read : Decodes (program >>= fun head => do return head :: (← Proc.collect rest.length program)) _ _ :=
      (one value).bind (ih.map (value :: ·))
    exact read

end Decodes

end KsmbdTools.Rpc
