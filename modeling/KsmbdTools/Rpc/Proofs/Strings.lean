import KsmbdTools.Charsets
import KsmbdTools.Rpc.Proofs.Layout
import KsmbdTools.Rpc.Proofs.PipeRequests

/-! Strings as the three writers frame them, and as `ndr_read_vstring` reads them. -/

namespace KsmbdTools.Rpc
open Bytes Unicode

theorem NdrFlags.charset_wide {flags : NdrFlags} (wide : flags.asciiString = false) :
    flags.charset = wideCharset flags.littleEndian := by
  rw [charset, wide]
  rfl

def stringBlocks (maximum actual : Nat) (data : List UInt8) (flags : NdrFlags) : Blocks :=
  [(4, encode flags.littleEndian 4 maximum), (4, encode flags.littleEndian 4 0), (4, encode flags.littleEndian 4 actual),
    (2, data)]

theorem laidEnd_stringBlocks (offset maximum actual : Nat) (data : List UInt8) (flags : NdrFlags) :
    laidEnd offset (stringBlocks maximum actual data flags) = alignUp offset 4 + 12 + data.length := by
  simp only [stringBlocks, laidEnd, length_encode]
  simp only [alignUp]
  norm_num
  omega

/-- With room for all of them, the blocks are put and only the offset is aligned behind
them. -/
theorem string_written {maximum actual : Nat} {data : List UInt8} {stream : Stream}
    (room : alignUp stream.offset 4 + 12 + data.length ≤ stream.payloadSz) (behind : Nat) :
    ∃ laid : Stream, stream.LaidOut laid (stringBlocks maximum actual data stream.flags) ∧
      Proc.each (Item.counts stream.flags maximum actual ++ [.put 2 data, .align behind]) Piece.write stream =
        (.ok (), laid.alignOffset behind) ∧
      Proc.each (Item.counts stream.flags maximum actual ++ [.text data behind]) Piece.write stream =
        (.ok (), laid.alignOffset behind) := by
  have fits : laidEnd stream.offset (stringBlocks maximum actual data stream.flags) ≤ stream.payloadSz := by
    rw [laidEnd_stringBlocks]
    exact room
  obtain ⟨laid, stands, ran⟩ := puts_laid fits
  have counts : (stringBlocks maximum actual data stream.flags).map (fun block => Piece.put block.1 block.2) =
      Item.counts stream.flags maximum actual ++ [.put 2 data] := rfl
  rw [counts] at ran
  rw [Proc.each_append] at ran
  obtain ⟨_, counted, first, ran⟩ := Proc.bind_eq_ok.mp ran
  obtain ⟨_, _, put, rest⟩ := Proc.bind_eq_ok.mp ran
  cases rest
  have text : Piece.write (.text data behind) counted = (.ok (), laid.alignOffset behind) := by
    have wrote : ndrPut 2 data counted = (.ok (), laid) := put
    simp only [Piece.write, wrote]
  refine ⟨laid, stands, ?_, ?_⟩
  · rw [Proc.each_append, Proc.bind_ok first]
    exact Proc.bind_ok put
  · rw [Proc.each_append, Proc.bind_ok first]
    exact Proc.bind_ok text

theorem ndrReadVstring_laid {platform : Platform} {count : Nat} {data out : List UInt8} {stream : Stream}
    (fits : count < 256 ^ 4) (nonempty : count ≠ 0) (counted : data.length = stream.flags.charWidth * count)
    (laid : Laid stream.payload stream.payloadSz stream.offset (stringBlocks count count data stream.flags))
    (converted : platform.gconvert .utf8 stream.flags.charset data = some out) :
    ndrReadVstring platform stream = (.ok (out.takeWhile (· != 0)),
      { stream with offset := alignUp (alignUp stream.offset 4 + 12 + data.length) stream.flags.autoAlign }) := by
  obtain ⟨firstRoom, first, secondRoom, second, thirdRoom, third, room, text, -⟩ := laid
  have place : laidEnd stream.offset ((stringBlocks count count data stream.flags).take 3) =
      alignUp stream.offset 4 + 12 := by
    simp only [stringBlocks, List.take_succ_cons, List.take_zero, laidEnd, length_encode]
    simp only [alignUp]
    norm_num
    omega
  have even : alignUp (alignUp stream.offset 4 + 12) 2 = alignUp stream.offset 4 + 12 := by
    simp only [alignUp]
    norm_num
    omega
  have maximum := Decodes.int fits stream ⟨firstRoom, first, trivial⟩
  have start := Decodes.int (show 0 < 256 ^ 4 by decide) { stream with offset := _ } ⟨secondRoom, second, trivial⟩
  have actual := Decodes.int fits { stream with offset := _ } ⟨thirdRoom, third, trivial⟩
  have behind := actual.trans (congrArg (fun offset => (Outcome.ok count, { stream with offset })) place)
  change alignUp (laidEnd stream.offset ((stringBlocks count count data stream.flags).take 3)) 2 + data.length ≤ _ at room
  change ((stream.payload.drop (alignUp (laidEnd stream.offset
    ((stringBlocks count count data stream.flags).take 3)) 2)).take data.length) = data at text
  rw [place, even] at room text
  refine (Proc.bind_ok maximum).trans ((Proc.bind_ok start).trans ((Proc.bind_ok behind).trans ?_))
  have inside : ¬stream.payloadSz < alignUp stream.offset 4 + 12 := by omega
  have enough : ¬(stream.payloadSz - (alignUp stream.offset 4 + 12)) / stream.flags.charWidth < count := by
    have wide : 0 < stream.flags.charWidth := by
      unfold NdrFlags.charWidth
      split <;> decide
    rw [Nat.not_lt, Nat.le_div_iff_mul_le wide, Nat.mul_comm, ← counted]
    omega
  simp only [Nat.lt_irrefl, ↓reduceIte, nonempty]
  rw [Proc.bind_ok (Proc.get_apply _)]
  simp only [if_neg inside, if_neg enough, ← counted, text, converted]
  rfl

def actualCount (stream after : Stream) : Nat :=
  decode stream.littleEndian ((after.payload.drop (alignUp stream.offset 4 + 8)).take 4)

def Framed (stream after : Stream) (text : List Char) : Prop :=
  (after.payload.drop (alignUp stream.offset 4 + 12)).take (utf16 stream.littleEndian text).length =
      utf16 stream.littleEndian text ∧
    2 * actualCount stream after = (utf16 stream.littleEndian text).length

/-- What the three writers and the reader have to agree on. -/
structure SelfConsistent (platform : Platform) (stream : Stream) (text : List Char) : Prop where
  vstring : Framed stream (ndrWrite platform [.vstring (some (utf8 text))] stream).2 (text ++ ['\x00'])
  string : Framed stream (ndrWrite platform [.string (utf8 text)] stream).2 (text ++ ['\x00'])
  lsaString : Framed stream (ndrWrite platform [.lsaString (utf8 text)] stream).2 text
  vstringRead : ndrReadVstring platform
      { (ndrWrite platform [.vstring (some (utf8 text))] stream).2 with offset := stream.offset } =
    (.ok (utf8 text), (ndrWrite platform [.vstring (some (utf8 text))] stream).2)
  stringRead : ndrReadVstring platform
      { (ndrWrite platform [.string (utf8 text)] stream).2 with offset := stream.offset } =
    (.ok (utf8 text), (ndrWrite platform [.string (utf8 text)] stream).2)

/-- Characters, bytes and units are as many, as far as 32 bits can tell. -/
def CountsAgree (text : List Char) : Prop :=
  (text.length + 1) % 2 ^ 32 = units text + 1 ∧ ((utf8 text).length + 1) % 2 ^ 32 = units text + 1 ∧
    (utf8 text).length % 2 ^ 32 = units text

theorem countsAgree_iff {text : List Char} (short : (utf8 text).length + 1 < 2 ^ 32) :
    CountsAgree text ↔ ∀ char ∈ text, char.toNat < 0x80 := by
  have bytes : (utf8 text).length % 2 ^ 32 = (utf8 text).length := Nat.mod_eq_of_lt (by omega)
  rw [CountsAgree, bytes, Nat.mod_eq_of_lt short, ← length_eq_units_iff]
  constructor
  · exact fun agree => agree.2.2
  · intro same
    have ascii := (length_eq_units_iff text).mp same
    have chars := length_of_ascii ascii
    refine ⟨?_, by rw [same], same⟩
    rw [chars, Nat.mod_eq_of_lt (by omega)]

section
variable {platform : Platform} {stream : Stream} {text : List Char}

theorem utf8_terminated (text : List Char) : utf8 (text ++ ['\x00']) = utf8 text ++ [0] := utf8_append text ['\x00']

/-- The blocks a string item stands for, and where the payload is then. -/
structure Wrote (platform : Platform) (item : Item) (stream : Stream) (maximum actual : Nat) (data : List UInt8) : Prop where
  ran : (ndrWrite platform [item] stream).1 = .ok ()
  moved : stream.Moved (ndrWrite platform [item] stream).2
  laid : Laid (ndrWrite platform [item] stream).2.payload stream.payloadSz stream.offset
    (stringBlocks maximum actual data stream.flags)
  offset : (ndrWrite platform [item] stream).2.offset =
    alignUp (alignUp stream.offset 4 + 12 + data.length) stream.flags.autoAlign

private theorem wrote_of {item : Item} {maximum actual : Nat} {data : List UInt8} {laid : Stream}
    (stands : stream.LaidOut laid (stringBlocks maximum actual data stream.flags))
    (ran : ndrWrite platform [item] stream = (.ok (), laid.alignOffset stream.flags.autoAlign)) :
    Wrote platform item stream maximum actual data := by
  have place : laid.offset = alignUp stream.offset 4 + 12 + data.length := by
    rw [stands.offset, laidEnd_stringBlocks]
  refine ⟨by rw [ran], ?_, ?_, ?_⟩
  · rw [ran]
    exact stands.moved.trans ⟨rfl, rfl⟩
  · rw [ran]
    exact stands.laid
  · rw [ran]
    exact congrArg (alignUp · stream.flags.autoAlign) place

theorem Laid.string {memory data : List UInt8} {limit offset maximum actual : Nat} {flags : NdrFlags}
    (laid : Laid memory limit offset (stringBlocks maximum actual data flags)) :
    (memory.drop (alignUp offset 4 + 8)).take 4 = encode flags.littleEndian 4 actual ∧
      (memory.drop (alignUp offset 4 + 12)).take data.length = data := by
  obtain ⟨_, _, _, _, _, third, _, text, -⟩ := laid
  simp only [length_encode] at third text
  have count : alignUp (alignUp (alignUp offset 4 + 4) 4 + 4) 4 = alignUp offset 4 + 8 := by
    simp only [alignUp]
    norm_num
    omega
  have behind : alignUp (alignUp offset 4 + 8 + 4) 2 = alignUp offset 4 + 12 := by
    simp only [alignUp]
    norm_num
    omega
  rw [count] at third text
  rw [behind] at text
  exact ⟨third, text⟩

theorem Wrote.actualCount {item : Item} {maximum actual : Nat} {data : List UInt8}
    (wrote : Wrote platform item stream maximum actual data) :
    actualCount stream (ndrWrite platform [item] stream).2 = actual % 2 ^ 32 := by
  rw [Rpc.actualCount, (Laid.string wrote.laid).1, decode_encode_mod]
  rfl

theorem Wrote.framed_iff {item : Item} {maximum actual : Nat}
    (wrote : Wrote platform item stream maximum actual (utf16 stream.littleEndian text)) :
    Framed stream (ndrWrite platform [item] stream).2 text ↔ actual % 2 ^ 32 = units text := by
  have stands := (Laid.string wrote.laid).2
  rw [Framed, wrote.actualCount, length_utf16]
  constructor
  · rintro ⟨_, same⟩
    exact Nat.eq_of_mul_eq_mul_left (by decide) same
  · intro same
    rw [same, ← length_utf16 stream.littleEndian]
    exact ⟨stands, rfl⟩

theorem Wrote.read (exact : ConvertsText platform) (wide : stream.flags.asciiString = false) (plain : '\x00' ∉ text)
    {item : Item} {count : Nat} (counted : count % 2 ^ 32 = units text + 1)
    (wrote : Wrote platform item stream count count (utf16 stream.littleEndian (text ++ ['\x00']))) :
    ndrReadVstring platform { (ndrWrite platform [item] stream).2 with offset := stream.offset } =
      (.ok (utf8 text), (ndrWrite platform [item] stream).2) := by
  obtain ⟨-, moved, laid, offset⟩ := wrote
  generalize (ndrWrite platform [item] stream).2 = after at *
  have fits : units text + 1 < 2 ^ 32 := counted ▸ Nat.mod_lt _ (by decide)
  have size : (utf16 stream.littleEndian (text ++ ['\x00'])).length = after.flags.charWidth * (units text + 1) := by
    rw [length_utf16, units_append, moved.flags, NdrFlags.charWidth, wide]
    rfl
  have truncated : stringBlocks count count (utf16 stream.littleEndian (text ++ ['\x00'])) stream.flags =
      stringBlocks (units text + 1) (units text + 1) (utf16 stream.littleEndian (text ++ ['\x00'])) stream.flags := by
    have stored := encode_mod stream.flags.littleEndian 4 count
    rw [show (256 : Nat) ^ 4 = 2 ^ 32 from rfl, counted] at stored
    simp only [stringBlocks, stored]
  have stands : Laid after.payload after.payloadSz stream.offset
      (stringBlocks (units text + 1) (units text + 1) (utf16 stream.littleEndian (text ++ ['\x00'])) after.flags) := by
    rw [moved.payloadSz, moved.flags, ← truncated]
    exact laid
  have converted : platform.gconvert .utf8 after.flags.charset (utf16 stream.littleEndian (text ++ ['\x00'])) =
      some (utf8 text ++ [0]) := by
    rw [moved.flags, ← utf8_terminated, NdrFlags.charset_wide wide]
    exact exact.fromWide stream.littleEndian (text ++ ['\x00'])
  have read :=
    @ndrReadVstring_laid platform (units text + 1) (utf16 stream.littleEndian (text ++ ['\x00'])) (utf8 text ++ [0])
    { after with offset := stream.offset } fits (Nat.succ_ne_zero _) size stands converted
  have cut : (utf8 text ++ [0]).takeWhile (· != 0) = utf8 text := by
    have clean := zero_not_mem_utf8 plain
    rw [List.takeWhile_append_of_pos]
    · simp
    · intro byte member
      simp only [bne_iff_ne]
      rintro rfl
      exact clean member
  rw [read, cut]
  have same : alignUp (alignUp stream.offset 4 + 12 + (utf16 stream.littleEndian (text ++ ['\x00'])).length)
      after.flags.autoAlign = after.offset := by
    rw [offset, moved.flags]
  simp only [same]

variable (exact : ConvertsText platform) (wide : stream.flags.asciiString = false)
  (room : alignUp stream.offset 4 + 12 + (utf16 stream.littleEndian (text ++ ['\x00'])).length ≤ stream.payloadSz)

include exact wide room in
theorem vstring_wrote : Wrote platform (.vstring (some (utf8 text))) stream (text.length + 1) (text.length + 1)
    (utf16 stream.littleEndian (text ++ ['\x00'])) := by
  obtain ⟨laid, stands, ran, -⟩ := string_written room stream.flags.autoAlign
  refine wrote_of stands ?_
  have converted := exact.toWide stream.littleEndian (text ++ ['\x00'])
  rw [utf8_terminated, ← NdrFlags.charset_wide wide] at converted
  simp only [ndrWrite, List.flatMap_cons, List.flatMap_nil, List.append_nil, Item.pieces, Option.getD_some, converted,
    exact.strlen]
  exact ran

include exact wide room in
theorem string_wrote : Wrote platform (.string (utf8 text)) stream ((utf8 text).length + 1) ((utf8 text).length + 1)
    (utf16 stream.littleEndian (text ++ ['\x00'])) := by
  obtain ⟨laid, stands, -, ran⟩ := string_written room stream.flags.autoAlign
  refine wrote_of stands ?_
  have converted := exact.toWide stream.littleEndian (text ++ ['\x00'])
  rw [utf8_terminated, ← NdrFlags.charset_wide wide] at converted
  simp only [ndrWrite, List.flatMap_cons, List.flatMap_nil, List.append_nil, Item.pieces, converted]
  exact ran

include exact wide room in
theorem lsaString_wrote : Wrote platform (.lsaString (utf8 text)) stream ((utf8 text).length + 1) (utf8 text).length
    (utf16 stream.littleEndian text) := by
  have less : (utf16 stream.littleEndian text).length ≤ (utf16 stream.littleEndian (text ++ ['\x00'])).length := by
    rw [length_utf16, length_utf16, units_append]
    omega
  obtain ⟨laid, stands, -, ran⟩ := string_written (Nat.le_trans (Nat.add_le_add_left less _) room) stream.flags.autoAlign
  refine wrote_of stands ?_
  simp only [ndrWrite, List.flatMap_cons, List.flatMap_nil, List.append_nil, Item.pieces, NdrFlags.charset_wide wide,
    exact.toWide stream.littleEndian text]
  exact ran

include exact wide room in
theorem selfConsistent_iff (plain : '\x00' ∉ text) : SelfConsistent platform stream text ↔ CountsAgree text := by
  have vstring := vstring_wrote exact wide room
  have string := string_wrote exact wide room
  have lsaString := lsaString_wrote exact wide room
  have terminated : units (text ++ ['\x00']) = units text + 1 := units_append text ['\x00']
  constructor
  · intro consistent
    have first := vstring.framed_iff.mp consistent.vstring
    have second := string.framed_iff.mp consistent.string
    rw [terminated] at first second
    exact ⟨first, second, lsaString.framed_iff.mp consistent.lsaString⟩
  · rintro ⟨chars, bytes, short⟩
    exact {
      vstring := vstring.framed_iff.mpr (chars.trans terminated.symm)
      string := string.framed_iff.mpr (bytes.trans terminated.symm)
      lsaString := lsaString.framed_iff.mpr short
      vstringRead := vstring.read exact wide plain chars
      stringRead := string.read exact wide plain bytes }

include exact wide room in
/-- Given room, all three writers succeed. They agree with the reader exactly if their
counts are the same number. For strings of ordinary length that means that the string is
ASCII. -/
theorem string_framing (plain : '\x00' ∉ text) :
    ((ndrWrite platform [.vstring (some (utf8 text))] stream).1 = .ok () ∧
      (ndrWrite platform [.string (utf8 text)] stream).1 = .ok () ∧
      (ndrWrite platform [.lsaString (utf8 text)] stream).1 = .ok ()) ∧
    (SelfConsistent platform stream text ↔ CountsAgree text) ∧
    ((utf8 text).length + 1 < 2 ^ 32 →
      (SelfConsistent platform stream text ↔ ∀ char ∈ text, char.toNat < 0x80)) := by
  have agree := selfConsistent_iff exact wide room plain
  refine ⟨⟨(vstring_wrote exact wide room).ran, (string_wrote exact wide room).ran, (lsaString_wrote exact wide room).ran⟩,
    agree, ?_⟩
  intro short
  rw [agree, countsAgree_iff short]

end

/-- An empty buffer of 64 bytes, in the order the daemon starts with. -/
def Scenario.buffer : Stream where
  payload := []
  payloadSz := 64
  flags := { littleEndian := true }

theorem string_framing_ascii :
    SelfConsistent Scenario.machine.toPlatform.withText Scenario.buffer ['a', 'b'] := by
  have room : alignUp Scenario.buffer.offset 4 + 12 +
      (utf16 Scenario.buffer.littleEndian (['a', 'b'] ++ ['\x00'])).length ≤ Scenario.buffer.payloadSz := by decide
  have framing := string_framing Scenario.machine.toPlatform.withText_converts rfl room (by decide)
  exact (framing.2.2 (by decide)).mpr (List.forall_mem_cons.mpr ⟨by decide, List.forall_mem_singleton.mpr (by decide)⟩)

/-- For a letter of two bytes `ndr_write_string` counts three units where there are two;
for a character of the supplementary planes `ndr_write_vstring` counts two where there
are three. -/
theorem string_miscounted :
    let platform := Scenario.machine.toPlatform.withText
    let string := ndrWrite platform [.string (utf8 ['é'])] Scenario.buffer
    let vstring := ndrWrite platform [.vstring (some (utf8 ['😀']))] Scenario.buffer
    (string.1 = .ok () ∧ actualCount Scenario.buffer string.2 = 3 ∧ units ['é', '\x00'] = 2 ∧
      ¬SelfConsistent platform Scenario.buffer ['é']) ∧
    (vstring.1 = .ok () ∧ actualCount Scenario.buffer vstring.2 = 2 ∧ units ['😀', '\x00'] = 3 ∧
      ¬SelfConsistent platform Scenario.buffer ['😀']) := by
  have exact := Scenario.machine.toPlatform.withText_converts
  have room : ∀ char ∈ ['é', '😀'], alignUp Scenario.buffer.offset 4 + 12 +
      (utf16 Scenario.buffer.littleEndian ([char] ++ ['\x00'])).length ≤ Scenario.buffer.payloadSz :=
    List.forall_mem_cons.mpr ⟨by decide, List.forall_mem_singleton.mpr (by decide)⟩
  have letter := string_wrote exact rfl (room 'é' (by decide))
  have face := vstring_wrote exact rfl (room '😀' (by decide))
  refine ⟨⟨letter.ran, letter.actualCount, by decide, ?_⟩, ⟨face.ran, face.actualCount, by decide, ?_⟩⟩
  · rw [selfConsistent_iff exact rfl (room 'é' (by decide)) (by decide), countsAgree_iff (by decide)]
    exact fun ascii => absurd (ascii 'é' (by decide)) (by decide)
  · rw [selfConsistent_iff exact rfl (room '😀' (by decide)) (by decide), countsAgree_iff (by decide)]
    exact fun ascii => absurd (ascii '😀' (by decide)) (by decide)

end KsmbdTools.Rpc
