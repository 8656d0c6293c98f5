import KsmbdTools.Rpc.Proofs.Bodies
import KsmbdTools.Rpc.Proofs.Wire

/-! What parsing a PDU leaves alone. Reading moves the offset of the stream and
nothing else of it; behind the header, nothing of the pipe's state but the
request and the context numbers changes. -/

namespace KsmbdTools.Rpc
open Management Proc

namespace Stream

def Steady (assertion : Stream → Prop) : Prop := ∀ stream offset, assertion stream → assertion { stream with offset }

variable {assertion : Stream → Prop} (steady : Steady assertion)
include steady

theorem ndrReadAligned_keeps (width size : Nat) : Preserves assertion (ndrReadAligned width size) := by
  intro stream holds
  simp only [ndrReadAligned]
  split
  next => exact steady stream _ holds
  next => exact steady stream _ holds

theorem ndrReadInt_keeps (width : Nat) : Preserves assertion (ndrReadInt width) :=
  .bind (ndrReadAligned_keeps steady _ _) fun _ => .bind .get fun _ => .pure _

theorem ndrReadInt32_keeps : Preserves assertion ndrReadInt32 := .bind (ndrReadInt_keeps steady 4) fun _ => .pure _

theorem ndrReadInt16_keeps : Preserves assertion ndrReadInt16 := .bind (ndrReadInt_keeps steady 2) fun _ => .pure _

theorem ndrReadInt8_keeps : Preserves assertion ndrReadInt8 := .bind (ndrReadInt_keeps steady 1) fun _ => .pure _

theorem ndrReadUnionInt32_keeps : Preserves assertion ndrReadUnionInt32 :=
  .bind (ndrReadInt32_keeps steady) fun _ => .bind (ndrReadInt32_keeps steady) fun _ =>
    .guard (.pure _)

theorem ndrReadVstring_keeps (platform : Platform) : Preserves assertion (ndrReadVstring platform) := by
  refine .bind (ndrReadInt_keeps steady 4) fun _ => .bind (ndrReadInt_keeps steady 4) fun _ =>
    .bind (ndrReadInt_keeps steady 4) fun _ => .guard (.ite (.pure _) (.bind .get fun stream => .guard (.guard ?_)))
  dsimp only
  split
  next => exact .stop ()
  next => exact .bind (.modify fun stream holds => steady stream _ holds) fun _ => .pure _

theorem ndrReadSyntax_keeps : Preserves assertion ndrReadSyntax :=
  .bind (ndrReadInt32_keeps steady) fun _ => .bind (ndrReadInt16_keeps steady) fun _ =>
    .bind (ndrReadInt16_keeps steady) fun _ => .bind (ndrReadAligned_keeps steady _ _) fun _ =>
    .bind (ndrReadAligned_keeps steady _ _) fun _ => .bind (ndrReadInt16_keeps steady) fun _ =>
    .bind (ndrReadInt16_keeps steady) fun _ => .pure _

theorem ndrReadContext_keeps : Preserves assertion ndrReadContext :=
  .bind (ndrReadInt16_keeps steady) fun _ => .bind (ndrReadInt8_keeps steady) fun _ => .guard <|
    .bind (ndrReadSyntax_keeps steady) fun _ => .bind (ndrReadSyntax_keeps steady) fun _ =>
    .bind (.collect (ndrReadSyntax_keeps steady)) fun _ => .pure _

theorem smbReadSid_keeps : Preserves assertion smbReadSid :=
  .bind (ndrReadInt8_keeps steady) fun _ => .bind (ndrReadInt8_keeps steady) fun _ => .guard <|
    .bind (.collect (ndrReadInt8_keeps steady)) fun _ => .bind (.collect (ndrReadInt32_keeps steady)) fun _ => .pure _

end Stream

theorem Call.ndr_keeps {α : Type} {assertion : Stream → Prop} {code : Status} {program : Ndr α}
    (valid : Preserves assertion program) : Preserves (OnStream assertion) (Call.ndr code program) :=
  .orStop (.zoom valid fun _ _ => rfl)

/-- An assertion that nothing breaks that is filled in of a request. -/
structure Call.Fills (machine : Machine) (assertion : Call → Prop) : Prop where
  req : ∀ call req, assertion call → assertion { call with req }
  strings : ∀ call strings, assertion call → assertion { call with store := { call.store with strings } }
  int16 : ∀ code, Preserves assertion (Call.ndr code ndrReadInt16)
  int32 : ∀ code, Preserves assertion (Call.ndr code ndrReadInt32)
  unionInt32 : ∀ code, Preserves assertion (Call.ndr code ndrReadUnionInt32)
  bytes : ∀ code size, Preserves assertion (Call.ndr code (ndrReadBytes size))
  vstring : ∀ code, Preserves assertion (Call.ndr code (ndrReadVstring machine.toPlatform))

/-- An assertion that no read of an invoke handler breaks. -/
structure Call.Reads (machine : Machine) (assertion : Call → Prop) :
    Prop extends Apart assertion, Fills machine assertion where
  sid : ∀ code, Preserves assertion (Call.ndr code smbReadSid)

theorem Call.Reads.onStream {machine : Machine} {assertion : Stream → Prop} (steady : Stream.Steady assertion) :
    Reads machine (OnStream assertion) :=
  { OnStream.apart assertion with
    int16 := fun _ => ndr_keeps (Stream.ndrReadInt16_keeps steady)
    int32 := fun _ => ndr_keeps (Stream.ndrReadInt32_keeps steady)
    unionInt32 := fun _ => ndr_keeps (Stream.ndrReadUnionInt32_keeps steady)
    bytes := fun _ _ => ndr_keeps (Stream.ndrReadAligned_keeps steady _ _)
    vstring := fun _ => ndr_keeps (Stream.ndrReadVstring_keeps steady _)
    sid := fun _ => ndr_keeps (Stream.smbReadSid_keeps steady) }

section
variable {machine : Machine} {assertion : Call → Prop}
  (stream : ∀ call stream, assertion call → assertion { call with stream })
include stream

private theorem ndr_streamless {α : Type} {code : Status} (program : Ndr α) : Preserves assertion (Call.ndr code program) :=
  .orStop fun call holds => stream call _ holds

theorem Call.Fills.ofTables (req : ∀ call req, assertion call → assertion { call with req })
    (strings : ∀ call strings, assertion call → assertion { call with store := { call.store with strings } }) :
    Fills machine assertion :=
  ⟨req, strings, fun _ => ndr_streamless stream _, fun _ => ndr_streamless stream _, fun _ => ndr_streamless stream _,
    fun _ _ => ndr_streamless stream _, fun _ => ndr_streamless stream _⟩

theorem Call.Reads.ofTables (apart : Apart assertion) : Reads machine assertion :=
  { apart, Fills.ofTables stream apart.req apart.strings with sid := fun _ => ndr_streamless stream _ }

end

section
open Call
variable {machine : Machine} {assertion : Call → Prop} (fills : Fills machine assertion)
include fills

private theorem modifySmReq_keeps (f : SamrInfoRequest → SamrInfoRequest) :
    Preserves assertion (modifySmReq machine f) := .modify fun call holds => fills.req call _ holds

private theorem newString_keeps (str : CStr) : Preserves assertion (newString str) := fun call holds =>
  fills.strings call _ holds

theorem readUniqVstringPtr_keeps (code : Status) (assign : UniqCharPtr → Req → Req) :
    Preserves assertion (readUniqVstringPtr machine code assign) := by
  refine .bind (fills.int32 _) fun _ => .bind (.modify fun call holds => fills.req call _ holds) fun _ => .ite ?_ (.pure ())
  exact .bind (fills.vstring _) fun _ => .bind (newString_keeps fills _) fun _ =>
    .modify fun call holds => fills.req call _ holds

private theorem samrReadHandle_keeps (code : Status) : Preserves assertion (samrReadHandle machine code) :=
  .bind (fills.bytes _ _) fun _ => modifySmReq_keeps fills _

private theorem samrReadName_keeps : Preserves assertion (samrReadName machine) :=
  .bind (fills.int16 _) fun _ => .bind (fills.int16 _) fun _ => readUniqVstringPtr_keeps fills _ _

theorem samrInvoke_keeps (opnum : UInt16) : Preserves assertion (samrInvoke machine opnum) := by
  have handle : ∀ code, Preserves assertion (samrReadHandle machine code) := samrReadHandle_keeps fills
  have name : Preserves assertion (samrReadName machine) := samrReadName_keeps fills
  have int : Preserves assertion (Call.ndr .invalidParameter ndrReadInt32) := fills.int32 _
  refine .ite ?connect <| .ite (handle _) <| .ite (.bind (handle _) fun _ => name) <| .ite (handle _) <| .ite ?names <|
    .ite ?user <| .ite (handle _) <| .ite (handle _) <| .ite (handle _) <| .ite (handle _) <| .ite (handle _) (.stop _)
  case connect =>
    refine .bind int fun _ => ?_
    have rest : Preserves assertion (do
        let _ ← Call.ndr .invalidParameter ndrReadInt32
        let level ← Call.ndr .invalidParameter ndrReadInt32
        if intMax < level then Proc.stop .invalidParameter
        modifySmReq machine ({ · with level })
        let _ ← Call.ndr .invalidParameter ndrReadInt32
        let clientVersion ← Call.ndr .invalidParameter ndrReadInt32
        if intMax < clientVersion then Proc.stop .invalidParameter
        modifySmReq machine ({ · with clientVersion })) :=
      .bind int fun _ => .bind int fun _ => .guard <| .bind (modifySmReq_keeps fills _) fun _ => .bind int fun _ =>
        .bind int fun _ => .guard (modifySmReq_keeps fills _)
    exact .ite (.bind (fills.vstring _) fun _ => rest) rest
  case names =>
    exact .bind (handle _) fun _ => .bind int fun _ => .bind int fun _ => .bind int fun _ => .bind int fun _ => name
  case user =>
    exact .bind (handle _) fun _ => .bind int fun _ => .bind int fun _ => modifySmReq_keeps fills _

private theorem modifySiReq_keeps (f : SrvsvcShareInfoRequest → SrvsvcShareInfoRequest) :
    Preserves assertion (modifySiReq machine f) := .modify fun call holds => fills.req call _ holds

private theorem modifyLrReq_keeps (f : LsarpcInfoRequest → LsarpcInfoRequest) :
    Preserves assertion (modifyLrReq machine f) := .modify fun call holds => fills.req call _ holds

theorem srvsvcParseShareInfoReq_keeps (opnum : UInt16) :
    Preserves assertion (srvsvcParseShareInfoReq machine opnum) := by
  have int : Preserves assertion (Call.ndr .badData ndrReadInt32) := fills.int32 _
  refine .bind (readUniqVstringPtr_keeps fills _ _) fun _ => .ite ?_ (.ite ?_ (.stop _))
  · refine .bind (fills.unionInt32 _) fun _ => .guard <| .bind (modifySiReq_keeps fills _) fun _ => .bind int fun _ =>
      .bind int fun _ => .bind int fun _ => .guard <| .bind int fun _ => .bind (modifySiReq_keeps fills _) fun _ =>
      .bind int fun _ => .ite ?_ (.pure ())
    exact .bind int fun _ => .pure ()
  · exact .bind (modifySiReq_keeps fills _) fun _ => .bind (fills.vstring _) fun _ =>
      .bind (newString_keeps fills _) fun _ => .bind (modifySiReq_keeps fills _) fun _ =>
      .bind int fun _ => .guard (modifySiReq_keeps fills _)

theorem wkssvcParseNetwkstaInfoReq_keeps : Preserves assertion (wkssvcParseNetwkstaInfoReq machine) :=
  .bind (readUniqVstringPtr_keeps fills _ _) fun _ => .bind (fills.int32 _) fun _ =>
    .guard (.modify fun call holds => fills.req call _ holds)

theorem lsarpcReadHandle_keeps : Preserves assertion (lsarpcReadHandle machine) :=
  .bind (fills.bytes _ _) fun _ => modifyLrReq_keeps fills _

theorem lsarpcReadLevel_keeps : Preserves assertion (lsarpcReadLevel machine) :=
  .bind (fills.int16 _) fun _ => modifyLrReq_keeps fills _

end

section
open Call
variable {machine : Machine} {assertion : Call → Prop} (reads : Reads machine assertion)
include reads

private theorem setEntryProcessed_keeps (processed : EntryProcessed) : Preserves assertion (setEntryProcessed processed) :=
  .modify fun call holds => reads.pipe call call.store.management _ rfl holds

private theorem addEntry_keeps (management : State) (entry : Entry) :
    Preserves assertion (Proc.modify fun call => call.addEntry management entry : Proc Call Status Unit) :=
  .modify fun call holds => reads.pipe call management _ rfl holds

private theorem setManagement_keeps (management : State) :
    Preserves assertion (Proc.modify fun call => call.setManagement management : Proc Call Status Unit) :=
  .modify fun call holds => reads.pipe call management call.pipe rfl holds

private theorem srvsvcShareGetInfoInvoke_keeps : Preserves assertion (srvsvcShareGetInfoInvoke machine) := by
  refine .bind .get fun call => .bind (strVal_keeps _) fun _ => .bind (.deref _) fun _ => ?_
  dsimp only
  split
  next => exact .pure ()
  next =>
    refine .bind (.deref _) fun _ => .ite (setManagement_keeps reads _) ?_
    refine .bind (strVal_keeps _) fun _ => .bind (.deref _) fun _ => .ite ?_ (setManagement_keeps reads _)
    exact .bind (addEntry_keeps reads _ _) fun _ => setEntryProcessed_keeps reads _

private theorem enumAllShares_keeps (call : Call) (share : Ref Share) (holds : assertion call) :
    assertion (enumAllShares machine call share) := by
  simp only [enumAllShares]
  split
  next => exact holds
  next =>
    split
    next => exact reads.pipe call _ _ rfl holds
    next => exact reads.pipe call _ call.pipe rfl holds

private theorem enumAllShares_foldl_keeps (shares : List (Ref Share)) (call : Call) (holds : assertion call) :
    assertion (shares.foldl (enumAllShares machine) call) := by
  induction shares generalizing call with
  | nil => exact holds
  | cons share shares ih => exact ih _ (enumAllShares_keeps reads call share holds)

theorem srvsvcShareInfoInvoke_keeps (opnum : UInt16) (restricted : Bool) :
    Preserves assertion (srvsvcShareInfoInvoke machine opnum restricted) := by
  refine .bind (srvsvcParseShareInfoReq_keeps reads.toFills opnum) fun _ =>
    .bind (setEntryProcessed_keeps reads _) fun _ => ?_
  refine .ite (.pure ()) (.ite (srvsvcShareGetInfoInvoke_keeps reads) (.ite ?_ (.stop _)))
  exact .bind (.modify fun call holds => enumAllShares_foldl_keeps reads _ call holds) fun _ =>
    setEntryProcessed_keeps reads _

private theorem lsarpcLookupSid2Invoke_keeps : Preserves assertion (lsarpcLookupSid2Invoke machine) := by
  have int : Preserves assertion (Call.ndr .invalidParameter ndrReadInt32) := reads.int32 _
  refine .bind (lsarpcReadHandle_keeps reads.toFills) fun _ => .bind int fun _ => .guard <| .bind int fun _ =>
    .bind int fun _ =>
    .bind (.each fun _ => .bind int fun _ => .pure ()) fun _ => .bind (.each fun _ => ?_) fun _ =>
    setEntryProcessed_keeps reads _
  exact .bind int fun _ => .bind (reads.sid _) fun _ => .modify fun call holds => reads.pipe call _ _ rfl holds

private theorem lookupNames3Loop_keeps (count : Nat) : Preserves assertion (lookupNames3Loop machine count) := by
  induction count with
  | zero => exact .pure ()
  | succ count ih =>
    refine .bind (reads.int16 _) fun _ => .bind (reads.int16 _) fun _ => .bind (reads.int32 _) fun _ =>
      .ite (.bind (.pure none) fun _ => .bind .get fun call => ?_)
        (.bind (reads.vstring _) fun str => .bind (.pure (some str)) fun _ => .bind .get fun call => ?_)
    all_goals
      dsimp only
      split
      next => exact .pure ()
      next => exact .bind (addEntry_keeps reads _ _) fun _ => ih

theorem lsarpcInvoke_keeps (opnum : UInt16) (dssetup : Bool) :
    Preserves assertion (lsarpcInvoke machine opnum dssetup) := by
  have handle : Preserves assertion (lsarpcReadHandle machine) := lsarpcReadHandle_keeps reads.toFills
  have level : Preserves assertion (lsarpcReadLevel machine) := lsarpcReadLevel_keeps reads.toFills
  refine .ite (.ite level handle) <| .ite (.pure ()) <| .ite (.bind handle fun _ => level) <|
    .ite (lsarpcLookupSid2Invoke_keeps reads) <| .ite ?_ (.stop _)
  exact .bind handle fun _ => .bind (reads.int32 _) fun _ => .bind .get fun _ => .guard <|
    .bind (reads.int32 _) fun _ => .bind (lookupNames3Loop_keeps reads _) fun _ => setEntryProcessed_keeps reads _

end

def Call.SameOrder {α : Type} (handler : Proc Call Status α) : Prop :=
  ∀ little, Preserves (Call.OnStream (·.littleEndian = little)) handler

theorem Stream.steady_littleEndian (little : Bool) : Steady (·.littleEndian = little) := fun _ _ same => same

/-- An assertion about what the handlers of a PDU have no part in: its header, the
flags of its command, the byte order and whether a reply is due. -/
structure Dce.Frame (assertion : Dce → Prop) : Prop where
  call : ∀ dce stream req, stream.littleEndian = dce.stream.littleEndian → assertion dce →
    assertion { dce with stream, req }
  context : ∀ dce dssetupContextId, assertion dce → assertion { dce with dssetupContextId }
  reqHdr : ∀ dce reqHdr, assertion dce → assertion { dce with reqHdr }

/-- What of a pipe only its requests set, and a bind that is accepted. -/
def Dce.marks (dce : Dce) : UInt32 × Bool × Option UInt16 := (dce.rpcFlags, dce.returnReady, dce.dssetupContextId)

namespace Work
variable {machine : Machine} {assertion : Dce → Prop}

def OnDce (assertion : Dce → Prop) (work : Work) : Prop := assertion work.channel.dce

variable (frame : Dce.Frame assertion)
include frame

theorem handle_keeps {α : Type} {handler : Proc Call Status α} (order : Call.SameOrder handler) :
    Preserves (OnDce assertion) (Work.handle handler) :=
  fun work holds => frame.call work.channel.dce _ _ (order _ work.call rfl) holds

theorem ndr_keeps {α : Type} {code : Status} {program : Ndr α}
    (steady : ∀ little, Preserves (·.littleEndian = little) program) :
    Preserves (OnDce assertion) (Work.ndr code program) :=
  handle_keeps frame fun little => Call.ndr_keeps (steady little)

theorem readInt8_keeps {code : Status} : Preserves (OnDce assertion) (Work.ndr code ndrReadInt8) :=
  ndr_keeps frame fun _ => Stream.ndrReadInt8_keeps (Stream.steady_littleEndian _)

theorem readInt16_keeps {code : Status} : Preserves (OnDce assertion) (Work.ndr code ndrReadInt16) :=
  ndr_keeps frame fun _ => Stream.ndrReadInt16_keeps (Stream.steady_littleEndian _)

theorem readInt32_keeps {code : Status} : Preserves (OnDce assertion) (Work.ndr code ndrReadInt32) :=
  ndr_keeps frame fun _ => Stream.ndrReadInt32_keeps (Stream.steady_littleEndian _)

theorem modifyBiReq_keeps (f : DcerpcBindRequest → DcerpcBindRequest) :
    Preserves (OnDce assertion) (modifyBiReq machine f) :=
  .modify fun work holds => frame.call work.channel.dce work.channel.dce.stream _ rfl holds

private theorem readContexts_keeps (count : Nat) : Preserves (OnDce assertion) (readContexts machine count) := by
  intro work holds
  have collected : OnDce assertion (Work.ndr .badData (Proc.collect count ndrReadContext) work).2 :=
    ndr_keeps frame (fun _ => .collect (Stream.ndrReadContext_keeps (Stream.steady_littleEndian _))) work holds
  simp only [readContexts]
  revert collected
  rcases Work.ndr .badData (Proc.collect count ndrReadContext) work with ⟨contexts | code | _, after⟩ <;> intro collected
  · exact modifyBiReq_keeps frame _ _ collected
  · exact Preserves.bind (modifyBiReq_keeps frame _) (fun _ => .stop _) _ collected
  · exact collected

private theorem dcerpcParseBindReq_keeps : Preserves (OnDce assertion) (dcerpcParseBindReq machine) :=
  .bind .get fun _ => .bind (modifyBiReq_keeps frame _) fun _ => .bind (readInt16_keeps frame) fun _ =>
    .bind (modifyBiReq_keeps frame _) fun _ => .bind (readInt16_keeps frame) fun _ =>
    .bind (modifyBiReq_keeps frame _) fun _ => .bind (readInt32_keeps frame) fun _ =>
    .bind (modifyBiReq_keeps frame _) fun _ => .bind (readInt8_keeps frame) fun _ =>
    .bind (modifyBiReq_keeps frame _) fun _ =>
    .bind (.modify fun work holds => frame.call work.channel.dce _ work.channel.dce.req rfl holds) fun _ =>
    .ite (readContexts_keeps frame _) (.pure ())

theorem dcerpcBindInvoke_keeps : Preserves (OnDce assertion) (dcerpcBindInvoke machine) := by
  refine .bind (dcerpcParseBindReq_keeps frame) fun _ => .bind .get fun work => .bind (.deref _) fun contexts => ?_
  have last : Preserves (OnDce assertion) (Work.handle
      (Proc.modify fun call => { call with pipe := { call.pipe with entryProcessed := none } })) :=
    handle_keeps frame fun _ => Call.modify_keeps fun _ => rfl
  split
  next => exact last
  next => exact .bind (.modify fun work holds => frame.context work.channel.dce _ holds) fun _ => last

theorem serviceWriteRequest_keeps (service : Service) :
    Preserves (OnDce assertion) (serviceWriteRequest machine service) := by
  cases service with
  | srvsvc =>
    refine .bind .get fun _ => .ite (handle_keeps frame fun _ => ?_) (.stop _)
    exact srvsvcShareInfoInvoke_keeps (.onStream (Stream.steady_littleEndian _)) _ _
  | wkssvc =>
    refine .bind .get fun _ => .ite (handle_keeps frame fun _ => ?_) (.stop _)
    exact wkssvcParseNetwkstaInfoReq_keeps (Call.Reads.onStream (Stream.steady_littleEndian _)).toFills
  | samr =>
    exact .bind .get fun _ => handle_keeps frame fun _ =>
      samrInvoke_keeps (Call.Reads.onStream (Stream.steady_littleEndian _)).toFills _
  | lsarpc =>
    exact .bind .get fun _ => handle_keeps frame fun _ => lsarpcInvoke_keeps (.onStream (Stream.steady_littleEndian _)) _ _

theorem invokePdu_keeps : Preserves (OnDce assertion) (invokePdu machine) := by
  refine .bind .get fun work => .ite (dcerpcBindInvoke_keeps frame) (.ite (.bind ?_ fun _ => ?_) (.stop _))
  · exact .bind (readInt32_keeps frame) fun _ => .bind (readInt16_keeps frame) fun _ =>
      .bind (readInt16_keeps frame) fun _ => .modify fun work holds => frame.reqHdr work.channel.dce _ holds
  · split
    next => exact .stop _
    next => exact serviceWriteRequest_keeps frame _

end Work
end KsmbdTools.Rpc
