import KsmbdTools.Rpc.Lsarpc
import KsmbdTools.Rpc.Proofs.Writing

/-! What the bodies of the replies leave alone. They reach the stream through write
calls, and otherwise the request, the entries of the pipe, the users and shares and the
strings; whatever those keep, a body keeps that has no part in the tables of handles. -/

namespace KsmbdTools.Rpc
open Management Proc

namespace Call

def OnStream (assertion : Stream → Prop) (call : Call) : Prop := assertion call.stream

/-- An assertion about neither the request, nor the entries of the pipe, the users and
shares, or the strings. -/
structure Apart (assertion : Call → Prop) : Prop where
  req : ∀ call req, assertion call → assertion { call with req }
  pipe : ∀ call management pipe, pipe.id = call.pipe.id → assertion call →
    assertion { call with store := { call.store with management }, pipe }
  strings : ∀ call strings, assertion call → assertion { call with store := { call.store with strings } }

/-- Such an assertion that no write of a body breaks either. -/
structure Kept (machine : Machine) (assertion : Call → Prop) : Prop extends Apart assertion where
  write : ∀ items, Preserves assertion (Call.write machine items)
  security : Preserves assertion (samrQuerySecurityReturn machine)

/-- An assertion that the methods of a handle keep; it may be about users. -/
structure Written (machine : Machine) (assertion : Call → Prop) : Prop where
  req : ∀ call req, assertion call → assertion { call with req }
  strings : ∀ call strings, assertion call → assertion { call with store := { call.store with strings } }
  write : ∀ items, Preserves assertion (Call.write machine items)
  security : Preserves assertion (samrQuerySecurityReturn machine)

/-- One that the replies keep beside the lists of shares; it may be about the entries of the pipe. -/
structure Replies (machine : Machine) (assertion : Call → Prop) : Prop extends Written machine assertion where
  processed : ∀ call numProcessed, assertion call → assertion { call with pipe := { call.pipe with numProcessed } }
  replaced : ∀ call index entry, assertion call →
    assertion { call with pipe := { call.pipe with entries := call.pipe.entries.set index entry } }
  reset : Preserves assertion (rpcPipeReset machine)
  drops : Preserves assertion (lsarpcDropEntries machine)

theorem Kept.written {machine : Machine} {assertion : Call → Prop} (kept : Kept machine assertion) :
    Written machine assertion :=
  ⟨kept.req, kept.strings, kept.write, kept.security⟩

theorem OnStream.apart (assertion : Stream → Prop) : Apart (OnStream assertion) :=
  ⟨fun _ _ holds => holds, fun _ _ _ _ holds => holds, fun _ _ holds => holds⟩

section
variable {machine : Machine} {assertion : Stream → Prop}

theorem write_keeps (pieces : ∀ piece : Piece, Preserves assertion piece.write) (items : List Item) :
    Preserves (OnStream assertion) (Call.write machine items) :=
  .orStop (.zoom (fun stream holds => Preserves.each pieces stream holds) fun _ _ => rfl)

theorem modify_keeps {f : Call → Call} (still : ∀ call, (f call).stream = call.stream) :
    Preserves (OnStream assertion) (Proc.modify f : Proc Call Status Unit) :=
  .modify fun call holds => show assertion (f call).stream from still call ▸ holds

end

variable {machine : Machine} {assertion : Call → Prop}

theorem strVal_keeps (ptr : Option (Ref CStr)) : Preserves assertion (strVal ptr) := by
  cases ptr with
  | none => exact .pure none
  | some ref => exact .bind .get fun _ => .bind (.deref _) fun _ => .pure _

theorem eachEntry_keeps {body : Entry → Proc Call Status Unit} (valid : ∀ entry, Preserves assertion (body entry))
    (entries : List Entry) (count : Nat) : Preserves assertion (eachEntry entries count body) := by
  induction entries generalizing count with
  | nil =>
    cases count with
    | zero => exact .pure ()
    | succ count => exact .fault
  | cons entry entries ih =>
    cases count with
    | zero => exact .pure ()
    | succ count => exact .bind (valid entry) fun _ => ih count

private theorem seek_keeps {α : Type} {next : Unit → Proc Call Status α} {offset : Nat} {call : Call}
    (rest : Preserves assertion (next ())) (start : assertion { call with stream := { call.stream with offset } }) :
    assertion ((Call.seek offset >>= next) call).2 := rest _ start

theorem freeString_keeps
    (strings : ∀ call strings, assertion call → assertion { call with store := { call.store with strings } })
    (ptr : Option (Ref CStr)) : Preserves assertion (freeString ptr) := by
  cases ptr with
  | none => exact .pure ()
  | some ref =>
    intro call holds
    simp only [freeString]
    split
    · exact holds
    · exact strings call _ holds

variable (apart : Apart assertion)
include apart

theorem shareEntryProcessed_keeps : Preserves assertion (shareEntryProcessed machine) := by
  intro call holds
  simp only [shareEntryProcessed, bind_apply, get_apply]
  rcases call.pipe.entries with _ | ⟨share | info, entries⟩
  · exact apart.pipe call call.store.management _ rfl holds
  · dsimp only [bind_apply]
    cases call.store.management.shares.get? share with
    | none => exact holds
    | some record => exact apart.pipe call _ _ rfl holds
  · exact holds

theorem namesEntryProcessed_keeps : Preserves assertion namesEntryProcessed := by
  refine .bind .get fun call => ?_
  split
  next =>
    split
    next => exact .modify fun call holds => apart.pipe call call.store.management _ rfl holds
    next => exact .bind (.deref _) fun _ => .modify fun call holds => apart.pipe call _ _ rfl holds
  next => exact .fault

theorem processEntries_keeps (count : Nat) : Preserves assertion (processEntries machine count) := by
  refine .bind .get fun call => ?_
  split
  next => exact .pure ()
  next => exact .each fun _ => shareEntryProcessed_keeps apart
  next => exact .each fun _ => namesEntryProcessed_keeps apart

theorem rpcPipeReset_keeps : Preserves assertion (rpcPipeReset machine) :=
  .bind .get fun _ => .bind (processEntries_keeps apart _) fun _ =>
    .modify fun call holds => apart.pipe call call.store.management _ rfl holds

theorem lsarpcDropEntries_keeps : Preserves assertion (lsarpcDropEntries machine) :=
  .bind .get fun _ => .ite (.bind (processEntries_keeps apart _) fun _ =>
    .modify fun call holds => apart.pipe call call.store.management _ rfl holds) (.pure ())

omit apart in
theorem Kept.replies (kept : Kept machine assertion) : Replies machine assertion where
  toWritten := kept.written
  processed call _ holds := kept.pipe call call.store.management _ rfl holds
  replaced call _ _ holds := kept.pipe call call.store.management _ rfl holds
  reset := rpcPipeReset_keeps kept.toApart
  drops := lsarpcDropEntries_keeps kept.toApart

end Call

section
open Call
variable {machine : Machine} {assertion : Call → Prop}

private theorem share?_keeps (entry : Entry) : Preserves assertion entry.share? := by
  refine .bind .get fun call => ?_
  cases entry with
  | share ref => exact .deref _
  | names info => exact .fault

private theorem names?_keeps (entry : Entry) : Preserves assertion entry.names? := by
  cases entry with
  | share ref => exact .fault
  | names info => exact .pure info

theorem samrChLookup_keeps : Preserves assertion (samrChLookup machine) := by
  refine .bind .get fun call => ?_
  dsimp only
  split
  next => exact .stop _
  next => exact .pure _

theorem lsarpcPhLookup_keeps : Preserves assertion (lsarpcPhLookup machine) :=
  .bind .get fun _ => .ite (.pure _) (.stop _)

private theorem userName_keeps (info : LsarpcNamesInfo) : Preserves assertion (userName info) := by
  refine .bind .get fun call => ?_
  split
  next => exact .pure _
  next => exact .bind (.deref _) fun _ => .pure _

variable (kept : Kept machine assertion)
include kept

/-! The server service. -/

theorem ndrWriteArrayOfStructs_keeps (level : Srvsvc.Level) (count : Nat) :
    Preserves assertion (ndrWriteArrayOfStructs machine level count) := by
  refine .bind .get fun call => .bind ?_ fun _ => .bind ?_ fun _ => processEntries_keeps kept.toApart count
  · exact eachEntry_keeps (fun entry => .bind (share?_keeps entry) fun _ => kept.write _) _ _
  · exact eachEntry_keeps (fun entry => .bind (share?_keeps entry) fun _ => kept.write _) _ _

theorem srvsvcShareEnumAllReturn_keeps : Preserves assertion (srvsvcShareEnumAllReturn machine) := by
  refine .bind .get fun call => .bind (kept.write _) fun _ => ?_
  have last : Preserves assertion (do
      let call ← Proc.get
      Call.write machine [.int32 (UInt32.ofInt call.pipe.numProcessed), .ref, .int32 0]) :=
    .bind .get fun _ => kept.write _
  dsimp only
  split
  next => exact .bind (kept.write _) fun _ => last
  next =>
    exact .bind (kept.write _) fun _ => .bind (.deref _) fun _ =>
      .bind (ndrWriteArrayOfStructs_keeps kept _ _) fun _ => last

theorem srvsvcShareGetInfoReturn_keeps (restricted : Bool) :
    Preserves assertion (srvsvcShareGetInfoReturn machine restricted) := by
  refine .bind .get fun call => .bind (kept.write _) fun _ => ?_
  split
  next => exact .bind (.deref _) fun _ => ndrWriteArrayOfStructs_keeps kept _ _
  next =>
    split
    next => exact .stop _
    next => exact .bind (kept.write _) fun _ => .stop _

omit kept in
theorem srvsvcClearHeaders_keeps (written : Written machine assertion) (opnum : UInt16) (status : Status) :
    Preserves assertion (srvsvcClearHeaders machine opnum status) := by
  have assign : ∀ f, Preserves assertion (modifySiReq machine f) :=
    fun _ => .modify fun call holds => written.req call _ holds
  exact .ite (.pure ()) <| .bind .get fun _ => .bind (freeString_keeps written.strings _) fun _ => .bind (assign _) fun _ =>
    .ite (.bind .get fun _ => .bind (freeString_keeps written.strings _) fun _ => assign _) (.pure ())

omit kept in
theorem srvsvcShareInfoReturn_replies (replies : Replies machine assertion) {opnum : UInt16} {restricted : Bool}
    (body : Preserves assertion <|
      if opnum = Srvsvc.getShareInfo then srvsvcShareGetInfoReturn machine restricted
      else if opnum = Srvsvc.shareEnumAll then srvsvcShareEnumAllReturn machine
      else Proc.stop .notImplemented) (call : Call)
    (start : assertion { call with stream := { call.stream with offset := headerSize + responseHeaderSize } }) :
    assertion (srvsvcShareInfoReturn machine opnum restricted call).2 := by
  refine seek_keeps (.bind (.modify fun call holds => replies.processed call 0 holds) fun _ =>
    .bind .get fun call => ?_) start
  have ending : ∀ status, Preserves assertion (do
      srvsvcClearHeaders machine opnum status
      return status) := fun status => .bind (srvsvcClearHeaders_keeps replies.toWritten opnum status) fun _ => .pure status
  exact .ite (.bind replies.reset fun _ => .bind body.code fun _ => ending _) (.bind body.code fun _ => ending _)

theorem srvsvcShareInfoReturn_keeps (opnum : UInt16) (restricted : Bool) (call : Call)
    (start : assertion { call with stream := { call.stream with offset := headerSize + responseHeaderSize } }) :
    assertion (srvsvcShareInfoReturn machine opnum restricted call).2 :=
  srvsvcShareInfoReturn_replies kept.replies
    (.ite (srvsvcShareGetInfoReturn_keeps kept restricted) (.ite (srvsvcShareEnumAllReturn_keeps kept) (.stop _))) call start

omit kept
variable (replies : Replies machine assertion)
include replies

/-! The workstation service. -/

theorem wkssvcNetwkstaGetInfoReturn_keeps : Preserves assertion (wkssvcNetwkstaGetInfoReturn machine) := by
  refine .bind .get fun call => .bind (replies.write _) fun _ => .ite (.bind (.stop _) fun _ => ?_) ?_ <;>
    exact .bind (replies.write _) fun _ => .bind (strVal_keeps _) fun _ => replies.write _

theorem wkssvcNetwkstaInfoReturn_keeps (restricted : Bool) (call : Call)
    (start : assertion { call with stream := { call.stream with offset := headerSize + responseHeaderSize } }) :
    assertion (wkssvcNetwkstaInfoReturn machine restricted call).2 := by
  refine seek_keeps (.bind (.modify fun call holds => replies.processed call 0 holds) fun _ =>
    .bind .get fun call => ?_) start
  have rest : ∀ status : Status, Preserves assertion (do
      wkssvcClearHeaders machine
      return status) := fun status =>
    .bind (.bind .get fun _ => .bind (freeString_keeps replies.strings _) fun _ =>
      .modify fun call holds => replies.req call _ holds) fun _ => .pure status
  have body := wkssvcNetwkstaGetInfoReturn_keeps replies
  exact .ite (.bind replies.reset fun _ => .bind body.code fun _ => rest _)
    (.bind body.code fun _ => rest _)

/-! The security account manager. -/

omit replies in
theorem samrLookupDomainReturn_keeps (written : Written machine assertion) :
    Preserves assertion (samrLookupDomainReturn machine) := by
  refine .bind samrChLookup_keeps fun _ => .bind (written.write _) fun _ => .bind .get fun call => ?_
  refine .bind (strVal_keeps _) fun _ => .bind (.deref _) fun _ => .bind (.each fun _ => ?_) fun _ => ?_
  · exact .ite (written.write _) (.pure ())
  · exact .bind (freeString_keeps written.strings _) fun _ => .modify fun call holds => written.req call _ holds

omit replies in
theorem samrQueryUserInfoReturn_keeps (written : Written machine assertion) :
    Preserves assertion (samrQueryUserInfoReturn machine) := by
  refine .bind samrChLookup_keeps fun found => ?_
  dsimp only
  split
  next => exact .stop _
  next => exact .bind (.deref _) fun _ => .bind .get fun _ => .bind (.deref _) fun _ => written.write _

open Samr in
omit replies in
theorem samrMethodReturn_keeps (written : Written machine assertion) {opnum : UInt16}
    (connect : opnum = connect5 → Preserves assertion (samrConnect5Return machine))
    (domain : opnum = openDomain → Preserves assertion (samrOpenDomainReturn machine))
    (names : opnum = lookupNames → Preserves assertion (samrLookupNamesReturn machine))
    (user : opnum = openUser → Preserves assertion (samrOpenUserReturn machine))
    (closing : opnum = close → Preserves assertion (samrCloseReturn machine)) :
    Preserves assertion (samrMethodReturn machine opnum) := by
  have answered : ∀ items, Preserves assertion (do
      let _ ← samrChLookup machine
      Call.write machine items) := fun _ => .bind samrChLookup_keeps fun _ => written.write _
  exact .branch connect <| .ite (answered _) <| .ite (samrLookupDomainReturn_keeps written) <| .branch domain <|
    .branch names <| .branch user <| .ite (samrQueryUserInfoReturn_keeps written) <| .ite written.security <|
    .ite (answered _) <| .ite (answered _) <| .branch closing (.stop _)

omit replies in
theorem samrChAlloc_keeps (chTable : ∀ f, Preserves assertion (modifyChTable f)) :
    Preserves assertion (samrChAlloc machine) :=
  .bind .get fun _ => .guard <| .bind (chTable _) fun _ =>
    .ite (.bind (chTable _) fun _ => .bind (.stop _) fun _ => .pure _) (.pure _)

omit replies in
theorem samrMethodReturn_tables (written : Written machine assertion) (chTable : ∀ f, Preserves assertion (modifyChTable f))
    {opnum : UInt16} (names : opnum = Samr.lookupNames → Preserves assertion (samrLookupNamesReturn machine)) :
    Preserves assertion (samrMethodReturn machine opnum) := by
  refine samrMethodReturn_keeps written (fun _ => ?connect) (fun _ => ?domain) names (fun _ => ?user) fun _ => ?close
  case connect =>
    exact .bind .get fun call => .bind (written.write _) fun _ => .bind (samrChAlloc_keeps chTable) fun _ => written.write _
  case domain => exact .bind samrChLookup_keeps fun _ => .bind (chTable _) fun _ => written.write _
  case user =>
    refine .bind samrChLookup_keeps fun found => .bind (chTable _) fun _ => ?_
    split
    next => exact .stop _
    next => exact .bind .get fun _ => .bind (.deref _) fun _ => .guard (written.write _)
  case close => exact .bind samrChLookup_keeps fun _ => .bind (chTable _) fun _ => written.write _

omit replies in
theorem samrReturn_keeps (kept : Kept machine assertion) (chTable : ∀ f, Preserves assertion (modifyChTable f))
    (opnum : UInt16) (restricted : Bool) (call : Call)
    (start : assertion { call with stream := { call.stream with offset := headerSize + responseHeaderSize } }) :
    assertion (samrReturn machine opnum restricted call).2 := by
  have names : Preserves assertion (samrLookupNamesReturn machine) := by
    refine .bind samrChLookup_keeps fun _ => .bind .get fun call => .bind (strVal_keeps _) fun _ => ?_
    refine .bind (.modify fun call holds => kept.pipe call _ call.pipe rfl holds) fun _ => .bind (chTable _) fun _ => ?_
    split
    next => exact .stop _
    next => exact .bind (.deref _) fun _ => kept.write _
  exact seek_keeps (.bind (samrMethodReturn_tables kept.written chTable fun _ => names).code fun _ => .pure _) start

/-! The local security authority. -/

theorem lsarpcLookupSid2Return_keeps : Preserves assertion (lsarpcLookupSid2Return machine) := by
  refine .bind lsarpcPhLookup_keeps fun _ => .bind .get fun call => .bind (replies.write _) fun _ => ?_
  refine .bind (eachEntry_keeps (fun entry => ?_) _ _) fun _ => .bind (eachEntry_keeps (fun entry => ?_) _ _) fun _ =>
    .bind (replies.write _) fun _ => .bind (eachEntry_keeps (fun entry => ?_) _ _) fun _ =>
    .bind (eachEntry_keeps (fun entry => ?_) _ _) fun _ => .bind (replies.write _) fun _ =>
    .bind replies.drops fun _ => .ite (.stop _) (.pure ())
  · exact .bind (names?_keeps entry) fun _ => replies.write _
  · exact .bind (names?_keeps entry) fun _ => replies.write _
  · exact .bind (names?_keeps entry) fun _ => .bind (userName_keeps _) fun _ => replies.write _
  · exact .bind (names?_keeps entry) fun _ => .bind (userName_keeps _) fun _ => replies.write _

theorem names3Sid_keeps (index : Nat) : Preserves assertion (names3Sid machine index) := by
  refine .bind .get fun call => .bind (.deref _) fun entry => .bind (names?_keeps entry) fun info => ?_
  refine .ite (.pure ()) (.bind (.deref _) fun _ => .bind (.deref _) fun _ => ?_)
  exact .bind (.modify fun call holds => replies.replaced call _ _ holds) fun _ => replies.write _

theorem lsarpcLookupNames3Return_keeps : Preserves assertion (lsarpcLookupNames3Return machine) := by
  refine .bind lsarpcPhLookup_keeps fun _ => .bind .get fun call => .bind (replies.write _) fun _ => ?_
  exact .bind (.each fun _ => replies.write _) fun _ => .bind (.each fun index => names3Sid_keeps replies index) fun _ =>
    .bind (replies.write _) fun _ => replies.drops

theorem lsarpcMethodReturn_keeps (opnum : UInt16) (dssetup : Bool)
    (policy : opnum = Lsarpc.openPolicy2 → Preserves assertion (lsarpcOpenPolicy2Return machine))
    (closing : Preserves assertion (lsarpcCloseReturn machine)) :
    Preserves assertion (lsarpcMethodReturn machine opnum dssetup) := by
  refine .ite (.ite ?_ closing) <| .branch policy <| .ite ?_ <| .ite (lsarpcLookupSid2Return_keeps replies) <|
    .ite (lsarpcLookupNames3Return_keeps replies) (.stop _)
  · exact .bind .get fun _ => .guard (replies.write _)
  · exact .bind lsarpcPhLookup_keeps fun _ => .bind .get fun _ => .guard (replies.write _)

omit replies in
theorem lsarpcPhAlloc_keeps (phTable : ∀ f, Preserves assertion (modifyPhTable f)) :
    Preserves assertion (lsarpcPhAlloc machine) :=
  .bind .get fun _ => .guard <| .bind (phTable _) fun _ =>
    .ite (.bind (phTable _) fun _ => .bind (.stop _) fun _ => .pure _) (.pure _)

theorem lsarpcReturn_keeps (phTable : ∀ f, Preserves assertion (modifyPhTable f)) (opnum : UInt16) (dssetup : Bool)
    (call : Call)
    (start : assertion { call with stream := { call.stream with offset := headerSize + responseHeaderSize } }) :
    assertion (lsarpcReturn machine opnum dssetup call).2 := by
  refine seek_keeps (lsarpcMethodReturn_keeps replies opnum dssetup (fun _ => ?_) ?_).code start
  · exact .bind (lsarpcPhAlloc_keeps phTable) fun _ => replies.write _
  · exact .bind lsarpcPhLookup_keeps fun _ => .bind (phTable _) fun _ => replies.write _

omit replies in
theorem samrQuerySecurityReturn_keeps (write : ∀ items, Preserves assertion (Call.write machine items))
    (seek : ∀ offset, Preserves assertion (Call.seek offset)) : Preserves assertion (samrQuerySecurityReturn machine) := by
  have tell : Preserves assertion Call.tell := .bind .get fun _ => .pure _
  have descriptor : ∀ conf rid, Preserves assertion (buildSecDesc machine conf rid) := fun conf rid =>
    .bind (write _) fun _ => .bind tell fun _ => .bind (write _) fun _ => .bind tell fun _ => .bind (seek _) fun _ =>
      .bind (write _) fun _ => .bind (seek _) fun _ => .pure _
  refine .bind samrChLookup_keeps fun found => ?_
  dsimp only
  split
  next => exact .stop _
  next =>
    exact .bind .get fun _ => .bind (.deref _) fun _ => .bind tell fun _ => .bind (write _) fun _ =>
      .bind (descriptor _ _) fun _ => .bind tell fun _ => .bind (seek _) fun _ => .bind (write _) fun _ => seek _

end

section
open Call
variable {machine : Machine}

theorem Call.Kept.onStream {assertion : Stream → Prop} (pieces : ∀ piece : Piece, Preserves assertion piece.write)
    (seeks : ∀ stream offset, assertion stream → assertion { stream with offset }) : Kept machine (OnStream assertion) :=
  ⟨OnStream.apart assertion, write_keeps pieces, samrQuerySecurityReturn_keeps (write_keeps pieces) fun offset =>
    .modify fun call holds => seeks call.stream offset holds⟩

theorem Call.Kept.moved (base : Stream) : Kept machine (OnStream base.Moved) := by
  refine .onStream (fun piece stream moved => ?_) fun _ _ moved => ⟨moved.payloadSz, moved.flags⟩
  obtain ⟨ran, step, _⟩ := piece.write_writes stream
  rw [ran]
  exact moved.trans step

/-- An assertion about no more than the tables of handles and the number of the pipe. -/
theorem Call.Kept.ofTables {assertion : Call → Prop} (apart : Apart assertion)
    (stream : ∀ call stream, assertion call → assertion { call with stream }) : Kept machine assertion := by
  have write : ∀ items, Preserves assertion (Call.write machine items) :=
    fun _ => .orStop fun call holds => stream call _ holds
  exact ⟨apart, write, samrQuerySecurityReturn_keeps write fun _ => .modify fun call holds => stream call _ holds⟩

end

/-! The codes the bodies give: none of them says that more data is to come. -/

namespace Call
variable {machine : Machine} {code : Status}

theorem write_avoids (differs : .badData ≠ code) (items : List Item) : Avoids code (Call.write machine items) := by
  intro call ended
  obtain ⟨stream, _, ran | ran⟩ := Call.write_cases machine items call <;> rw [ran] at ended <;> cases ended
  exact differs rfl

private theorem shareEntryProcessed_avoids : Avoids code (shareEntryProcessed machine) := by
  refine .bind .get fun call => ?_
  dsimp only
  split
  next => exact .modify _
  next => exact .fault
  next => exact .bind (.deref _) fun _ => .modify _

private theorem namesEntryProcessed_avoids : Avoids code namesEntryProcessed := by
  refine .bind .get fun call => ?_
  split
  next =>
    split
    next => exact .modify _
    next => exact .bind (.deref _) fun _ => .modify _
  next => exact .fault

private theorem processEntries_avoids (count : Nat) : Avoids code (processEntries machine count) := by
  refine .bind .get fun call => ?_
  split
  next => exact .pure ()
  next => exact .each fun _ => shareEntryProcessed_avoids
  next => exact .each fun _ => namesEntryProcessed_avoids

private theorem eachEntry_avoids {body : Entry → Proc Call Status Unit} (valid : ∀ entry, Avoids code (body entry))
    (entries : List Entry) (count : Nat) : Avoids code (eachEntry entries count body) := by
  induction entries generalizing count with
  | nil =>
    cases count with
    | zero => exact .pure ()
    | succ count => exact .fault
  | cons entry entries ih =>
    cases count with
    | zero => exact .pure ()
    | succ count => exact .bind (valid entry) fun _ => ih count

private theorem strVal_avoids (ptr : Option (Ref CStr)) : Avoids code (strVal ptr) := by
  cases ptr with
  | none => exact .pure none
  | some ref => exact .bind .get fun _ => .bind (.deref _) fun _ => .pure _

end Call

section
open Call
variable {machine : Machine}

private theorem write_whole (items : List Item) : Avoids .moreData (Call.write machine items) :=
  write_avoids (by decide) items

private theorem ndrWriteArrayOfStructs_whole (level : Srvsvc.Level) (count : Nat) :
    Avoids .moreData (ndrWriteArrayOfStructs machine level count) := by
  have share : ∀ entry : Entry, Avoids .moreData entry.share? := by
    intro entry
    refine .bind .get fun call => ?_
    cases entry with
    | share ref => exact .deref _
    | names info => exact .fault
  refine .bind .get fun call => .bind ?_ fun _ => .bind ?_ fun _ => processEntries_avoids count
  · exact eachEntry_avoids (fun entry => .bind (share entry) fun _ => write_whole _) _ _
  · exact eachEntry_avoids (fun entry => .bind (share entry) fun _ => write_whole _) _ _

private theorem srvsvcShareEnumAllReturn_whole : Avoids .moreData (srvsvcShareEnumAllReturn machine) := by
  refine .bind .get fun call => .bind (write_whole _) fun _ => ?_
  have last : Avoids .moreData (do
      let call ← Proc.get
      Call.write machine [.int32 (UInt32.ofInt call.pipe.numProcessed), .ref, .int32 0]) :=
    .bind .get fun _ => write_whole _
  dsimp only
  split
  next => exact .bind (write_whole _) fun _ => last
  next =>
    exact .bind (write_whole _) fun _ => .bind (.deref _) fun _ => .bind (ndrWriteArrayOfStructs_whole _ _) fun _ => last

private theorem srvsvcShareGetInfoReturn_whole (restricted : Bool) :
    Avoids .moreData (srvsvcShareGetInfoReturn machine restricted) := by
  refine .bind .get fun call => .bind (write_whole _) fun _ => ?_
  split
  next => exact .bind (.deref _) fun _ => ndrWriteArrayOfStructs_whole _ _
  next =>
    split
    next => exact .stop (by decide)
    next => exact .bind (write_whole _) fun _ => .stop (by cases restricted <;> decide)

theorem srvsvcShareInfoReturn_whole (opnum : UInt16) (restricted : Bool) :
    Yields (· ≠ Status.moreData) (srvsvcShareInfoReturn machine opnum restricted) := by
  have body : Avoids .moreData <|
      if opnum = Srvsvc.getShareInfo then srvsvcShareGetInfoReturn machine restricted
      else if opnum = Srvsvc.shareEnumAll then srvsvcShareEnumAllReturn machine
      else Proc.stop .notImplemented :=
    .ite (srvsvcShareGetInfoReturn_whole restricted) (.ite srvsvcShareEnumAllReturn_whole (.stop (by decide)))
  have ending : ∀ status : Status, status ≠ .moreData → Yields (· ≠ Status.moreData) (do
      srvsvcClearHeaders machine opnum (if restricted && opnum != Srvsvc.shareEnumAll then .accessDenied else status)
      return if restricted && opnum != Srvsvc.shareEnumAll then .accessDenied else status) := by
    intro status whole
    refine .after fun _ => .pure ?_
    split
    next => decide
    next => exact whole
  exact .after fun _ => .after fun _ => .after fun _ =>
    .ite (.after fun _ => .bind (.code body (by decide)) ending) (.bind (.code body (by decide)) ending)

theorem wkssvcNetwkstaInfoReturn_whole (restricted : Bool) :
    Yields (· ≠ Status.moreData) (wkssvcNetwkstaInfoReturn machine restricted) := by
  have body : Avoids .moreData (wkssvcNetwkstaGetInfoReturn machine) := by
    refine .bind .get fun call => .bind (write_whole _) fun _ => .ite (.bind (.stop (by decide)) fun _ => ?_) ?_ <;>
      exact .bind (write_whole _) fun _ => .bind (strVal_avoids _) fun _ => write_whole _
  have ending : ∀ status : Status, status ≠ .moreData → Yields (· ≠ Status.moreData) (do
      wkssvcClearHeaders machine
      return if restricted then .accessDenied else status) := by
    intro status whole
    refine .after fun _ => .pure ?_
    split
    next => decide
    next => exact whole
  exact .after fun _ => .after fun _ => .after fun _ =>
    .ite (.after fun _ => .bind (.code body (by decide)) ending) (.bind (.code body (by decide)) ending)

end
end KsmbdTools.Rpc
