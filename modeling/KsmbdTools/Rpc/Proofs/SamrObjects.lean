import KsmbdTools.Rpc.Proofs.HandleBalance

/-! What the methods of a handle use: the user that was looked up with it, and the name in
the request. Either can be absent. -/

namespace KsmbdTools.Rpc
open Management Bytes Proc

def HandlesLive (state : State) (table : HashTable Handle ConnectHandle) : Prop :=
  ∀ handle ch user, table.lookup handle = some ch → ch.user = some user → ∃ record, state.users.get? user = some record

namespace HandlesLive
variable {state : State} {table : HashTable Handle ConnectHandle} {handle : Handle} {ch : ConnectHandle}

theorem empty (state : State) : HandlesLive state ∅ := by
  intro handle ch user found
  cases found

theorem replace {fresh : ConnectHandle} (live : HandlesLive state table) (found : table.lookup handle = some ch)
    (user : ∀ user, fresh.user = some user → ∃ record, state.users.get? user = some record) :
    HandlesLive state (table.replace handle fresh) := by
  intro other entry held there has
  rcases eq_or_ne other handle with rfl | differs
  · have same : some fresh = some entry := (Table.lookup_replace_of_lookup fresh found).symm.trans there
    obtain rfl := Option.some.inj same
    exact user held has
  · exact live other entry held ((Table.lookup_replace_ne fresh differs).symm.trans there) has

theorem counted (live : HandlesLive state table) (found : table.lookup handle = some ch) (refcount : UInt32) :
    HandlesLive state (table.replace handle { ch with refcount }) := live.replace found fun user => live handle ch user found

theorem insert (live : HandlesLive state table) : HandlesLive state (table.insert handle ⟨1, none⟩) := by
  intro other entry user there has
  rcases eq_or_ne other handle with rfl | differs
  · rw [AList.lookup_insert] at there
    rw [← Option.some.inj there] at has
    cases has
  · rw [AList.lookup_insert_ne differs] at there
    exact live other entry user there has

theorem erase (live : HandlesLive state table) : HandlesLive state (table.erase handle) := by
  intro other entry user there has
  rcases eq_or_ne other handle with rfl | differs
  · rw [AList.lookup_erase] at there
    cases there
  · rw [AList.lookup_erase_ne differs] at there
    exact live other entry user there has

theorem looked {current : State} {name : Option CStr} {found : Option (Ref User)} (live : HandlesLive state table)
    (looked : state.usmLookupUser name = (current, found)) : HandlesLive current table := by
  cases found with
  | none =>
    rw [State.usmLookupUser_none looked]
    exact live
  | some user =>
    obtain ⟨moves, -⟩ := State.usmLookupUser_some looked
    intro handle ch other there has
    obtain ⟨record, seen⟩ := live handle ch other there has
    have counts := moves.refs other
    rw [seen, Option.map_some] at counts
    obtain ⟨after, held, -⟩ := Option.map_eq_some_iff.mp counts
    exact ⟨after, held⟩

end HandlesLive

def Call.Live (call : Call) : Prop := HandlesLive call.store.management call.store.chTable

/-! A method keeps the users of handles. -/

section
variable {machine : Machine}

private theorem write_live (items : List Item) : Preserves Call.Live (Call.write machine items) := .orStop fun _ live => live

private theorem written_live : Call.Written machine Call.Live where
  req _ _ live := live
  strings _ _ live := live
  write := write_live
  security := samrQuerySecurityReturn_keeps write_live fun _ _ live => live

theorem samrChLookup_bind {assertion : Call → Prop} {α : Type} {next : Handle × ConnectHandle → Proc Call Status α}
    (rest : ∀ call handle ch, assertion call → call.store.chTable.lookup handle = some ch →
      assertion (next (handle, ch) call).2) : Preserves assertion (samrChLookup machine >>= next) := by
  intro call holds
  cases found : call.store.chTable.lookup (call.req.smReq machine).handle with
  | none =>
    rw [bind_stop (samrChLookup_unknown rfl found)]
    exact holds
  | some ch =>
    rw [bind_ok (samrChLookup_known rfl found)]
    exact rest call _ ch holds found

private theorem samrConnect5Return_live : Preserves Call.Live (samrConnect5Return machine) := by
  refine .bind .get fun _ => .bind (write_live _) fun _ => .bind (fun call live => ?_) fun _ => write_live _
  rw [samrChAlloc_eq]
  split
  · split
    · exact live.erase
    · exact live.insert
  · exact live

private theorem samrOpenDomainReturn_live : Preserves Call.Live (samrOpenDomainReturn machine) :=
  samrChLookup_bind fun call handle ch live found => write_live [.bytes handle] (call.referred handle ch)
    (live.counted found _)

private theorem samrOpenUserReturn_live : Preserves Call.Live (samrOpenUserReturn machine) := by
  refine samrChLookup_bind fun call handle ch live found => ?_
  have counted : (call.referred handle ch).Live := live.counted found _
  have held : modifyChTable (·.replace handle { ch with refcount := ch.refcount + 1 }) call =
      (.ok (), call.referred handle ch) := rfl
  dsimp only
  rw [bind_ok held]
  cases ch.user with
  | none => exact counted
  | some user =>
    refine Preserves.bind .get (fun _ => .bind (.deref _) fun _ => ?_) (call.referred handle ch) counted
    exact .guard (write_live _)

private theorem samrCloseReturn_live : Preserves Call.Live (samrCloseReturn machine) := by
  refine samrChLookup_bind fun call handle ch live found => ?_
  have released : (call.released handle ch).Live := by
    show HandlesLive _ (if _ then _ else _)
    split
    next => exact live.counted found _
    next => exact live.erase
  exact write_live _ (call.released handle ch) released

def Call.lookedUp (call : Call) (handle : Handle) (ch : ConnectHandle) (looked : State × Option (Ref User)) : Call :=
  (call.setManagement looked.1).setTable (call.store.chTable.replace handle { ch with user := looked.2 })

def tellUser (machine : Machine) (looked : State × Option (Ref User)) : Proc Call Status Unit :=
  match looked.2 with
  | none => Proc.stop .accessDenied
  | some user => do
    let record ← Proc.deref (looked.1.users.get? user)
    Call.write machine (lookupNamesItems record.uid)

theorem samrLookupNamesReturn_known {call : Call} {handle : Handle} {ch : ConnectHandle} {name : Option CStr}
    (named : (call.req.smReq machine).handle = handle) (known : call.store.chTable.lookup handle = some ch)
    (value : Call.strVal (call.req.smReq machine).name.ptr call = (.ok name, call)) :
    samrLookupNamesReturn machine call = tellUser machine (call.store.management.usmLookupUser name)
      (call.lookedUp handle ch (call.store.management.usmLookupUser name)) := by
  rw [samrLookupNamesReturn, bind_ok (samrChLookup_known named known)]
  simp only [bind_apply, get_apply, value]
  rfl

private theorem tellUser_live (looked : State × Option (Ref User)) : Preserves Call.Live (tellUser machine looked) := by
  rw [tellUser]
  split
  next => exact .stop _
  next => exact .bind (.deref _) fun _ => write_live _

private theorem strVal_cases (call : Call) (ptr : Option (Ref CStr)) :
    Call.strVal ptr call = (.fault, call) ∨ ∃ name, Call.strVal ptr call = (.ok name, call) := by
  cases ptr with
  | none => exact .inr ⟨none, rfl⟩
  | some ref =>
    simp only [Call.strVal, bind_apply, get_apply]
    cases call.store.strings.get? ref with
    | none => exact .inl rfl
    | some str => exact .inr ⟨some str, rfl⟩

private theorem samrLookupNamesReturn_live : Preserves Call.Live (samrLookupNamesReturn machine) := by
  intro call live
  cases known : call.store.chTable.lookup (call.req.smReq machine).handle with
  | none =>
    rw [samrLookupNamesReturn, bind_stop (samrChLookup_unknown rfl known)]
    exact live
  | some ch =>
    rcases strVal_cases call (call.req.smReq machine).name.ptr with faulted | ⟨name, value⟩
    · rw [samrLookupNamesReturn, bind_ok (samrChLookup_known rfl known)]
      simp only [bind_apply, get_apply, faulted]
      exact live
    · have reached : (call.lookedUp (call.req.smReq machine).handle ch (call.store.management.usmLookupUser name)).Live := by
        refine (live.looked rfl).replace known fun user same => ?_
        have looked : call.store.management.usmLookupUser name =
          ((call.store.management.usmLookupUser name).1, some user) := by rw [← same]
        obtain ⟨-, record, held, -⟩ := State.usmLookupUser_some looked
        exact ⟨record, held⟩
      rw [samrLookupNamesReturn_known rfl known value]
      exact tellUser_live _ _ reached

theorem samrMethodReturn_live (opnum : UInt16) : Preserves Call.Live (samrMethodReturn machine opnum) :=
  samrMethodReturn_keeps written_live (fun _ => samrConnect5Return_live) (fun _ => samrOpenDomainReturn_live)
    (fun _ => samrLookupNamesReturn_live) (fun _ => samrOpenUserReturn_live) fun _ => samrCloseReturn_live

end

/-! A request of the service does as well, whatever its PDU is. -/

/-- A PDU of the service at work. -/
structure Work.Serves (work : Work) : Prop where
  live : work.call.Live
  samr : service? work.channel.dce.rpcFlags = some .samr

section
variable {machine : Machine}

private theorem wire_serves : Work.Apart Work.Serves where
  wire _ _ _ _ _ _ serves := ⟨serves.live, serves.samr⟩
  answered _ _ _ serves := ⟨serves.live, serves.samr⟩

private theorem handle_serves {α : Type} {handler : Proc Call Status α} (keeps : Preserves Call.Live handler) :
    Preserves Work.Serves (Work.handle handler) := fun work serves => ⟨keeps work.call serves.live, serves.samr⟩

private theorem samrInvoke_live (opnum : UInt16) : Preserves Call.Live (samrInvoke machine opnum) := by
  intro call live
  have same : (samrInvoke machine opnum call).2.aside = call.aside := samrInvoke_aside opnum call rfl
  have management : (samrInvoke machine opnum call).2.store.management = call.store.management := congrArg (·.1) same
  have table : (samrInvoke machine opnum call).2.store.chTable = call.store.chTable := congrArg (·.2.1) same
  rw [Call.Live, management, table]
  exact live

theorem invokeHandler_serves : Preserves Work.Serves (invokeHandler machine) := by
  have last : Preserves Work.Serves (Work.handle
      (Proc.modify fun call => { call with pipe := { call.pipe with entryProcessed := none } })) :=
    handle_serves (.modify fun _ live => live)
  have binds : Preserves Work.Serves (dcerpcBindInvoke machine) := by
    refine .bind wire_serves.dcerpcParseBindReq fun _ => .bind .get fun _ => .bind (.deref _) fun _ => ?_
    split
    next => exact last
    next => exact .bind (.modify fun _ serves => ⟨serves.live, serves.samr⟩) fun _ => last
  have headers : Preserves Work.Serves (dcerpcRequestHdrRead .badData) :=
    wire_serves.dcerpcRequestHdrRead _ fun _ _ serves => ⟨serves.live, serves.samr⟩
  refine .bind (wire_serves.dcerpcHdrRead _) fun _ work serves => ?_
  rw [invokePdu, bind_ok (get_apply work), serves.samr]
  exact Preserves.ite binds (.ite (.bind headers fun _ => .bind .get fun _ => handle_serves (samrInvoke_live _))
    (.stop _)) work serves

theorem returnHandler_serves (maxRespSz : Nat) : Preserves Work.Serves (returnHandler machine maxRespSz) := by
  intro work serves
  have method : ∀ opnum restricted, Preserves Call.Live (samrReturn machine opnum restricted) := fun _ _ =>
    .bind (fun _ live => live) fun _ => .bind (samrMethodReturn_live _).code fun _ => .pure _
  have answers : Preserves Work.Serves (rpcSamrReadRequest machine) := fun work serves =>
    wire_serves.respond (handle_serves (method _ _)) work serves
  rw [returnHandler, bind_ok (get_apply work), serves.samr]
  exact Preserves.ite wire_serves.dcerpcBindReturn (.ite answers (.stop _)) work serves

def Exchange.Live (exchange : Exchange) : Prop := HandlesLive exchange.server.store.management exchange.server.store.chTable

theorem rpcWriteRequest_live {req : Command} (samr : service? req.flags = some .samr) :
    Preserves Exchange.Live (rpcWriteRequest machine req) := by
  intro exchange live
  simp only [rpcWriteRequest]
  split
  next => exact Server.noPipe_keeps _ exchange live
  next channel _ =>
    split
    next => exact live
    next =>
      have start : (⟨exchange.server.store, channel.startWrite req, 0⟩ : Work).Serves := ⟨live, samr⟩
      exact (invokeHandler_serves _ start).live

theorem rpcReadRequest_live {req : Command} (maxRespSz : Nat) (samr : service? req.flags = some .samr) :
    Preserves Exchange.Live (rpcReadRequest machine req maxRespSz) := by
  intro exchange live
  simp only [rpcReadRequest]
  split
  next => exact Server.noPipe_keeps _ exchange live
  next channel _ =>
    split
    next => exact live
    split
    next => exact live
    next =>
      have start : (⟨exchange.server.store, channel.startRead req exchange.resp maxRespSz, exchange.resp.payloadSz⟩ :
        Work).Serves := ⟨live, samr⟩
      exact (returnHandler_serves maxRespSz _ start).live

theorem rpcIoctlRequest_live {req : Command} (maxRespSz : Nat) (samr : service? req.flags = some .samr) :
    Preserves Exchange.Live (rpcIoctlRequest machine req maxRespSz) := by
  have consumed : Preserves Exchange.Live (consumeReply req.handle) := by
    intro exchange live
    simp only [consumeReply]
    split <;> exact live
  have asked : Preserves Exchange.Live (do
      rpcWriteRequest machine req
      rpcReadRequest machine req maxRespSz
      consumeReply req.handle) :=
    .bind (rpcWriteRequest_live samr) fun _ => .bind (rpcReadRequest_live maxRespSz samr) fun _ => consumed
  exact .guard (.bind .get fun exchange => .ite (.bind (Server.noPipe_keeps _) fun _ => asked) asked)

end

/-! Where a method uses what is absent. -/

section
variable {strings : Heap CStr} {ptr : Option (Ref CStr)}

private theorem nameState_null : nameState strings ptr = .null ↔ ptr = none := by
  cases ptr with
  | none => exact iff_of_true rfl rfl
  | some ref =>
    rw [nameState]
    split <;> simp

private theorem nameState_live :
    nameState strings ptr = .live ↔ ∃ ref str, ptr = some ref ∧ strings.get? ref = some str := by
  cases ptr with
  | none => simp [nameState]
  | some ref => cases found : strings.get? ref <;> simp [nameState, found]

end

section
variable {machine : Machine}

private theorem tell_defined : Defined Call.tell := .bind .get fun _ => .pure _

private theorem seek_defined (offset : Nat) : Defined (Call.seek offset) := .modify _

private theorem samrChLookup_defined : Defined (samrChLookup machine) := by
  refine .bind .get fun call => ?_
  dsimp only
  split
  next => exact .stop _
  next => exact .pure _

private theorem samrChAlloc_defined : Defined (samrChAlloc machine) := by
  intro call
  rw [samrChAlloc_eq]
  split
  · split <;> exact nofun
  · exact nofun

private theorem buildSecDesc_defined (conf : SmbconfGlobal) (rid : UInt32) : Defined (buildSecDesc machine conf rid) :=
  .bind (Call.write_defined _) fun _ => .bind tell_defined fun _ => .bind (Call.write_defined _) fun _ =>
    .bind tell_defined fun _ =>
    .bind (seek_defined _) fun _ => .bind (Call.write_defined _) fun _ => .bind (seek_defined _) fun _ => .pure _

private theorem lookup_fault_iff {call : Call} {next : Handle × ConnectHandle → Proc Call Status Unit} {handle : Handle}
    (named : (call.req.smReq machine).handle = handle) :
    ((samrChLookup machine >>= next) call).1 = .fault ↔
      ∃ ch, call.store.chTable.lookup handle = some ch ∧ (next (handle, ch) call).1 = .fault := by
  cases found : call.store.chTable.lookup handle with
  | none =>
    rw [bind_stop (samrChLookup_unknown named found)]
    simp
  | some ch =>
    rw [bind_ok (samrChLookup_known named found)]
    simp

private theorem deref_live {call : Call} {user : Ref User} {record : User} {next : User → Proc Call Status Unit}
    (held : call.store.management.users.get? user = some record) (rest : ∀ record, Defined (next record)) :
    ((Proc.deref (call.store.management.users.get? user) >>= next) call).1 ≠ .fault := by
  rw [held]
  exact rest record call

private theorem strVal_seen {call : Call} (ptr : Option (Ref CStr)) :
    (Call.strVal ptr call).1 = .fault ↔ nameState call.store.strings ptr = .freed := by
  cases ptr with
  | none => simp [Call.strVal, nameState]
  | some ref =>
    simp only [Call.strVal, bind_apply, get_apply, nameState]
    cases call.store.strings.get? ref with
    | none => exact iff_of_true rfl rfl
    | some str => simp [deref]

private theorem samrLookupNamesReturn_fault_iff {call : Call} {handle : Handle} {name : NameSeen}
    (left : call.Left machine handle name) :
    (samrLookupNamesReturn machine call).1 = .fault ↔ handle ∈ call.store.chTable ∧ name = .freed := by
  cases known : call.store.chTable.lookup handle with
  | none =>
    rw [samrLookupNamesReturn, bind_stop (samrChLookup_unknown left.handle known)]
    exact iff_of_false (by simp) fun both => AList.lookup_eq_none.mp known both.1
  | some ch =>
    rcases strVal_cases call (call.req.smReq machine).name.ptr with faulted | ⟨value, read⟩
    · have freed : name = .freed := left.name.symm.trans ((strVal_seen _).mp (congrArg Prod.fst faulted))
      refine iff_of_true ?_ ⟨AList.lookup_isSome.mp (known ▸ rfl), freed⟩
      rw [samrLookupNamesReturn, bind_ok (samrChLookup_known left.handle known)]
      simp only [bind_apply, get_apply, faulted]
    · refine iff_of_false ?_ fun both => ?_
      · rw [samrLookupNamesReturn_known left.handle known read]
        generalize looked : call.store.management.usmLookupUser value = found
        obtain ⟨current, _ | user⟩ := found
        · exact Defined.stop _ call
        · obtain ⟨-, record, held, -⟩ := State.usmLookupUser_some looked
          simp only [tellUser, held]
          exact Call.write_defined _ _
      · have faulted := (strVal_seen _).mpr (left.name.trans both.2)
        rw [read] at faulted
        cases faulted

private theorem samrOpenUserReturn_defined {call : Call} (live : call.Live) :
    (samrOpenUserReturn machine call).1 ≠ .fault := by
  rw [samrOpenUserReturn, ne_eq, lookup_fault_iff rfl]
  rintro ⟨ch, known, faulted⟩
  simp only [modifyChTable, bind_apply, modify_apply] at faulted
  cases has : ch.user with
  | none =>
    rw [has] at faulted
    cases faulted
  | some user =>
    obtain ⟨record, held⟩ := live _ ch user known has
    simp only [has, bind_apply, get_apply, held] at faulted
    exact (Defined.ite (.bind (.stop _) fun _ => Call.write_defined _) (Call.write_defined _) :
      Defined (if _ then _ else _)) _ faulted

private theorem samrQuerySecurityReturn_defined {call : Call} (live : call.Live) :
    (samrQuerySecurityReturn machine call).1 ≠ .fault := by
  rw [samrQuerySecurityReturn, ne_eq, lookup_fault_iff rfl]
  rintro ⟨ch, known, faulted⟩
  cases has : ch.user with
  | none =>
    simp only [has] at faulted
    cases faulted
  | some user =>
    obtain ⟨record, held⟩ := live _ ch user known has
    simp only [has] at faulted
    have rest : ∀ conf uid, Defined (do
        let currOffset ← Call.tell
        Call.write machine [.skip 16]
        let secDescLen ← buildSecDesc machine conf uid
        let payloadOffset ← Call.tell
        Call.seek currOffset
        Call.write machine [.ref, .int32 (UInt32.ofNat secDescLen), .ref, .int32 (UInt32.ofNat secDescLen)]
        Call.seek payloadOffset) := fun conf uid =>
      .bind tell_defined fun _ => .bind (Call.write_defined _) fun _ => .bind (buildSecDesc_defined conf uid) fun _ =>
        .bind tell_defined fun _ => .bind (seek_defined _) fun _ => .bind (Call.write_defined _) fun _ => seek_defined _
    rw [bind_ok (get_apply call)] at faulted
    exact deref_live held (fun record => rest _ record.uid) faulted

private theorem samrQueryUserInfoReturn_fault_iff {call : Call} {handle : Handle} (live : call.Live)
    (named : (call.req.smReq machine).handle = handle) :
    (samrQueryUserInfoReturn machine call).1 = .fault ↔
      machine.gethostname ≠ none ∧ ∃ ch, call.store.chTable.lookup handle = some ch ∧ ch.user = none := by
  rw [samrQueryUserInfoReturn, lookup_fault_iff named]
  cases machine.gethostname with
  | none =>
    refine ⟨?_, fun absent => absurd rfl absent.1⟩
    rintro ⟨ch, -, faulted⟩
    cases faulted
  | some hostname =>
    simp only [ne_eq, reduceCtorEq, not_false_eq_true, true_and]
    refine exists_congr fun ch => and_congr_right fun known => ?_
    cases has : ch.user with
    | none => exact ⟨fun _ => rfl, fun _ => rfl⟩
    | some user =>
      obtain ⟨record, held⟩ := live _ ch user known has
      simp only [reduceCtorEq, iff_false]
      exact deref_live held fun record => Call.write_defined _

private theorem reach_domain (machine : Machine) (call : Call)
    (behind : call.stream.offset = headerSize + responseHeaderSize) :
    (call.reach machine [.ref, .int32 4]).whole = true ↔ 32 ≤ call.stream.payloadSz := by
  have pieces : List.flatMap (Item.pieces machine.toPlatform call.stream.flags) [.ref, .int32 4] =
    [.ref, .put 4 (encode call.stream.littleEndian 4 4)] := rfl
  rw [Call.reach, Reach.items, behind, pieces]
  simp only [Reach.pieces, Reach.piece, Reach.put, length_encode,
    show alignUp (headerSize + responseHeaderSize) 4 = 24 from rfl]
  by_cases first : 28 ≤ call.stream.payloadSz
  · simp only [if_pos first, ↓reduceIte, show alignUp 28 4 = 28 from rfl]
    split
    next second => simpa using second
    next second => simpa using second
  · simp only [if_neg first, Bool.false_eq_true, ↓reduceIte, false_iff]
    omega

private theorem lookupDomain_defined {call : Call} {ref : Ref CStr} {str held : CStr} {sid : List Item}
    (live : call.store.strings.get? ref = some held) :
    ((do
      Proc.each (domainEntries machine) fun entry => if str = entry then Call.write machine sid else pure ()
      Call.freeString (some ref)
      modifySmReq machine ({ · with name := {} }) : Proc Call Status Unit) call).1 ≠ .fault := by
  have loop : Defined (Proc.each (domainEntries machine) fun entry =>
      if str = entry then Call.write machine sid else pure ()) :=
    .each fun _ => .ite (Call.write_defined _) (.pure _)
  have keeps : Preserves (fun after : Call => after.store.strings = call.store.strings)
      (Proc.each (domainEntries machine) fun entry => if str = entry then Call.write machine sid else pure ()) :=
    .each fun _ => .ite (.orStop fun _ same => same) (.pure _)
  have ends := loop call
  rcases ran : Proc.each (domainEntries machine) (fun entry =>
    if str = entry then Call.write machine sid else pure ()) call with ⟨_ | code | _, after⟩
  · have same : after.store.strings = call.store.strings := keeps.along ran rfl
    have freed : (Call.freeString (some ref) after).1 = .ok () := by simp only [Call.freeString, same, live]
    obtain ⟨last, freed⟩ := exists_of_ok freed
    rw [bind_ok ran, bind_ok freed]
    exact Defined.modify _ last
  · rw [bind_stop ran]
    exact Defined.stop code after
  · rw [ran] at ends
    exact absurd rfl ends

private theorem samrLookupDomainReturn_fault_iff {call : Call} {handle : Handle} {name : NameSeen}
    (left : call.Left machine handle name) (behind : call.stream.offset = headerSize + responseHeaderSize) :
    (samrLookupDomainReturn machine call).1 = .fault ↔
      handle ∈ call.store.chTable ∧ 32 ≤ call.stream.payloadSz ∧ name ≠ .live := by
  obtain ⟨stream, -, -, wrote⟩ := Call.write_apply machine [.ref, .int32 4] call
  rw [samrLookupDomainReturn, lookup_fault_iff left.handle, ← AList.lookup_isSome, Option.isSome_iff_exists,
    ← reach_domain machine call behind]
  simp only [exists_and_right]
  refine and_congr_right fun _ => ?_
  cases whole : (call.reach machine [.ref, .int32 4]).whole with
  | false =>
    rw [whole] at wrote
    rw [bind_stop wrote]
    simp
  | true =>
    rw [whole] at wrote
    rw [bind_ok wrote, bind_ok (get_apply _)]
    have seen : nameState ({ call with stream } : Call).store.strings (call.req.smReq machine).name.ptr = name := left.name
    simp only [true_and]
    cases name with
    | live =>
      obtain ⟨ref, str, ptr, held⟩ := nameState_live.mp seen
      have read : Call.strVal (some ref) { call with stream } = (.ok (some str), { call with stream }) := by
        simp only [Call.strVal, bind_apply, get_apply, held]
        rfl
      simp only [ptr, ne_eq, not_true, iff_false]
      rw [bind_ok read]
      exact lookupDomain_defined held
    | null =>
      simp only [nameState_null.mp seen]
      exact iff_of_true rfl (by decide)
    | freed => exact iff_of_true (bind_faulted _ ((strVal_seen _).mpr seen)) (by decide)

end

/-- A domain is looked up by a name that is there, users by none that was freed, and a user is queried that was looked up.
What the request does not hold is what the pipe holds. -/
structure FindsObjects (machine : Machine) (server : Server) (channel : Channel) (bytes : List UInt8) (maxRespSz : Nat) :
    Prop where
  domain : (pduReqHdr bytes).opnum = Samr.lookupDomain → seenHandle machine channel.dce.req bytes ∈ server.store.chTable →
    32 ≤ maxRespSz →
    nameSeen machine server.store.strings channel.dce.req channel.dce.stream.flags.asciiString 44 bytes = .live
  names : (pduReqHdr bytes).opnum = Samr.lookupNames → seenHandle machine channel.dce.req bytes ∈ server.store.chTable →
    nameSeen machine server.store.strings channel.dce.req channel.dce.stream.flags.asciiString 60 bytes ≠ .freed
  user : (pduReqHdr bytes).opnum = Samr.queryUserInfo → machine.gethostname ≠ none →
    ∀ ch, server.store.chTable.lookup (seenHandle machine channel.dce.req bytes) = some ch → ch.user ≠ none

section
variable {machine : Machine} {server : Server} {channel : Channel} {outcome : Outcome Status Unit} {bytes : List UInt8}
  {maxRespSz : Nat} {start : Call}

open Samr in
private theorem samrMethodReturn_defined {opnum : UInt16} (live : start.Live) (notDomain : opnum ≠ lookupDomain)
    (notNames : opnum ≠ lookupNames) (notInfo : opnum ≠ queryUserInfo) :
    (samrMethodReturn machine opnum start).1 ≠ .fault := by
  have answered : ∀ items, Defined (do
      let _ ← samrChLookup machine
      Call.write machine items) := fun _ => .bind samrChLookup_defined fun _ => Call.write_defined _
  have connect : Defined (samrConnect5Return machine) :=
    .bind .get fun _ => .bind (Call.write_defined _) fun _ => .bind samrChAlloc_defined fun _ => Call.write_defined _
  have domain : Defined (samrOpenDomainReturn machine) :=
    .bind samrChLookup_defined fun _ => .bind (.modify _) fun _ => Call.write_defined _
  have closed : Defined (samrCloseReturn machine) :=
    .bind samrChLookup_defined fun _ => .bind (.modify _) fun _ => Call.write_defined _
  let post : Proc Call Status Unit → Prop := fun program => (program start).1 ≠ .fault
  show post (samrMethodReturn machine opnum)
  exact of_branch (fun _ => connect start) <| of_branch (fun _ => answered _ start) <|
    of_branch (fun same => absurd same notDomain) <| of_branch (fun _ => domain start) <|
    of_branch (fun same => absurd same notNames) <|
    of_branch (fun _ => samrOpenUserReturn_defined live) <| of_branch (fun same => absurd same notInfo) <|
    of_branch (fun _ => samrQuerySecurityReturn_defined live) <| of_branch (fun _ => answered _ start) <|
    of_branch (fun _ => answered _ start) <| of_branch (fun _ => closed start) nofun

theorem samrMethodReturn_defined_iff (starts : SamrStarts machine server channel outcome bytes maxRespSz start)
    (live : HandlesLive server.store.management server.store.chTable) :
    (samrMethodReturn machine (pduReqHdr bytes).opnum start).1 ≠ .fault ↔
      FindsObjects machine server channel bytes maxRespSz := by
  have alive : start.Live := by
    rw [Call.Live, starts.management, starts.chTable]
    exact live
  have other : ∀ {method another : UInt16} {absent : Prop}, (pduReqHdr bytes).opnum = method → method ≠ another →
      (pduReqHdr bytes).opnum = another → absent := fun same differs another => absurd (same.symm.trans another) differs
  by_cases domain : (pduReqHdr bytes).opnum = Samr.lookupDomain
  · have faults := samrLookupDomainReturn_fault_iff (starts.left.domain domain).1 starts.filled.offset
    have method : samrMethodReturn machine (pduReqHdr bytes).opnum = samrLookupDomainReturn machine := by rw [domain]; rfl
    rw [starts.chTable, starts.size] at faults
    rw [method, ne_eq, faults]
    refine ⟨fun safe => ⟨fun _ known room => ?_, other domain (by decide), other domain (by decide)⟩, ?_⟩
    · by_contra absent
      exact safe ⟨known, room, absent⟩
    · rintro finds ⟨known, room, absent⟩
      exact absent (finds.domain domain known room)
  by_cases names : (pduReqHdr bytes).opnum = Samr.lookupNames
  · have faults := samrLookupNamesReturn_fault_iff (starts.left.names names).1
    have method : samrMethodReturn machine (pduReqHdr bytes).opnum = samrLookupNamesReturn machine := by rw [names]; rfl
    rw [starts.chTable] at faults
    rw [method, ne_eq, faults]
    refine ⟨fun safe => ⟨other names (by decide), fun _ known freed => safe ⟨known, freed⟩, other names (by decide)⟩, ?_⟩
    rintro finds ⟨known, freed⟩
    exact finds.names names known freed
  by_cases info : (pduReqHdr bytes).opnum = Samr.queryUserInfo
  · have faults := samrQueryUserInfoReturn_fault_iff alive (starts.left.info info)
    have method : samrMethodReturn machine (pduReqHdr bytes).opnum = samrQueryUserInfoReturn machine := by rw [info]; rfl
    rw [starts.chTable] at faults
    rw [method, ne_eq, faults]
    refine ⟨fun safe => ⟨other info (by decide), other info (by decide), fun _ named ch known userless => ?_⟩, ?_⟩
    · exact safe ⟨named, ch, known, userless⟩
    · rintro finds ⟨named, ch, known, userless⟩
      exact finds.user info named ch known userless
  · refine iff_of_true (samrMethodReturn_defined alive domain names info) ⟨fun same => ?_, fun same => ?_, fun same => ?_⟩
    · exact absurd same domain
    · exact absurd same names
    · exact absurd same info

end

/-! A request that lacks something. -/

def SamrLacks (server : Server) (bytes : List UInt8) : Prop :=
  let opnum := (pduReqHdr bytes).opnum
  (opnum ≠ Samr.connect5 ∧ samrHandle bytes ∉ server.store.chTable) ∨
  ((opnum = Samr.openUser ∨ opnum = Samr.queryUserInfo ∨ opnum = Samr.querySecurity) ∧
    ∃ ch, server.store.chTable.lookup (samrHandle bytes) = some ch ∧ ch.user = none) ∨
  (opnum = Samr.lookupDomain ∧ nameRefId 44 bytes = 0) ∨ (opnum = Samr.lookupNames ∧ nameRefId 60 bytes = 0)

/-- The call ends with a status, which is an error if the request lacks something. -/
structure SamrAnswers (server : Server) (bytes : List UInt8) (outcome : Outcome Status Unit) : Prop where
  status : outcome ≠ .fault
  error : SamrLacks server bytes → outcome ≠ .ok ()

section
variable {machine : Machine} {server : Server} {channel : Channel} {bytes : List UInt8} {maxRespSz : Nat} {start : Call}

private theorem nameSeen_zero {strings : Heap CStr} {req : Req} {asciiString : Bool} {place : Nat}
    (long : place + 8 ≤ bytes.length) (zero : nameRefId place bytes = 0) :
    nameSeen machine strings req asciiString place bytes = .null := by
  rw [nameSeen, if_pos long, if_neg fun both => both.1 zero]

open Samr in
private theorem samrMethodReturn_unknown (starts : SamrStarts machine server channel (.ok ()) bytes maxRespSz start)
    (notConnect : (pduReqHdr bytes).opnum ≠ connect5) (unknown : samrHandle bytes ∉ server.store.chTable) :
    ∃ code, code ≠ .ok ∧ (samrMethodReturn machine (pduReqHdr bytes).opnum start).1 = .stop code := by
  have absent : start.store.chTable.lookup (samrHandle bytes) = none := by
    rw [starts.chTable]
    exact AList.lookup_eq_none.mpr unknown
  have stopped : ∀ next : Handle × ConnectHandle → Proc Call Status Unit, ∃ code, code ≠ Status.ok ∧
      ((samrChLookup machine >>= next) start).1 = .stop code := fun next =>
    ⟨.badFid, by decide, by rw [bind_stop (samrChLookup_unknown ((starts.parsed rfl).handle notConnect).1 absent)]⟩
  let post : Proc Call Status Unit → Prop := fun program => ∃ code, code ≠ .ok ∧ (program start).1 = .stop code
  show post (samrMethodReturn machine (pduReqHdr bytes).opnum)
  exact of_branch (fun same => absurd same notConnect) <| of_branch (fun _ => stopped _) <| of_branch (fun _ => stopped _) <|
    of_branch (fun _ => stopped _) <| of_branch (fun _ => stopped _) <| of_branch (fun _ => stopped _) <|
    of_branch (fun _ => stopped _) <| of_branch (fun _ => stopped _) <| of_branch (fun _ => stopped _) <|
    of_branch (fun _ => stopped _) <| of_branch (fun _ => stopped _) ⟨.badFunc, by decide, rfl⟩

open Samr in
private theorem samrMethodReturn_userless {ch : ConnectHandle}
    (starts : SamrStarts machine server channel (.ok ()) bytes maxRespSz start)
    (method : (pduReqHdr bytes).opnum = openUser ∨
      (pduReqHdr bytes).opnum = queryUserInfo ∧ machine.gethostname = none ∨ (pduReqHdr bytes).opnum = querySecurity)
    (known : server.store.chTable.lookup (samrHandle bytes) = some ch) (userless : ch.user = none) :
    ∃ code, code ≠ .ok ∧ (samrMethodReturn machine (pduReqHdr bytes).opnum start).1 = .stop code := by
  rw [← starts.chTable] at known
  have notConnect : (pduReqHdr bytes).opnum ≠ connect5 := by
    rcases method with same | ⟨same, -⟩ | same <;> rw [same] <;> decide
  have found : samrChLookup machine start = _ := samrChLookup_known ((starts.parsed rfl).handle notConnect).1 known
  rcases method with same | ⟨same, nameless⟩ | same
  · refine ⟨.badFid, by decide, ?_⟩
    rw [same]
    show (samrOpenUserReturn machine start).1 = _
    rw [samrOpenUserReturn, bind_ok found]
    simp only [userless]
    rfl
  · refine ⟨.noMem, by decide, ?_⟩
    rw [same]
    show (samrQueryUserInfoReturn machine start).1 = _
    rw [samrQueryUserInfoReturn, bind_ok found]
    simp only [nameless]
    rfl
  · refine ⟨.badFid, by decide, ?_⟩
    rw [same]
    show (samrQuerySecurityReturn machine start).1 = _
    rw [samrQuerySecurityReturn, bind_ok found]
    simp only [userless]
    rfl

open Samr in
private theorem samrMethodReturn_short (starts : SamrStarts machine server channel (.ok ()) bytes maxRespSz start)
    (domain : (pduReqHdr bytes).opnum = lookupDomain) (known : samrHandle bytes ∈ server.store.chTable)
    (short : ¬32 ≤ maxRespSz) :
    ∃ code, code ≠ .ok ∧ (samrMethodReturn machine (pduReqHdr bytes).opnum start).1 = .stop code := by
  obtain ⟨ch, found⟩ := Option.isSome_iff_exists.mp (AList.lookup_isSome.mpr known)
  rw [← starts.chTable] at found
  have looked : samrChLookup machine start = _ :=
    samrChLookup_known ((starts.parsed rfl).handle (by rw [domain]; decide)).1 found
  obtain ⟨stream, -, -, wrote⟩ := Call.write_apply machine [.ref, .int32 4] start
  have full : ¬(start.reach machine [.ref, .int32 4]).whole = true := by
    rwa [reach_domain machine start starts.filled.offset, starts.size]
  rw [if_neg full] at wrote
  refine ⟨.badData, by decide, ?_⟩
  rw [domain]
  show (samrLookupDomainReturn machine start).1 = _
  rw [samrLookupDomainReturn, bind_ok looked, bind_stop wrote]

open Samr in
private theorem samrMethodReturn_nameless (starts : SamrStarts machine server channel (.ok ()) bytes maxRespSz start)
    (names : (pduReqHdr bytes).opnum = lookupNames) (known : samrHandle bytes ∈ server.store.chTable)
    (absent : nameRefId 60 bytes = 0) :
    ∃ code, code ≠ .ok ∧ (samrMethodReturn machine (pduReqHdr bytes).opnum start).1 = .stop code := by
  obtain ⟨ch, found⟩ := Option.isSome_iff_exists.mp (AList.lookup_isSome.mpr known)
  rw [← starts.chTable] at found
  have null := (starts.left.names names).1.name.trans (nameSeen_zero ((starts.left.names names).2 rfl) absent)
  have value : Call.strVal (start.req.smReq machine).name.ptr start = (.ok none, start) := by
    rw [nameState_null.mp null]
    rfl
  have ran := samrLookupNamesReturn_known ((starts.parsed rfl).handle (by rw [names]; decide)).1 found value
  refine ⟨.accessDenied, by decide, ?_⟩
  rw [names]
  exact congrArg Prod.fst ran

private theorem samrMethodReturn_lacking (starts : SamrStarts machine server channel (.ok ()) bytes maxRespSz start)
    (lacks : SamrLacks server bytes) (finds : FindsObjects machine server channel bytes maxRespSz) :
    ∃ code, code ≠ .ok ∧ (samrMethodReturn machine (pduReqHdr bytes).opnum start).1 = .stop code := by
  have seen : (pduReqHdr bytes).opnum ≠ Samr.connect5 → seenHandle machine channel.dce.req bytes = samrHandle bytes :=
    fun notConnect => if_pos ((starts.parsed rfl).handle notConnect).2
  by_cases known : samrHandle bytes ∈ server.store.chTable
  · rcases lacks with ⟨-, unknown⟩ | ⟨method, ch, found, userless⟩ | ⟨domain, absent⟩ | ⟨names, absent⟩
    · exact absurd known unknown
    · refine samrMethodReturn_userless starts ?_ found userless
      rcases method with same | same | same
      · exact .inl same
      · refine .inr (.inl ⟨same, ?_⟩)
        by_contra named
        exact finds.user same named ch (seen (by rw [same]; decide) ▸ found) userless
      · exact .inr (.inr same)
    · refine samrMethodReturn_short starts domain known fun room => ?_
      have live := finds.domain domain (seen (by rw [domain]; decide) ▸ known) room
      rw [nameSeen_zero ((starts.left.domain domain).2 rfl) absent] at live
      cases live
    · exact samrMethodReturn_nameless starts names known absent
  · refine samrMethodReturn_unknown starts ?_ known
    intro connect
    rcases lacks with ⟨notConnect, -⟩ | ⟨-, ch, found, -⟩ | ⟨domain, -⟩ | ⟨names, -⟩
    · exact notConnect connect
    · exact known (AList.lookup_isSome.mp (found ▸ rfl))
    · exact absurd (connect.symm.trans domain) (by decide)
    · exact absurd (connect.symm.trans names) (by decide)

end

/-! Runs. -/

/-- A server reached by requests of the service that were answered. In between the rest of the
daemon works, and frees no user that a handle refers to. -/
inductive SamrReached (machine : Machine) : Server → Prop
  | start (server : Server) (empty : server.store.chTable = ∅) : SamrReached machine server
  | written {server : Server} (write : Command) (earlier : SamrReached machine server)
      (samr : service? write.flags = some .samr) (answered : (rpcWriteRequest machine write ⟨server, {}⟩).1 ≠ .fault) :
      SamrReached machine (rpcWriteRequest machine write ⟨server, {}⟩).2.server
  | read {server : Server} (read : Command) (maxRespSz : Nat) (earlier : SamrReached machine server)
      (samr : service? read.flags = some .samr)
      (answered : (rpcReadRequest machine read maxRespSz ⟨server, {}⟩).1 ≠ .fault) :
      SamrReached machine (rpcReadRequest machine read maxRespSz ⟨server, {}⟩).2.server
  | ioctl {server : Server} (req : Command) (maxRespSz : Nat) (earlier : SamrReached machine server)
      (samr : service? req.flags = some .samr) (answered : (rpcIoctlRequest machine req maxRespSz ⟨server, {}⟩).1 ≠ .fault) :
      SamrReached machine (rpcIoctlRequest machine req maxRespSz ⟨server, {}⟩).2.server
  | elsewhere {server after : Server} (earlier : SamrReached machine server)
      (same : after.store.chTable = server.store.chTable)
      (kept : HandlesLive after.store.management server.store.chTable) : SamrReached machine after

theorem SamrReached.live {machine : Machine} {server : Server} (reached : SamrReached machine server) :
    HandlesLive server.store.management server.store.chTable := by
  induction reached with
  | start server empty =>
    rw [empty]
    exact .empty _
  | @written server write _ samr _ ih => exact rpcWriteRequest_live samr ⟨server, {}⟩ ih
  | @read server read maxRespSz _ samr _ ih => exact rpcReadRequest_live maxRespSz samr ⟨server, {}⟩ ih
  | @ioctl server req maxRespSz _ samr _ ih => exact rpcIoctlRequest_live maxRespSz samr ⟨server, {}⟩ ih
  | elsewhere _ same kept =>
    rw [same]
    exact kept

/-- A call is answered with a status, an error where something is lacking, exactly if the
name that a domain is looked up by and the user that is queried are there, and the name that users are looked up by was not
freed. -/
theorem samr_answers_iff (machine : Machine) (server : Server) (reached : SamrReached machine server) (channel : Channel)
    (write read : Command) (maxRespSz : Nat) (commands : SamrCommands write read)
    (whole : headerSize + responseHeaderSize ≤ write.payload.length)
    (found : server.pipes.lookup write.handle = some channel) (idle : channel.dce.returnReady = false) :
    SamrAnswers server write.payload (samrCall machine write read maxRespSz ⟨server, {}⟩).1 ↔
      FindsObjects machine server channel write.payload maxRespSz := by
  rcases ran : invokeHandler machine (Exchange.writing ⟨server, {}⟩ channel write) with ⟨outcome, parsed⟩
  have written : SamrWritten machine server channel write read outcome parsed := ⟨commands, whole, found, idle, ran⟩
  obtain ⟨starts, -, -⟩ := samrRead_starts maxRespSz written
  have defined := samrMethodReturn_defined_iff starts reached.live
  have faults := samrCall_fault_iff maxRespSz written
  constructor
  · intro answers
    exact defined.mp fun faulted => answers.status (faults.mpr faulted)
  · intro finds
    refine ⟨fun faulted => defined.mpr finds (faults.mp faulted), fun lacks ended => ?_⟩
    obtain ⟨rfl, -⟩ := (samrCall_written maxRespSz written).2.2.mp ended
    obtain ⟨code, failed, stopped⟩ := samrMethodReturn_lacking starts lacks finds
    exact samrCall_refused written failed (Prod.ext stopped rfl) ended

namespace Scenario

def samrLookupDomain (name : List UInt8) : List UInt8 := request 5 5 (samrConnected ++ [14, 0, 14, 0] ++ name)

def samrBuiltin : List UInt8 :=
  int32 1 ++ int32 8 ++ int32 0 ++ int32 8 ++ [66, 0, 117, 0, 105, 0, 108, 0, 116, 0, 105, 0, 110, 0, 0, 0]

def samrQueryUserInfo (handle : Handle) : List UInt8 := request 36 6 handle

theorem samrCalls_reached : SamrReached machine (samrCalls [samrConnect]) := by
  obtain ⟨channel, found⟩ : ∃ channel, server.pipes.lookup pipe = some channel := Option.isSome_iff_exists.mp
    (by decide +kernel)
  have idle : ∀ channel ∈ server.pipes.lookup pipe, channel.dce.returnReady = false := by decide +kernel
  have answered : (rpcWriteRequest machine (samrWrite samrConnect) ⟨server, {}⟩).1 = .ok () := by decide +kernel
  have wrote : rpcWriteRequest machine (samrWrite samrConnect) ⟨server, {}⟩ =
      (.ok (), ⟨(rpcWriteRequest machine (samrWrite samrConnect) ⟨server, {}⟩).2.server, {}⟩) := by
    rw [rpcWriteRequest_idle found (idle channel found)] at answered ⊢
    exact Prod.ext answered rfl
  have behind : samr server samrConnect = rpcReadRequest machine samrRead 4080
    ⟨(rpcWriteRequest machine (samrWrite samrConnect) ⟨server, {}⟩).2.server, {}⟩ := samrCall_ok wrote
  obtain ⟨-, written, read, -⟩ : SamrCommands (samrWrite samrConnect) samrRead := samr_commands (by decide +kernel)
  rw [samrCalls, List.foldl_cons, List.foldl_nil, behind]
  exact .read samrRead 4080 (.written _ (.start server rfl) written (by rw [answered]; simp)) read (by decide +kernel)

end Scenario

open Scenario in
/-- A domain that is looked up by its name, and a query that was cut off in front of its handle. -/
theorem samr_answers_domain :
    samrConnected ∈ (samrCalls [samrConnect]).store.chTable ∧
    SamrAnswers (samrCalls [samrConnect]) (samrLookupDomain samrBuiltin)
      (samr (samrCalls [samrConnect]) (samrLookupDomain samrBuiltin)).1 ∧
    SamrAnswers (samrCalls [samrConnect]) (samrQueryUserInfo [])
      (samr (samrCalls [samrConnect]) (samrQueryUserInfo [])).1 := by
  have there : ((samrCalls [samrConnect]).pipes.lookup pipe).isSome = true := by decide +kernel
  obtain ⟨channel, found⟩ := Option.isSome_iff_exists.mp there
  have idle : ∀ channel ∈ (samrCalls [samrConnect]).pipes.lookup pipe, channel.dce.returnReady = false := by decide +kernel
  have named : ∀ channel ∈ (samrCalls [samrConnect]).pipes.lookup pipe, nameSeen machine
      (samrCalls [samrConnect]).store.strings channel.dce.req channel.dce.stream.flags.asciiString 44
      (samrLookupDomain samrBuiltin) = .live := by decide +kernel
  have unknown : ∀ channel ∈ (samrCalls [samrConnect]).pipes.lookup pipe, (samrCalls [samrConnect]).store.chTable.lookup
      (seenHandle machine channel.dce.req (samrQueryUserInfo [])) = none := by decide +kernel
  refine ⟨by decide +kernel, ?_, ?_⟩
  · refine (samr_answers_iff machine _ samrCalls_reached channel (samrWrite (samrLookupDomain samrBuiltin)) samrRead 4080
      (samr_commands (by decide +kernel)) (by decide +kernel) found (idle channel found)).mpr
      ⟨fun _ _ _ => named channel found, fun names => ?_, fun info => ?_⟩
    · exact absurd names (by decide +kernel)
    · exact absurd info (by decide +kernel)
  · refine (samr_answers_iff machine _ samrCalls_reached channel (samrWrite (samrQueryUserInfo [])) samrRead 4080
      (samr_commands (by decide +kernel)) (by decide +kernel) found (idle channel found)).mpr
      ⟨fun domain => ?_, fun names => ?_, fun _ _ ch there => ?_⟩
    · exact absurd domain (by decide +kernel)
    · exact absurd names (by decide +kernel)
    · cases (unknown channel found).symm.trans there

open Scenario in
/-- Behind a connect, a domain is looked up without a name, or with one that is cut off and refused, and a user is queried
that was not looked up. -/
theorem samr_uses_absent :
    SamrReached machine (samrCalls [samrConnect]) ∧
    (samr (samrCalls [samrConnect]) (samrLookupDomain (int32 0))).1 = .fault ∧
    (rpcWriteRequest machine (samrWrite (samrLookupDomain (int32 1))) ⟨samrCalls [samrConnect], {}⟩).1 =
      .stop .invalidParameter ∧
    (samr (samrCalls [samrConnect]) (samrLookupDomain (int32 1))).1 = .fault ∧
    (samr (samrCalls [samrConnect]) (samrQueryUserInfo samrConnected)).1 = .fault :=
  ⟨samrCalls_reached, by decide +kernel, by decide +kernel, by decide +kernel, by decide +kernel⟩

end KsmbdTools.Rpc
