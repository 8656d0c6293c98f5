import KsmbdTools.Rpc.Proofs.Collecting
import KsmbdTools.Rpc.Proofs.Emitting

/-! What a read leaves on the pipe. The entries are dropped behind a reply that
was written to its end, or before one for a level nobody knows. -/

namespace KsmbdTools.Rpc
open Management Proc

def EntryProcessed.step : EntryProcessed → Int
  | .share => 1
  | .names => 0

/-- The references these entries still have to give back. -/
structure Owes (base : State) (kind : EntryProcessed) (entries : List Entry) (management : State) : Prop where
  lent : management = lent base entries
  kinds : ∀ entry ∈ entries, entry.Has base kind

theorem Borrowed.owes {base management : State} {kind : EntryProcessed} {pipe : Pipe}
    (borrowed : Borrowed base kind pipe management) : Owes base kind pipe.entries management :=
  ⟨borrowed.lent, borrowed.kinds⟩

namespace Call
variable {machine : Machine} {base : State} {call : Call}

/-- One entry gone from the front, with its reference given back. -/
structure Popped (base : State) (kind : EntryProcessed) (entries : List Entry) (before after : Call) : Prop where
  owes : Owes base kind entries after.store.management
  entries : after.pipe.entries = entries
  numEntries : after.pipe.numEntries = before.pipe.numEntries - kind.step
  consumed : after.pipe.ioctlReplyConsumed = before.pipe.ioctlReplyConsumed
  processed : after.pipe.entryProcessed = before.pipe.entryProcessed
  stream : after.stream = before.stream
  req : after.req = before.req

theorem shareEntryProcessed_pops (held : base.Held) {entry : Entry} {entries : List Entry}
    (front : call.pipe.entries = entry :: entries) (owes : Owes base .share (entry :: entries) call.store.management) :
    (shareEntryProcessed machine call).1 = .fault ∨
      ∃ after, shareEntryProcessed machine call = (.ok (), after) ∧ Popped base .share entries call after := by
  have kind := owes.kinds entry (List.mem_cons_self ..)
  cases entry with
  | names info => exact absurd kind (fun impossible => impossible)
  | share ref =>
    have owed : call.store.management = (lent base entries).lendShare ref := owes.lent
    simp only [shareEntryProcessed, bind_apply, get_apply, front]
    cases call.store.management.shares.get? ref with
    | none => exact .inl rfl
    | some record =>
      refine .inr ⟨_, rfl, ⟨⟨?_, fun other member => owes.kinds other (List.mem_cons_of_mem _ member)⟩, rfl, rfl, rfl,
        rfl, rfl, rfl⟩⟩
      show call.store.management.putKsmbdShare machine.toPlatform (some ref) = lent base entries
      rw [owed, State.putShare_lendShare _ (lent_held held entries)]

theorem namesEntryProcessed_pops (held : base.Held) {entry : Entry} {entries : List Entry}
    (front : call.pipe.entries = entry :: entries) (owes : Owes base .names (entry :: entries) call.store.management) :
    (namesEntryProcessed call).1 = .fault ∨
      ∃ after, namesEntryProcessed call = (.ok (), after) ∧ Popped base .names entries call after := by
  have kind := owes.kinds entry (List.mem_cons_self ..)
  have rest : ∀ other ∈ entries, other.Has base .names :=
    fun other member => owes.kinds other (List.mem_cons_of_mem _ member)
  cases entry with
  | share ref => exact absurd kind (fun impossible => impossible)
  | names info =>
    have owed : call.store.management = info.user.elim (lent base entries) (lent base entries).lendUser := owes.lent
    simp only [namesEntryProcessed, bind_apply, get_apply, front]
    cases holder : info.user with
    | none =>
      rw [holder] at owed
      exact .inr ⟨_, rfl, ⟨⟨owed, rest⟩, rfl, (Int.sub_zero _).symm, rfl, rfl, rfl, rfl⟩⟩
    | some user =>
      rw [holder] at owed
      simp only [bind_apply]
      cases call.store.management.users.get? user with
      | none => exact .inl rfl
      | some record =>
        refine .inr ⟨_, rfl, ⟨⟨?_, rest⟩, rfl, (Int.sub_zero _).symm, rfl, rfl, rfl, rfl⟩⟩
        show call.store.management.putKsmbdUser (some user) = lent base entries
        have listed : (lent base entries).IsListed user := by
          rw [State.IsListed, lent_usersTable]
          exact kind user holder
        rw [owed, Option.elim_some, State.putUser_lendUser (lent_held held entries) listed]

/-- All entries gone and their references given back. -/
structure Dropped (base : State) (kind : EntryProcessed) (before after : Call) : Prop where
  entries : after.pipe.entries = []
  numEntries : after.pipe.numEntries = before.pipe.numEntries - kind.step * before.pipe.entries.length
  management : after.store.management = base
  consumed : after.pipe.ioctlReplyConsumed = before.pipe.ioctlReplyConsumed
  processed : after.pipe.entryProcessed = before.pipe.entryProcessed
  stream : after.stream = before.stream
  req : after.req = before.req

theorem each_pops {kind : EntryProcessed} {body : Proc Call Status Unit}
    (pops : ∀ {call : Call} {entry entries}, call.pipe.entries = entry :: entries →
      Owes base kind (entry :: entries) call.store.management →
      (body call).1 = .fault ∨ ∃ after, body call = (.ok (), after) ∧ Popped base kind entries call after)
    (rounds : List Nat) (owes : Owes base kind call.pipe.entries call.store.management)
    (each : rounds.length = call.pipe.entries.length) :
    (Proc.each rounds (fun _ => body) call).1 = .fault ∨
      ∃ after, Proc.each rounds (fun _ => body) call = (.ok (), after) ∧ Dropped base kind call after := by
  induction rounds generalizing call with
  | nil =>
    have none : call.pipe.entries = [] := List.eq_nil_of_length_eq_zero each.symm
    rw [none] at owes
    exact .inr ⟨call, rfl, ⟨none, by simp [none], owes.lent, rfl, rfl, rfl, rfl⟩⟩
  | cons round rounds ih =>
    cases front : call.pipe.entries with
    | nil => simp [front] at each
    | cons entry entries =>
      rw [front] at owes
      rcases pops front owes with faulted | ⟨after, ran, popped⟩
      · exact .inl (bind_faulted _ faulted)
      · have whole : Proc.each (round :: rounds) (fun _ => body) call = Proc.each rounds (fun _ => body) after :=
          bind_ok ran
        rw [whole]
        have left : rounds.length = after.pipe.entries.length := by
          rw [popped.entries]
          simpa [front] using each
        rcases ih (popped.entries.symm ▸ popped.owes) left with faulted | ⟨last, ranRest, dropped⟩
        · exact .inl faulted
        · have count : last.pipe.numEntries =
              call.pipe.numEntries - kind.step * call.pipe.entries.length := by
            rw [dropped.numEntries, popped.numEntries, popped.entries, front, List.length_cons, Int.natCast_succ,
              Int.mul_add, Int.mul_one]
            omega
          exact .inr ⟨last, ranRest, ⟨dropped.entries, count, dropped.management,
            dropped.consumed.trans popped.consumed, dropped.processed.trans popped.processed,
            dropped.stream.trans popped.stream, dropped.req.trans popped.req⟩⟩

theorem processEntries_shared (held : base.Held) (shared : OnLoans (Shared base) call) :
    (processEntries machine call.pipe.numEntries.toNat call).1 = .fault ∨
      ∃ after, processEntries machine call.pipe.numEntries.toNat call = (.ok (), after) ∧
        OnLoans (Emptied base) after ∧ after.stream = call.stream ∧ after.req = call.req := by
  have counted : (List.range call.pipe.numEntries.toNat).length = call.pipe.entries.length := by
    simp [shared.1.counted]
  simp only [processEntries, bind_apply, get_apply, shared.2]
  rcases each_pops (shareEntryProcessed_pops held) _ shared.1.owes counted with faulted | ⟨after, ran, dropped⟩
  · exact .inl faulted
  · refine .inr ⟨after, ran, ⟨dropped.entries, ?_, dropped.consumed.trans shared.1.fresh, dropped.management⟩,
      dropped.stream, dropped.req⟩
    rw [dropped.numEntries, shared.1.counted]
    simp [EntryProcessed.step]

theorem processEntries_named (held : base.Held) (named : OnLoans (Named base) call) :
    (processEntries machine call.pipe.numEntries.toNat call).1 = .fault ∨
      ∃ after, processEntries machine call.pipe.numEntries.toNat call = (.ok (), after) ∧
        Dropped base .names call after := by
  have counted : (List.range call.pipe.numEntries.toNat).length = call.pipe.entries.length := by
    simp [named.1.counted]
  simp only [processEntries, bind_apply, get_apply, named.2]
  exact each_pops (namesEntryProcessed_pops held) _ named.1.owes counted

end Call

/-! The scripts of the replies that list entries. -/

def shareScript (store : Store) (items : Share → List Item) : Entry → Script
  | .share ref => .deref (store.management.shares.get? ref) fun share => .just (items share)
  | .names _ => .broken

def arrayScript (call : Call) (level : Srvsvc.Level) : Script :=
  let count := call.pipe.numEntries.toNat
  .chain (.eachEntry (shareScript call.store (Srvsvc.entryRep level)) call.pipe.entries count)
    (.eachEntry (shareScript call.store (Srvsvc.entryData level)) call.pipe.entries count)

section
open Call
variable {machine : Machine} {base : State} {call : Call}

private theorem shareLoop_emits (items : Share → List Item) (entries : List Entry) (count : Nat) :
    Emits machine Beside (eachEntry entries count fun entry => do
      let share ← entry.share?
      Call.write machine (items share)) (.ok ()) call (.eachEntry (shareScript call.store items) entries count) := by
  refine .eachEntry .beside entries count fun entry after kept => ?_
  have same : after.store = call.store := by rw [kept]
  simp only [Entry.share?, bind_assoc]
  refine .get ?_
  cases entry with
  | names info => exact .fault rfl
  | share ref =>
    rw [← same]
    exact .deref fun share _ => .write .beside _

theorem ndrWriteArrayOfStructs_finishes (held : base.Held) (shared : OnLoans (Shared base) call) (level : Srvsvc.Level)
    {rest : Unit → Proc Call Status Unit} (kept : Preserves (OnLoans (Emptied base)) (rest ())) :
    Finishes machine Beside (ndrWriteArrayOfStructs machine level call.pipe.numEntries.toNat >>= rest) call
      (arrayScript call level) fun ended => OnLoans (Emptied base) ended.2 := by
  simp only [ndrWriteArrayOfStructs, bind_assoc]
  refine .get (.bind .beside (shareLoop_emits _ _ _) fun middle along => ?_)
  have store : middle.store = call.store := by rw [along]
  rw [← store]
  refine .bindLast .beside (shareLoop_emits _ _ _) fun after beside => ?_
  have pipe : after.pipe = call.pipe := by rw [beside, along]
  have still : OnLoans (Shared base) after := by
    rw [beside, along]
    exact shared
  rw [← pipe]
  rcases processEntries_shared held still with faulted | ⟨last, ran, empty, _⟩
  · exact .inl (bind_faulted _ faulted)
  · right
    rw [bind_ok ran]
    exact kept last empty

/-- What a reply of the server service writes up to the last of its entries. -/
def srvsvcScript (machine : Machine) (opnum : UInt16) (call : Call) : Script :=
  let level := (call.req.siReq machine).level
  let count := UInt32.ofInt call.pipe.numEntries
  .deref (Srvsvc.level? level) fun known => .chain
    (if opnum = Srvsvc.getShareInfo then .just [.int32 level, .int32 level]
      else .chain (.just [.int32 level, .int32 level, .ref, .int32 count]) (.just [.ref, .int32 count]))
    (arrayScript call known)

def srvsvcMethodReturn (machine : Machine) (opnum : UInt16) (restricted : Bool) : Proc Call Status Unit :=
  if opnum = Srvsvc.getShareInfo then srvsvcShareGetInfoReturn machine restricted
  else if opnum = Srvsvc.shareEnumAll then srvsvcShareEnumAllReturn machine
  else Proc.stop .notImplemented

theorem Shared.numEntries_ne {pipe : Pipe} {management : State} (shared : Shared base pipe management)
    (occupied : pipe.entries ≠ []) : pipe.numEntries ≠ 0 := by
  rw [shared.1.counted]
  simpa using occupied

theorem srvsvcMethodReturn_finishes (held : base.Held) {opnum : UInt16} {restricted : Bool}
    (method : opnum = Srvsvc.shareEnumAll ∨ opnum = Srvsvc.getShareInfo) (shared : OnLoans (Shared base) call)
    (occupied : call.pipe.entries ≠ []) (known : (Srvsvc.level? (call.req.siReq machine).level).isSome) :
    Finishes machine Beside (srvsvcMethodReturn machine opnum restricted) call (srvsvcScript machine opnum call)
      fun ended => OnLoans (Emptied base) ended.2 := by
  obtain ⟨level, known⟩ := Option.isSome_iff_exists.mp known
  have listed : call.pipe.numEntries ≠ 0 := shared.numEntries_ne occupied
  have still : ∀ {after}, Beside call after → OnLoans (Shared base) after ∧ after.pipe = call.pipe ∧
      arrayScript after level = arrayScript call level := by
    intro after beside
    rw [beside]
    exact ⟨shared, rfl, rfl⟩
  rw [srvsvcScript, known]
  simp only [Script.deref, Option.elim_some]
  rcases method with rfl | rfl
  · rw [if_neg (by decide), Script.chain_assoc, srvsvcMethodReturn, if_neg (by decide), if_pos rfl, srvsvcShareEnumAllReturn]
    refine .get (.bind .beside (.write .beside _) fun first beside => ?_)
    simp only [if_neg listed]
    refine .bind .beside (.write .beside _) fun second more => ?_
    obtain ⟨shared, pipe, script⟩ := still (Frame.beside.trans beside more)
    rw [known, ← script, ← pipe]
    refine ndrWriteArrayOfStructs_finishes held shared level ?_
    exact .bind .get fun _ => ndr_loans _ _
  · rw [if_pos rfl, srvsvcMethodReturn, if_pos rfl, srvsvcShareGetInfoReturn]
    refine .get (.bind .beside (.write .beside _) fun first beside => ?_)
    obtain ⟨shared, pipe, script⟩ := still beside
    rw [if_pos (by simpa using listed), known, ← script, ← pipe]
    have whole : Finishes machine Beside (ndrWriteArrayOfStructs machine level first.pipe.numEntries.toNat >>= pure) first
        (arrayScript first level) fun ended => OnLoans (Emptied base) ended.2 :=
      ndrWriteArrayOfStructs_finishes held shared level (.pure ())
    rwa [bind_pure] at whole

theorem srvsvcMethodReturn_emptied (opnum : UInt16) (restricted : Bool) :
    Preserves (OnLoans (Emptied base)) (srvsvcMethodReturn machine opnum restricted) := by
  refine .ite ?info (.ite ?all (.stop _))
  case info =>
    intro call empty
    have none : call.pipe.numEntries = 0 := empty.numEntries
    refine bind_still rfl empty ?_
    rintro _ ⟨⟩
    refine Preserves.bind (ndr_loans _ _) (fun _ => ?_) call empty
    simp only [none, bne_self_eq_false, Bool.false_eq_true, ↓reduceIte]
    split
    next => exact .stop _
    next => exact .bind (ndr_loans _ _) fun _ => .stop _
  case all =>
    intro call empty
    have none : call.pipe.numEntries = 0 := empty.numEntries
    refine bind_still rfl empty ?_
    rintro _ ⟨⟩
    simp only [if_pos none]
    exact Preserves.bind (ndr_loans _ _) (fun _ => .bind (ndr_loans _ _) fun _ => .bind .get fun _ =>
      ndr_loans _ _) call empty

theorem loans_written {assertion : Pipe → State → Prop} : Written machine (OnLoans assertion) where
  req _ _ holds := holds
  strings _ _ holds := holds
  write _ := ndr_loans _ _
  security := samrQuerySecurityReturn_keeps (fun _ => ndr_loans _ _) fun _ => .modify fun _ holds => holds

theorem rpcPipeReset_shared (held : base.Held) (shared : OnLoans (Shared base) call) :
    (rpcPipeReset machine call).1 = .fault ∨
      ∃ after, rpcPipeReset machine call = (.ok (), after) ∧ OnLoans (Emptied base) after := by
  have start : rpcPipeReset machine call = (processEntries machine call.pipe.numEntries.toNat >>= fun _ =>
      Proc.modify fun call =>
      { call with pipe := { call.pipe with numEntries := 0, ioctlReplyConsumed := false } }) call := rfl
  rw [start]
  rcases processEntries_shared held shared with faulted | ⟨after, ran, empty, _⟩
  · exact .inl (bind_faulted _ faulted)
  · exact .inr ⟨_, bind_ok ran, ⟨empty.entries, rfl, rfl, empty.management⟩⟩

/-- Can the script be written to its end behind the headers of a reply? -/
def fits (machine : Machine) (flags : NdrFlags) (limit : Nat) (script : Script) : Bool :=
  script.complete && (Reach.items limit machine.toPlatform flags (headerSize + responseHeaderSize) script.items).whole

def Told (condition : Prop) (base : State) (pipe : Pipe) (management : State) : Prop :=
  (condition ∧ Emptied base pipe management) ∨ (¬condition ∧ pipe.entries ≠ [])

theorem Told.congr {first second : Prop} {pipe : Pipe} {management : State} (told : Told first base pipe management)
    (same : first ↔ second) : Told second base pipe management := by
  rw [Told, ← same]
  exact told

theorem Finishes.told {keeps : Call → Call → Prop} {program : Proc Call Status Unit} {script : Script}
    (finishes : Finishes machine keeps program call script fun ended => OnLoans (Emptied base) ended.2)
    (start : call.stream.offset = headerSize + responseHeaderSize)
    (kept : ∀ {after}, keeps call after → after.pipe.entries ≠ []) :
    (program call).1 = .fault ∨
      OnLoans (Told (fits machine call.stream.flags call.stream.payloadSz script = true) base) (program call).2 := by
  have reached : fits machine call.stream.flags call.stream.payloadSz script =
      (script.complete && (call.reach machine script.items).whole) := by
    rw [fits, reach, start]
  cases finishes with
  | fault ran => exact .inl ran
  | done complete whole ends => exact .inr (.inl ⟨by rw [reached, complete, whole]; rfl, ends⟩)
  | full short ran keep =>
    refine .inr (.inr ⟨by simp [reached, short], ?_⟩)
    rw [ran]
    exact kept keep

theorem srvsvcShareInfoReturn_told (held : base.Held) {opnum : UInt16} {restricted : Bool}
    (method : opnum = Srvsvc.shareEnumAll ∨ opnum = Srvsvc.getShareInfo) (shared : OnLoans (Shared base) call)
    (occupied : call.pipe.entries ≠ []) :
    (srvsvcShareInfoReturn machine opnum restricted call).1 = .fault ∨
      OnLoans (Told ((Srvsvc.level? (call.req.siReq machine).level).isNone ∨
        fits machine call.stream.flags call.stream.payloadSz (srvsvcScript machine opnum call)) base)
        (srvsvcShareInfoReturn machine opnum restricted call).2 := by
  let start : Call := { call with
    stream := { call.stream with offset := headerSize + responseHeaderSize }
    pipe := { call.pipe with numProcessed := 0 } }
  let rest : Proc Call Status Status := do
    let status ← Proc.code .ok (srvsvcMethodReturn machine opnum restricted)
    let status := if restricted && opnum != Srvsvc.shareEnumAll then .accessDenied else status
    srvsvcClearHeaders machine opnum status
    return status
  have whole : srvsvcShareInfoReturn machine opnum restricted call =
      (if (Srvsvc.level? (call.req.siReq machine).level).isNone then rpcPipeReset machine >>= fun _ => rest
        else rest) start := rfl
  have begun : OnLoans (Shared base) start :=
    ⟨⟨shared.1.lent, shared.1.counted, shared.1.fresh, shared.1.kinds⟩, shared.2⟩
  have ending : ∀ {assertion : Pipe → State → Prop} (status : Status), Preserves (OnLoans assertion) (do
      srvsvcClearHeaders machine opnum status
      return status) := fun status => .bind (srvsvcClearHeaders_keeps loans_written opnum status) fun _ => .pure status
  rw [whole]
  cases level : (Srvsvc.level? (call.req.siReq machine).level).isNone with
  | true =>
    rcases rpcPipeReset_shared held begun with faulted | ⟨after, ran, empty⟩
    · exact .inl (bind_faulted _ faulted)
    · right
      show OnLoans _ ((rpcPipeReset machine >>= fun _ => rest) start).2
      rw [bind_ok ran]
      refine code_bind_along (fun status => ending _) ?_
      exact .inl ⟨.inl rfl, srvsvcMethodReturn_emptied opnum restricted after empty⟩
  | false =>
    have known : (Srvsvc.level? (start.req.siReq machine).level).isSome := by
      rw [← Option.not_isNone]
      simp [start, level]
    have finishes : Finishes machine Beside (srvsvcMethodReturn machine opnum restricted) start
        (srvsvcScript machine opnum start) fun ended => OnLoans (Emptied base) ended.2 :=
      srvsvcMethodReturn_finishes held method begun occupied known
    rcases Finishes.told finishes rfl (fun {after} beside => by rw [beside]; exact occupied) with faulted | told
    · exact .inl (code_bind_faulted _ faulted)
    · right
      refine code_bind_along (fun status => ending _) ?_
      exact told.congr ⟨.inr, fun known => known.resolve_left Bool.false_ne_true⟩

/-! The local security authority. -/

def namesScript (script : LsarpcNamesInfo → Script) : Entry → Script
  | .names info => script info
  | .share _ => .broken

def userName? (store : Store) (info : LsarpcNamesInfo) : Option CStr :=
  match info.user with
  | none => some [78, 111, 110, 101]
  | some user => (store.management.users.get? user).map (·.name)

def sid2Script (call : Call) : Script :=
  let count := UInt32.ofInt call.pipe.numEntries
  let each script := Script.eachEntry (namesScript script) call.pipe.entries call.pipe.numEntries.toNat
  .chain (.just [.ref, .int32 count, .ref, .int32 32, .int32 count]) <|
  .chain (each fun info => .just (domainAccountRep info.domainStr)) <|
  .chain (each fun info => .just (domainAccountData info.domainStr info.sid)) <|
  .chain (.just [.int32 count, .ref, .int32 count]) <|
  .chain (each fun info => .deref (userName? call.store info) fun name => .just (sid2NameRep info name)) <|
  .chain (each fun info => .deref (userName? call.store info) fun name => .just [.string name]) <|
  .just [.int32 count]

private theorem namesLoop_emits {keeps : Call → Call → Prop} (frame : Frame keeps)
    {script : LsarpcNamesInfo → Script} {body : LsarpcNamesInfo → Proc Call Status Unit}
    (entries : List Entry) (count : Nat)
    (valid : ∀ info after, keeps call after → Emits machine keeps (body info) (.ok ()) after (script info)) :
    Emits machine keeps (eachEntry entries count fun entry => do
      let info ← entry.names?
      body info) (.ok ()) call (.eachEntry (namesScript script) entries count) := by
  refine .eachEntry frame entries count fun entry after kept => ?_
  cases entry with
  | share ref => exact .fault rfl
  | names info => exact valid info after kept

private theorem userName_emits {call : Call} (info : LsarpcNamesInfo) (items : CStr → List Item) :
    Emits machine Beside (do
      let name ← userName info
      Call.write machine (items name)) (.ok ()) call (.deref (userName? call.store info) fun name =>
        .just (items name)) := by
  simp only [userName, bind_assoc]
  refine .get ?_
  cases holder : info.user with
  | none =>
    simp only [userName?, holder]
    exact .write .beside _
  | some user =>
    simp only [userName?, holder, bind_assoc]
    cases found : call.store.management.users.get? user with
    | none => exact .fault rfl
    | some record => exact .write .beside _

theorem lsarpcDropEntries_named (held : base.Held) (named : OnLoans (Named base) call) :
    (lsarpcDropEntries machine call).1 = .fault ∨
      ∃ after, lsarpcDropEntries machine call = (.ok (), after) ∧ OnLoans (Emptied base) after := by
  simp only [lsarpcDropEntries, bind_apply, get_apply, show call.pipe.entryProcessed = some .names from named.2,
    Option.isSome_some, ↓reduceIte]
  rcases processEntries_named held named with faulted | ⟨after, ran, dropped⟩
  · left
    revert faulted
    rcases processEntries machine call.pipe.numEntries.toNat call with ⟨_ | _ | _, last⟩ <;> intro faulted <;> cases faulted
    rfl
  · rw [ran]
    exact .inr ⟨_, rfl, ⟨dropped.entries, rfl, dropped.consumed.trans named.1.fresh, dropped.management⟩⟩

def knowsPolicy (machine : Machine) (call : Call) : Bool := (call.req.lrReq machine).handle ∈ call.store.phTable

theorem lsarpcPhLookup_known (known : knowsPolicy machine call = true) :
    lsarpcPhLookup machine call = (.ok (call.req.lrReq machine).handle, call) := by
  have member : (call.req.lrReq machine).handle ∈ call.store.phTable := of_decide_eq_true known
  simp only [lsarpcPhLookup, bind_apply, get_apply, if_pos member]
  rfl

theorem lsarpcPhLookup_unknown (unknown : knowsPolicy machine call = false) :
    lsarpcPhLookup machine call = (.stop .badFid, call) := by
  have absent : (call.req.lrReq machine).handle ∉ call.store.phTable := of_decide_eq_false unknown
  simp only [lsarpcPhLookup, bind_apply, get_apply, if_neg absent]
  rfl

theorem lsarpcLookupSid2Return_finishes (held : base.Held) (named : OnLoans (Named base) call)
    (known : knowsPolicy machine call = true) :
    Finishes machine Beside (lsarpcLookupSid2Return machine) call (sid2Script call)
      fun ended => OnLoans (Emptied base) ended.2 := by
  have frame := Frame.beside
  refine .bindStill frame id (.still (lsarpcPhLookup_known known) rfl rfl) fun after beside => .get ?_
  have script : sid2Script call = sid2Script after := by rw [beside]; rfl
  have named : OnLoans (Named base) after := by rw [beside]; exact named
  rw [script]
  have user : ∀ {last : Call} (info : LsarpcNamesInfo) (items : CStr → List Item), Beside after last →
      Emits machine Beside (do
        let name ← userName info
        Call.write machine (items name)) (.ok ()) last (.deref (userName? after.store info) fun name =>
          .just (items name)) := by
    intro last info items along
    have same : after.store = last.store := by rw [along]
    rw [same]
    exact userName_emits info items
  refine .bind frame (.write frame _) fun first b1 => ?_
  refine .bind frame (namesLoop_emits frame _ _ fun info _ _ => .write frame _) fun _ b2 => ?_
  refine .bind frame (namesLoop_emits frame _ _ fun info _ _ => .write frame _) fun _ b3 => ?_
  refine .bind frame (.write frame _) fun _ b4 => ?_
  have along4 := frame.trans (frame.trans (frame.trans b1 b2) b3) b4
  refine .bind frame (namesLoop_emits frame _ _ fun info _ b => user info _ (frame.trans along4 b)) fun _ b5 => ?_
  have along5 := frame.trans along4 b5
  refine .bind frame (namesLoop_emits frame _ _ fun info _ b => user info _ (frame.trans along5 b)) fun _ b6 => ?_
  refine .bindLast frame (.write frame _) fun last b7 => ?_
  have finished : OnLoans (Named base) last := by
    rw [frame.trans (frame.trans along5 b6) b7]
    exact named
  rcases lsarpcDropEntries_named held finished with faulted | ⟨dropped, ran, empty⟩
  · exact .inl (bind_faulted _ faulted)
  · right
    rw [bind_ok ran]
    exact Preserves.ite (.stop _) (.pure ()) dropped empty

/-- The identifier in an entry may be another one, the user is the same. -/
structure Sided (before after : Call) : Prop where
  store : after.store = before.store
  numEntries : after.pipe.numEntries = before.pipe.numEntries
  consumed : after.pipe.ioctlReplyConsumed = before.pipe.ioctlReplyConsumed
  processed : after.pipe.entryProcessed = before.pipe.entryProcessed
  lends : after.pipe.entries.map Entry.lend = before.pipe.entries.map Entry.lend
  names : ∀ base, (∀ entry ∈ before.pipe.entries, entry.Has base .names) → ∀ entry ∈ after.pipe.entries,
    entry.Has base .names

theorem Sided.frame : Frame Sided where
  stream _ _ := ⟨rfl, rfl, rfl, rfl, rfl, fun _ => id⟩
  trans earlier later := ⟨later.store.trans earlier.store, later.numEntries.trans earlier.numEntries,
    later.consumed.trans earlier.consumed,
    later.processed.trans earlier.processed, later.lends.trans earlier.lends,
      fun base all => later.names base (earlier.names base all)⟩

theorem lent_map {entries others : List Entry} (same : others.map Entry.lend = entries.map Entry.lend) :
    lent base others = lent base entries := by
  have folded : ∀ list : List Entry, lent base list = (list.map Entry.lend).foldr (fun lend state => lend state) base :=
    fun list => by rw [List.foldr_map]; rfl
  rw [folded, folded, same]

theorem Sided.named {after : Call} (sided : Sided call after) (named : OnLoans (Named base) call) :
    OnLoans (Named base) after := by
  have length : after.pipe.entries.length = call.pipe.entries.length := by
    simpa using congrArg List.length sided.lends
  refine ⟨⟨?_, ?_, sided.consumed.trans named.1.fresh, sided.names base named.1.kinds⟩, sided.processed.trans named.2⟩
  · rw [sided.store, lent_map sided.lends]
    exact named.1.lent
  · rw [sided.numEntries, length]
    exact named.1.counted

theorem Sided.entries_ne {after : Call} (sided : Sided call after) (occupied : call.pipe.entries ≠ []) :
    after.pipe.entries ≠ [] := by
  intro none
  have empty := sided.lends
  rw [none] at empty
  exact occupied (List.map_eq_nil_iff.mp empty.symm)

def names3SidScript (store : Store) (info : LsarpcNamesInfo) : Script :=
  if sidMaxSubAuthorities ≤ info.sid.numSubauth then .nothing
  else .deref info.user fun user => .deref (store.management.users.get? user) fun record =>
    .just (.int32 (UInt32.ofNat (info.sid.push record.uid).numSubauth) :: (info.sid.push record.uid).items)

def names3Script (machine : Machine) (call : Call) : Script :=
  let count := UInt32.ofInt call.pipe.numEntries
  let nr := call.pipe.numEntries.toNat
  .chain (.just (names3Items (domainName machine) (smbInitDomainSid call.store.management.globalConf) count)) <|
  .chain (.each (fun index => .just (names3Rep index)) (List.range nr)) <|
  .chain (.eachEntry (namesScript (names3SidScript call.store)) call.pipe.entries nr) <|
  .just [.int32 count]

def SidedUpTo (index : Nat) (before after : Call) : Prop :=
  Sided before after ∧ after.pipe.entries.drop (index + 1) = before.pipe.entries.drop (index + 1)

theorem SidedUpTo.frame (index : Nat) : Frame (SidedUpTo index) where
  stream call stream := ⟨Sided.frame.stream call stream, rfl⟩
  trans earlier later := ⟨Sided.frame.trans earlier.1 later.1, later.2.trans earlier.2⟩

theorem names3Sid_emits (index : Nat) (call : Call) :
    Emits machine (SidedUpTo index) (names3Sid machine index) (.ok ()) call
      (.deref call.pipe.entries[index]? (namesScript (names3SidScript call.store))) := by
  have frame := SidedUpTo.frame index
  refine .get (.deref fun entry found => ?_)
  cases entry with
  | share ref => exact .fault rfl
  | names info =>
    show Emits machine (SidedUpTo index) _ _ call (names3SidScript call.store info)
    simp only [names3SidScript]
    by_cases full : sidMaxSubAuthorities ≤ info.sid.numSubauth
    · simp only [Entry.names?, pure_bind, if_pos full]
      exact .pure frame ()
    · simp only [Entry.names?, pure_bind, if_neg full]
      refine .deref fun user holder => .deref fun record _ => ?_
      have kept : SidedUpTo index call { call with pipe := { call.pipe with
          entries := call.pipe.entries.set index (.names { info with sid := info.sid.push record.uid }) } } := by
        refine ⟨⟨rfl, rfl, rfl, rfl, ?_, ?_⟩, List.drop_set_of_lt (Nat.lt_succ_self index)⟩
        · obtain ⟨inside, here⟩ := List.getElem?_eq_some_iff.mp found
          have lends : Entry.lend (.names { info with sid := info.sid.push record.uid }) =
              Entry.lend call.pipe.entries[index] := by
            rw [here]
            rfl
          rw [List.map_set, lends, ← List.map_set, List.set_getElem_self]
        · intro base all entry member
          rcases List.mem_or_eq_of_mem_set member with old | rfl
          · exact all entry old
          · exact all (.names info) (List.mem_of_getElem? found)
      exact .bindStill frame (.still rfl kept rfl) fun _ _ => .write frame _

theorem names3Sids_emits (count start : Nat) (call : Call) :
    Emits machine Sided (Proc.each (List.range' start count) fun index => names3Sid machine index) (.ok ()) call
      (.eachEntry (namesScript (names3SidScript call.store)) (call.pipe.entries.drop start) count) := by
  induction count generalizing start call with
  | zero =>
    rw [Script.eachEntry_zero]
    exact .pure Sided.frame ()
  | succ count ih =>
    have first : Emits machine (SidedUpTo start) (names3Sid machine start) (.ok ()) call
        (.deref call.pipe.entries[start]? (namesScript (names3SidScript call.store))) := names3Sid_emits start call
    cases found : call.pipe.entries[start]? with
    | none =>
      have faulted : names3Sid machine start call = (.fault, call) := by
        simp only [names3Sid, bind_apply, get_apply, found]
        rfl
      exact .fault (bind_fault faulted)
    | some entry =>
      have split : call.pipe.entries.drop start = entry :: call.pipe.entries.drop (start + 1) := by
        obtain ⟨inside, rfl⟩ := List.getElem?_eq_some_iff.mp found
        exact List.drop_eq_getElem_cons inside
      rw [found] at first
      rw [split]
      refine .bindVia Sided.frame (·.1) first fun after sided => ?_
      rw [← sided.1.store, ← sided.2]
      exact ih (start + 1) after

theorem lsarpcLookupNames3Return_finishes (held : base.Held) (named : OnLoans (Named base) call)
    (known : knowsPolicy machine call = true) :
    Finishes machine Sided (lsarpcLookupNames3Return machine) call (names3Script machine call)
      fun ended => OnLoans (Emptied base) ended.2 := by
  have frame := Sided.frame
  refine .bindStill frame frame.of_beside (.still (lsarpcPhLookup_known known) rfl rfl) fun after b1 => .get ?_
  have script : names3Script machine call = names3Script machine after := by rw [b1]; rfl
  have named : OnLoans (Named base) after := by rw [b1]; exact named
  rw [script]
  refine .bindVia frame frame.of_beside (.write .beside _) fun _ b2 => ?_
  refine .bindVia frame frame.of_beside (.each .beside _ fun index _ _ => .write .beside _) fun middle b3 => ?_
  have along := Frame.beside.trans b2 b3
  have loop : Emits machine Sided (Proc.each (List.range after.pipe.numEntries.toNat) fun index => names3Sid machine index)
      (.ok ()) middle
      (.eachEntry (namesScript (names3SidScript after.store)) after.pipe.entries after.pipe.numEntries.toNat) := by
    have store : after.store = middle.store := by rw [along]
    have entries : after.pipe.entries = middle.pipe.entries.drop 0 := by rw [along]; rfl
    rw [List.range_eq_range', store, entries]
    exact names3Sids_emits _ 0 middle
  refine .bind frame loop fun _ sided => .bindLast frame (.write frame _) fun last more => ?_
  have finished : OnLoans (Named base) last :=
    (frame.trans (frame.trans (frame.of_beside along) sided) more).named named
  rcases lsarpcDropEntries_named held finished with faulted | ⟨dropped, ran, empty⟩
  · exact .inl faulted
  · right
    rw [ran]
    exact empty

/-- What a reply of the local security authority that lists entries comes to. -/
def lsarpcScript (machine : Machine) (opnum : UInt16) (call : Call) : Script :=
  if opnum = Lsarpc.lookupSid2 then sid2Script call else names3Script machine call

theorem lsarpcReturn_told (held : base.Held) {opnum : UInt16} {dssetup : Bool}
    (method : opnum = Lsarpc.lookupSid2 ∨ opnum = Lsarpc.lookupNames3) (named : OnLoans (Named base) call)
    (occupied : call.pipe.entries ≠ []) :
    (lsarpcReturn machine opnum dssetup call).1 = .fault ∨
      OnLoans (Told (knowsPolicy machine call = true ∧
        fits machine call.stream.flags call.stream.payloadSz (lsarpcScript machine opnum call)) base)
        (lsarpcReturn machine opnum dssetup call).2 := by
  let start : Call := { call with stream := { call.stream with offset := headerSize + responseHeaderSize } }
  have whole : lsarpcReturn machine opnum dssetup call =
      ((Proc.code .ok (lsarpcMethodReturn machine opnum dssetup) : Proc Call Status Status) >>= pure) start := by
    rw [bind_pure]
    rfl
  rw [whole]
  suffices told : (lsarpcMethodReturn machine opnum dssetup start).1 = .fault ∨
      OnLoans (Told (knowsPolicy machine call = true ∧
        fits machine call.stream.flags call.stream.payloadSz (lsarpcScript machine opnum call)) base)
        (lsarpcMethodReturn machine opnum dssetup start).2 by
    rcases told with faulted | told
    · exact .inl (code_bind_faulted _ faulted)
    · exact .inr (code_bind_along (fun _ => .pure _) told)
  cases known : knowsPolicy machine call with
  | false =>
    have unchanged : lsarpcMethodReturn machine opnum dssetup start = (.stop .badFid, start) := by
      have stopped : lsarpcPhLookup machine start = (.stop .badFid, start) := lsarpcPhLookup_unknown known
      rcases method with rfl | rfl <;> exact bind_stop stopped
    rw [unchanged]
    exact .inr (.inr ⟨fun both => Bool.false_ne_true both.1, occupied⟩)
  | true =>
    have begun : OnLoans (Named base) start := named
    have told : (lsarpcMethodReturn machine opnum dssetup start).1 = .fault ∨
        OnLoans (Told (fits machine call.stream.flags call.stream.payloadSz (lsarpcScript machine opnum call) = true) base)
          (lsarpcMethodReturn machine opnum dssetup start).2 := by
      rcases method with rfl | rfl
      · exact Finishes.told (lsarpcLookupSid2Return_finishes held begun known) rfl
          fun beside => by rw [beside]; exact occupied
      · exact Finishes.told (lsarpcLookupNames3Return_finishes held begun known) rfl fun sided => sided.entries_ne occupied
    exact told.imp id fun told => told.congr ⟨fun fit => ⟨rfl, fit⟩, And.right⟩

end
end KsmbdTools.Rpc
