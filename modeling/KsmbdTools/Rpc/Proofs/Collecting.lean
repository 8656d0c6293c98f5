import KsmbdTools.Management.Proofs.Accounts
import KsmbdTools.Rpc.Proofs.Parsing
import KsmbdTools.Rpc.Proofs.PipeRequests

/-! What the write phase collects on a pipe. Each entry holds a reference to its
share or user, and the server's tables differ from those before by these
references alone. -/

namespace KsmbdTools

namespace Management.State

def lendShare (state : State) (share : Ref Share) : State :=
  { state with shares := state.shares.modify share fun record => { record with refCount := record.refCount + 1 } }

def lendUser (state : State) (user : Ref User) : State :=
  { state with users := state.users.modify user fun record => { record with refCount := record.refCount + 1 } }

/-- Every share and every user of the table is held by someone. -/
structure Held (state : State) : Prop where
  shares : ∀ share record, state.shares.get? share = some record → 0 < record.refCount
  users : ∀ name user record, state.usersTable.lookup name = some user → state.users.get? user = some record →
    0 < record.refCount

theorem Held.of_sound {state : State} (shares : SharesSound state) (users : UsersSound state) : state.Held := by
  refine ⟨shares.held, fun name user record listed found => ?_⟩
  obtain ⟨same, seen, -, positive, -⟩ := users name user listed
  cases seen.symm.trans found
  exact positive

theorem getKsmbdShare_lends {state after : State} {share found : Ref Share}
    (got : state.getKsmbdShare share = (after, some found)) : found = share ∧ after = state.lendShare share := by
  revert got
  rw [getKsmbdShare]
  split
  · rintro ⟨⟩
  · split
    · rintro ⟨⟩
      exact ⟨rfl, rfl⟩
    · rintro ⟨⟩

theorem shmLookupShare_lends {platform : Platform} {state after : State} {name : CStr} {found : Ref Share}
    (got : state.shmLookupShare platform name = (after, some found)) : after = state.lendShare found := by
  revert got
  rw [shmLookupShare]
  split
  · rintro ⟨⟩
  · intro got
    obtain ⟨rfl, same⟩ := getKsmbdShare_lends got
    exact same

def IsListed (state : State) (user : Ref User) : Prop := ∃ name, state.usersTable.lookup name = some user

theorem usmLookupUser_lends {state after : State} {name : Option CStr} {user : Option (Ref User)}
    (got : state.usmLookupUser name = (after, user)) :
    after = user.elim state state.lendUser ∧ ∀ found ∈ user, state.IsListed found := by
  revert got
  rw [usmLookupUser]
  split
  · rintro ⟨⟩
    exact ⟨rfl, by simp⟩
  next found entry =>
    obtain ⟨key, -, listed⟩ := Option.bind_eq_some_iff.mp entry
    rw [getKsmbdUser]
    split
    · rintro ⟨⟩
      exact ⟨rfl, by simp⟩
    · split <;> rintro ⟨⟩
      · exact ⟨rfl, fun _ same => Option.some.inj same ▸ ⟨key, listed⟩⟩
      · exact ⟨rfl, by simp⟩

theorem putShare_lendShare {state : State} (platform : Platform) (held : state.Held) (share : Ref Share) :
    (state.lendShare share).putKsmbdShare platform (some share) = state := by
  have back : (state.lendShare share).shares.modify share (fun record => { record with refCount := record.refCount - 1 }) =
      state.shares := by
    rw [lendShare, Heap.modify_modify]
    refine Heap.modify_eq_self fun record found => ?_
    simp [Function.comp]
  have same : { state.lendShare share with shares := state.shares } = state := rfl
  rw [putKsmbdShare, Option.elim_some, putShare, back, same]
  split
  · rfl
  · next record found => exact if_neg (Int.ne_of_gt (held.shares share record found))

theorem putUser_lendUser {state : State} (held : state.Held) {user : Ref User} (listed : state.IsListed user) :
    (state.lendUser user).putKsmbdUser (some user) = state := by
  have back : (state.lendUser user).users.modify user (fun record => { record with refCount := record.refCount - 1 }) =
      state.users := by
    rw [lendUser, Heap.modify_modify]
    refine Heap.modify_eq_self fun record found => ?_
    simp [Function.comp]
  have same : { state.lendUser user with users := state.users } = state := rfl
  rw [putKsmbdUser, Option.elim_some, putUser, back, same]
  split
  · rfl
  · next record found =>
    obtain ⟨name, listed⟩ := listed
    exact if_neg (Int.ne_of_gt (held.users name user record listed found))

private theorem held_modify {heap : Heap α} {count : α → Int} {ref other : Ref α} {f : α → α}
    (held : ∀ record, heap.get? other = some record → 0 < count record)
    (more : ∀ record, count (f record) = count record + 1) :
    ∀ record, (heap.modify ref f).get? other = some record → 0 < count record := by
  intro record found
  rw [Heap.get?_modify] at found
  split at found
  · obtain ⟨old, was, rfl⟩ := Option.map_eq_some_iff.mp found
    have := held old was
    have := more old
    omega
  · exact held record found

theorem Held.lendShare {state : State} (held : state.Held) (share : Ref Share) : (state.lendShare share).Held :=
  ⟨fun share => held_modify (held.shares share) fun _ => rfl, held.users⟩

theorem Held.lendUser {state : State} (held : state.Held) (user : Ref User) : (state.lendUser user).Held :=
  ⟨held.shares, fun name user record listed => held_modify (fun record => held.users name user record listed) (fun _ => rfl)
    record⟩

end Management.State

namespace Rpc
open Management Proc

def Entry.lend : Entry → State → State
  | .share ref, state => state.lendShare ref
  | .names info, state => info.user.elim state state.lendUser

theorem Entry.lend_comm (first second : Entry) (state : State) :
    first.lend (second.lend state) = second.lend (first.lend state) := by
  cases first with
  | share share =>
    cases second with
    | share other => simp only [Entry.lend, State.lendShare, Heap.modify_comm]
    | names info => cases user : info.user <;> simp [Entry.lend, State.lendShare, State.lendUser, user]
  | names info =>
    cases second with
    | share other => cases user : info.user <;> simp [Entry.lend, State.lendShare, State.lendUser, user]
    | names info' =>
      cases user : info.user <;> cases other : info'.user <;>
        simp [Entry.lend, State.lendUser, user, other, Heap.modify_comm]

theorem Entry.lend_held {state : State} (held : state.Held) (entry : Entry) : (entry.lend state).Held := by
  cases entry with
  | share share => exact held.lendShare share
  | names info =>
    cases user : info.user with
    | none => simpa [Entry.lend, user] using held
    | some user' => simpa [Entry.lend, user] using held.lendUser user'

def lent (base : State) (entries : List Entry) : State := entries.foldr Entry.lend base

theorem lent_held {base : State} (held : base.Held) (entries : List Entry) : (lent base entries).Held := by
  induction entries with
  | nil => exact held
  | cons entry entries ih => exact entry.lend_held ih

theorem lent_usersTable (base : State) (entries : List Entry) : (lent base entries).usersTable = base.usersTable := by
  induction entries with
  | nil => rfl
  | cons entry entries ih =>
    rw [← ih]
    cases entry with
    | share share => rfl
    | names info => cases user : info.user <;> simp only [lent, List.foldr_cons, Entry.lend, user] <;> rfl

theorem lent_append (base : State) (entries : List Entry) (entry : Entry) :
    lent base (entries ++ [entry]) = entry.lend (lent base entries) := by
  induction entries with
  | nil => rfl
  | cons head entries ih => exact (congrArg head.lend ih).trans (head.lend_comm entry _)

/-- An entry of the kind, whose user if any is one of the table. -/
def Entry.Has (base : State) : EntryProcessed → Entry → Prop
  | .share, .share _ => True
  | .names, .names info => ∀ user ∈ info.user, base.IsListed user
  | _, _ => False

/-- The entries on the pipe, of one kind, and the references they hold beyond those of
the base. The reply to them has not been fetched by an ioctl. -/
structure Borrowed (base : State) (kind : EntryProcessed) (pipe : Pipe) (management : State) : Prop where
  lent : management = lent base pipe.entries
  counted : pipe.numEntries = pipe.entries.length
  fresh : pipe.ioctlReplyConsumed = false
  kinds : ∀ entry ∈ pipe.entries, entry.Has base kind

/-- Nothing on the pipe, and the tables those of the base. -/
structure Emptied (base : State) (pipe : Pipe) (management : State) : Prop where
  entries : pipe.entries = []
  numEntries : pipe.numEntries = 0
  fresh : pipe.ioctlReplyConsumed = false
  management : management = base

theorem Emptied.borrowed {base management : State} {pipe : Pipe} (empty : Emptied base pipe management)
    (kind : EntryProcessed) : Borrowed base kind pipe management := by
  refine ⟨?_, ?_, empty.fresh, ?_⟩
  · rw [empty.entries, empty.management]
    rfl
  · rw [empty.entries, empty.numEntries]
    rfl
  · simp [empty.entries]

theorem Borrowed.processed {base management : State} {kind : EntryProcessed} {pipe : Pipe}
    (borrowed : Borrowed base kind pipe management) (entryProcessed : Option EntryProcessed) :
    Borrowed base kind { pipe with entryProcessed } management :=
  ⟨borrowed.lent, borrowed.counted, borrowed.fresh, borrowed.kinds⟩

theorem Borrowed.listed {base management : State} {kind : EntryProcessed} {pipe : Pipe}
    (borrowed : Borrowed base kind pipe management) {user : Ref User} (listed : management.IsListed user) :
    base.IsListed user := by
  obtain ⟨name, entry⟩ := listed
  rw [borrowed.lent, lent_usersTable] at entry
  exact ⟨name, entry⟩

theorem Borrowed.emptied {base management : State} {kind : EntryProcessed} {pipe : Pipe}
    (borrowed : Borrowed base kind pipe management) (none : pipe.entries = []) : Emptied base pipe management where
  entries := none
  numEntries := by rw [borrowed.counted, none]; rfl
  fresh := borrowed.fresh
  management := by rw [borrowed.lent, none]; rfl

namespace Call

def OnLoans (assertion : Pipe → State → Prop) (call : Call) : Prop := assertion call.pipe call.store.management

theorem addEntry_borrows {base : State} {kind : EntryProcessed} {call : Call} {entry : Entry} {management : State}
    (borrowed : OnLoans (Borrowed base kind) call) (lends : management = entry.lend call.store.management)
    (one : entry.Has base kind) : OnLoans (Borrowed base kind) (call.addEntry management entry) where
  lent := by
    have earlier : call.store.management = Rpc.lent base call.pipe.entries := borrowed.lent
    show management = Rpc.lent base (call.pipe.entries ++ [entry])
    rw [lent_append, lends, earlier]
  counted := by
    have earlier : call.pipe.numEntries = call.pipe.entries.length := borrowed.counted
    simp [addEntry, earlier]
  fresh := borrowed.fresh
  kinds := by
    intro other member
    rcases List.mem_append.mp member with old | new
    · exact borrowed.kinds other old
    · exact List.mem_singleton.mp new ▸ one

section
variable {machine : Machine} {assertion : Pipe → State → Prop}

theorem ndr_loans {α : Type} (code : Status) (program : Ndr α) : Preserves (OnLoans assertion) (Call.ndr code program) :=
  .orStop fun _ holds => holds

theorem loans_fills : Fills machine (OnLoans assertion) :=
  .ofTables (fun _ _ holds => holds) (fun _ _ holds => holds) fun _ _ holds => holds

theorem strVal_state (ptr : Option (Ref CStr)) (call : Call) : (strVal ptr call).2 = call := by
  cases ptr with
  | none => rfl
  | some ref =>
    simp only [strVal, bind_apply, get_apply]
    cases call.store.strings.get? ref <;> rfl

theorem deref_state {α : Type} (value : Option α) (call : Call) :
    ((Proc.deref value : Proc Call Status α) call).2 = call := by
  cases value <;> rfl

end
end Call

section
open Call
variable {machine : Machine} {assertion : Pipe → State → Prop} {base : State}

def Shared (base : State) (pipe : Pipe) (management : State) : Prop :=
  Borrowed base .share pipe management ∧ pipe.entryProcessed = some .share

theorem enumAllShares_shared (held : base.Held) {call : Call} (shared : OnLoans (Shared base) call) (share : Ref Share) :
    OnLoans (Shared base) (enumAllShares machine call share) := by
  simp only [enumAllShares]
  split
  next => exact shared
  next management found got =>
    obtain ⟨rfl, rfl⟩ := State.getKsmbdShare_lends got
    split
    · exact ⟨addEntry_borrows shared.1 rfl trivial, shared.2⟩
    · have now : call.store.management.Held := shared.1.lent ▸ lent_held held _
      have back : call.setManagement ((call.store.management.lendShare found).putKsmbdShare machine.toPlatform
          (some found)) = call := by
        rw [State.putShare_lendShare _ now]
        rfl
      rw [back]
      exact shared

theorem srvsvcShareEnumAllInvoke_shared (held : base.Held) :
    Preserves (OnLoans (Shared base)) (srvsvcShareEnumAllInvoke machine) := by
  refine .bind (.modify fun call shared => ?_) fun _ => .modify fun _ shared => ⟨shared.1.processed _, rfl⟩
  generalize HashTable.values call.store.management.sharesTable = shares
  induction shares generalizing call with
  | nil => exact shared
  | cons share shares ih => exact ih _ (enumAllShares_shared held shared share)

theorem srvsvcShareGetInfoInvoke_shared (held : base.Held) :
    Preserves (OnLoans (Shared base)) (srvsvcShareGetInfoInvoke machine) := by
  intro call shared
  refine bind_still rfl shared ?_
  rintro _ ⟨⟩
  refine bind_still (strVal_state _ call) shared fun name _ => bind_still (deref_state _ call) shared fun name _ => ?_
  rcases got : call.store.management.shmLookupShare machine.toPlatform name with ⟨management, _ | share⟩
  · exact shared
  · have lends := State.shmLookupShare_lends got
    have now : call.store.management.Held := shared.1.lent ▸ lent_held held _
    have put : OnLoans (Shared base) (call.setManagement (management.putKsmbdShare machine.toPlatform (some share))) := by
      rw [lends, State.putShare_lendShare _ now]
      exact shared
    refine bind_still (deref_state _ call) shared fun record _ => ?_
    cases testFlag record.flags ShareFlag.available with
    | false => exact put
    | true =>
      refine bind_still (strVal_state _ call) shared fun host _ => bind_still (deref_state _ call) shared fun allowed _ => ?_
      cases allowed with
      | false => exact put
      | true =>
        have more : OnLoans (Borrowed base .share) (call.addEntry management (.share share)) :=
          addEntry_borrows shared.1 lends trivial
        exact ⟨more.processed _, rfl⟩

theorem srvsvcShareInfoInvoke_shared (held : base.Held) {opnum : UInt16} {restricted : Bool} {call after : Call}
    (empty : OnLoans (Emptied base) call) (ran : srvsvcShareInfoInvoke machine opnum restricted call = (.ok (), after)) :
    OnLoans (Shared base) after := by
  obtain ⟨_, parsed, first, ran⟩ := bind_eq_ok.mp ran
  have still : OnLoans (Emptied base) parsed := (srvsvcParseShareInfoReq_keeps loans_fills opnum).along first empty
  obtain ⟨_, _, set, ran⟩ := bind_eq_ok.mp ran
  cases set
  have shared : OnLoans (Shared base) { parsed with pipe := { parsed.pipe with entryProcessed := some .share } } :=
    ⟨(still.borrowed .share).processed _, rfl⟩
  refine Preserves.along ?_ ran shared
  exact .ite (.pure ()) (.ite (srvsvcShareGetInfoInvoke_shared held) (.ite (srvsvcShareEnumAllInvoke_shared held) (.stop _)))

def Named (base : State) (pipe : Pipe) (management : State) : Prop :=
  Borrowed base .names pipe management ∧ pipe.entryProcessed = some .names

theorem sidEntry_borrows {call : Call} (borrowed : OnLoans (Borrowed base .names) call) (index : Nat) (sid : SmbSid) :
    OnLoans (Borrowed base .names) (call.addEntry (sidEntry machine call.store.management index sid).1
      (.names (sidEntry machine call.store.management index sid).2)) := by
  have lends := fun name => @State.usmLookupUser_lends call.store.management _ name _ rfl
  exact addEntry_borrows borrowed (lends _).1 fun user found => borrowed.listed ((lends _).2 user found)

theorem lsarpcLookupSid2Invoke_named :
    Ensures (OnLoans (Borrowed base .names)) (OnLoans (Named base)) (lsarpcLookupSid2Invoke machine) := by
  refine .bind (lsarpcReadHandle_keeps loans_fills) fun _ => .bind (ndr_loans _ _) fun _ =>
    .guard <| .bind (ndr_loans _ _) fun _ =>
    .bind (ndr_loans _ _) fun _ => .bind (.each fun _ => .bind (ndr_loans _ _) fun _ => .pure ()) fun _ =>
    .bind (.each fun index => ?_) fun _ => .modify fun _ borrowed => ⟨borrowed.processed _, rfl⟩
  exact .bind (ndr_loans _ _) fun _ => .bind (ndr_loans _ _) fun sid =>
    .modify fun _ borrowed => sidEntry_borrows borrowed index sid

theorem lookupNames3Loop_borrows (count : Nat) :
    Preserves (OnLoans (Borrowed base .names)) (lookupNames3Loop machine count) := by
  induction count with
  | zero => exact .pure ()
  | succ count ih =>
    refine .bind (ndr_loans _ _) fun _ => .bind (ndr_loans _ _) fun _ => .bind (ndr_loans _ _) fun _ =>
      .ite (.bind (.pure none) ?found) (.bind (ndr_loans _ _) fun str => .bind (.pure (some str)) ?found)
    intro username call borrowed
    refine bind_still rfl borrowed ?_
    rintro _ ⟨⟩
    rcases got : call.store.management.usmLookupUser (username.bind accountName) with ⟨management, _ | user⟩
    · exact borrowed
    · obtain ⟨lends, listed⟩ := State.usmLookupUser_lends got
      exact ih _ (addEntry_borrows borrowed lends fun found same => borrowed.listed (listed found same))

theorem lsarpcLookupNames3Invoke_named :
    Ensures (OnLoans (Borrowed base .names)) (OnLoans (Named base)) (lsarpcLookupNames3Invoke machine) :=
  .bind (lsarpcReadHandle_keeps loans_fills) fun _ => .bind (ndr_loans _ _) fun _ => .bind .get fun _ => .guard <|
    .bind (ndr_loans _ _) fun _ => .bind (lookupNames3Loop_borrows _) fun _ =>
    .modify fun _ borrowed => ⟨borrowed.processed _, rfl⟩

/-- What an accepted request leaves on a pipe that was empty, and which method it is. -/
inductive Collected (base : State) (opnum : UInt16) (pipe : Pipe) (management : State) : Prop where
  | nothing (method : opnum ≠ Samr.lookupNames) (empty : Emptied base pipe management)
  | shares (method : opnum = Srvsvc.shareEnumAll ∨ opnum = Srvsvc.getShareInfo) (shared : Shared base pipe management)
  | names (method : opnum = Lsarpc.lookupSid2 ∨ opnum = Lsarpc.lookupNames3) (named : Named base pipe management)

theorem lsarpcInvoke_collected (opnum : UInt16) (dssetup : Bool) :
    Ensures (OnLoans (Emptied base)) (OnLoans (Collected base opnum)) (lsarpcInvoke machine opnum dssetup) := by
  have parsed : ∀ {program : Proc Call Status Unit}, opnum ≠ Samr.lookupNames → Preserves (OnLoans (Emptied base)) program →
      Ensures (OnLoans (Emptied base)) (OnLoans (Collected base opnum)) program := by
    intro program method kept state value last empty ran
    exact .nothing method (kept.along ran empty)
  unfold lsarpcInvoke
  split
  next first =>
    have method : opnum ≠ Samr.lookupNames := first ▸ by decide
    exact .ite (parsed method (lsarpcReadLevel_keeps loans_fills)) (parsed method (lsarpcReadHandle_keeps loans_fills))
  split
  next policy => exact parsed (policy ▸ by decide) (.pure ())
  split
  next info =>
    exact parsed (info ▸ by decide) (.bind (lsarpcReadHandle_keeps loans_fills) fun _ => (lsarpcReadLevel_keeps loans_fills))
  split
  next sid2 =>
    intro state value last empty ran
    exact .names (.inl sid2) (lsarpcLookupSid2Invoke_named state value last (empty.borrowed .names) ran)
  split
  next names3 =>
    intro state value last empty ran
    exact .names (.inr names3) (lsarpcLookupNames3Invoke_named state value last (empty.borrowed .names) ran)
  next => exact .stop _

theorem Collected.emptied {opnum : UInt16} {pipe : Pipe} {management : State}
    (collected : Collected base opnum pipe management) (none : pipe.entries = []) : Emptied base pipe management := by
  cases collected with
  | nothing _ empty => exact empty
  | shares _ shared => exact shared.1.emptied none
  | names _ named => exact named.1.emptied none

theorem Collected.fresh {opnum : UInt16} {pipe : Pipe} {management : State}
    (collected : Collected base opnum pipe management) : pipe.ioctlReplyConsumed = false := by
  cases collected with
  | nothing _ empty => exact empty.fresh
  | shares _ shared => exact shared.1.fresh
  | names _ named => exact named.1.fresh

theorem Collected.method_ne {opnum : UInt16} {pipe : Pipe} {management : State}
    (collected : Collected base opnum pipe management) : opnum ≠ Samr.lookupNames := by
  cases collected with
  | nothing method _ => exact method
  | shares method _ => rcases method with rfl | rfl <;> decide
  | names method _ => rcases method with rfl | rfl <;> decide

end
namespace Work
variable {machine : Machine} {assertion : Pipe → State → Prop} {flags : UInt32} {base : State}

/-- An assertion about the pipe and the tables, beside the flags of the command. -/
def OnLoans (assertion : Pipe → State → Prop) (flags : UInt32) (work : Work) : Prop :=
  assertion work.channel.pipe work.store.management ∧ work.channel.dce.rpcFlags = flags

theorem handle_loans {α : Type} {handler : Proc Call Status α} (kept : Preserves (Call.OnLoans assertion) handler) :
    Preserves (OnLoans assertion flags) (Work.handle handler) :=
  fun work holds => ⟨kept work.call holds.1, holds.2⟩

theorem loans_apart : Apart (OnLoans assertion flags) := ⟨fun _ _ _ _ _ _ holds => holds, fun _ _ _ holds => holds⟩

theorem dcerpcBindInvoke_emptied : Preserves (OnLoans (Emptied base) flags) (dcerpcBindInvoke machine) := by
  refine .bind loans_apart.dcerpcParseBindReq fun _ => .bind .get fun work => .bind (.deref _) fun contexts => ?_
  have last : Preserves (OnLoans (Emptied base) flags) (Work.handle
      (Proc.modify fun call => { call with pipe := { call.pipe with entryProcessed := none } })) :=
    handle_loans (.modify fun _ empty => ⟨empty.entries, empty.numEntries, empty.fresh, empty.management⟩)
  split
  next => exact last
  next => exact .bind (.modify fun _ holds => holds) fun _ => last

theorem invokeHandler_collected (held : base.Held) {work after : Work}
    (service : service? flags = some .srvsvc ∨ service? flags = some .lsarpc) (start : OnLoans (Emptied base) flags work)
    (ran : invokeHandler machine work = (.ok (), after)) :
    isBind after.channel.dce.hdr.ptype = true ∧ Emptied base after.channel.pipe after.store.management ∨
      after.channel.dce.hdr.ptype = Ptype.request ∧
      Collected base after.channel.dce.reqHdr.opnum after.channel.pipe after.store.management := by
  obtain ⟨_, parsed, ranHdr, ran⟩ := bind_eq_ok.mp ran
  have read : OnLoans (Emptied base) flags parsed := (loans_apart.dcerpcHdrRead .badData).along ranHdr start
  have header : Dce.Frame fun dce => dce.hdr.ptype = parsed.channel.dce.hdr.ptype :=
    ⟨fun _ _ _ _ same => same, fun _ _ same => same, fun _ _ same => same⟩
  have ptype : after.channel.dce.hdr.ptype = parsed.channel.dce.hdr.ptype := (invokePdu_keeps header).along ran rfl
  obtain ⟨_, _, got, ran⟩ := bind_eq_ok.mp ran
  cases got
  split at ran
  next bind => exact .inl ⟨ptype ▸ bind, (dcerpcBindInvoke_emptied.along ran read).1⟩
  next =>
    split at ran
    next request =>
      refine .inr ⟨ptype.trans request, ?_⟩
      obtain ⟨_, asked, ranReq, ran⟩ := bind_eq_ok.mp ran
      have request : OnLoans (Emptied base) flags asked :=
        (loans_apart.dcerpcRequestHdrRead .badData fun _ _ holds => holds).along ranReq read
      have empty : Call.OnLoans (Emptied base) asked.call := request.1
      rw [read.2] at ran
      rcases service with service | service <;> rw [service] at ran
      · obtain ⟨_, _, got, ran⟩ := bind_eq_ok.mp ran
        cases got
        split at ran
        next method =>
          obtain ⟨call, ended, rfl⟩ := handle_ran ran
          exact .shares method (srvsvcShareInfoInvoke_shared held empty ended)
        next => cases ran
      · obtain ⟨_, _, got, ran⟩ := bind_eq_ok.mp ran
        cases got
        obtain ⟨call, ended, rfl⟩ := handle_ran ran
        exact lsarpcInvoke_collected _ _ asked.call _ call empty ended
    next => cases ran

end Work
end Rpc
end KsmbdTools
