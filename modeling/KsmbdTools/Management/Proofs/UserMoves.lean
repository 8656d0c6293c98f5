import KsmbdTools.Management.Proofs.UserFrames
import Mathlib.Algebra.Group.Pi.Basic

/-! How far an operation moves the reference count of each user. A lookup and
the put that gives its reference back cancel out. -/

namespace KsmbdTools.Management

structure UsersMove (before after : State) (change : Ref User → Int) : Prop where
  table : after.usersTable = before.usersTable
  refs : ∀ user, (after.users.get? user).map (fun record => (record.refCount, record.freeing)) =
    (before.users.get? user).map fun record => (record.refCount + change user, record.freeing)

def reference (user : Ref User) : Ref User → Int := fun other => if other = user then 1 else 0

namespace UsersMove

theorem refl (state : State) : UsersMove state state 0 := ⟨rfl, by simp⟩

theorem trans {first middle last : State} {a b : Ref User → Int} (one : UsersMove first middle a)
    (two : UsersMove middle last b) : UsersMove first last (a + b) := by
  refine ⟨two.table.trans one.table, fun user => ?_⟩
  have left := one.refs user
  have right := two.refs user
  cases start : first.users.get? user <;> cases middleSeen : middle.users.get? user <;>
    simp_all [add_assoc]

theorem modify (state : State) (user : Ref User) (f : User → User) (step : Int)
    (counts : ∀ record, (f record).refCount = record.refCount + step ∧ (f record).freeing = record.freeing) :
    UsersMove state { state with users := state.users.modify user f } fun other => if other = user then step else 0 := by
  refine ⟨rfl, fun other => ?_⟩
  by_cases same : other = user
  · subst same
    cases seen : state.users.get? other <;> simp [seen, counts]
  · simp [Heap.get?_modify_ne same, same]

end UsersMove

namespace State

/-- A lookup succeeds only on a count that is not zero, so the reference it takes
is never the last one. -/
theorem usmLookupUser_some {state current : State} {name : Option CStr} {user : Ref User}
    (found : state.usmLookupUser name = (current, some user)) :
    UsersMove state current (reference user) ∧
      ∃ record, current.users.get? user = some record ∧ record.refCount ≠ 1 := by
  unfold usmLookupUser at found
  split at found
  · cases found
  · unfold getKsmbdUser at found
    split at found
    · cases found
    next record seen =>
      split at found
      next nonzero =>
        cases found
        refine ⟨.modify state _ _ 1 fun _ => ⟨rfl, rfl⟩, { record with refCount := record.refCount + 1 }, by simp [seen], ?_⟩
        simpa using nonzero
      · cases found

theorem usmLookupUser_none {state current : State} {name : Option CStr}
    (missing : state.usmLookupUser name = (current, none)) : current = state := by
  unfold usmLookupUser at missing
  split at missing
  · cases missing; rfl
  · unfold getKsmbdUser at missing
    split at missing
    · cases missing; rfl
    · split at missing
      · cases missing
      · cases missing; rfl

theorem putUser_moves {state : State} {user : Ref User} {record : User} (found : state.users.get? user = some record)
    (shared : record.refCount ≠ 1) : UsersMove state (state.putUser user) (-reference user) := by
  have remaining : record.refCount - 1 ≠ 0 := by omega
  have same : state.putUser user =
      { state with users := state.users.modify user fun record => { record with refCount := record.refCount - 1 } } := by
    simp [putUser, found, remaining]
  rw [same]
  have lowered := UsersMove.modify state user (fun record => { record with refCount := record.refCount - 1 }) (-1)
    (fun _ => ⟨Int.sub_eq_add_neg, rfl⟩)
  refine ⟨lowered.table, fun other => ?_⟩
  rw [lowered.refs other]
  by_cases equal : other = user <;> simp [reference, equal]

/-- What is done with a looked up user between the lookup and the put keeps its
count. -/
theorem lookup_put_moves {state current : State} {name : Option CStr} {user : Ref User}
    (found : state.usmLookupUser name = (current, some user)) (f : User → User)
    (counts : ∀ record, (f record).refCount = record.refCount ∧ (f record).freeing = record.freeing) :
    UsersMove state ({ current with users := current.users.modify user f }.putUser user) 0 := by
  obtain ⟨taken, record, seen, shared⟩ := usmLookupUser_some found
  have changed := UsersMove.modify current user f 0 (by simpa using counts)
  have given : UsersMove { current with users := current.users.modify user f }
      ({ current with users := current.users.modify user f }.putUser user) (-reference user) :=
    putUser_moves (show _ = some (f record) by simp [seen]) (by rw [(counts record).1]; exact shared)
  have all := (taken.trans changed).trans given
  refine ⟨all.table, fun other => ?_⟩
  simpa using all.refs other

theorem answerLogin_moves {state current : State} {name : Option CStr} {user : Ref User}
    (found : state.usmLookupUser name = (current, some user)) : UsersMove state (current.answerLogin user).1 0 := by
  have moves := lookup_put_moves found id fun _ => ⟨rfl, rfl⟩
  have same : current.users.modify user id = current.users := Heap.modify_eq_self fun _ _ => rfl
  rw [same] at moves
  exact moves

theorem usmHandleLogoutRequest_moves (state : State) (req : LogoutRequest) :
    UsersMove state (state.usmHandleLogoutRequest req) 0 := by
  unfold usmHandleLogoutRequest
  split
  · exact .refl state
  · split
    next missing => rw [usmLookupUser_none missing]; exact .refl state
    next found =>
      refine lookup_put_moves found _ fun record => ?_
      unfold countLogout
      split
      · split <;> exact ⟨rfl, rfl⟩
      · exact ⟨rfl, rfl⟩

theorem usmHandleLoginRequest_moves (state : State) (req : LoginRequest) :
    UsersMove state (state.usmHandleLoginRequest req).1 0 := by
  have guest {result : State × LoginResponse}
      (missing : ∀ current, state.usmLookupUser state.globalConf.guestAccount = (current, none) → result.1 = current)
      (found : ∀ current user, state.usmLookupUser state.globalConf.guestAccount = (current, some user) →
        result = current.answerLogin user) : UsersMove state result.1 0 := by
    rcases looked : state.usmLookupUser state.globalConf.guestAccount with ⟨current, _ | user⟩
    · rw [missing current looked, usmLookupUser_none looked]
      exact .refl state
    · rw [found current user looked]
      exact answerLogin_moves looked
  unfold usmHandleLoginRequest
  split
  · exact .refl state
  · cases null : req.account.bytes.head? == some 0 with
    | true => exact guest (fun _ looked => by simp [looked]) (fun _ _ looked => by simp [looked])
    | false =>
      cases looked : state.usmLookupUser (some req.account.str) with
      | mk current user =>
        cases user with
        | some user => exact answerLogin_moves looked
        | none =>
          obtain rfl := usmLookupUser_none looked
          simp only [Bool.not_false, Bool.true_and, Bool.false_or, Bool.false_eq_true, ↓reduceIte]
          split
          · exact .refl current
          · split
            · exact guest (fun _ looked => by rw [looked]) (fun _ _ looked => by rw [looked])
            · exact .refl current

end State
end KsmbdTools.Management
