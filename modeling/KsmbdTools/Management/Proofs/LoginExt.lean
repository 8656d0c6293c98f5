import Mathlib.Data.List.Induction
import KsmbdTools.Management.LoginExt
import KsmbdTools.Management.Proofs.Histories

/-! The reply of `login_request_ext` is sized by one lookup of the account and filled by another. What the reload does
between the two decides whether the ids fit. -/

namespace KsmbdTools.Management
variable {platform : Platform}

def State.groupCount (state : State) (name : Option CStr) : Nat := (state.lookupGroups name).2.2.length

/-- How many groups the second lookup would find. A message that is too short has none. -/
def LoginExtCall.answerCount (call : LoginExtCall) (state : State) : Nat :=
  if call.valid then state.groupCount call.req.accountName else 0

/-- The payload for one number of groups has room for the ids of another. -/
def RoomFor (sized copied : Nat) : Prop := 4 * ((min copied maxNgroups : Nat) : Int) ≤ loginResponsePayloadSz sized

theorem copyGroups_fits (groups : List UInt32) (payloadSz : Int) :
    (4 * ((copyGroups groups).payload.length : Int) ≤ payloadSz ∧
      (copyGroups groups).ngroups = (copyGroups groups).payload.length) ↔
      4 * ((min groups.length maxNgroups : Nat) : Int) ≤ payloadSz := by
  have length : (copyGroups groups).payload.length = min groups.length maxNgroups := by
    simp only [copyGroups, List.length_take]
    split <;> omega
  have count : (copyGroups groups).ngroups = min groups.length maxNgroups := by
    simp only [copyGroups]
    split <;> omega
  rw [length, count]
  exact and_iff_left rfl

theorem ReloadPhase.alone_parse (state : State) (entries : List CStr) :
    ∃ sections, ReloadPhase.alone platform sections state (.parse entries) =
      ((parseEntries (State.processPwddbEntry platform) state entries).1,
        .finished (parseEntries (State.processPwddbEntry platform) state entries).2) := by
  induction entries generalizing state with
  | nil => exact ⟨1, rfl⟩
  | cons entry entries ih =>
    by_cases empty : entry.isEmpty = true
    · obtain ⟨sections, ran⟩ := ih state
      refine ⟨sections + 1, ?_⟩
      simp only [alone, advance, parseEntries, State.processPwddbEntry, if_pos empty]
      exact ran
    · cases parsed : isAUserPassword platform entry with
      | none =>
        refine ⟨1, ?_⟩
        simp only [alone, advance, parseEntries, State.processPwddbEntry, if_neg empty, parsed]
      | some account =>
        obtain ⟨name, pwd⟩ := account
        obtain ⟨sections, ran⟩ := ih (state.addUserPassword platform name pwd)
        cases looked : state.usmLookupUser (some name) with
        | mk current found =>
          cases found with
          | none =>
            refine ⟨sections + 2, ?_⟩
            simp only [alone, advance, parseEntries, State.processPwddbEntry, if_neg empty, parsed, looked]
            simpa only [State.addUserPassword, looked] using ran
          | some user =>
            refine ⟨sections + 3, ?_⟩
            simp only [alone, advance, parseEntries, State.processPwddbEntry, if_neg empty, parsed, looked]
            simpa only [State.addUserPassword, looked] using ran

theorem ReloadPhase.alone_remove (state : State) (pwddb : FileContents) :
    ∃ sections, ReloadPhase.alone platform sections state (.remove pwddb) =
      ((state.usmRemoveAllUsers.cpParsePwddb platform pwddb).1,
        .finished (state.usmRemoveAllUsers.cpParsePwddb platform pwddb).2) := by
  cases pwddb with
  | missing => exact ⟨1, rfl⟩
  | unreadable => exact ⟨1, rfl⟩
  | bytes contents =>
    obtain ⟨sections, ran⟩ := @ReloadPhase.alone_parse platform state.usmRemoveAllUsers (fileEntries contents)
    exact ⟨sections + 1, ran⟩

namespace LoginRace
variable {platform : Platform} {call : LoginExtCall} {race : LoginRace}

/-- Whenever the schedule takes both lookups, the account has no more groups at the second than there is room for
behind the first. -/
def SizedRight (race : LoginRace) (platform : Platform) (call : LoginExtCall) (schedule : List Party) : Prop :=
  ∀ first between rest, schedule = first ++ .login :: between ++ .login :: rest →
    (race.run platform call first).login.isSize = true →
    (race.run platform call (first ++ .login :: between)).login.isAllocated = true →
    RoomFor ((race.run platform call first).state.groupCount call.req.accountName)
      (call.answerCount (race.run platform call (first ++ .login :: between)).state)

theorem run_concat (schedule : List Party) (who : Party) :
    race.run platform call (schedule ++ [who]) = (race.run platform call schedule).step platform call who := by
  rw [run, List.foldl_append]
  rfl

theorem sizedRight_concat (schedule : List Party) (who : Party) :
    race.SizedRight platform call (schedule ++ [who]) ↔ race.SizedRight platform call schedule ∧
      (who = .login → (race.run platform call schedule).login.isAllocated = true →
        ∀ first between, schedule = first ++ .login :: between → (race.run platform call first).login.isSize = true →
          RoomFor ((race.run platform call first).state.groupCount call.req.accountName)
            (call.answerCount (race.run platform call schedule).state)) := by
  constructor
  · intro right
    refine ⟨fun first between rest split => right first between (rest ++ [who]) (by simp [split]), ?_⟩
    rintro rfl allocated first between rfl size
    exact right first between [] rfl size allocated
  · rintro ⟨right, last⟩ first between rest split size allocated
    cases rest using List.reverseRecOn with
    | nil =>
      obtain ⟨rfl, same⟩ := List.append_inj' split rfl
      cases same
      exact last rfl allocated first between rfl size
    | append_singleton rest final =>
      have cut : schedule ++ [who] = (first ++ .login :: between ++ .login :: rest) ++ [final] := by simp [split]
      obtain ⟨rfl, -⟩ := List.append_inj' cut rfl
      exact right first between rest rfl size allocated

/-- What a call that made its first lookup knows: the payload is sized for the groups the account had then. -/
def Counted (platform : Platform) (call : LoginExtCall) (race : LoginRace) (schedule : List Party) (payloadSz : Int) :
    Prop :=
  (∃ first between, schedule = first ++ .login :: between ∧ (race.run platform call first).login.isSize = true) ∧
    ∀ first between, schedule = first ++ .login :: between → (race.run platform call first).login.isSize = true →
      payloadSz = loginResponsePayloadSz ((race.run platform call first).state.groupCount call.req.accountName)

def Standing (platform : Platform) (call : LoginExtCall) (race : LoginRace) (schedule : List Party) : LoginExtPhase → Prop
  | .size => .login ∉ schedule
  | .sized payloadSz _ => Counted platform call race schedule payloadSz
  | .allocated payloadSz => Counted platform call race schedule payloadSz
  | _ => True

theorem Counted.concat {schedule : List Party} {payloadSz : Int} (counted : Counted platform call race schedule payloadSz)
    (past : (race.run platform call schedule).login.isSize = false) (who : Party) :
    Counted platform call race (schedule ++ [who]) payloadSz := by
  obtain ⟨⟨first, between, split, size⟩, every⟩ := counted
  refine ⟨⟨first, between ++ [who], by simp [split], size⟩, fun first between cut size => ?_⟩
  cases between using List.reverseRecOn with
  | nil =>
    obtain ⟨rfl, -⟩ := List.append_inj' cut rfl
    rw [past] at size
    cases size
  | append_singleton between final =>
    have cut' : schedule ++ [who] = (first ++ .login :: between) ++ [final] := by simp [cut]
    obtain ⟨rfl, -⟩ := List.append_inj' cut' rfl
    exact every first between rfl size

theorem Counted.first {schedule : List Party} (unmade : .login ∉ schedule)
    (size : (race.run platform call schedule).login.isSize = true) :
    Counted platform call race (schedule ++ [.login])
      (loginResponsePayloadSz ((race.run platform call schedule).state.groupCount call.req.accountName)) := by
  refine ⟨⟨schedule, [], rfl, size⟩, fun first between cut _ => ?_⟩
  cases between using List.reverseRecOn with
  | nil =>
    obtain ⟨rfl, -⟩ := List.append_inj' cut rfl
    rfl
  | append_singleton between final =>
    have cut' : schedule ++ [.login] = (first ++ .login :: between) ++ [final] := by simp [cut]
    obtain ⟨rfl, -⟩ := List.append_inj' cut' rfl
    exact absurd (by simp) unmade

theorem sizedRight_other {schedule : List Party} {who : Party}
    (other : who = .login → (race.run platform call schedule).login.isAllocated = false) :
    race.SizedRight platform call (schedule ++ [who]) ↔ race.SizedRight platform call schedule := by
  rw [sizedRight_concat]
  refine and_iff_left fun made allocated => ?_
  rw [other made] at allocated
  cases allocated

theorem fits_unfilled {race : LoginRace} (unfilled : race.login.reply = none) : race.Fits := by
  intro payloadSz resp filled
  rw [unfilled] at filled
  cases filled

theorem step_login (race : LoginRace) :
    (race.step platform call .login).login = (call.advance race.state race.login).2 := rfl

/-- The second lookup: the ids of the record that is there now go into the payload of the first. -/
theorem fits_answered {race : LoginRace} {payloadSz : Int} (allocated : race.login = .allocated payloadSz) :
    (race.step platform call .login).Fits ↔
      4 * ((min (call.answerCount race.state) maxNgroups : Nat) : Int) ≤ payloadSz := by
  have filled (resp : LoginResponseExt) (user : Option (Ref User))
      (answered : (race.step platform call .login).login = .answered payloadSz resp user) :
      (race.step platform call .login).Fits ↔
        4 * (resp.payload.length : Int) ≤ payloadSz ∧ resp.ngroups = resp.payload.length := by
    rw [Fits, answered]
    constructor
    · intro fits
      exact fits payloadSz resp rfl
    · rintro fits _ _ ⟨⟩
      exact fits
  cases valid : call.valid with
  | false =>
    rw [filled (copyGroups []) none (by rw [step_login, allocated, LoginExtCall.advance, valid]; rfl), copyGroups_fits,
      LoginExtCall.answerCount, valid]
    rfl
  | true =>
    rw [filled (copyGroups (race.state.lookupGroups call.req.accountName).2.2)
      (race.state.lookupGroups call.req.accountName).2.1
        (by rw [step_login, allocated, LoginExtCall.advance, valid]; rfl), copyGroups_fits, LoginExtCall.answerCount, valid]
    rfl

theorem run_standing (state : State) (pwddb : FileContents) (schedule : List Party) :
    Standing platform call (start state pwddb) schedule ((start state pwddb).run platform call schedule).login ∧
      (((start state pwddb).run platform call schedule).Fits ↔ (start state pwddb).SizedRight platform call schedule) := by
  induction schedule using List.reverseRecOn with
  | nil =>
    refine ⟨List.not_mem_nil, iff_of_true (fits_unfilled rfl) fun first between rest split => ?_⟩
    simp at split
  | append_singleton schedule who ih =>
    obtain ⟨standing, fits⟩ := ih
    have counted := @Counted.concat platform call (start state pwddb) schedule
    have begun := @Counted.first platform call (start state pwddb) schedule
    have asked := @sizedRight_concat platform call (start state pwddb) schedule .login
    have other := @sizedRight_other platform call (start state pwddb) schedule
    rw [run_concat]
    generalize (start state pwddb).run platform call schedule = current at standing fits counted begun asked other ⊢
    cases who with
    | reload =>
      rw [other (fun made => by cases made), ← fits]
      refine ⟨?_, Iff.rfl⟩
      show Standing platform call (start state pwddb) _ current.login
      cases phase : current.login with
      | size =>
        rw [phase] at standing
        simpa [Standing] using standing
      | sized payloadSz user =>
        rw [phase] at standing
        exact counted standing (by rw [phase]; rfl) _
      | allocated payloadSz =>
        rw [phase] at standing
        exact counted standing (by rw [phase]; rfl) _
      | answered => trivial
      | returned => trivial
    | login =>
      cases phase : current.login with
      | size =>
        rw [phase] at standing
        rw [other (fun _ => by rw [phase]; rfl), ← fits]
        refine ⟨?_, iff_of_true (fits_unfilled ?_) (fits_unfilled (by rw [phase]; rfl))⟩
        · rw [step_login, phase]
          exact begun standing (by rw [phase]; rfl)
        · rw [step_login, phase]
          rfl
      | sized payloadSz user =>
        rw [phase] at standing
        have kept := counted standing (by rw [phase]; rfl) .login
        have next : ((current.step platform call .login).login = .allocated payloadSz) ∨
            (current.step platform call .login).login = .returned none := by
          rw [step_login, phase, LoginExtCall.advance]
          split
          · exact .inl rfl
          · exact .inr rfl
        rw [other (fun _ => by rw [phase]; rfl), ← fits]
        obtain next | next := next <;> rw [next]
        · exact ⟨kept, iff_of_true (fits_unfilled (by rw [next]; rfl)) (fits_unfilled (by rw [phase]; rfl))⟩
        · exact ⟨trivial, iff_of_true (fits_unfilled (by rw [next]; rfl)) (fits_unfilled (by rw [phase]; rfl))⟩
      | allocated payloadSz =>
        rw [phase] at standing
        obtain ⟨⟨first, between, split, size⟩, every⟩ := standing
        have before : (start state pwddb).SizedRight platform call schedule := fits.mp (fits_unfilled (by rw [phase]; rfl))
        refine ⟨?_, ?_⟩
        · rw [step_login, phase, LoginExtCall.advance]
          split <;> trivial
        · rw [fits_answered phase, asked]
          constructor
          · intro room
            refine ⟨before, fun _ _ first between split size => ?_⟩
            rw [RoomFor, ← every first between split size]
            exact room
          · rintro ⟨-, last⟩
            have room := last rfl (by rw [phase]; rfl) first between split size
            rwa [RoomFor, ← every first between split size] at room
      | answered payloadSz resp user =>
        rw [other (fun _ => by rw [phase]; rfl), ← fits, step_login, phase]
        refine ⟨trivial, ?_⟩
        rw [Fits, Fits, step_login, phase]
        exact Iff.rfl
      | returned reply =>
        rw [other (fun _ => by rw [phase]; rfl), ← fits, step_login, phase]
        refine ⟨trivial, ?_⟩
        rw [Fits, Fits, step_login, phase]
        exact Iff.rfl

end LoginRace

/-- Under any interleaving with a reload the ids fit exactly if the account has not got more groups, in the table of the
second lookup, than the payload that was sized at the first has room for. -/
theorem login_ext_fits_iff (platform : Platform) (call : LoginExtCall) (state : State) (pwddb : FileContents)
    (schedule : List Party) :
    ((LoginRace.start state pwddb).run platform call schedule).Fits ↔
      (LoginRace.start state pwddb).SizedRight platform call schedule :=
  (LoginRace.run_standing state pwddb schedule).2

namespace Scenario

def groupPlatform : Platform :=
  { plainPlatform with getpwnam := fun _ => some (1000, 1000), getgrouplist := fun _ => [10, 65535] }

/-- The account `a` with its line in the database, and no group yet. -/
def ungrouped : State := ({} : State).addUserPassword plainPlatform account [65, 81, 61, 61]

/-- The reload comes between the lookup that sizes the reply and the one that fills it. -/
def reloadBetween : List Party :=
  [.login, .login, .reload, .reload, .reload, .login, .login]

end Scenario

/-- A reply without payload gets four bytes. -/
theorem login_ext_overflows :
    ¬((LoginRace.start Scenario.ungrouped (.bytes [97, 58, 65, 81, 61, 61])).run Scenario.groupPlatform
      { req := { account := .ofStr 256 Scenario.account } } Scenario.reloadBetween).Fits := by
  intro fits
  have filled : ((LoginRace.start Scenario.ungrouped (.bytes [97, 58, 65, 81, 61, 61])).run Scenario.groupPlatform
      { req := { account := .ofStr 256 Scenario.account } } Scenario.reloadBetween).login.reply = some (0, ⟨1, [10]⟩) := by
    decide +kernel
  exact absurd (fits 0 ⟨1, [10]⟩ filled).1 (by decide)

end KsmbdTools.Management
