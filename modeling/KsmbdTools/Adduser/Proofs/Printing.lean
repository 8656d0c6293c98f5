import KsmbdTools.Adduser.UserAdmin
import KsmbdTools.Management.Proofs.Accounts

/-! The tables the user tool loads, and the text it writes from them: one line for each account that is not a guest. -/

namespace KsmbdTools.Adduser
open Management

section Load
variable {platform : Platform}

theorem sound_empty : UsersSound {} := fun name user known => by simp at known

theorem loadConfig_configured {created : Bool} {pwddb : FileContents} {smbconf : Smbconf platform} {state : State}
    (loaded : loadConfig platform created pwddb smbconf = (state, true)) :
    Configured (cpParsePwddb platform created pwddb).1 state := by
  have parsed : ∃ accounts, Accounts {} (cpParsePwddb platform created pwddb).1 accounts := by
    cases pwddb with
    | missing => exact ⟨_, .refl sound_empty⟩
    | unreadable => exact ⟨_, .refl sound_empty⟩
    | bytes contents => exact sound_empty.parseEntries (fileEntries contents)
  obtain ⟨accounts, users⟩ := parsed
  unfold loadConfig at loaded
  generalize cpParsePwddb platform created pwddb = done at loaded users
  obtain ⟨current, ok⟩ := done
  cases ok with
  | false => cases congrArg Prod.snd loaded
  | true =>
    cases smbconf with
    | unreadable => cases congrArg Prod.snd loaded
    | malformed => cases congrArg Prod.snd loaded
    | sections config formed =>
      obtain rfl : (current.finalizeSmbconfParser platform config).1 = state := congrArg Prod.fst loaded
      exact .finalize users.sound users.only.sharesTable formed

end Load

section Print
variable {state : State}

def printedPassword (state : State) (name : CStr) : Option CStr :=
  (state.account? name).bind fun account => if account.2 then none else some account.1

def accountLine (name pwd : CStr) : List UInt8 := name ++ 58 :: pwd ++ [10]

theorem mapM_records (sound : UsersSound state) (entries : List (Sigma fun _ : CStr => Ref User))
    (known : ∀ entry ∈ entries, state.usersTable.lookup entry.1 = some entry.2) :
    ∃ records, (entries.map (·.2)).mapM state.users.get? = some records ∧
      records.map (·.name) = entries.map (·.1) ∧
      ∀ record, record ∈ records ↔ ∃ entry ∈ entries, state.users.get? entry.2 = some record := by
  induction entries with
  | nil => exact ⟨[], rfl, rfl, by simp⟩
  | cons entry entries ih =>
    obtain ⟨here, later⟩ := List.forall_mem_cons.mp known
    obtain ⟨records, read, names, each⟩ := ih later
    obtain ⟨record, seen, named, -⟩ := sound entry.1 entry.2 here
    refine ⟨record :: records, by simp [seen, read], by rw [List.map_cons, List.map_cons, named, names], fun other => ?_⟩
    simp only [List.mem_cons, each, exists_eq_or_imp, seen, Option.some.injEq, @eq_comm _ other record]

theorem printedPassword_isSome (sound : UsersSound state) (name : CStr) :
    (printedPassword state name).isSome ↔ ∃ user record, state.usersTable.lookup name = some user ∧
      state.users.get? user = some record ∧ testFlag record.flags UserFlag.guestAccount = false := by
  cases entry : state.usersTable.lookup name with
  | none => simp [printedPassword, UsersSound.account_none entry]
  | some user =>
    obtain ⟨record, seen, -, account⟩ := sound.account_some entry
    rw [printedPassword, account, Option.bind_some]
    constructor
    · intro shown
      refine ⟨user, record, rfl, seen, ?_⟩
      cases guest : testFlag record.flags UserFlag.guestAccount with
      | false => rfl
      | true =>
        rw [guest] at shown
        cases shown
    · rintro ⟨user', record', same, seen', plain⟩
      cases same
      cases seen.symm.trans seen'
      rw [plain]
      rfl

theorem newUserNl_names (sound : UsersSound state) : ∃ names, newUserNl state = some names ∧ names.Nodup ∧
    ∀ name, name ∈ names ↔ (printedPassword state name).isSome := by
  have known (entry : Sigma fun _ : CStr => Ref User) (member : entry ∈ state.usersTable.entries) :
      state.usersTable.lookup entry.1 = some entry.2 := AList.mem_lookup_iff.mpr member
  obtain ⟨records, read, keys, each⟩ := mapM_records sound state.usersTable.entries known
  refine ⟨_, by simp only [newUserNl, HashTable.values, read]; rfl, ?_, fun name => ?_⟩
  · -- The names are some of the keys.
    have once : (records.map (·.name)).Nodup := by
      rw [keys]
      exact state.usersTable.keys_nodup
    exact (List.perm_insertionSort _ _).nodup_iff.mpr (once.sublist (List.filter_sublist.map _))
  · rw [List.mem_insertionSort, printedPassword_isSome sound, List.mem_map]
    constructor
    · rintro ⟨record, member, rfl⟩
      obtain ⟨inside, plain⟩ := List.mem_filter.mp member
      obtain ⟨entry, listed, seen⟩ := (each record).mp inside
      have named := sound.keyed entry.1 entry.2 record (known entry listed) seen
      exact ⟨entry.2, record, named ▸ known entry listed, seen, by simpa using plain⟩
    · rintro ⟨user, record, entry, seen, plain⟩
      refine ⟨record, List.mem_filter.mpr ⟨(each record).mpr ⟨⟨name, user⟩, AList.mem_lookup_iff.mp entry, seen⟩, ?_⟩, ?_⟩
      · simpa using plain
      · exact sound.keyed name user record entry seen

theorem printUser_line (sound : UsersSound state) {name pwd : CStr} (printed : printedPassword state name = some pwd)
    (text : List UInt8) : printUser (state, text) name = some (state, text ++ accountLine name pwd) := by
  cases entry : state.usersTable.lookup name with
  | none =>
    rw [printedPassword, UsersSound.account_none entry] at printed
    cases printed
  | some user =>
    obtain ⟨record, seen, named, account⟩ := sound.account_some entry
    rw [printedPassword, account, Option.bind_some] at printed
    split at printed
    · cases printed
    · cases printed
      have taken : (state.withUser user User.lent).users.get? user = some record.lent := by
        rw [State.withUser, Heap.get?_modify_self, seen, Option.map_some]
      simp only [printUser, sound.lookup_some entry, taken, Option.map_some, sound.put_unchanged entry]
      rw [accountLine, ← named]
      rfl

theorem printUsers_lines (sound : UsersSound state) {names : List CStr}
    (shown : ∀ name ∈ names, (printedPassword state name).isSome) (text : List UInt8) :
    names.foldlM printUser (state, text) =
      some (state, text ++ names.flatMap fun name => accountLine name ((printedPassword state name).getD [])) := by
  induction names generalizing text with
  | nil => simp
  | cons name names ih =>
    obtain ⟨here, later⟩ := List.forall_mem_cons.mp shown
    obtain ⟨pwd, printed⟩ := Option.isSome_iff_exists.mp here
    rw [List.foldlM_cons, printUser_line sound printed, List.flatMap_cons, printed, Option.getD_some, ← List.append_assoc]
    exact ih later _

/-- The text that is written: a line for each account but the guests, and the tables stay as they are. -/
theorem getConfContents_lines (sound : UsersSound state) : ∃ names : List CStr, names.Nodup ∧
    (∀ name, name ∈ names ↔ (printedPassword state name).isSome) ∧
    getConfContents state =
      some (state, names.flatMap fun name => accountLine name ((printedPassword state name).getD [])) := by
  obtain ⟨names, listed, once, each⟩ := newUserNl_names sound
  refine ⟨names, once, each, ?_⟩
  have lines := printUsers_lines sound (fun name member => (each name).mp member) []
  rw [List.nil_append] at lines
  simp only [getConfContents, listed]
  exact lines

end Print

end KsmbdTools.Adduser
