import OpenWhistle.Accounts.Management
import OpenWhistle.Deletion.Makers
import OpenWhistle.Foundation.Machine

/-!
# Who made whom, over a history of resets

An account keeps one account on record as the one that made it: whoever created it, or the superadmin
who reset it last. A deletion is confirmed against that record. Whether the record knows of everybody
who ever made an account, directly or through others, depends on the resets: one that puts a
superadmin in the place of the maker on record keeps all earlier makers in sight exactly if that maker
is still found from the superadmin. Otherwise the accounts the old maker made become strangers to it.

The events are committed requests. History are the account that created each account, which no later
event overwrites, and the executed deletions.
-/

set_option autoImplicit false
set_option relaxedAutoImplicit false

namespace OpenWhistle.Deletion

open Accounts Descent

/-- The rows of an instance as the walk along `created_by_id` reads them. -/
def familyOf (users : List AdminUser) : Family UserId where
  accounts := users.map AdminUser.id
  createdById id := (users.find? fun user ↦ user.id = id).bind AdminUser.createdById

/-- The accounts without the record of who made one of them. -/
def Family.forget (family : Family UserId) (account : UserId) : Family UserId where
  accounts := family.accounts
  createdById := Function.update family.createdById account none

/-- What the form for a new account and the service put into its row. -/
structure NewAccount where
  id : UserId
  username : String
  passwordHash : String
  totpSecret : String
  role : AdminRole
  orgId : Option ℕ := none

/-- A deletion that was carried out. -/
structure FourEyed (ι : Type) where
  report : ι
  requester : UserId
  confirmer : UserId
  deriving DecidableEq

structure Annals (ι : Type) where
  users : List AdminUser
  /-- The requester of the pending deletion request of a report. -/
  requestedBy : ι → Option UserId
  /-- The account that created an account. -/
  creator : UserId → Option UserId
  executed : List (FourEyed ι)

/-- What is requested and committed. `caller` is the account that is signed in. -/
inductive Deed (ι : Type)
  | createUser (caller : UserId) (made : NewAccount)
  | provisionLdapUser (made : NewAccount)
  | mfaSetup (holder : UserId)
  | accountPassword (holder : UserId) (passwordHash : String)
  | resetUserTotp (caller target : UserId) (secret passwordHash : String)
  | requestDelete (report : ι) (caller : UserId)
  | cancelDelete (report : ι) (caller : UserId)
  | confirmDelete (report : ι) (caller : UserId)

/-- The row `create_user` adds. -/
def createdRow (caller : UserId) (made : NewAccount) : AdminUser where
  id := made.id
  username := made.username
  passwordHash := some made.passwordHash
  totpSecret := made.totpSecret
  role := made.role
  mustChangePassword := true
  orgId := made.orgId
  createdById := some caller

/-- The row of a directory user who signs in for the first time; nobody made it. -/
def provisionedRow (made : NewAccount) : AdminUser where
  id := made.id
  username := made.username
  totpSecret := made.totpSecret
  role := .caseManager
  ldapUsername := some made.username
  orgId := made.orgId

/-- The row of an account whose holder has enrolled an authenticator. -/
def enrolledRow (holder : AdminUser) : AdminUser :=
  { holder with totpEnabled := true }

/-- The row of an account whose holder has replaced the password. -/
def ownPasswordRow (passwordHash : String) (holder : AdminUser) : AdminUser :=
  if holder.passwordHash.isSome && holder.isActive && holder.totpEnabled then
    { holder with passwordHash := some passwordHash, mustChangePassword := false }
  else holder

/-- The row as a reset leaves it: an account with a local password gets a temporary one, and the
superadmin who has seen it as its maker. -/
def resetRow (caller : UserId) (secret passwordHash : String) (target : AdminUser) : AdminUser :=
  match target.passwordHash with
  | none => requireNewAuthenticator target secret
  | some _ => { requireNewAuthenticator target secret with
      passwordHash := some passwordHash, mustChangePassword := true, createdById := some caller }

namespace Annals

variable {ι : Type}

def user (s : Annals ι) (id : UserId) : Option AdminUser := s.users.find? fun user ↦ user.id = id

def family (s : Annals ι) : Family UserId := familyOf s.users

/-- The account of a request, if one of the roles opens the route to it. -/
def admitted (s : Annals ι) (caller : UserId) (roles : List AdminRole) : Option AdminUser :=
  (s.user caller).filter fun user ↦
    user.isActive && user.totpEnabled && !user.mustChangePassword && decide (user.role ∈ roles)

/-- A username is refused where another differs from it in letter case only. -/
def createUser (s : Annals ι) (caller : UserId) (made : NewAccount) : Annals ι :=
  match s.admitted caller [.admin, .superadmin] with
  | none => s
  | some user =>
    if s.users.any fun other ↦ other.username.toLower == made.username.toLower then s
    else if made.role = .superadmin ∧ user.role ≠ .superadmin then s
    else { s with
      users := s.users ++ [createdRow user.id made]
      creator := Function.update s.creator made.id (some user.id) }

/-- The row of one account changes. -/
def amend (s : Annals ι) (target : UserId) (change : AdminUser → AdminUser) : Annals ι where
  users := s.users.map fun row ↦ if row.id = target then change row else row
  requestedBy := s.requestedBy
  creator := s.creator
  executed := s.executed

def resetUserTotp (d : Deployment) (s : Annals ι) (caller target : UserId)
    (secret passwordHash : String) : Annals ι :=
  match s.admitted caller [.superadmin], s.user target with
  | some user, some row =>
    if outsideOrg d user row.orgId then s
    else if row.id = user.id then s
    else if demoAccount d row then s
    else s.amend target (resetRow user.id secret passwordHash)
  | _, _ => s

variable [DecidableEq ι]

def requestDelete (s : Annals ι) (report : ι) (caller : UserId) : Annals ι :=
  match s.admitted caller [.admin, .superadmin], s.requestedBy report with
  | some user, none => { s with
      requestedBy := Function.update s.requestedBy report (some user.id) }
  | _, _ => s

def cancelDelete (s : Annals ι) (report : ι) (caller : UserId) : Annals ι :=
  if s.requestedBy report = some caller then
    { s with requestedBy := Function.update s.requestedBy report none }
  else s

def confirmDelete (s : Annals ι) (report : ι) (caller : UserId) : Annals ι :=
  match s.admitted caller [.admin, .superadmin], s.requestedBy report with
  | some user, some requester =>
    if requester = user.id ∨ s.family.oneMadeTheOther (some requester) user.id = true then s
    else { s with
      requestedBy := Function.update s.requestedBy report none
      executed := ⟨report, requester, user.id⟩ :: s.executed }
  | _, _ => s

/-- What an event does. The id of a new account is one no account has. -/
def step (d : Deployment) (s : Annals ι) : Deed ι → Option (Annals ι)
  | .createUser caller made => if s.user made.id = none then some (s.createUser caller made) else none
  | .provisionLdapUser made =>
    if s.user made.id = none then some { s with users := s.users ++ [provisionedRow made] } else none
  | .mfaSetup holder => some (s.amend holder enrolledRow)
  | .accountPassword holder passwordHash => some (s.amend holder (ownPasswordRow passwordHash))
  | .resetUserTotp caller target secret passwordHash =>
    some (s.resetUserTotp d caller target secret passwordHash)
  | .requestDelete report caller => some (s.requestDelete report caller)
  | .cancelDelete report caller => some (s.cancelDelete report caller)
  | .confirmDelete report caller => some (s.confirmDelete report caller)

/-- An instance whose accounts nobody on it has made yet. -/
def founded (users : List AdminUser) : Annals ι where
  users := users
  requestedBy _ := none
  creator _ := none
  executed := []

end Annals

/-- Whether `reset_user_totp` refuses. -/
def Annals.refusesReset {ι : Type} (d : Deployment) (s : Annals ι) (caller target : UserId) : Bool :=
  match s.admitted caller [.superadmin], s.user target with
  | some user, some row => outsideOrg d user row.orgId || decide (row.id = user.id) || demoAccount d row
  | _, _ => true

/-- A reset is refused, or leaves every maker of the account in sight: the maker on record is the
superadmin who resets, or made that superadmin along a chain that does not lead through the account. -/
def KeepsMakers {ι : Type} (d : Deployment) (s : Annals ι) : Deed ι → Prop
  | .resetUserTotp caller target _ _ => s.refusesReset d caller target = true ∨
      ∀ user ∈ s.user target, user.passwordHash.isSome = true →
        ∀ maker ∈ user.createdById, Descends (s.family.forget target).madeBy maker caller
  | _ => True

instance {ι : Type} (d : Deployment) (s : Annals ι) (deed : Deed ι) : Decidable (KeepsMakers d s deed) :=
  match deed with
  | .resetUserTotp caller target _ _ =>
    have := fun maker ↦ decidable_of_iff _
      (Family.mem_makers_iff : maker ∈ (s.family.forget target).makers caller ↔ _)
    inferInstanceAs (Decidable (s.refusesReset d caller target = true ∨
      ∀ user ∈ s.user target, user.passwordHash.isSome = true →
        ∀ maker ∈ user.createdById, Descends (s.family.forget target).madeBy maker caller))
  | .createUser _ _ | .provisionLdapUser _ | .mfaSetup _ | .accountPassword _ _
  | .requestDelete _ _ | .cancelDelete _ _ | .confirmDelete _ _ => isTrue trivial

theorem madeBy_forget (family : Family UserId) (account : UserId) :
    (family.forget account).madeBy = Function.update family.madeBy account none := by
  funext id
  show (if id ∈ family.accounts then Function.update family.createdById account none id else none) =
    _
  by_cases heq : id = account
  · rw [heq, Function.update_self, Function.update_self, ite_self]
  · rw [Function.update_of_ne heq, Function.update_of_ne heq]
    rfl

namespace Annals

variable {ι : Type} {s : Annals ι} {d : Deployment}

theorem madeBy_family (id : UserId) :
    s.family.madeBy id = (s.user id).bind AdminUser.createdById := by
  show (if id ∈ s.users.map AdminUser.id then _ else none) = _
  split_ifs with hmem
  · rfl
  · have hnone : s.user id = none := by
      refine List.find?_eq_none.mpr fun user huser hid ↦ hmem ?_
      exact List.mem_map.mpr ⟨user, huser, of_decide_eq_true hid⟩
    rw [hnone]
    rfl

theorem id_of_user {id : UserId} {user : AdminUser} (h : s.user id = some user) : user.id = id := by
  have hfound : s.users.find? (fun user ↦ user.id = id) = some user := h
  simpa using List.find?_some hfound

theorem user_of_admitted {caller : UserId} {roles : List AdminRole} {user : AdminUser}
    (h : s.admitted caller roles = some user) : s.user caller = some user ∧ user.id = caller := by
  have huser := (Option.filter_eq_some_iff.mp h).1
  exact ⟨huser, id_of_user huser⟩

/-! ### What the record knows -/

/-- The record of makers knows of every account that was made, directly or through others, and no
deletion was carried out by two accounts one of which made the other. -/
structure Remembers (s : Annals ι) : Prop where
  created : ∀ made maker, s.creator made = some maker →
    (s.user made).isSome = true ∧ (s.user maker).isSome = true
  recorded : ∀ made maker, s.family.madeBy made = some maker → (s.user maker).isSome = true
  lineage : ∀ maker made, Descends s.creator maker made → Descends s.family.madeBy maker made
  requested : ∀ report requester, s.requestedBy report = some requester →
    (s.user requester).isSome = true
  executed : ∀ deletion ∈ s.executed, (s.user deletion.requester).isSome = true ∧
    (s.user deletion.confirmer).isSome = true ∧
    ¬Descends s.creator deletion.requester deletion.confirmer ∧
    ¬Descends s.creator deletion.confirmer deletion.requester

/-- Nobody was made by an account that is not there. -/
theorem Remembers.childless (h : s.Remembers) {id : UserId} (hfresh : s.user id = none) :
    (∀ made, s.creator made ≠ some id) ∧ ∀ made, s.family.madeBy made ≠ some id := by
  refine ⟨fun made hmade ↦ ?_, fun made hmade ↦ ?_⟩
  · have hsome := (h.created made id hmade).2
    rw [hfresh] at hsome
    cases hsome
  · have hsome := h.recorded made id hmade
    rw [hfresh] at hsome
    cases hsome

/-- The requests of a state whose accounts, with their makers, are those of another. -/
theorem Remembers.of_users {t : Annals ι} (h : s.Remembers) (husers : t.users = s.users)
    (hcreator : t.creator = s.creator)
    (hrequested : ∀ report requester, t.requestedBy report = some requester →
      (s.user requester).isSome = true)
    (hexecuted : ∀ deletion ∈ t.executed, deletion ∈ s.executed ∨
      (s.user deletion.requester).isSome = true ∧ (s.user deletion.confirmer).isSome = true ∧
        s.family.Apart deletion.requester deletion.confirmer) : t.Remembers := by
  obtain ⟨users, requestedBy, creator, executed⟩ := t
  subst husers
  subst hcreator
  refine ⟨h.created, h.recorded, h.lineage, hrequested, fun deletion hmem ↦ ?_⟩
  rcases hexecuted deletion hmem with hold | ⟨hrequester, hconfirmer, hforth, hback⟩
  · exact h.executed deletion hold
  · exact ⟨hrequester, hconfirmer, fun hmade ↦ hforth (h.lineage _ _ hmade),
      fun hmade ↦ hback (h.lineage _ _ hmade)⟩

/-! ### New accounts -/

theorem user_append (id : UserId) (row : AdminUser) :
    ({ s with users := s.users ++ [row] } : Annals ι).user id =
      (s.user id).or (if row.id = id then some row else none) := by
  show (s.users ++ [row]).find? _ = _
  rw [List.find?_append]
  congr 1
  by_cases hid : row.id = id
  · simp [hid]
  · simp [hid]

/-- An account comes in, with the maker its row has on record. -/
def add (s : Annals ι) (row : AdminUser) : Annals ι where
  users := s.users ++ [row]
  requestedBy := s.requestedBy
  creator := Function.update s.creator row.id row.createdById
  executed := s.executed

theorem madeBy_add {row : AdminUser} (hfresh : s.user row.id = none) :
    (s.add row).family.madeBy = Function.update s.family.madeBy row.id row.createdById := by
  funext id
  have huser : (s.add row).user id = (s.user id).or (if row.id = id then some row else none) :=
    user_append id row
  rw [madeBy_family, huser]
  by_cases hid : id = row.id
  · rw [hid, hfresh, Function.update_self, if_pos rfl]
    rfl
  · rw [Function.update_of_ne hid, madeBy_family, if_neg (Ne.symm hid), Option.or_none]

theorem isSome_user_add {row : AdminUser} {id : UserId}
    (h : (s.user id).isSome = true ∨ id = row.id) : ((s.add row).user id).isSome = true := by
  have huser : (s.add row).user id = (s.user id).or (if row.id = id then some row else none) :=
    user_append id row
  rw [huser, Option.isSome_or]
  rcases h with hold | hnew
  · rw [hold, Bool.true_or]
  · rw [if_pos hnew.symm, Option.isSome_some, Bool.or_true]

/-- The record goes on knowing all makers of an account that nobody else was made by yet. -/
theorem Remembers.add {row : AdminUser} (h : s.Remembers) (hfresh : s.user row.id = none)
    (hmaker : ∀ maker, row.createdById = some maker → (s.user maker).isSome = true) :
    (s.add row).Remembers := by
  obtain ⟨hcreated, hrecorded⟩ := h.childless hfresh
  have hne : ∀ id, (s.user id).isSome = true → id ≠ row.id := by
    rintro id hid rfl
    rw [hfresh] at hid
    cases hid
  have hearlier : ∀ {maker made : UserId}, made ≠ row.id → Descends (s.add row).creator maker made →
      Descends (s.add row).family.madeBy maker made := by
    intro maker made hother hdescends
    rw [madeBy_add hfresh]
    exact (descends_update_iff hrecorded hother).mpr
      (h.lineage maker made ((descends_update_iff hcreated hother).mp hdescends))
  refine ⟨fun made maker hmade ↦ ?_, fun made maker hmade ↦ ?_, fun maker made hmade ↦ ?_,
    fun report requester hrequested ↦ ?_, fun deletion hmem ↦ ?_⟩
  · change Function.update s.creator row.id row.createdById made = some maker at hmade
    by_cases heq : made = row.id
    · rw [heq, Function.update_self] at hmade
      exact ⟨isSome_user_add (.inr heq), isSome_user_add (.inl (hmaker maker hmade))⟩
    · rw [Function.update_of_ne heq] at hmade
      obtain ⟨hmadeKnown, hmakerKnown⟩ := h.created made maker hmade
      exact ⟨isSome_user_add (.inl hmadeKnown), isSome_user_add (.inl hmakerKnown)⟩
  · rw [madeBy_add hfresh] at hmade
    by_cases heq : made = row.id
    · rw [heq, Function.update_self] at hmade
      exact isSome_user_add (.inl (hmaker maker hmade))
    · rw [Function.update_of_ne heq] at hmade
      exact isSome_user_add (.inl (h.recorded made maker hmade))
  · by_cases heq : made = row.id
    · rcases hmade.cases_parent with rfl | ⟨parent, hparent, hdescends⟩
      · exact Descends.refl _
      · change Function.update s.creator row.id row.createdById made = some parent at hparent
        rw [heq, Function.update_self] at hparent
        refine (hearlier (hne parent (hmaker parent hparent)) hdescends).of_parent ?_
        rw [madeBy_add hfresh, heq, Function.update_self, hparent]
    · exact hearlier heq hmade
  · exact isSome_user_add (.inl (h.requested report requester hrequested))
  · obtain ⟨hrequester, hconfirmer, hforth, hback⟩ := h.executed deletion hmem
    refine ⟨isSome_user_add (.inl hrequester), isSome_user_add (.inl hconfirmer),
      fun hmade ↦ hforth ?_, fun hmade ↦ hback ?_⟩
    · exact (descends_update_iff hcreated (hne _ hconfirmer)).mp hmade
    · exact (descends_update_iff hcreated (hne _ hrequester)).mp hmade

theorem remembers_createUser {caller : UserId} {made : NewAccount} (h : s.Remembers)
    (hfresh : s.user made.id = none) : (s.createUser caller made).Remembers := by
  unfold createUser
  cases hadmitted : s.admitted caller [.admin, .superadmin] with
  | none => exact h
  | some user =>
    dsimp only
    split_ifs
    · exact h
    · exact h
    · obtain ⟨huser, hid⟩ := user_of_admitted hadmitted
      refine h.add (?_ : s.user (createdRow user.id made).id = none) fun maker hmaker ↦ ?_
      · exact hfresh
      cases hmaker
      rw [hid, huser]
      rfl

theorem remembers_provision {made : NewAccount} (h : s.Remembers)
    (hfresh : s.user made.id = none) :
    ({ s with users := s.users ++ [provisionedRow made] } : Annals ι).Remembers := by
  have hnone : s.creator made.id = none := by
    cases hcreator : s.creator made.id with
    | none => rfl
    | some maker =>
      have hsome := (h.created made.id maker hcreator).1
      rw [hfresh] at hsome
      cases hsome
  have hcreator : Function.update s.creator made.id none = s.creator := by
    rw [← hnone, Function.update_eq_self]
  have hadded : (s.add (provisionedRow made)).Remembers := h.add hfresh fun _ hmaker ↦ nomatch hmaker
  have heq : s.add (provisionedRow made) =
      { s with users := s.users ++ [provisionedRow made] } := by
    rw [add, show (provisionedRow made).createdById = none from rfl,
      show (provisionedRow made).id = made.id from rfl, hcreator]
  rw [← heq]
  exact hadded

/-! ### Changes of one account -/

section Amend

variable {target : UserId} {change : AdminUser → AdminUser}

theorem user_amend (hid : ∀ row, (change row).id = row.id) (id : UserId) :
    (s.amend target change).user id =
      (s.user id).map fun row ↦ if row.id = target then change row else row := by
  show (s.users.map _).find? _ = _
  rw [List.find?_map]
  refine congrArg (Option.map _) (congrArg (fun test ↦ s.users.find? test) (funext fun row ↦ ?_))
  rw [Function.comp_apply]
  split_ifs
  · rw [hid]
  · rfl

theorem madeBy_amend_of_ne (hid : ∀ row, (change row).id = row.id) {id : UserId}
    (hne : id ≠ target) : (s.amend target change).family.madeBy id = s.family.madeBy id := by
  rw [madeBy_family, madeBy_family, user_amend hid]
  cases huser : s.user id with
  | none => rfl
  | some user =>
    have hother : ¬user.id = target := by
      rw [id_of_user huser]
      exact hne
    rw [Option.map_some, if_neg hother]

theorem madeBy_amend_self (hid : ∀ row, (change row).id = row.id) :
    (s.amend target change).family.madeBy target =
      (s.user target).bind fun row ↦ (change row).createdById := by
  rw [madeBy_family, user_amend hid]
  cases huser : s.user target with
  | none => rfl
  | some user => rw [Option.map_some, if_pos (id_of_user huser), Option.bind_some, Option.bind_some]

/-- A change that leaves the maker on record alone. -/
theorem madeBy_amend (hid : ∀ row, (change row).id = row.id)
    (hmaker : ∀ row, s.user target = some row → (change row).createdById = row.createdById) :
    (s.amend target change).family.madeBy = s.family.madeBy := by
  funext id
  by_cases heq : id = target
  · rw [heq, madeBy_amend_self hid, madeBy_family]
    cases huser : s.user target with
    | none => rfl
    | some user => exact hmaker user huser
  · exact madeBy_amend_of_ne hid heq

theorem Remembers.amend (h : s.Remembers) (hid : ∀ row, (change row).id = row.id)
    (hrecorded : ∀ made maker, (s.amend target change).family.madeBy made = some maker →
      (s.user maker).isSome = true)
    (hlineage : ∀ maker made, Descends s.family.madeBy maker made →
      Descends (s.amend target change).family.madeBy maker made) :
    (s.amend target change).Remembers := by
  have hgrows : ∀ id, (s.user id).isSome = true → ((s.amend target change).user id).isSome = true := by
    intro id hknown
    rw [user_amend hid, Option.isSome_map]
    exact hknown
  refine ⟨fun made maker hmade ↦ ?_, fun made maker hmade ↦ hgrows _ (hrecorded made maker hmade),
    fun maker made hmade ↦ hlineage maker made (h.lineage maker made hmade),
    fun report requester hrequested ↦ hgrows _ (h.requested report requester hrequested),
    fun deletion hmem ↦ ?_⟩
  · obtain ⟨hmadeKnown, hmakerKnown⟩ := h.created made maker hmade
    exact ⟨hgrows _ hmadeKnown, hgrows _ hmakerKnown⟩
  · obtain ⟨hrequester, hconfirmer, happart⟩ := h.executed deletion hmem
    exact ⟨hgrows _ hrequester, hgrows _ hconfirmer, happart⟩

/-- What the holder of an account changes makes nobody forget its maker. -/
theorem Remembers.amend_own (h : s.Remembers) (hid : ∀ row, (change row).id = row.id)
    (hmaker : ∀ row, (change row).createdById = row.createdById) :
    (s.amend target change).Remembers := by
  have hsame : (s.amend target change).family.madeBy = s.family.madeBy :=
    madeBy_amend hid fun row _ ↦ hmaker row
  refine h.amend hid (fun made maker hmade ↦ ?_) fun maker made hmade ↦ ?_
  · rw [hsame] at hmade
    exact h.recorded made maker hmade
  · rw [hsame]
    exact hmade

end Amend

/-! ### Resets -/

theorem id_resetRow (caller : UserId) (secret passwordHash : String) (row : AdminUser) :
    (resetRow caller secret passwordHash row).id = row.id := by
  unfold resetRow
  cases row.passwordHash <;> rfl

theorem createdById_resetRow (caller : UserId) (secret passwordHash : String) (row : AdminUser) :
    (resetRow caller secret passwordHash row).createdById =
      if row.passwordHash.isSome = true then some caller else row.createdById := by
  unfold resetRow
  cases row.passwordHash <;> rfl

/-- A reset puts the superadmin on record as the maker of an account with a local password, and
changes nobody else's maker. -/
theorem madeBy_reset (s : Annals ι) (caller target : UserId) (secret passwordHash : String) :
    (s.amend target (resetRow caller secret passwordHash)).family.madeBy = s.family.madeBy ∨
    ∃ user, s.user target = some user ∧ user.passwordHash.isSome = true ∧
      (s.amend target (resetRow caller secret passwordHash)).family.madeBy =
        Function.update s.family.madeBy target (some caller) := by
  have hid := id_resetRow caller secret passwordHash
  by_cases hlocal : ∃ user, s.user target = some user ∧ user.passwordHash.isSome = true
  · obtain ⟨user, huser, hpassword⟩ := hlocal
    refine .inr ⟨user, huser, hpassword, funext fun id ↦ ?_⟩
    by_cases heq : id = target
    · rw [heq, madeBy_amend_self hid, huser, Option.bind_some, createdById_resetRow,
        if_pos hpassword, Function.update_self]
    · rw [madeBy_amend_of_ne hid heq, Function.update_of_ne heq]
  · refine .inl (madeBy_amend hid fun row huser ↦ ?_)
    rw [createdById_resetRow, if_neg fun hpassword ↦ hlocal ⟨row, huser, hpassword⟩]

/-- A reset that keeps the makers in sight keeps what the record knows. -/
theorem Remembers.reset {caller target : UserId} {secret passwordHash : String} (h : s.Remembers)
    (hcaller : (s.user caller).isSome = true)
    (hkeeps : ∀ user ∈ s.user target, user.passwordHash.isSome = true →
      ∀ maker ∈ user.createdById, Descends (s.family.forget target).madeBy maker caller) :
    (s.amend target (resetRow caller secret passwordHash)).Remembers := by
  refine h.amend (id_resetRow caller secret passwordHash) (fun made maker hmade ↦ ?_)
    fun maker made hmade ↦ ?_
  · rcases madeBy_reset s caller target secret passwordHash with heq | ⟨user, -, -, heq⟩
    · rw [heq] at hmade
      exact h.recorded made maker hmade
    · rw [heq] at hmade
      by_cases hid : made = target
      · rw [hid, Function.update_self] at hmade
        cases hmade
        exact hcaller
      · rw [Function.update_of_ne hid] at hmade
        exact h.recorded made maker hmade
  · rcases madeBy_reset s caller target secret passwordHash with heq | ⟨user, huser, hlocal, heq⟩
    · rw [heq]
      exact hmade
    · rw [heq]
      refine hmade.redirect fun old hold ↦ ?_
      rw [madeBy_family, huser] at hold
      rw [← madeBy_forget]
      exact hkeeps user huser hlocal old hold

theorem remembers_resetUserTotp {caller target : UserId} {secret passwordHash : String}
    (h : s.Remembers)
    (hkeeps : KeepsMakers d s (.resetUserTotp caller target secret passwordHash)) :
    (s.resetUserTotp d caller target secret passwordHash).Remembers := by
  unfold resetUserTotp
  cases hadmitted : s.admitted caller [.superadmin] with
  | none => exact h
  | some user =>
    cases htarget : s.user target with
    | none => exact h
    | some row =>
      dsimp only
      obtain ⟨huser, hid⟩ := user_of_admitted hadmitted
      split_ifs with houtside hself hdemo
      · exact h
      · exact h
      · exact h
      · have hreset : s.refusesReset d caller target = false := by
          rw [refusesReset, hadmitted, htarget]
          simp [houtside, hself, hdemo]
        rw [hid]
        exact h.reset (by rw [huser]; rfl) (hkeeps.resolve_left (Bool.eq_false_iff.mp hreset))

/-! ### Deletions -/

variable [DecidableEq ι]

theorem remembers_requestDelete {report : ι} {caller : UserId} (h : s.Remembers) :
    (s.requestDelete report caller).Remembers := by
  unfold requestDelete
  cases hadmitted : s.admitted caller [.admin, .superadmin] with
  | none => exact h
  | some user =>
    cases s.requestedBy report with
    | some requester => exact h
    | none =>
      obtain ⟨huser, hid⟩ := user_of_admitted hadmitted
      refine h.of_users rfl rfl (fun other requester hother ↦ ?_) fun _ hmem ↦ .inl hmem
      change Function.update s.requestedBy report (some user.id) other = some requester at hother
      by_cases heq : other = report
      · rw [heq, Function.update_self] at hother
        cases hother
        rw [hid, huser]
        rfl
      · rw [Function.update_of_ne heq] at hother
        exact h.requested other requester hother

/-- A request that is gone was no other's. -/
theorem requested_of_withdrawn {report other : ι} {requester : UserId}
    (h : Function.update s.requestedBy report none other = some requester) :
    s.requestedBy other = some requester := by
  by_cases heq : other = report
  · rw [heq, Function.update_self] at h
    cases h
  · rw [Function.update_of_ne heq] at h
    exact h

theorem remembers_cancelDelete {report : ι} {caller : UserId} (h : s.Remembers) :
    (s.cancelDelete report caller).Remembers := by
  unfold cancelDelete
  split_ifs
  · exact h.of_users rfl rfl
      (fun other requester hother ↦ h.requested other requester (requested_of_withdrawn hother))
      fun _ hmem ↦ .inl hmem
  · exact h

theorem remembers_confirmDelete {report : ι} {caller : UserId} (h : s.Remembers) :
    (s.confirmDelete report caller).Remembers := by
  unfold confirmDelete
  cases hadmitted : s.admitted caller [.admin, .superadmin] with
  | none => exact h
  | some user =>
    cases hrequested : s.requestedBy report with
    | none => exact h
    | some requester =>
      dsimp only
      split_ifs with hrefused
      · exact h
      obtain ⟨huser, hid⟩ := user_of_admitted hadmitted
      refine h.of_users rfl rfl
        (fun other asked hother ↦ h.requested other asked (requested_of_withdrawn hother))
        fun deletion hmem ↦ ?_
      rcases List.mem_cons.mp hmem with rfl | hold
      · refine .inr ⟨h.requested report requester hrequested, ?_, ?_⟩
        · show (s.user user.id).isSome = true
          rw [hid, huser]
          rfl
        · exact Family.apart_of_oneMadeTheOther
            (Bool.eq_false_iff.mpr fun hmade ↦ hrefused (.inr hmade))
      · exact .inl hold

end Annals

/-! ### Every history -/

variable {ι : Type} [DecidableEq ι] {d : Deployment}

theorem remembers_step {s t : Annals ι} {deed : Deed ι} (h : s.Remembers)
    (hkeeps : KeepsMakers d s deed) (hstep : Annals.step d s deed = some t) : t.Remembers := by
  cases deed with
  | createUser caller made =>
    obtain ⟨hfresh, heq⟩ := Option.ite_none_right_eq_some.mp hstep
    cases heq
    exact Annals.remembers_createUser h hfresh
  | provisionLdapUser made =>
    obtain ⟨hfresh, heq⟩ := Option.ite_none_right_eq_some.mp hstep
    cases heq
    exact Annals.remembers_provision h hfresh
  | mfaSetup holder =>
    cases hstep
    exact h.amend_own (fun _ ↦ rfl) fun _ ↦ rfl
  | accountPassword holder passwordHash =>
    cases hstep
    refine h.amend_own (fun row ↦ ?_) fun row ↦ ?_
    · unfold ownPasswordRow
      split_ifs <;> rfl
    · unfold ownPasswordRow
      split_ifs <;> rfl
  | resetUserTotp caller target secret passwordHash =>
    cases hstep
    exact Annals.remembers_resetUserTotp h hkeeps
  | requestDelete report caller =>
    cases hstep
    exact Annals.remembers_requestDelete h
  | cancelDelete report caller =>
    cases hstep
    exact Annals.remembers_cancelDelete h
  | confirmDelete report caller =>
    cases hstep
    exact Annals.remembers_confirmDelete h

/-- In every history whose resets are refused or keep the makers in sight: two accounts one of which
created the other, directly or through others, never delete a report together. -/
theorem makers_and_made_never_delete_together {users : List AdminUser} {deeds : List (Deed ι)}
    {last : Annals ι} (hunmade : ∀ user ∈ users, user.createdById = none)
    (hkeeps : Machine.Meets (Annals.step d) (KeepsMakers d) (Annals.founded users) deeds)
    (hrun : Machine.run (Annals.step d) (Annals.founded users) deeds = some last)
    {deletion : FourEyed ι} (hmem : deletion ∈ last.executed) {x y : UserId}
    (hmade : Descends last.creator x y) :
    ¬(deletion.requester = x ∧ deletion.confirmer = y) ∧
      ¬(deletion.requester = y ∧ deletion.confirmer = x) := by
  have hstart : (Annals.founded users : Annals ι).Remembers := by
    refine ⟨(fun _ _ h ↦ nomatch h), fun made maker hrecorded ↦ ?_, fun maker made hdescends ↦ ?_,
      (fun _ _ h ↦ nomatch h), (fun _ h ↦ nomatch h)⟩
    · rw [Annals.madeBy_family] at hrecorded
      obtain ⟨user, huser, hmaker⟩ := Option.bind_eq_some_iff.mp hrecorded
      rw [hunmade user (List.mem_of_find?_eq_some huser)] at hmaker
      cases hmaker
    · rw [hdescends.eq_of_root rfl]
      exact Descends.refl _
  have hlast : last.Remembers := Machine.run_invariant
    (fun _ _ _ hs hcondition hstep ↦ remembers_step hs hcondition hstep) hstart hkeeps hrun
  obtain ⟨-, -, hforth, hback⟩ := hlast.executed deletion hmem
  refine ⟨?_, ?_⟩
  · rintro ⟨rfl, rfl⟩
    exact hforth hmade
  · rintro ⟨rfl, rfl⟩
    exact hback hmade

/-! ### Whom a superadmin may reset -/

/-- A superadmin and an admin whom nobody on the instance made. -/
def founders : List AdminUser :=
  [{ id := 0, username := "sara", passwordHash := some "hash of sara", totpSecret := "S"
     totpEnabled := true, role := .superadmin },
    { id := 1, username := "xena", passwordHash := some "hash of xena", totpSecret := "X"
      totpEnabled := true, role := .admin }]

/-- What is taken from other packages plays no part in a history. -/
def bare : Deployment where
  checkpw _ _ := false
  hashpw _ password := password
  verifyCode _ _ _ := false

/-- The new admin, and how its holder signs in for the first time. -/
def yves : NewAccount := ⟨2, "yves", "hash of a first password", "Y", .admin, none⟩

def arrival : List (Deed ℕ) := [.mfaSetup 2, .accountPassword 2 "hash of yves"]

/-- Sara makes Yves and resets him later. Yves requests a deletion, and Xena confirms it. -/
def resetByTheMaker : List (Deed ℕ) :=
  .createUser 0 yves :: arrival ++ .resetUserTotp 0 2 "Z" "hash of a temporary password" :: arrival ++
    [.requestDelete 7 2, .confirmDelete 7 0, .confirmDelete 7 1]

theorem makers_and_made_never_delete_together_after_a_reset :
    ∃ last, Machine.run (Annals.step bare) (Annals.founded founders) resetByTheMaker = some last ∧
      last.executed = [⟨7, 2, 1⟩] ∧ ∀ deletion ∈ last.executed,
        ¬(deletion.requester = 0 ∧ deletion.confirmer = 2) ∧
          ¬(deletion.requester = 2 ∧ deletion.confirmer = 0) := by
  have hrun := (Option.some_get (show (Machine.run (Annals.step bare) (Annals.founded founders)
    resetByTheMaker).isSome = true by decide +kernel)).symm
  refine ⟨_, hrun, by decide +kernel, fun deletion hmem ↦ ?_⟩
  exact makers_and_made_never_delete_together (by decide +kernel) (by decide +kernel) hrun hmem
    (Descends.child (by decide +kernel))

/-- Xena makes Yves, and Sara resets him. -/
def resetByAnother : List (Deed ℕ) :=
  .createUser 1 yves :: arrival ++ .resetUserTotp 0 2 "Z" "hash of a temporary password" :: arrival ++
    [.requestDelete 7 1, .confirmDelete 7 2]

/-- Xena and the account she made delete a report together. -/
theorem maker_and_made_delete_together :
    ∃ last, Machine.run (Annals.step bare) (Annals.founded founders) resetByAnother = some last ∧
      Descends last.creator 1 2 ∧
      ∃ deletion ∈ last.executed, deletion.requester = 1 ∧ deletion.confirmer = 2 := by
  have hrun := (Option.some_get (show (Machine.run (Annals.step bare) (Annals.founded founders)
    resetByAnother).isSome = true by decide +kernel)).symm
  exact ⟨_, hrun, Descends.child (by decide +kernel), by decide +kernel⟩

end OpenWhistle.Deletion
