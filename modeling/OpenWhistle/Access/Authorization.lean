import OpenWhistle.Accounts.Users

/-!
# Who may open a report, and who may see its identity

The object-level authorization of the admin pages, in the three forms the code has it: as a decision
about one report, as the scope of a query, and as the stricter rule for the identity of a confidential
report. All of them look at two columns of the report: its organisation and its assignee.
-/

set_option autoImplicit false
set_option relaxedAutoImplicit false

namespace OpenWhistle.Access

open Accounts (AdminUser AdminRole UserId)

/-- Whose a report is. -/
structure Placement where
  orgId : Option ℕ
  assignedToId : Option UserId
  deriving DecidableEq

/-- Query arguments that confine a query to an organisation. -/
structure Scope where
  scopeOrg : Bool
  orgId : Option ℕ
  deriving DecidableEq

variable (multiTenancyEnabled : Bool) (user : AdminUser)

/-- `_can_access_report`. -/
def canAccessReport (report : Placement) : Bool :=
  if user.role = .superadmin then true
  else if multiTenancyEnabled = true ∧ user.orgId ≠ report.orgId then false
  else if user.role = .caseManager then decide (report.assignedToId = some user.id)
  else true

/-- `_org_scope`. -/
def orgScope : Scope where
  scopeOrg := multiTenancyEnabled && decide (user.role ≠ .superadmin)
  orgId := if multiTenancyEnabled && decide (user.role ≠ .superadmin) then user.orgId else none

/-- `_own_cases_only`. -/
def ownCasesOnly : Option UserId := if user.role = .caseManager then some user.id else none

/-- `can_reveal_identity`. -/
def canRevealIdentity (report : Placement) : Bool :=
  match report.assignedToId with
  | some assignee => decide (assignee = user.id)
  | none =>
    if user.role = .admin ∨ user.role = .superadmin then
      !multiTenancyEnabled || decide (user.orgId = report.orgId)
    else false

end OpenWhistle.Access
