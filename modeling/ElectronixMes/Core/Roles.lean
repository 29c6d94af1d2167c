import Mathlib.Data.List.Basic

/-!
# Role codes and authorization policy

A role is the code stored in the token; unknown codes have no rights.
-/

namespace ElectronixMes.Core

namespace Roles

def admin : String := "Admin"
def planner : String := "Planner"
def supervisor : String := "Supervisor"
def operator : String := "Operator"
def quality : String := "Quality"

end Roles

/-- An authenticated caller. -/
structure AuthUser where
  userId : String
  role : String
  deriving DecidableEq

/-- The roles that create, update and delete master data. -/
def canWriteMaster (roleCode : String) : Bool :=
  roleCode ∈ [Roles.admin, Roles.planner]

/-- The roles that promote and reject program revisions. -/
def canPromoteRevision (roleCode : String) : Bool :=
  roleCode ∈ [Roles.admin, Roles.planner, Roles.supervisor]

/-- The roles that place and release holds and disposition nonconformances. -/
def canManageQuality (roleCode : String) : Bool :=
  roleCode ∈ [Roles.admin, Roles.supervisor, Roles.quality]

end ElectronixMes.Core
