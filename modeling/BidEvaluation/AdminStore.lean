-- `store_admin.py` and its in-memory repositories: projects, suppliers and
-- rule packs. Each repository holds the rows of all tenants in one
-- dictionary. What an operation draws (the hex of an id, the time) stands in
-- its request.
import BidEvaluation.Lib.OwnedTable
import BidEvaluation.Store

open dict_lib bid_evaluation.values bid_evaluation.core

namespace bid_evaluation.admin_store

/-! ## Rows -/

structure Project where
  project_id : String
  tenant_id : String
  project_code : String
  name : String
  ruleset_version : String
  status : String
  created_at : Int
  updated_at : Int
deriving DecidableEq

structure Supplier where
  supplier_id : String
  tenant_id : String
  supplier_code : String
  name : String
  qualification : PyVal
  risk_flags : PyVal
  status : String
  created_at : Int
  updated_at : Int

/-- A rule pack with what only its administration reads. -/
structure RulePackRow extends RulePack where
  name : String
  status : String
  created_at : Int
  updated_at : Int

structure AdminStore where
  projects : Table Project.project_id
  suppliers : Table Supplier.supplier_id
  rule_packs : Table (fun row : RulePackRow => row.rule_pack_version)

def AdminStore.empty : AdminStore := ⟨Table.empty, Table.empty, Table.empty⟩

/-! ## Requests -/

structure ProjectCreateRequest where
  project_code : String
  name : String
  ruleset_version : String
  status : String

structure ProjectUpdateRequest where
  name : Option String
  ruleset_version : Option String
  status : Option String

structure SupplierCreateRequest where
  supplier_code : String
  name : String
  qualification : PyDict
  risk_flags : PyDict
  status : String

structure SupplierUpdateRequest where
  name : Option String
  qualification : Option PyDict
  risk_flags : Option PyDict
  status : Option String

structure RulePackCreateRequest where
  rule_pack_version : String
  name : String
  rules : PyDict
  status : String

structure RulePackUpdateRequest where
  name : Option String
  rules : Option PyDict
  status : Option String

/-- `text or default`. -/
def or_default (text default : String) : String := if text = "" then default else text

/-- `str(value or "").strip() or old`, if there is a value. -/
def new_text (value : Option String) (old : String) : String :=
  match value with
  | none => old
  | some text => or_default (strip text) old

def new_dict (value : Option PyDict) (old : PyVal) : PyVal :=
  match value with
  | none => old
  | some entries => .dict entries

def bad_request (message : String) : PyErr :=
  .api ⟨"REQ_VALIDATION_FAILED", message, "validation", false, 400⟩

def not_found (code message : String) : PyErr := .api ⟨code, message, "validation", false, 404⟩

/-! ## The pattern of the three families -/

section family

variable {ν : Type} {key : ν → String} (owner : ν → String)

/-- Two texts that a create needs, the row that it may find, and the row
that it makes otherwise. -/
def create_row (message : String) (needed : String × String) (existing : Option ν) (row : ν)
    (t : Table key) : Except PyErr (Table key × ν) :=
  if needed.1 = "" ∨ needed.2 = "" then .error (bad_request message)
  else
    match existing with
    | some row => .ok (t, row)
    | none => .ok (t.put row, row)

def update_row (missing : PyErr) (change : ν → ν) (t : Table key) (tenant_id id : String) :
    Except PyErr (Table key × ν) :=
  match t.getOwned owner tenant_id id with
  | none => .error missing
  | some row => .ok (t.put (change row), change row)

def delete_row (missing : PyErr) (t : Table key) (tenant_id id : String) :
    Except PyErr (Table key) :=
  match t.getOwned owner tenant_id id with
  | none => .error missing
  | some _ => .ok (t.erase id)

end family

/-! ## Projects -/

def get_by_project_code (s : AdminStore) (tenant_id project_code : String) : Option Project :=
  s.projects.values.find? (fun row => row.tenant_id = tenant_id ∧ row.project_code = project_code)

def new_project (uuid_hex : String) (now : Int) (tenant_id : String)
    (payload : ProjectCreateRequest) : Project where
  project_id := "prj_" ++ uuid_hex
  tenant_id := tenant_id
  project_code := strip payload.project_code
  name := strip payload.name
  ruleset_version := or_default payload.ruleset_version "v1.0.0"
  status := or_default payload.status "active"
  created_at := now
  updated_at := now

def create_project (s : AdminStore) (uuid_hex : String) (now : Int) (tenant_id : String)
    (payload : ProjectCreateRequest) : Except PyErr (AdminStore × Project) := do
  let (projects, saved) ← create_row "project_code and name are required"
    (strip payload.project_code, strip payload.name)
    (get_by_project_code s tenant_id (strip payload.project_code))
    (new_project uuid_hex now tenant_id payload) s.projects
  pure ({ s with projects := projects }, saved)

def list_projects (s : AdminStore) (tenant_id : String) : List Project :=
  s.projects.owned Project.tenant_id tenant_id

def get_project_for_tenant (s : AdminStore) (project_id tenant_id : String) : Option Project :=
  s.projects.getOwned Project.tenant_id tenant_id project_id

def project_not_found : PyErr := not_found "PROJECT_NOT_FOUND" "project not found"

def changed_project (now : Int) (payload : ProjectUpdateRequest) (project : Project) : Project :=
  { project with
    name := new_text payload.name project.name
    ruleset_version := new_text payload.ruleset_version project.ruleset_version
    status := new_text payload.status project.status
    updated_at := now }

def update_project (s : AdminStore) (now : Int) (project_id tenant_id : String)
    (payload : ProjectUpdateRequest) : Except PyErr (AdminStore × Project) := do
  let (projects, saved) ← update_row Project.tenant_id project_not_found
    (changed_project now payload) s.projects tenant_id project_id
  pure ({ s with projects := projects }, saved)

def delete_project (s : AdminStore) (project_id tenant_id : String) : Except PyErr AdminStore := do
  let projects ← delete_row Project.tenant_id project_not_found s.projects tenant_id project_id
  pure { s with projects := projects }

/-! ## Suppliers -/

def get_by_supplier_code (s : AdminStore) (tenant_id supplier_code : String) : Option Supplier :=
  s.suppliers.values.find? (fun row =>
    row.tenant_id = tenant_id ∧ row.supplier_code = supplier_code)

def new_supplier (uuid_hex : String) (now : Int) (tenant_id : String)
    (payload : SupplierCreateRequest) : Supplier where
  supplier_id := "sup_" ++ uuid_hex
  tenant_id := tenant_id
  supplier_code := strip payload.supplier_code
  name := strip payload.name
  qualification := .dict payload.qualification
  risk_flags := .dict payload.risk_flags
  status := or_default payload.status "active"
  created_at := now
  updated_at := now

def create_supplier (s : AdminStore) (uuid_hex : String) (now : Int) (tenant_id : String)
    (payload : SupplierCreateRequest) : Except PyErr (AdminStore × Supplier) := do
  let (suppliers, saved) ← create_row "supplier_code and name are required"
    (strip payload.supplier_code, strip payload.name)
    (get_by_supplier_code s tenant_id (strip payload.supplier_code))
    (new_supplier uuid_hex now tenant_id payload) s.suppliers
  pure ({ s with suppliers := suppliers }, saved)

def list_suppliers (s : AdminStore) (tenant_id : String) : List Supplier :=
  s.suppliers.owned Supplier.tenant_id tenant_id

def get_supplier_for_tenant (s : AdminStore) (supplier_id tenant_id : String) : Option Supplier :=
  s.suppliers.getOwned Supplier.tenant_id tenant_id supplier_id

def supplier_not_found : PyErr := not_found "SUPPLIER_NOT_FOUND" "supplier not found"

def changed_supplier (now : Int) (payload : SupplierUpdateRequest) (supplier : Supplier) :
    Supplier :=
  { supplier with
    name := new_text payload.name supplier.name
    qualification := new_dict payload.qualification supplier.qualification
    risk_flags := new_dict payload.risk_flags supplier.risk_flags
    status := new_text payload.status supplier.status
    updated_at := now }

def update_supplier (s : AdminStore) (now : Int) (supplier_id tenant_id : String)
    (payload : SupplierUpdateRequest) : Except PyErr (AdminStore × Supplier) := do
  let (suppliers, saved) ← update_row Supplier.tenant_id supplier_not_found
    (changed_supplier now payload) s.suppliers tenant_id supplier_id
  pure ({ s with suppliers := suppliers }, saved)

def delete_supplier (s : AdminStore) (supplier_id tenant_id : String) :
    Except PyErr AdminStore := do
  let suppliers ←
    delete_row Supplier.tenant_id supplier_not_found s.suppliers tenant_id supplier_id
  pure { s with suppliers := suppliers }

/-! ## Rule packs -/

def rule_pack_tenant (row : RulePackRow) : String := row.tenant_id

def get_rule_pack_for_tenant (s : AdminStore) (rule_pack_version tenant_id : String) :
    Option RulePackRow :=
  s.rule_packs.getOwned rule_pack_tenant tenant_id rule_pack_version

def new_rule_pack (now : Int) (tenant_id : String) (payload : RulePackCreateRequest) :
    RulePackRow where
  rule_pack_version := strip payload.rule_pack_version
  tenant_id := tenant_id
  rules := .dict payload.rules
  name := strip payload.name
  status := or_default payload.status "active"
  created_at := now
  updated_at := now

/-- A rule pack is stored under its version, whoever has one there. -/
def create_rule_pack (s : AdminStore) (now : Int) (tenant_id : String)
    (payload : RulePackCreateRequest) : Except PyErr (AdminStore × RulePackRow) := do
  let (rule_packs, saved) ← create_row "rule_pack_version and name are required"
    (strip payload.rule_pack_version, strip payload.name)
    (get_rule_pack_for_tenant s (strip payload.rule_pack_version) tenant_id)
    (new_rule_pack now tenant_id payload) s.rule_packs
  pure ({ s with rule_packs := rule_packs }, saved)

def list_rule_packs (s : AdminStore) (tenant_id : String) : List RulePackRow :=
  s.rule_packs.owned rule_pack_tenant tenant_id

def rule_pack_not_found : PyErr := not_found "RULE_PACK_NOT_FOUND" "rule pack not found"

def changed_rule_pack (now : Int) (payload : RulePackUpdateRequest) (rule_pack : RulePackRow) :
    RulePackRow :=
  { rule_pack with
    name := new_text payload.name rule_pack.name
    status := new_text payload.status rule_pack.status
    rules := new_dict payload.rules rule_pack.rules
    updated_at := now }

def update_rule_pack (s : AdminStore) (now : Int) (rule_pack_version tenant_id : String)
    (payload : RulePackUpdateRequest) : Except PyErr (AdminStore × RulePackRow) := do
  let (rule_packs, saved) ← update_row rule_pack_tenant rule_pack_not_found
    (changed_rule_pack now payload) s.rule_packs tenant_id rule_pack_version
  pure ({ s with rule_packs := rule_packs }, saved)

def delete_rule_pack (s : AdminStore) (rule_pack_version tenant_id : String) :
    Except PyErr AdminStore := do
  let rule_packs ←
    delete_row rule_pack_tenant rule_pack_not_found s.rule_packs tenant_id rule_pack_version
  pure { s with rule_packs := rule_packs }

/-! ## Operations -/

inductive Request where
  | create_project (uuid_hex : String) (now : Int) (payload : ProjectCreateRequest)
  | list_projects
  | get_project (project_id : String)
  | update_project (now : Int) (project_id : String) (payload : ProjectUpdateRequest)
  | delete_project (project_id : String)
  | create_supplier (uuid_hex : String) (now : Int) (payload : SupplierCreateRequest)
  | list_suppliers
  | get_supplier (supplier_id : String)
  | update_supplier (now : Int) (supplier_id : String) (payload : SupplierUpdateRequest)
  | delete_supplier (supplier_id : String)
  | create_rule_pack (now : Int) (payload : RulePackCreateRequest)
  | list_rule_packs
  | get_rule_pack (rule_pack_version : String)
  | update_rule_pack (now : Int) (rule_pack_version : String) (payload : RulePackUpdateRequest)
  | delete_rule_pack (rule_pack_version : String)

structure Operation where
  tenant_id : String
  request : Request

inductive Reply where
  | project (row : Option Project)
  | projects (rows : List Project)
  | supplier (row : Option Supplier)
  | suppliers (rows : List Supplier)
  | rule_pack (row : Option RulePackRow)
  | rule_packs (rows : List RulePackRow)
  | deleted (id : String)

/-- The store after an operation and its reply. A raise changes nothing. -/
def answer {α : Type} (s : AdminStore) (r : Except PyErr (AdminStore × α)) (reply : α → Reply) :
    AdminStore × Except PyErr Reply :=
  match r with
  | .ok (s', a) => (s', .ok (reply a))
  | .error e => (s, .error e)

/-- The rule packs as the evaluations read them. -/
def AdminStore.loaded (s : AdminStore) : Table RulePack.rule_pack_version :=
  s.rule_packs.map RulePackRow.toRulePack fun _ => rfl

def perform (s : AdminStore) (op : Operation) : AdminStore × Except PyErr Reply :=
  let t := op.tenant_id
  match op.request with
  | .create_project uuid_hex now payload =>
    answer s (create_project s uuid_hex now t payload) (fun row => .project (some row))
  | .list_projects => (s, .ok (.projects (list_projects s t)))
  | .get_project project_id => (s, .ok (.project (get_project_for_tenant s project_id t)))
  | .update_project now project_id payload =>
    answer s (update_project s now project_id t payload) (fun row => .project (some row))
  | .delete_project project_id =>
    answer s ((delete_project s project_id t).map (·, project_id)) .deleted
  | .create_supplier uuid_hex now payload =>
    answer s (create_supplier s uuid_hex now t payload) (fun row => .supplier (some row))
  | .list_suppliers => (s, .ok (.suppliers (list_suppliers s t)))
  | .get_supplier supplier_id => (s, .ok (.supplier (get_supplier_for_tenant s supplier_id t)))
  | .update_supplier now supplier_id payload =>
    answer s (update_supplier s now supplier_id t payload) (fun row => .supplier (some row))
  | .delete_supplier supplier_id =>
    answer s ((delete_supplier s supplier_id t).map (·, supplier_id)) .deleted
  | .create_rule_pack now payload =>
    answer s (create_rule_pack s now t payload) (fun row => .rule_pack (some row))
  | .list_rule_packs => (s, .ok (.rule_packs (list_rule_packs s t)))
  | .get_rule_pack version => (s, .ok (.rule_pack (get_rule_pack_for_tenant s version t)))
  | .update_rule_pack now version payload =>
    answer s (update_rule_pack s now version t payload) (fun row => .rule_pack (some row))
  | .delete_rule_pack version =>
    answer s ((delete_rule_pack s version t).map (·, version)) .deleted

end bid_evaluation.admin_store
