-- Projects, suppliers and rule packs of `PostgresBackedStore`. `__init__`
-- binds the repositories of the tables. A snapshot that is restored binds
-- those of the memory in their place, and the store calls both in one way.
import BidEvaluation.AdminStore
import BidEvaluation.Lib.Lockstep
import Mathlib.Data.List.Sort
import Mathlib.Logic.Function.Basic

open dict_lib lockstep bid_evaluation.values bid_evaluation.admin_store

namespace bid_evaluation.admin_tables

/-! ## Processes -/

/-- What `projects_repository` and its two siblings are. -/
inductive Repositories where
  | postgres
  | in_memory
deriving DecidableEq

structure Process where
  repositories : Repositories
  memory : AdminStore

/-- The row of the snapshot, as far as it has projects, suppliers and rule
packs, and the three tables. -/
structure Database where
  store_state : Option AdminStore
  tables : AdminStore

/-- `__init__` with `_load_state`. -/
def init (database : Database) : Process :=
  match database.store_state with
  | none => ⟨.postgres, AdminStore.empty⟩
  | some payload => ⟨.in_memory, payload⟩

/-! ## The repositories of the tables -/

/-- The store passes no `tenant_id` to `upsert`, which the repositories of the
tables require. -/
def missing_tenant_id (class_name : String) : PyErr :=
  .raised "TypeError"
    (class_name ++ ".upsert() missing 1 required keyword-only argument: 'tenant_id'")

section family

variable {ν : Type} {key : ν → String} (owner : ν → String)

def create_in_table (class_name message : String) (needed : String × String)
    (existing : Option ν) (t : Table key) : Except PyErr (Table key × ν) :=
  if needed.1 = "" ∨ needed.2 = "" then .error (bad_request message)
  else
    match existing with
    | some row => .ok (t, row)
    | none => .error (missing_tenant_id class_name)

def update_in_table (class_name : String) (missing : PyErr) (t : Table key)
    (tenant_id id : String) : Except PyErr (Table key × ν) :=
  match t.getOwned owner tenant_id id with
  | none => .error missing
  | some _ => .error (missing_tenant_id class_name)

end family

/-- `ORDER BY key DESC`. -/
def latest_first {ν : Type} (time : ν → Int) (rows : List ν) : List ν :=
  rows.insertionSort fun a b => time b ≤ time a

def table_create_project (s : AdminStore) (tenant_id : String) (payload : ProjectCreateRequest) :
    Except PyErr (AdminStore × Project) := do
  let (projects, saved) ← create_in_table "PostgresProjectsRepository"
    "project_code and name are required" (strip payload.project_code, strip payload.name)
    (get_by_project_code s tenant_id (strip payload.project_code)) s.projects
  pure ({ s with projects := projects }, saved)

def table_update_project (s : AdminStore) (project_id tenant_id : String) :
    Except PyErr (AdminStore × Project) := do
  let (projects, saved) ← update_in_table Project.tenant_id "PostgresProjectsRepository"
    project_not_found s.projects tenant_id project_id
  pure ({ s with projects := projects }, saved)

def table_create_supplier (s : AdminStore) (tenant_id : String)
    (payload : SupplierCreateRequest) : Except PyErr (AdminStore × Supplier) := do
  let (suppliers, saved) ← create_in_table "PostgresSuppliersRepository"
    "supplier_code and name are required" (strip payload.supplier_code, strip payload.name)
    (get_by_supplier_code s tenant_id (strip payload.supplier_code)) s.suppliers
  pure ({ s with suppliers := suppliers }, saved)

def table_update_supplier (s : AdminStore) (supplier_id tenant_id : String) :
    Except PyErr (AdminStore × Supplier) := do
  let (suppliers, saved) ← update_in_table Supplier.tenant_id "PostgresSuppliersRepository"
    supplier_not_found s.suppliers tenant_id supplier_id
  pure ({ s with suppliers := suppliers }, saved)

def table_create_rule_pack (s : AdminStore) (tenant_id : String)
    (payload : RulePackCreateRequest) : Except PyErr (AdminStore × RulePackRow) := do
  let (rule_packs, saved) ← create_in_table "PostgresRulePacksRepository"
    "rule_pack_version and name are required" (strip payload.rule_pack_version, strip payload.name)
    (get_rule_pack_for_tenant s (strip payload.rule_pack_version) tenant_id) s.rule_packs
  pure ({ s with rule_packs := rule_packs }, saved)

def table_update_rule_pack (s : AdminStore) (rule_pack_version tenant_id : String) :
    Except PyErr (AdminStore × RulePackRow) := do
  let (rule_packs, saved) ← update_in_table rule_pack_tenant "PostgresRulePacksRepository"
    rule_pack_not_found s.rule_packs tenant_id rule_pack_version
  pure ({ s with rule_packs := rule_packs }, saved)

/-- An operation of a process whose repositories are those of the tables. -/
def perform_on_tables (s : AdminStore) (op : Operation) : AdminStore × Except PyErr Reply :=
  let t := op.tenant_id
  match op.request with
  | .create_project _ _ payload =>
    answer s (table_create_project s t payload) (fun row => .project (some row))
  | .list_projects => (s, .ok (.projects (latest_first Project.created_at (list_projects s t))))
  | .get_project project_id => (s, .ok (.project (get_project_for_tenant s project_id t)))
  | .update_project _ project_id _ =>
    answer s (table_update_project s project_id t) (fun row => .project (some row))
  | .delete_project project_id =>
    answer s ((delete_project s project_id t).map (·, project_id)) .deleted
  | .create_supplier _ _ payload =>
    answer s (table_create_supplier s t payload) (fun row => .supplier (some row))
  | .list_suppliers => (s, .ok (.suppliers (latest_first Supplier.created_at (list_suppliers s t))))
  | .get_supplier supplier_id => (s, .ok (.supplier (get_supplier_for_tenant s supplier_id t)))
  | .update_supplier _ supplier_id _ =>
    answer s (table_update_supplier s supplier_id t) (fun row => .supplier (some row))
  | .delete_supplier supplier_id =>
    answer s ((delete_supplier s supplier_id t).map (·, supplier_id)) .deleted
  | .create_rule_pack _ payload =>
    answer s (table_create_rule_pack s t payload) (fun row => .rule_pack (some row))
  | .list_rule_packs =>
    (s, .ok (.rule_packs (latest_first RulePackRow.updated_at (list_rule_packs s t))))
  | .get_rule_pack version => (s, .ok (.rule_pack (get_rule_pack_for_tenant s version t)))
  | .update_rule_pack _ version _ =>
    answer s (table_update_rule_pack s version t) (fun row => .rule_pack (some row))
  | .delete_rule_pack version =>
    answer s ((delete_rule_pack s version t).map (·, version)) .deleted

/-- The `pop` of the store after a delete. -/
def pop (memory : AdminStore) : Request → AdminStore
  | .delete_project project_id => { memory with projects := memory.projects.erase project_id }
  | .delete_supplier supplier_id => { memory with suppliers := memory.suppliers.erase supplier_id }
  | .delete_rule_pack version => { memory with rule_packs := memory.rule_packs.erase version }
  | _ => memory

/-! ## Runs -/

structure State (π : Type) where
  database : Database
  process : π → Process

inductive Move (π : Type) where
  | start (p : π)
  | call (p : π) (op : Operation)
  | save (p : π)

variable {π : Type} [DecidableEq π]

def State.call (s : State π) (p : π) (op : Operation) : State π × Except PyErr Reply :=
  let process := s.process p
  match process.repositories with
  | .in_memory =>
    let (memory, reply) := perform process.memory op
    ({ s with process := Function.update s.process p { process with memory := memory } }, reply)
  | .postgres =>
    let (tables, reply) := perform_on_tables s.database.tables op
    let memory := match reply with
      | .ok _ => pop process.memory op.request
      | .error _ => process.memory
    (⟨{ s.database with tables := tables },
      Function.update s.process p { process with memory := memory }⟩, reply)

/-- The processes on the database. Each has started. A move shows the tables
that it leaves, and what a call replies. -/
def machine (π : Type) [DecidableEq π] (database : Database) :
    Machine (State π) (Move π) (AdminStore × Option (Except PyErr Reply)) where
  start := ⟨database, fun _ => init database⟩
  step s
    | .start p =>
      ({ s with process := Function.update s.process p (init s.database) },
        (s.database.tables, none))
    | .save p =>
      ({ s with database := { s.database with store_state := some (s.process p).memory } },
        (s.database.tables, none))
    | .call p op =>
      let (s', reply) := s.call p op
      (s', (s'.database.tables, some reply))

/-- The abstract store: one store for all processes, and it is the tables. -/
def one_store (π : Type) (tables : AdminStore) :
    Machine AdminStore (Move π) (AdminStore × Option (Except PyErr Reply)) where
  start := tables
  step s
    | .call _ op =>
      let (s', reply) := perform s op
      (s', (s', some reply))
    | _ => (s, (s, none))

end bid_evaluation.admin_tables
