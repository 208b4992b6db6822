-- The laws of the administration. An operation reads and writes by the rows
-- of its own tenant, so two runs that a tenant reads alike go on alike. Only
-- a rule pack, whose key has no tenant, can be lost to another tenant.
import BidEvaluation.AdminStore
import BidEvaluation.EvaluationNodes
import Mathlib.Data.List.Induction

open dict_lib stepwise bid_evaluation.values bid_evaluation.core bid_evaluation.admin_store
  bid_evaluation.evaluation_nodes

namespace bid_evaluation.admin_laws

/-! ## What a tenant reads, and what it writes -/

structure Mine where
  projects : List Project
  suppliers : List Supplier
  rule_packs : List RulePackRow

def mine (s : AdminStore) (tenant_id : String) : Mine where
  projects := list_projects s tenant_id
  suppliers := list_suppliers s tenant_id
  rule_packs := list_rule_packs s tenant_id

inductive Write (ν : Type) where
  | put (row : ν)
  | erase (id : String)

section family

variable {ν : Type} {key : ν → String} {owner : ν → String}

def applied (t : Table key) : Option (Write ν) → Table key
  | none => t
  | some (.put row) => t.put row
  | some (.erase id) => t.erase id

/-- What the operations of a family write, by what they find. -/
def created (needed : String × String) (existing : Option ν) (row : ν) : Option (Write ν) :=
  if needed.1 = "" ∨ needed.2 = "" then none
  else
    match existing with
    | some _ => none
    | none => some (.put row)

def changed (found : Option ν) (change : ν → ν) : Option (Write ν) :=
  found.map (fun row => .put (change row))

def deleted (found : Option ν) (id : String) : Option (Write ν) := found.map (fun _ => .erase id)

end family

def find_project (rows : List Project) (project_id : String) : Option Project :=
  rows.find? (fun row => row.project_id = project_id)

def project_write (tenant_id : String) (rows : List Project) : Request → Option (Write Project)
  | .create_project uuid_hex now payload =>
    created (strip payload.project_code, strip payload.name)
      (rows.find? (fun row => row.project_code = strip payload.project_code))
      (new_project uuid_hex now tenant_id payload)
  | .update_project now project_id payload =>
    changed (find_project rows project_id) (changed_project now payload)
  | .delete_project project_id => deleted (find_project rows project_id) project_id
  | _ => none

def find_supplier (rows : List Supplier) (supplier_id : String) : Option Supplier :=
  rows.find? (fun row => row.supplier_id = supplier_id)

def supplier_write (tenant_id : String) (rows : List Supplier) :
    Request → Option (Write Supplier)
  | .create_supplier uuid_hex now payload =>
    created (strip payload.supplier_code, strip payload.name)
      (rows.find? (fun row => row.supplier_code = strip payload.supplier_code))
      (new_supplier uuid_hex now tenant_id payload)
  | .update_supplier now supplier_id payload =>
    changed (find_supplier rows supplier_id) (changed_supplier now payload)
  | .delete_supplier supplier_id => deleted (find_supplier rows supplier_id) supplier_id
  | _ => none

def find_rule_pack (rows : List RulePackRow) (version : String) : Option RulePackRow :=
  rows.find? (fun row => row.rule_pack_version = version)

def rule_pack_write (tenant_id : String) (rows : List RulePackRow) :
    Request → Option (Write RulePackRow)
  | .create_rule_pack now payload =>
    created (strip payload.rule_pack_version, strip payload.name)
      (find_rule_pack rows (strip payload.rule_pack_version))
      (new_rule_pack now tenant_id payload)
  | .update_rule_pack now version payload =>
    changed (find_rule_pack rows version) (changed_rule_pack now payload)
  | .delete_rule_pack version => deleted (find_rule_pack rows version) version
  | _ => none

/-! ## The spec of an operation -/

theorem get_project_eq (s : AdminStore) (project_id tenant_id : String) :
    get_project_for_tenant s project_id tenant_id =
      find_project (mine s tenant_id).projects project_id := Table.getOwned_eq_find ..

theorem get_supplier_eq (s : AdminStore) (supplier_id tenant_id : String) :
    get_supplier_for_tenant s supplier_id tenant_id =
      find_supplier (mine s tenant_id).suppliers supplier_id := Table.getOwned_eq_find ..

theorem get_rule_pack_eq (s : AdminStore) (version tenant_id : String) :
    get_rule_pack_for_tenant s version tenant_id =
      find_rule_pack (mine s tenant_id).rule_packs version := Table.getOwned_eq_find ..

theorem get_by_project_code_eq (s : AdminStore) (tenant_id code : String) :
    get_by_project_code s tenant_id code =
      (mine s tenant_id).projects.find? (fun row => row.project_code = code) :=
  (Table.find?_owned s.projects tenant_id (fun row : Project => row.project_code = code)).symm

theorem get_by_supplier_code_eq (s : AdminStore) (tenant_id code : String) :
    get_by_supplier_code s tenant_id code =
      (mine s tenant_id).suppliers.find? (fun row => row.supplier_code = code) :=
  (Table.find?_owned s.suppliers tenant_id (fun row : Supplier => row.supplier_code = code)).symm

section family

variable {ν : Type} {key : ν → String} {owner : ν → String}

theorem created_empty {needed : String × String} {existing : Option ν} {row : ν}
    (h : needed.1 = "" ∨ needed.2 = "") : created needed existing row = none := if_pos h

theorem create_row.spec (message : String) (needed : String × String) (existing : Option ν)
    (row : ν) (t : Table key) :
    create_row message needed existing row t =
      if needed.1 = "" ∨ needed.2 = "" then .error (bad_request message)
      else .ok (applied t (created needed existing row), existing.getD row) := by
  unfold create_row created
  split
  · rfl
  · cases existing <;> rfl

theorem update_row.spec (missing : PyErr) (change : ν → ν) (t : Table key) (tenant_id id : String) :
    update_row owner missing change t tenant_id id =
      match t.getOwned owner tenant_id id with
      | none => .error missing
      | some row => .ok (applied t (changed (t.getOwned owner tenant_id id) change), change row) := by
  unfold update_row
  cases t.getOwned owner tenant_id id <;> rfl

theorem delete_row.spec (missing : PyErr) (t : Table key) (tenant_id id : String) :
    delete_row owner missing t tenant_id id =
      match t.getOwned owner tenant_id id with
      | none => .error missing
      | some _ => .ok (applied t (deleted (t.getOwned owner tenant_id id) id)) := by
  unfold delete_row
  cases t.getOwned owner tenant_id id <;> rfl

end family

/-- The tables after an operation, by the rows of its tenant. -/
theorem perform_store (s : AdminStore) (op : Operation) :
    (perform s op).1 =
      { projects := applied s.projects
          (project_write op.tenant_id (mine s op.tenant_id).projects op.request)
        suppliers := applied s.suppliers
          (supplier_write op.tenant_id (mine s op.tenant_id).suppliers op.request)
        rule_packs := applied s.rule_packs
          (rule_pack_write op.tenant_id (mine s op.tenant_id).rule_packs op.request) } := by
  obtain ⟨tenant_id, request⟩ := op
  cases request with
  | create_project uuid_hex now payload =>
    simp only [perform, create_project, create_row.spec, get_by_project_code_eq, project_write]
    generalize strip payload.project_code = code
    generalize strip payload.name = name
    split
    · rename_i hempty
      rw [created_empty hempty]
      rfl
    · rfl
  | create_supplier uuid_hex now payload =>
    simp only [perform, create_supplier, create_row.spec, get_by_supplier_code_eq, supplier_write]
    generalize strip payload.supplier_code = code
    generalize strip payload.name = name
    split
    · rename_i hempty
      rw [created_empty hempty]
      rfl
    · rfl
  | create_rule_pack now payload =>
    simp only [perform, create_rule_pack, create_row.spec, get_rule_pack_eq, rule_pack_write]
    generalize strip payload.rule_pack_version = code
    generalize strip payload.name = name
    split
    · rename_i hempty
      rw [created_empty hempty]
      rfl
    · rfl
  | update_project now project_id payload =>
    simp only [perform, update_project, update_row.spec, project_write]
    rw [← get_project_eq]
    unfold get_project_for_tenant
    cases s.projects.getOwned Project.tenant_id tenant_id project_id <;> rfl
  | update_supplier now supplier_id payload =>
    simp only [perform, update_supplier, update_row.spec, supplier_write]
    rw [← get_supplier_eq]
    unfold get_supplier_for_tenant
    cases s.suppliers.getOwned Supplier.tenant_id tenant_id supplier_id <;> rfl
  | update_rule_pack now version payload =>
    simp only [perform, update_rule_pack, update_row.spec, rule_pack_write]
    rw [← get_rule_pack_eq]
    unfold get_rule_pack_for_tenant
    cases s.rule_packs.getOwned rule_pack_tenant tenant_id version <;> rfl
  | delete_project project_id =>
    simp only [perform, delete_project, delete_row.spec, project_write]
    rw [← get_project_eq]
    unfold get_project_for_tenant
    cases s.projects.getOwned Project.tenant_id tenant_id project_id <;> rfl
  | delete_supplier supplier_id =>
    simp only [perform, delete_supplier, delete_row.spec, supplier_write]
    rw [← get_supplier_eq]
    unfold get_supplier_for_tenant
    cases s.suppliers.getOwned Supplier.tenant_id tenant_id supplier_id <;> rfl
  | delete_rule_pack version =>
    simp only [perform, delete_rule_pack, delete_row.spec, rule_pack_write]
    rw [← get_rule_pack_eq]
    unfold get_rule_pack_for_tenant
    cases s.rule_packs.getOwned rule_pack_tenant tenant_id version <;> rfl
  | list_projects => rfl
  | get_project project_id => rfl
  | list_suppliers => rfl
  | get_supplier supplier_id => rfl
  | list_rule_packs => rfl
  | get_rule_pack version => rfl

section alike

variable {s s' : AdminStore} {tenant_id : String} (h : mine s tenant_id = mine s' tenant_id)

include h

theorem get_project_alike (project_id : String) :
    s.projects.getOwned Project.tenant_id tenant_id project_id =
      s'.projects.getOwned Project.tenant_id tenant_id project_id := by
  have hs := get_project_eq s project_id tenant_id
  rw [h, ← get_project_eq] at hs
  exact hs

theorem get_supplier_alike (supplier_id : String) :
    s.suppliers.getOwned Supplier.tenant_id tenant_id supplier_id =
      s'.suppliers.getOwned Supplier.tenant_id tenant_id supplier_id := by
  have hs := get_supplier_eq s supplier_id tenant_id
  rw [h, ← get_supplier_eq] at hs
  exact hs

theorem get_rule_pack_alike (version : String) :
    s.rule_packs.getOwned rule_pack_tenant tenant_id version =
      s'.rule_packs.getOwned rule_pack_tenant tenant_id version := by
  have hs := get_rule_pack_eq s version tenant_id
  rw [h, ← get_rule_pack_eq] at hs
  exact hs

/-- The reply of an operation comes from the rows of its tenant. -/
theorem perform_reply (request : Request) :
    (perform s ⟨tenant_id, request⟩).2 = (perform s' ⟨tenant_id, request⟩).2 := by
  cases request with
  | create_project uuid_hex now payload =>
    simp only [perform, create_project, create_row.spec, get_by_project_code_eq, h]
    split <;> rfl
  | create_supplier uuid_hex now payload =>
    simp only [perform, create_supplier, create_row.spec, get_by_supplier_code_eq, h]
    split <;> rfl
  | create_rule_pack now payload =>
    simp only [perform, create_rule_pack, create_row.spec, get_rule_pack_eq, h]
    split <;> rfl
  | update_project now project_id payload =>
    simp only [perform, update_project, update_row.spec, get_project_alike h]
    cases s'.projects.getOwned Project.tenant_id tenant_id project_id <;> rfl
  | update_supplier now supplier_id payload =>
    simp only [perform, update_supplier, update_row.spec, get_supplier_alike h]
    cases s'.suppliers.getOwned Supplier.tenant_id tenant_id supplier_id <;> rfl
  | update_rule_pack now version payload =>
    simp only [perform, update_rule_pack, update_row.spec, get_rule_pack_alike h]
    cases s'.rule_packs.getOwned rule_pack_tenant tenant_id version <;> rfl
  | delete_project project_id =>
    simp only [perform, delete_project, delete_row.spec, get_project_alike h]
    cases s'.projects.getOwned Project.tenant_id tenant_id project_id <;> rfl
  | delete_supplier supplier_id =>
    simp only [perform, delete_supplier, delete_row.spec, get_supplier_alike h]
    cases s'.suppliers.getOwned Supplier.tenant_id tenant_id supplier_id <;> rfl
  | delete_rule_pack version =>
    simp only [perform, delete_rule_pack, delete_row.spec, get_rule_pack_alike h]
    cases s'.rule_packs.getOwned rule_pack_tenant tenant_id version <;> rfl
  | list_projects =>
    have hrows : list_projects s tenant_id = list_projects s' tenant_id :=
      congrArg Mine.projects h
    simp only [perform, hrows]
  | list_suppliers =>
    have hrows : list_suppliers s tenant_id = list_suppliers s' tenant_id :=
      congrArg Mine.suppliers h
    simp only [perform, hrows]
  | list_rule_packs =>
    have hrows : list_rule_packs s tenant_id = list_rule_packs s' tenant_id :=
      congrArg Mine.rule_packs h
    simp only [perform, hrows]
  | get_project project_id => simp only [perform, get_project_for_tenant, get_project_alike h]
  | get_supplier supplier_id => simp only [perform, get_supplier_for_tenant, get_supplier_alike h]
  | get_rule_pack version => simp only [perform, get_rule_pack_for_tenant, get_rule_pack_alike h]

end alike

/-! ## What a write shows to a tenant -/

section shown

variable {ν : Type} {key : ν → String} {owner : ν → String} {t t' : Table key}
  {a tenant_id : String} {isNew : String → Prop} {w : Option (Write ν)}

/-- The writes of a tenant: a new row, or a change of a row that it has. -/
inductive WriteOf (owner : ν → String) (t : Table key) (tenant_id : String)
    (isNew : String → Prop) : Option (Write ν) → Prop where
  | nothing : WriteOf owner t tenant_id isNew none
  | new (row : ν) (howner : owner row = tenant_id) (hnew : isNew (key row)) :
      WriteOf owner t tenant_id isNew (some (.put row))
  | change (row old : ν) (howner : owner row = tenant_id)
      (hfound : t.getOwned owner tenant_id (key row) = some old) :
      WriteOf owner t tenant_id isNew (some (.put row))
  | erase (id : String) (old : ν) (hfound : t.getOwned owner tenant_id id = some old) :
      WriteOf owner t tenant_id isNew (some (.erase id))

/-- Another tenant sees no more of a write than a new row over its own. -/
theorem WriteOf.shown_to_other (h : WriteOf owner t tenant_id isNew w) (hne : a ≠ tenant_id) :
    (applied t w).owned owner a = t.owned owner a ∨
      ∃ row, w = some (.put row) ∧ isNew (key row) ∧
        (applied t w).owned owner a = Table.dropRow key (key row) (t.owned owner a) := by
  cases h with
  | nothing => exact .inl rfl
  | new row howner hnew =>
    exact .inr ⟨row, rfl, hnew, Table.owned_put_other t (howner ▸ hne.symm)⟩
  | change row old howner hfound =>
    left
    unfold applied
    rw [Table.owned_put_other t (howner ▸ hne.symm)]
    exact Table.dropRow_eq_self_iff.2 (Table.find?_owned_other hne hfound)
  | erase id old hfound =>
    left
    unfold applied
    rw [Table.owned_erase]
    exact Table.dropRow_eq_self_iff.2 (Table.find?_owned_other hne hfound)

/-- Two tables that a tenant reads alike stay so after its write, while a
new row gets the same place. -/
theorem WriteOf.alike_iff (h : WriteOf owner t a isNew w)
    (hmine : t.owned owner a = t'.owned owner a) :
    (applied t w).owned owner a = (applied t' w).owned owner a ↔
      ∀ row, w = some (.put row) → t.getOwned owner a (key row) = none →
        t.placeOf owner a (key row) = t'.placeOf owner a (key row) := by
  have hget : ∀ k, t.getOwned owner a k = t'.getOwned owner a k := by
    intro k
    rw [Table.getOwned_eq_find, Table.getOwned_eq_find, hmine]
  have hplace : ∀ k v, t.getOwned owner a k = some v →
      t.placeOf owner a k = t'.placeOf owner a k := by
    intro k v hv
    rw [Table.placeOf_of_getOwned hv, Table.placeOf_of_getOwned (hget k ▸ hv), hmine]
  cases h with
  | nothing => simpa [applied] using hmine
  | new row howner hnew =>
    unfold applied
    rw [Table.owned_put_eq_iff howner hmine]
    constructor
    · rintro heq _ ⟨⟩ -
      exact heq
    · intro hall
      rcases hfound : t.getOwned owner a (key row) with _ | v
      · exact hall row rfl hfound
      · exact hplace _ v hfound
  | change row old howner hfound =>
    unfold applied
    rw [Table.owned_put_eq_iff howner hmine]
    constructor
    · rintro heq _ ⟨⟩ -
      exact heq
    · intro _
      exact hplace _ old hfound
  | erase id old hfound =>
    unfold applied
    rw [Table.owned_erase, Table.owned_erase, hmine]
    simp

/-- A row under a key that its tenant does not have is new. -/
theorem WriteOf.new_of_absent (h : WriteOf owner t tenant_id isNew w) {row : ν}
    (hput : w = some (.put row)) (habsent : t.getOwned owner tenant_id (key row) = none) :
    isNew (key row) := by
  cases h with
  | nothing => cases hput
  | new row howner hnew =>
    cases hput
    exact hnew
  | change row old howner hfound =>
    cases hput
    rw [hfound] at habsent
    cases habsent
  | erase id old hfound => cases hput

/-- A row after a write has the key and the owner of an old one, or is new. -/
theorem WriteOf.ids (h : WriteOf owner t tenant_id isNew w) {id : String} {row : ν}
    (hget : (applied t w).get? id = some row) :
    (∃ old, t.get? id = some old ∧ owner old = owner row) ∨ isNew id ∧ owner row = tenant_id := by
  cases h with
  | nothing => exact .inl ⟨row, hget, rfl⟩
  | new new howner hnew =>
    unfold applied at hget
    rw [Table.get?_put] at hget
    split at hget
    · rename_i hid
      cases hget
      exact .inr ⟨hid ▸ hnew, howner⟩
    · exact .inl ⟨row, hget, rfl⟩
  | change new old howner hfound =>
    unfold applied at hget
    rw [Table.get?_put] at hget
    split at hget
    · rename_i hid
      cases hget
      obtain ⟨hold, -⟩ := Option.filter_eq_some_iff.1 hfound
      exact .inl ⟨old, hid ▸ hold, (Table.key_of_getOwned hfound).2.trans howner.symm⟩
    · exact .inl ⟨row, hget, rfl⟩
  | erase gone old hfound =>
    unfold applied at hget
    rw [Table.get?_erase] at hget
    split at hget
    · cases hget
    · exact .inl ⟨row, hget, rfl⟩

/-- Where new keys are in no row, another tenant sees nothing. -/
theorem WriteOf.unseen (h : WriteOf owner t tenant_id isNew w) (hne : a ≠ tenant_id)
    (hfresh : ∀ id, isNew id → t.get? id = none) :
    (applied t w).owned owner a = t.owned owner a := by
  rcases h.shown_to_other hne with hsame | ⟨row, -, hnew, hdropped⟩
  · exact hsame
  · rw [hdropped]
    apply Table.dropRow_eq_self
    intro v hv heq
    have hget := (Table.mem_owned_iff.1 hv).1
    rw [heq, hfresh _ hnew] at hget
    cases hget

/-- Where new keys are in no row, two tables stay alike to their writer. -/
theorem WriteOf.alike (h : WriteOf owner t a isNew w)
    (hmine : t.owned owner a = t'.owned owner a) (hfresh : ∀ id, isNew id → t.get? id = none)
    (hfresh' : ∀ id, isNew id → t'.get? id = none) :
    (applied t w).owned owner a = (applied t' w).owned owner a := by
  rw [h.alike_iff hmine]
  intro row hput habsent
  have hnew := h.new_of_absent hput habsent
  rw [Table.placeOf_of_fresh (hfresh _ hnew), Table.placeOf_of_fresh (hfresh' _ hnew), hmine]

end shown

/-! ## The writes of the operations -/

/-- The hex of an id that a request draws. -/
def drawn : Request → Option String
  | .create_project uuid_hex _ _ => some uuid_hex
  | .create_supplier uuid_hex _ _ => some uuid_hex
  | _ => none

/-- The version that a request stores a new rule pack under, if the texts
that it needs are there. -/
def named_version : Request → Option String
  | .create_rule_pack _ payload =>
    if strip payload.rule_pack_version = "" ∨ strip payload.name = "" then none
    else some (strip payload.rule_pack_version)
  | _ => none

section family

variable {ν : Type} {key : ν → String} {owner : ν → String} {t : Table key} {tenant_id : String}
  {isNew : String → Prop}

theorem writeOf_created {needed : String × String} {existing : Option ν} {row : ν}
    (howner : owner row = tenant_id)
    (hnew : ¬ (needed.1 = "" ∨ needed.2 = "") → existing = none → isNew (key row)) :
    WriteOf owner t tenant_id isNew (created needed existing row) := by
  unfold created
  split
  · exact .nothing
  · rename_i hneeded
    rcases existing with _ | old
    · exact .new row howner (hnew hneeded rfl)
    · exact .nothing

theorem writeOf_changed {id : String} {change : ν → ν}
    (hchange : ∀ row, key (change row) = key row ∧ owner (change row) = owner row) :
    WriteOf owner t tenant_id isNew (changed (t.getOwned owner tenant_id id) change) := by
  rcases hfound : t.getOwned owner tenant_id id with _ | row
  · exact .nothing
  · obtain ⟨hkey, howner⟩ := Table.key_of_getOwned hfound
    refine .change (change row) row ((hchange row).2.trans howner) ?_
    rw [(hchange row).1, hkey]
    exact hfound

theorem writeOf_deleted {id : String} :
    WriteOf owner t tenant_id isNew (deleted (t.getOwned owner tenant_id id) id) := by
  rcases hfound : t.getOwned owner tenant_id id with _ | row
  · exact .nothing
  · exact .erase id row hfound

end family

theorem project_write_of (s : AdminStore) (op : Operation) :
    WriteOf Project.tenant_id s.projects op.tenant_id
      (fun id => ∃ hex, drawn op.request = some hex ∧ id = "prj_" ++ hex)
      (project_write op.tenant_id (mine s op.tenant_id).projects op.request) := by
  obtain ⟨tenant_id, request⟩ := op
  cases request with
  | create_project uuid_hex now payload =>
    exact writeOf_created rfl fun _ _ => ⟨uuid_hex, rfl, rfl⟩
  | update_project now project_id payload =>
    rw [project_write, ← get_project_eq]
    exact writeOf_changed fun _ => ⟨rfl, rfl⟩
  | delete_project project_id =>
    rw [project_write, ← get_project_eq]
    exact writeOf_deleted
  | _ => exact .nothing

theorem supplier_write_of (s : AdminStore) (op : Operation) :
    WriteOf Supplier.tenant_id s.suppliers op.tenant_id
      (fun id => ∃ hex, drawn op.request = some hex ∧ id = "sup_" ++ hex)
      (supplier_write op.tenant_id (mine s op.tenant_id).suppliers op.request) := by
  obtain ⟨tenant_id, request⟩ := op
  cases request with
  | create_supplier uuid_hex now payload =>
    exact writeOf_created rfl fun _ _ => ⟨uuid_hex, rfl, rfl⟩
  | update_supplier now supplier_id payload =>
    rw [supplier_write, ← get_supplier_eq]
    exact writeOf_changed fun _ => ⟨rfl, rfl⟩
  | delete_supplier supplier_id =>
    rw [supplier_write, ← get_supplier_eq]
    exact writeOf_deleted
  | _ => exact .nothing

theorem rule_pack_write_of (s : AdminStore) (op : Operation) :
    WriteOf rule_pack_tenant s.rule_packs op.tenant_id
      (fun version => named_version op.request = some version ∧
        get_rule_pack_for_tenant s version op.tenant_id = none)
      (rule_pack_write op.tenant_id (mine s op.tenant_id).rule_packs op.request) := by
  obtain ⟨tenant_id, request⟩ := op
  cases request with
  | create_rule_pack now payload =>
    rw [rule_pack_write, ← get_rule_pack_eq]
    exact writeOf_created rfl fun hneeded hnone => ⟨if_neg hneeded, hnone⟩
  | update_rule_pack now version payload =>
    rw [rule_pack_write, ← get_rule_pack_eq]
    exact writeOf_changed fun _ => ⟨rfl, rfl⟩
  | delete_rule_pack version =>
    rw [rule_pack_write, ← get_rule_pack_eq]
    exact writeOf_deleted
  | _ => exact .nothing

theorem rule_pack_write_new {s : AdminStore} {op : Operation} {version : String}
    (hnamed : named_version op.request = some version)
    (habsent : get_rule_pack_for_tenant s version op.tenant_id = none) :
    ∃ row, rule_pack_write op.tenant_id (mine s op.tenant_id).rule_packs op.request =
      some (.put row) ∧ row.rule_pack_version = version ∧ row.tenant_id = op.tenant_id := by
  obtain ⟨tenant_id, request⟩ := op
  cases request with
  | create_rule_pack now payload =>
    unfold named_version at hnamed
    dsimp only at hnamed
    split at hnamed
    · cases hnamed
    · rename_i hneeded
      obtain rfl := Option.some.inj hnamed
      refine ⟨new_rule_pack now tenant_id payload, ?_, rfl, rfl⟩
      rw [rule_pack_write, ← get_rule_pack_eq, habsent]
      exact if_neg hneeded
  | _ => cases hnamed

/-! ## One operation -/

/-- The ids in the store come from these hexes. -/
structure Drawn (hexes : List String) (s : AdminStore) : Prop where
  projects : ∀ id row, s.projects.get? id = some row → ∃ hex ∈ hexes, id = "prj_" ++ hex
  suppliers : ∀ id row, s.suppliers.get? id = some row → ∃ hex ∈ hexes, id = "sup_" ++ hex

theorem drawn_perform {hexes : List String} {s : AdminStore} (h : Drawn hexes s)
    (op : Operation) : Drawn (hexes ++ (drawn op.request).toList) (perform s op).1 := by
  rw [perform_store]
  constructor
  · intro id row hget
    rcases (project_write_of s op).ids hget with ⟨old, hold, -⟩ | ⟨⟨hex, hdrawn, hid⟩, -⟩
    · obtain ⟨hex, hin, hid⟩ := h.projects id old hold
      exact ⟨hex, List.mem_append_left _ hin, hid⟩
    · exact ⟨hex, List.mem_append_right _ (Option.mem_toList.2 hdrawn), hid⟩
  · intro id row hget
    rcases (supplier_write_of s op).ids hget with ⟨old, hold, -⟩ | ⟨⟨hex, hdrawn, hid⟩, -⟩
    · obtain ⟨hex, hin, hid⟩ := h.suppliers id old hold
      exact ⟨hex, List.mem_append_left _ hin, hid⟩
    · exact ⟨hex, List.mem_append_right _ (Option.mem_toList.2 hdrawn), hid⟩

variable {s s' : AdminStore} {a : String} {op : Operation} {hexes : List String}

theorem Drawn.fresh_project (h : Drawn hexes s) (hfresh : ∀ hex ∈ drawn op.request, hex ∉ hexes)
    (id : String) (hnew : ∃ hex, drawn op.request = some hex ∧ id = "prj_" ++ hex) :
    s.projects.get? id = none := by
  obtain ⟨hex, hdrawn, rfl⟩ := hnew
  rcases hget : s.projects.get? ("prj_" ++ hex) with _ | row
  · rfl
  · obtain ⟨hex', hin, heq⟩ := h.projects _ row hget
    rw [String.append_right_inj] at heq
    exact absurd (heq ▸ hin) (hfresh hex hdrawn)

theorem Drawn.fresh_supplier (h : Drawn hexes s)
    (hfresh : ∀ hex ∈ drawn op.request, hex ∉ hexes) (id : String)
    (hnew : ∃ hex, drawn op.request = some hex ∧ id = "sup_" ++ hex) :
    s.suppliers.get? id = none := by
  obtain ⟨hex, hdrawn, rfl⟩ := hnew
  rcases hget : s.suppliers.get? ("sup_" ++ hex) with _ | row
  · rfl
  · obtain ⟨hex', hin, heq⟩ := h.suppliers _ row hget
    rw [String.append_right_inj] at heq
    exact absurd (heq ▸ hin) (hfresh hex hdrawn)

/-- The projects and suppliers of a tenant are out of reach of the others. -/
theorem unseen (h : Drawn hexes s) (hfresh : ∀ hex ∈ drawn op.request, hex ∉ hexes)
    (hne : op.tenant_id ≠ a) :
    list_projects (perform s op).1 a = list_projects s a ∧
      list_suppliers (perform s op).1 a = list_suppliers s a := by
  rw [perform_store]
  exact ⟨(project_write_of s op).unseen hne.symm (h.fresh_project hfresh),
    (supplier_write_of s op).unseen hne.symm (h.fresh_supplier hfresh)⟩

/-- The rule packs of a tenant lose those that another one creates anew. -/
theorem rule_packs_shown (hne : op.tenant_id ≠ a) :
    list_rule_packs (perform s op).1 a =
      match named_version op.request with
      | none => list_rule_packs s a
      | some version =>
        Table.dropRow (fun row : RulePackRow => row.rule_pack_version) version
          (list_rule_packs s a) := by
  rw [perform_store]
  have hwrite := rule_pack_write_of s op
  rcases hnamed : named_version op.request with _ | version
  · rcases hwrite.shown_to_other hne.symm with hsame | ⟨row, -, ⟨hnew, -⟩, -⟩
    · exact hsame
    · rw [hnamed] at hnew
      cases hnew
  · rcases hfound : get_rule_pack_for_tenant s version op.tenant_id with _ | old
    · obtain ⟨row, hput, rfl, howner⟩ := rule_pack_write_new hnamed hfound
      have hother : rule_pack_tenant row ≠ a := by
        rw [rule_pack_tenant, howner]
        exact hne
      rw [hput]
      exact Table.owned_put_other s.rule_packs hother
    · dsimp only
      have hkept : Table.dropRow (fun row : RulePackRow => row.rule_pack_version) version
          (list_rule_packs s a) = list_rule_packs s a :=
        Table.dropRow_eq_self_iff.2 (Table.find?_owned_other hne.symm hfound)
      rw [hkept]
      rcases hwrite.shown_to_other hne.symm with hsame | ⟨row, -, ⟨hnew, hnone⟩, -⟩
      · exact hsame
      · rw [hnamed] at hnew
        rw [← Option.some.inj hnew, hfound] at hnone
        cases hnone

/-! ## Two runs -/

/-- The version that an operation would store a new rule pack under. -/
def new_version (s : AdminStore) (op : Operation) : Option String :=
  (named_version op.request).filter (fun version =>
    (get_rule_pack_for_tenant s version op.tenant_id).isNone)

/-- An operation of a run, or one that another tenant inserts into it. -/
structure Step where
  op : Operation
  inserted : Bool

def after (ops : List Operation) : AdminStore :=
  ops.foldl (fun s op => (perform s op).1) AdminStore.empty

def with_inserted (steps : List Step) : AdminStore := after (steps.map Step.op)

def without_inserted (steps : List Step) : AdminStore :=
  after ((steps.filter (fun step => !step.inserted)).map Step.op)

/-- An inserted operation does not overwrite a rule pack of the tenant, and
a new rule pack of the tenant itself gets the same place among its others. -/
def Undisturbed (a : String) (s s' : AdminStore) (step : Step) : Prop :=
  ∀ version, new_version s step.op = some version →
    if step.inserted then get_rule_pack_for_tenant s version a = none
    else step.op.tenant_id = a →
      s.rule_packs.placeOf rule_pack_tenant a version =
        s'.rule_packs.placeOf rule_pack_tenant a version

theorem Mine.ext_iff' {m m' : Mine} : m = m' ↔
    m.projects = m'.projects ∧ m.suppliers = m'.suppliers ∧ m.rule_packs = m'.rule_packs := by
  cases m
  cases m'
  simp

/-- An inserted operation leaves alone what the tenant reads exactly when it
overwrites nothing of it. -/
theorem inserted_iff (h : Drawn hexes s) (hfresh : ∀ hex ∈ drawn op.request, hex ∉ hexes)
    (hne : op.tenant_id ≠ a) (hmine : mine s a = mine s' a) :
    mine (perform s op).1 a = mine s' a ↔ Undisturbed a s s' ⟨op, true⟩ := by
  obtain ⟨hprojects, hsuppliers⟩ := unseen h hfresh hne
  have hpacks : mine (perform s op).1 a = mine s' a ↔
      list_rule_packs (perform s op).1 a = list_rule_packs s a := by
    rw [← hmine, Mine.ext_iff']
    simp only [mine, hprojects, hsuppliers, true_and]
  rw [hpacks, rule_packs_shown hne]
  unfold Undisturbed new_version
  dsimp only
  rcases hnamed : named_version op.request with _ | version
  · simp
  · have habsent : ∀ v, get_rule_pack_for_tenant s v a = none ↔
        Table.dropRow (fun row : RulePackRow => row.rule_pack_version) v (list_rule_packs s a) =
          list_rule_packs s a := by
      intro v
      rw [get_rule_pack_eq]
      exact Table.dropRow_eq_self_iff.symm
    dsimp only
    rw [← habsent]
    constructor
    · rintro hnone v hnew
      obtain rfl := Option.some.inj (Option.filter_eq_some_iff.1 hnew).1
      exact hnone
    · intro hall
      rcases hfound : get_rule_pack_for_tenant s version op.tenant_id with _ | old
      · exact hall version (Option.filter_eq_some_iff.2 ⟨rfl, by simp [hfound]⟩)
      · rw [get_rule_pack_eq]
        exact Table.find?_owned_other hne.symm hfound

/-- An operation of a run keeps two stores alike to the tenant exactly when
a new rule pack of the tenant gets the same place in both. -/
theorem kept_alike_iff (h : Drawn hexes s) (h' : Drawn hexes s')
    (hfresh : ∀ hex ∈ drawn op.request, hex ∉ hexes) (hmine : mine s a = mine s' a) :
    mine (perform s op).1 a = mine (perform s' op).1 a ↔ Undisturbed a s s' ⟨op, false⟩ := by
  obtain ⟨hprojects, hsuppliers, hpacks⟩ := Mine.ext_iff'.1 hmine
  by_cases howner : op.tenant_id = a
  · subst howner
    have hp := (project_write_of s op).alike hprojects (h.fresh_project hfresh)
      (h'.fresh_project hfresh)
    have hs := (supplier_write_of s op).alike hsuppliers (h.fresh_supplier hfresh)
      (h'.fresh_supplier hfresh)
    have hr := (rule_pack_write_of s op).alike_iff hpacks
    have hall : mine (perform s op).1 op.tenant_id = mine (perform s' op).1 op.tenant_id ↔
        ∀ row, rule_pack_write op.tenant_id (mine s op.tenant_id).rule_packs op.request =
            some (.put row) →
          get_rule_pack_for_tenant s row.rule_pack_version op.tenant_id = none →
          s.rule_packs.placeOf rule_pack_tenant op.tenant_id row.rule_pack_version =
            s'.rule_packs.placeOf rule_pack_tenant op.tenant_id row.rule_pack_version := by
      refine Iff.trans ?_ hr
      rw [perform_store, perform_store, ← hmine, Mine.ext_iff']
      exact ⟨fun heq => heq.2.2, fun heq => ⟨hp, hs, heq⟩⟩
    rw [hall]
    constructor
    · intro hsame version hnew
      obtain ⟨hnamed, habsent⟩ := Option.filter_eq_some_iff.1 hnew
      rw [Option.isNone_iff_eq_none] at habsent
      obtain ⟨row, hput, rfl, -⟩ := rule_pack_write_new hnamed habsent
      intro _
      exact hsame row hput habsent
    · intro hplace row hput habsent
      obtain ⟨hnamed, -⟩ := (rule_pack_write_of s op).new_of_absent hput habsent
      have hnew : new_version s op = some row.rule_pack_version :=
        Option.filter_eq_some_iff.2 ⟨hnamed, by simp [habsent]⟩
      exact hplace _ hnew rfl
  · have hshown : mine (perform s op).1 a = mine (perform s' op).1 a := by
      obtain ⟨hp, hs⟩ := unseen h hfresh howner
      obtain ⟨hp', hs'⟩ := unseen h' hfresh howner
      refine Mine.ext_iff'.2 ⟨?_, ?_, ?_⟩
      · exact hp.trans (hprojects.trans hp'.symm)
      · exact hs.trans (hsuppliers.trans hs'.symm)
      · have hshown := rule_packs_shown howner (s := s)
        have hshown' := rule_packs_shown howner (s := s')
        rw [show list_rule_packs s' a = list_rule_packs s a from hpacks.symm] at hshown'
        exact hshown.trans hshown'.symm
    refine iff_of_true hshown ?_
    intro version _
    simp [howner]

def hexes_of (ops : List Operation) : List String := ops.filterMap (fun op => drawn op.request)

theorem after_concat (ops : List Operation) (op : Operation) :
    after (ops ++ [op]) = (perform (after ops) op).1 := by
  unfold after
  rw [List.foldl_concat]

theorem drawn_after (ops : List Operation) : Drawn (hexes_of ops) (after ops) := by
  induction ops using List.reverseRecOn with
  | nil =>
    constructor
    · intro id row hget
      cases hget
    · intro id row hget
      cases hget
  | append_singleton ops op ih =>
    have hlast : [op].filterMap (fun op => drawn op.request) = (drawn op.request).toList := by
      cases hdrawn : drawn op.request with
      | none => simp [hdrawn]
      | some hex => simp [hdrawn]
    rw [after_concat, hexes_of, List.filterMap_append, hlast]
    exact drawn_perform ih op

theorem Drawn.mono {hexes' : List String} (h : Drawn hexes s) (hsub : hexes ⊆ hexes') :
    Drawn hexes' s where
  projects id row hget := by
    obtain ⟨hex, hin, hid⟩ := h.projects id row hget
    exact ⟨hex, hsub hin, hid⟩
  suppliers id row hget := by
    obtain ⟨hex, hin, hid⟩ := h.suppliers id row hget
    exact ⟨hex, hsub hin, hid⟩

theorem drawn_with (steps : List Step) :
    Drawn (hexes_of (steps.map Step.op)) (with_inserted steps) := drawn_after _

theorem drawn_without (steps : List Step) :
    Drawn (hexes_of (steps.map Step.op)) (without_inserted steps) := by
  refine (drawn_after _).mono ?_
  intro hex hin
  obtain ⟨op, hop, hdrawn⟩ := List.mem_filterMap.1 hin
  obtain ⟨step, hstep, rfl⟩ := List.mem_map.1 hop
  exact List.mem_filterMap.2
    ⟨step.op, List.mem_map_of_mem (List.mem_filter.1 hstep).1, hdrawn⟩

/-- The runs go on alike after a step exactly when it is undisturbed. -/
theorem step_alike_iff {steps : List Step} {step : Step}
    (hfresh : ∀ hex ∈ drawn step.op.request, hex ∉ hexes_of (steps.map Step.op))
    (hinserted : step.inserted = true → step.op.tenant_id ≠ a)
    (hmine : mine (with_inserted steps) a = mine (without_inserted steps) a) :
    mine (with_inserted (steps ++ [step])) a = mine (without_inserted (steps ++ [step])) a ↔
      Undisturbed a (with_inserted steps) (without_inserted steps) step := by
  obtain ⟨op, inserted⟩ := step
  have hwith : with_inserted (steps ++ [⟨op, inserted⟩]) =
      (perform (with_inserted steps) op).1 := by
    unfold with_inserted
    rw [List.map_append]
    exact after_concat _ _
  rw [hwith]
  cases inserted with
  | true =>
    have hwithout : without_inserted (steps ++ [⟨op, true⟩]) = without_inserted steps := by
      simp [without_inserted]
    rw [hwithout]
    exact inserted_iff (drawn_with steps) hfresh (hinserted rfl) hmine
  | false =>
    have hwithout : without_inserted (steps ++ [⟨op, false⟩]) =
        (perform (without_inserted steps) op).1 := by
      unfold without_inserted
      rw [List.filter_append, List.map_append]
      exact after_concat _ _
    rw [hwithout]
    exact kept_alike_iff (drawn_with steps) (drawn_without steps) hfresh hmine

section run

variable {steps : List Step} (hfresh : (hexes_of (steps.map Step.op)).Nodup)
  (hinserted : ∀ step ∈ steps, step.inserted = true → step.op.tenant_id ≠ a)

include hfresh in
theorem fresh_in_run {before : List Step} {step : Step} (hpart : before ++ [step] <+: steps) :
    ∀ hex ∈ drawn step.op.request, hex ∉ hexes_of (before.map Step.op) := by
  intro hex hdrawn hin
  have hnodup : (hexes_of ((before ++ [step]).map Step.op)).Nodup :=
    hfresh.sublist ((hpart.sublist.map Step.op).filterMap _)
  rw [List.map_append, hexes_of, List.filterMap_append, List.nodup_append] at hnodup
  refine hnodup.2.2 hex hin hex ?_ rfl
  simpa using hdrawn

include hfresh hinserted

theorem step_in_run {before : List Step} {step : Step} (hpart : before ++ [step] <+: steps)
    (hmine : mine (with_inserted before) a = mine (without_inserted before) a) :
    mine (with_inserted (before ++ [step])) a = mine (without_inserted (before ++ [step])) a ↔
      Undisturbed a (with_inserted before) (without_inserted before) step :=
  step_alike_iff (fresh_in_run hfresh hpart)
    (hinserted step (hpart.subset (by simp))) hmine

/-- Undisturbed steps keep the two runs alike to the tenant. -/
theorem run_alike (hsteps : ∀ before step, before ++ [step] <+: steps →
      mine (with_inserted before) a = mine (without_inserted before) a →
      Undisturbed a (with_inserted before) (without_inserted before) step)
    (before : List Step) (hpart : before <+: steps) :
    mine (with_inserted before) a = mine (without_inserted before) a := by
  induction before using List.reverseRecOn with
  | nil => rfl
  | append_singleton before step ih =>
    have hmine := ih ((List.prefix_append _ _).trans hpart)
    exact (step_in_run hfresh hinserted hpart hmine).2 (hsteps before step hpart hmine)

theorem run_alike_iff :
    (∀ before, before <+: steps →
        mine (with_inserted before) a = mine (without_inserted before) a) ↔
      ∀ before step, before ++ [step] <+: steps →
        Undisturbed a (with_inserted before) (without_inserted before) step := by
  constructor
  · intro halike before step hpart
    have hmine := halike before ((List.prefix_append _ _).trans hpart)
    exact (step_in_run hfresh hinserted hpart hmine).1 (halike _ hpart)
  · intro hundisturbed
    exact run_alike hfresh hinserted fun before step hpart _ => hundisturbed before step hpart

end run

/-! ## What the tenant gets -/

/-- The world of the evaluations, with the rule packs of the administration. -/
def loading (w : World) (s : AdminStore) : World :=
  { w with store := { w.store with rule_packs := s.loaded } }

/-- Every operation of the tenant gets the same reply, and its evaluations
load the same context. -/
structure Unaffected (a : String) (s s' : AdminStore) : Prop where
  replies : ∀ request, (perform s ⟨a, request⟩).2 = (perform s' ⟨a, request⟩).2
  loads : ∀ env w state, state.tenant_id = a →
    (node_load_context env state).result (loading w s) =
      (node_load_context env state).result (loading w s')

theorem loaded_rule_pack (w : World) (s : AdminStore) (version tenant_id : String) :
    store_admin.get_rule_pack_for_tenant (loading w s).store version tenant_id =
      (get_rule_pack_for_tenant s version tenant_id).map RulePackRow.toRulePack := by
  unfold store_admin.get_rule_pack_for_tenant get_rule_pack_for_tenant Table.getOwned loading
    AdminStore.loaded
  dsimp only
  rw [Table.get?_map]
  cases s.rule_packs.get? version with
  | none => rfl
  | some row =>
    by_cases hrow : row.tenant_id = tenant_id
    · simp [Option.filter, rule_pack_tenant, hrow]
    · simp [Option.filter, rule_pack_tenant, hrow]

theorem unaffected_iff : Unaffected a s s' ↔ mine s a = mine s' a := by
  constructor
  · intro h
    have hprojects := h.replies .list_projects
    have hsuppliers := h.replies .list_suppliers
    have hpacks := h.replies .list_rule_packs
    simp only [perform, Except.ok.injEq, Reply.projects.injEq] at hprojects
    simp only [perform, Except.ok.injEq, Reply.suppliers.injEq] at hsuppliers
    simp only [perform, Except.ok.injEq, Reply.rule_packs.injEq] at hpacks
    exact Mine.ext_iff'.2 ⟨hprojects, hsuppliers, hpacks⟩
  · intro hmine
    refine ⟨perform_reply hmine, ?_⟩
    rintro env w state rfl
    have hpack : store_admin.get_rule_pack_for_tenant (loading w s).store
        state.rule_pack_version state.tenant_id =
          store_admin.get_rule_pack_for_tenant (loading w s').store
            state.rule_pack_version state.tenant_id := by
      rw [loaded_rule_pack, loaded_rule_pack, get_rule_pack_eq, get_rule_pack_eq, hmine]
    simp only [node_load_context, Prog.result, bind, Prog.andThen, stepwise.read,
      stepwise.lift, lastState, List.getLast?_nil, Option.getD_none, hpack]
    split <;> rfl

/-- What others insert into a run does not show to a tenant exactly when
they overwrite none of its rule packs, and none of theirs moves a new one. -/
theorem inserted_is_unseen_iff (a : String) (steps : List Step)
    (hfresh : (hexes_of (steps.map Step.op)).Nodup)
    (hinserted : ∀ step ∈ steps, step.inserted = true → step.op.tenant_id ≠ a) :
    (∀ before, before <+: steps →
        Unaffected a (with_inserted before) (without_inserted before)) ↔
      ∀ before step, before ++ [step] <+: steps →
        Undisturbed a (with_inserted before) (without_inserted before) step := by
  simp only [unaffected_iff]
  exact run_alike_iff hfresh hinserted

theorem get_rule_pack_iff {version tenant_id : String} {row : RulePackRow} :
    get_rule_pack_for_tenant s version tenant_id = some row ↔
      s.rule_packs.get? version = some row ∧ row.tenant_id = tenant_id := by
  unfold get_rule_pack_for_tenant Table.getOwned
  rw [Option.filter_eq_some_iff, decide_eq_true_eq]
  rfl

/-- Each rule pack was named by an operation of its tenant. -/
theorem named_after (ops : List Operation) (version : String) (row : RulePackRow)
    (hget : (after ops).rule_packs.get? version = some row) :
    ∃ op ∈ ops, op.tenant_id = row.tenant_id ∧ named_version op.request = some version := by
  induction ops using List.reverseRecOn generalizing row with
  | nil => cases hget
  | append_singleton ops op ih =>
    rw [after_concat, perform_store] at hget
    rcases (rule_pack_write_of (after ops) op).ids hget with
      ⟨old, hold, howner⟩ | ⟨⟨hnamed, -⟩, howner⟩
    · obtain ⟨op', hin, htenant, hnamed⟩ := ih old hold
      exact ⟨op', List.mem_append_left _ hin, htenant.trans howner, hnamed⟩
    · exact ⟨op, List.mem_append_right _ (List.mem_singleton_self op), howner.symm, hnamed⟩

/-- Nobody else names a rule pack version of the tenant. -/
def OwnVersions (a : String) (steps : List Step) : Prop :=
  ∀ step ∈ steps, ∀ step' ∈ steps, ∀ version, step.op.tenant_id = a → step'.op.tenant_id ≠ a →
    named_version step.op.request = some version → named_version step'.op.request ≠ some version

/-- A rule pack of one side under a version that the other side names. -/
theorem OwnVersions.clash {steps : List Step} {ops : List Operation} {step : Step}
    {version : String} {row : RulePackRow} (hown : OwnVersions a steps)
    (hops : ∀ op ∈ ops, ∃ step ∈ steps, step.op = op) (hstep : step ∈ steps)
    (hnamed : named_version step.op.request = some version)
    (hget : (after ops).rule_packs.get? version = some row) :
    step.op.tenant_id = a ↔ row.tenant_id = a := by
  obtain ⟨op, hop, htenant, hversion⟩ := named_after ops version row hget
  obtain ⟨step', hstep', rfl⟩ := hops op hop
  rw [← htenant]
  by_contra hsides
  rw [not_iff] at hsides
  by_cases ha : step.op.tenant_id = a
  · exact hown step hstep step' hstep' version ha (fun h => hsides.2 h ha) hnamed hversion
  · exact hown step' hstep' step hstep version (hsides.1 ha) ha hversion hnamed

/-- While the tenants use rule pack versions of their own, they are out of
reach of each other. -/
theorem unaffected_of_own_versions (steps : List Step)
    (hfresh : (hexes_of (steps.map Step.op)).Nodup)
    (hinserted : ∀ step ∈ steps, step.inserted = true → step.op.tenant_id ≠ a)
    (hown : OwnVersions a steps) : Unaffected a (with_inserted steps) (without_inserted steps) := by
  refine unaffected_iff.2 (run_alike hfresh hinserted ?_ steps (List.prefix_refl _))
  intro before step hpart hmine version hnew
  obtain ⟨hnamed, habsent⟩ := Option.filter_eq_some_iff.1 hnew
  rw [Option.isNone_iff_eq_none] at habsent
  have hstep : step ∈ steps := hpart.subset (by simp)
  have hbefore : ∀ s ∈ before, s ∈ steps := fun s hs => hpart.subset (by simp [hs])
  have hclash : ∀ row, (with_inserted before).rule_packs.get? version = some row →
      (step.op.tenant_id = a ↔ row.tenant_id = a) := by
    refine fun row => hown.clash ?_ hstep hnamed
    intro op hop
    obtain ⟨s, hs, rfl⟩ := List.mem_map.1 hop
    exact ⟨s, hbefore s hs, rfl⟩
  have hclash' : ∀ row, (without_inserted before).rule_packs.get? version = some row →
      (step.op.tenant_id = a ↔ row.tenant_id = a) := by
    refine fun row => hown.clash ?_ hstep hnamed
    intro op hop
    obtain ⟨s, hs, rfl⟩ := List.mem_map.1 hop
    exact ⟨s, hbefore s (List.mem_filter.1 hs).1, rfl⟩
  by_cases howner : step.op.tenant_id = a
  · have hinside : step.inserted = false := by
      by_contra hinside
      exact hinserted step hstep (by simpa using hinside) howner
    subst howner
    have hfree : (with_inserted before).rule_packs.get? version = none := by
      rcases hget : (with_inserted before).rule_packs.get? version with _ | row
      · rfl
      · have hfound := get_rule_pack_iff.2 ⟨hget, (hclash row hget).1 rfl⟩
        exact absurd (habsent.symm.trans hfound) (by simp)
    have hfree' : (without_inserted before).rule_packs.get? version = none := by
      rcases hget : (without_inserted before).rule_packs.get? version with _ | row
      · rfl
      · have hfound := get_rule_pack_iff.2 ⟨hget, (hclash' row hget).1 rfl⟩
        rw [get_rule_pack_eq, hmine, ← get_rule_pack_eq] at habsent
        exact absurd (habsent.symm.trans hfound) (by simp)
    rw [hinside, Table.placeOf_of_fresh hfree, Table.placeOf_of_fresh hfree']
    exact fun _ => congrArg Mine.rule_packs hmine
  · have hnone : get_rule_pack_for_tenant (with_inserted before) version a = none := by
      rcases hfound : get_rule_pack_for_tenant (with_inserted before) version a with _ | row
      · rfl
      · obtain ⟨hget, hrow⟩ := get_rule_pack_iff.1 hfound
        exact absurd ((hclash row hget).2 hrow) howner
    split
    · exact hnone
    · exact fun h => absurd h howner

/-- A tenant creates a rule pack, and another one creates its own. -/
def two_tenants (version : String) : List Step :=
  [⟨⟨"acme", .create_rule_pack 0 ⟨"v1", "pack", [], "active"⟩⟩, false⟩,
    ⟨⟨"globex", .create_rule_pack 1 ⟨version, "pack", [], "active"⟩⟩, true⟩]

theorem other_version_is_unseen :
    Unaffected "acme" (with_inserted (two_tenants "v2"))
      (without_inserted (two_tenants "v2")) := by
  have hfresh : (hexes_of ((two_tenants "v2").map Step.op)).Nodup := by decide
  have hinserted : ∀ step ∈ two_tenants "v2", step.inserted = true →
      step.op.tenant_id ≠ "acme" := by
    simp [two_tenants]
  refine (inserted_is_unseen_iff "acme" (two_tenants "v2") hfresh hinserted).2 ?_
    (two_tenants "v2") (List.prefix_refl _)
  intro before step hpart version hnew
  rcases before with _ | ⟨first, _ | ⟨second, rest⟩⟩
  · obtain rfl : step = ⟨⟨"acme", .create_rule_pack 0 ⟨"v1", "pack", [], "active"⟩⟩, false⟩ := by
      simpa [two_tenants] using hpart
    exact fun _ => rfl
  · obtain ⟨rfl, rfl⟩ : first = ⟨⟨"acme", .create_rule_pack 0 ⟨"v1", "pack", [], "active"⟩⟩, false⟩ ∧
        step = ⟨⟨"globex", .create_rule_pack 1 ⟨"v2", "pack", [], "active"⟩⟩, true⟩ := by
      simpa [two_tenants] using hpart
    obtain rfl : "v2" = version := Option.some.inj hnew
    rfl
  · simp [two_tenants] at hpart

/-- The version is the whole key, so the pack of the other tenant takes its
place. -/
theorem same_version_is_lost :
    ¬ Unaffected "acme" (with_inserted (two_tenants "v1"))
      (without_inserted (two_tenants "v1")) := by
  intro h
  have hlost : (perform (with_inserted (two_tenants "v1")) ⟨"acme", .get_rule_pack "v1"⟩).2 =
      .ok (.rule_pack none) := by rfl
  have hkept : (perform (without_inserted (two_tenants "v1")) ⟨"acme", .get_rule_pack "v1"⟩).2 =
      .ok (.rule_pack (some (new_rule_pack 0 "acme" ⟨"v1", "pack", [], "active"⟩))) := by rfl
  have hreplies := h.replies (.get_rule_pack "v1")
  rw [hlost, hkept] at hreplies
  cases hreplies

end bid_evaluation.admin_laws
