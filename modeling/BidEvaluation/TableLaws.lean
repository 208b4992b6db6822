-- The law of the tables of projects, suppliers and rule packs: the processes
-- on one database are one store exactly as long as no call has something to
-- write.
import BidEvaluation.AdminTables

open dict_lib lockstep bid_evaluation.values bid_evaluation.admin_store
  bid_evaluation.admin_tables

namespace bid_evaluation.table_laws

/-! ## Calls that write nothing -/

/-- The check of a create fails. -/
def Refused (needed : String × String) : Prop := needed.1 = "" ∨ needed.2 = ""

variable {ν : Type}

/-- The table has the row that the create gives: the one that its repository
finds, or else the new one. -/
def GivesStored (here there : Option ν) (row : ν) : Prop :=
  there = some (here.getD row)

/-- The update finds no row, or it makes the row that the table has. -/
def LeavesStored (change : ν → ν) (here there : Option ν) : Prop :=
  match here, there with
  | none, none => True
  | some row, some stored => change row = stored ∧ change stored = stored
  | _, _ => False

/-- A create finds its row in the table, and an update finds none. -/
def HarmlessOnTables (tables : AdminStore) (op : Operation) : Prop :=
  let t := op.tenant_id
  match op.request with
  | .create_project _ _ payload => Refused (strip payload.project_code, strip payload.name) ∨
      get_by_project_code tables t (strip payload.project_code) ≠ none
  | .update_project _ project_id _ => get_project_for_tenant tables project_id t = none
  | .create_supplier _ _ payload => Refused (strip payload.supplier_code, strip payload.name) ∨
      get_by_supplier_code tables t (strip payload.supplier_code) ≠ none
  | .update_supplier _ supplier_id _ => get_supplier_for_tenant tables supplier_id t = none
  | .create_rule_pack _ payload => Refused (strip payload.rule_pack_version, strip payload.name) ∨
      get_rule_pack_for_tenant tables (strip payload.rule_pack_version) t ≠ none
  | .update_rule_pack _ version _ => get_rule_pack_for_tenant tables version t = none
  | _ => True

/-- What the memory has under the names of the call is what the tables have,
and the call leaves it so. -/
def HarmlessInMemory (memory tables : AdminStore) (op : Operation) : Prop :=
  let t := op.tenant_id
  match op.request with
  | .create_project uuid_hex now payload =>
    Refused (strip payload.project_code, strip payload.name) ∨
      GivesStored (get_by_project_code memory t (strip payload.project_code))
        (get_by_project_code tables t (strip payload.project_code))
        (new_project uuid_hex now t payload)
  | .get_project project_id =>
    get_project_for_tenant memory project_id t = get_project_for_tenant tables project_id t
  | .update_project now project_id payload => LeavesStored (changed_project now payload)
      (get_project_for_tenant memory project_id t) (get_project_for_tenant tables project_id t)
  | .delete_project project_id => get_project_for_tenant memory project_id t = none ∧
      get_project_for_tenant tables project_id t = none
  | .create_supplier uuid_hex now payload =>
    Refused (strip payload.supplier_code, strip payload.name) ∨
      GivesStored (get_by_supplier_code memory t (strip payload.supplier_code))
        (get_by_supplier_code tables t (strip payload.supplier_code))
        (new_supplier uuid_hex now t payload)
  | .get_supplier supplier_id =>
    get_supplier_for_tenant memory supplier_id t = get_supplier_for_tenant tables supplier_id t
  | .update_supplier now supplier_id payload => LeavesStored (changed_supplier now payload)
      (get_supplier_for_tenant memory supplier_id t) (get_supplier_for_tenant tables supplier_id t)
  | .delete_supplier supplier_id => get_supplier_for_tenant memory supplier_id t = none ∧
      get_supplier_for_tenant tables supplier_id t = none
  | .create_rule_pack now payload =>
    Refused (strip payload.rule_pack_version, strip payload.name) ∨
      GivesStored (get_rule_pack_for_tenant memory (strip payload.rule_pack_version) t)
        (get_rule_pack_for_tenant tables (strip payload.rule_pack_version) t)
        (new_rule_pack now t payload)
  | .get_rule_pack version =>
    get_rule_pack_for_tenant memory version t = get_rule_pack_for_tenant tables version t
  | .update_rule_pack now version payload => LeavesStored (changed_rule_pack now payload)
      (get_rule_pack_for_tenant memory version t) (get_rule_pack_for_tenant tables version t)
  | .delete_rule_pack version => get_rule_pack_for_tenant memory version t = none ∧
      get_rule_pack_for_tenant tables version t = none
  | _ => True

variable {π : Type} [DecidableEq π]

/-- The move writes nothing that the tables would have to show. -/
def Harmless (s : State π) : Move π → Prop
  | .call p op =>
    match (s.process p).repositories with
    | .postgres => HarmlessOnTables s.database.tables op
    | .in_memory => HarmlessInMemory (s.process p).memory s.database.tables op
  | _ => True

def lists : Request → Bool
  | .list_projects | .list_suppliers | .list_rule_packs => true
  | _ => false

/-! ## The pattern of the three families -/

section family

variable {key : ν → String} {owner : ν → String}

/-- A result for one family as the answer of the whole store. -/
def finish (s : AdminStore) (put : Table key → AdminStore) (reply : ν → Reply) :
    Except PyErr (Table key × ν) → AdminStore × Except PyErr Reply
  | .ok (t, saved) => (put t, .ok (reply saved))
  | .error e => (s, .error e)

theorem answer_finish (s : AdminStore) (put : Table key → AdminStore) (reply : ν → Reply)
    (x : Except PyErr (Table key × ν)) :
    answer s (do let (t, saved) ← x; pure (put t, saved)) reply = finish s put reply x := by
  rcases x with e | ⟨t, saved⟩ <;> rfl

/-- A delete for one family as the answer of the whole store. -/
def finish_delete (s : AdminStore) (put : Table key → AdminStore) (id : String) :
    Except PyErr (Table key) → AdminStore × Except PyErr Reply
  | .ok t => (put t, .ok (.deleted id))
  | .error e => (s, .error e)

theorem answer_delete (s : AdminStore) (put : Table key → AdminStore) (id : String)
    (x : Except PyErr (Table key)) :
    answer s ((do let t ← x; pure (put t) : Except PyErr AdminStore).map (·, id)) .deleted =
      finish_delete s put id x := by
  rcases x with e | t <;> rfl

/-- How a family is put back into the store and shown. -/
structure Family (s : AdminStore) (t : Table key) (put : Table key → AdminStore)
    (reply : ν → Reply) : Prop where
  put_same : put t = s
  put_injective : Function.Injective put
  reply_injective : Function.Injective reply

variable {s s' : AdminStore} {put put' : Table key → AdminStore} {reply : ν → Reply}
  {t here : Table key} {message class_name tenant_id id : String} {needed : String × String}
  {existing found : Option ν} {row : ν} {missing : PyErr} {change : ν → ν}

theorem create_on_tables_iff :
    finish s put reply (create_in_table class_name message needed existing t) =
        finish s put reply (create_row message needed existing row t) ↔
      Refused needed ∨ existing ≠ none := by
  unfold create_in_table create_row Refused
  by_cases hneeded : needed.1 = "" ∨ needed.2 = ""
  · rw [if_pos hneeded, if_pos hneeded]
    simp [hneeded]
  · rw [if_neg hneeded, if_neg hneeded]
    cases existing with
    | none => simp [finish, hneeded]
    | some stored => simp [finish]

theorem update_on_tables_iff :
    finish s put reply (update_in_table owner class_name missing t tenant_id id) =
        finish s put reply (update_row owner missing change t tenant_id id) ↔
      t.getOwned owner tenant_id id = none := by
  unfold update_in_table update_row
  cases t.getOwned owner tenant_id id with
  | none => simp [finish]
  | some stored => simp [finish]

theorem create_row_eq (hneeded : ¬ Refused needed) :
    create_row message needed existing row t =
      .ok (existing.elim (t.put row, row) fun stored => (t, stored)) := by
  unfold Refused at hneeded
  unfold create_row
  rw [if_neg hneeded]
  cases existing <;> rfl

theorem create_in_memory_iff (hfamily : Family s t put reply)
    (hfound : t.get? (key row) = some row → existing ≠ none) :
    (s, (finish s' put' reply (create_row message needed found row here)).2) =
        finish s put reply (create_row message needed existing row t) ↔
      Refused needed ∨ GivesStored found existing row := by
  by_cases hneeded : Refused needed
  · have hempty : needed.1 = "" ∨ needed.2 = "" := hneeded
    unfold create_row
    rw [if_pos hempty, if_pos hempty]
    simp [finish, hneeded]
  · have hreply : (finish s' put' reply (create_row message needed found row here)).2 =
        .ok (reply (found.getD row)) := by
      rw [create_row_eq hneeded]
      cases found <;> rfl
    rw [or_iff_right hneeded, hreply, create_row_eq hneeded]
    cases existing with
    | none =>
      -- the one store puts a row that the table does not have
      have hchanged : s ≠ put (t.put row) := by
        rw [← hfamily.put_same]
        intro heq
        have hsame := (hfamily.put_injective heq).symm
        exact hfound ((Table.put_eq_self_iff t row).1 hsame) rfl
      simp [finish, GivesStored, hchanged]
    | some stored =>
      simp only [finish, GivesStored, hfamily.put_same, Option.elim_some, Prod.mk.injEq, true_and,
        Except.ok.injEq, hfamily.reply_injective.eq_iff, Option.some_inj]
      exact eq_comm

theorem update_in_memory_iff (hfamily : Family s t put reply)
    (hkey : ∀ row, key (change row) = key row) :
    (s, (finish s' put' reply (update_row owner missing change here tenant_id id)).2) =
        finish s put reply (update_row owner missing change t tenant_id id) ↔
      LeavesStored change (here.getOwned owner tenant_id id) (t.getOwned owner tenant_id id) := by
  unfold update_row LeavesStored
  rcases hhere : here.getOwned owner tenant_id id with _ | row <;>
    rcases hthere : t.getOwned owner tenant_id id with _ | stored
  · simp [finish]
  · simp [finish]
  · simp [finish]
  · obtain ⟨hget, -⟩ := Option.filter_eq_some_iff.1 hthere
    have hid : key stored = id := t.key_of_get? hget
    have hput : s = put (t.put (change stored)) ↔ change stored = stored := by
      rw [← hfamily.put_same, hfamily.put_injective.eq_iff, eq_comm, Table.put_eq_self_iff, hkey,
        hid, hget, Option.some_inj, eq_comm]
    simp only [finish, Prod.mk.injEq, hput, Except.ok.injEq, hfamily.reply_injective.eq_iff]
    constructor
    · rintro ⟨hkept, hsame⟩
      exact ⟨hsame.trans hkept, hkept⟩
    · rintro ⟨hsame, hkept⟩
      exact ⟨hkept, hsame.trans hkept.symm⟩

theorem delete_in_memory_iff (hsame : put t = s) (hput : Function.Injective put) :
    (s, (finish_delete s' put' id (delete_row owner missing here tenant_id id)).2) =
        finish_delete s put id (delete_row owner missing t tenant_id id) ↔
      here.getOwned owner tenant_id id = none ∧ t.getOwned owner tenant_id id = none := by
  unfold delete_row
  rcases hhere : here.getOwned owner tenant_id id with _ | row <;>
    rcases hthere : t.getOwned owner tenant_id id with _ | stored
  · simp [finish_delete]
  · simp [finish_delete]
  · simp [finish_delete]
  · obtain ⟨hget, -⟩ := Option.filter_eq_some_iff.1 hthere
    have hchanged : s ≠ put (t.erase id) := by
      rw [← hsame]
      intro heq
      have hgone := congrArg (fun u => Table.get? u id) (hput heq)
      simp only [Table.get?_erase, if_pos] at hgone
      rw [hget] at hgone
      cases hgone
    simp [finish_delete, hchanged]

end family

/-! ## The three families -/

def put_projects (s : AdminStore) (projects : Table Project.project_id) : AdminStore :=
  { s with projects := projects }

def put_suppliers (s : AdminStore) (suppliers : Table Supplier.supplier_id) : AdminStore :=
  { s with suppliers := suppliers }

def put_rule_packs (s : AdminStore) (rule_packs : Table fun row : RulePackRow => row.rule_pack_version) :
    AdminStore :=
  { s with rule_packs := rule_packs }

theorem project_family (s : AdminStore) :
    Family s s.projects (put_projects s) (fun row => .project (some row)) where
  put_same := rfl
  put_injective _ _ h := congrArg AdminStore.projects h
  reply_injective _ _ h := Option.some.inj (Reply.project.inj h)

theorem supplier_family (s : AdminStore) :
    Family s s.suppliers (put_suppliers s) (fun row => .supplier (some row)) where
  put_same := rfl
  put_injective _ _ h := congrArg AdminStore.suppliers h
  reply_injective _ _ h := Option.some.inj (Reply.supplier.inj h)

theorem rule_pack_family (s : AdminStore) :
    Family s s.rule_packs (put_rule_packs s) (fun row => .rule_pack (some row)) where
  put_same := rfl
  put_injective _ _ h := congrArg AdminStore.rule_packs h
  reply_injective _ _ h := Option.some.inj (Reply.rule_pack.inj h)

theorem find_stored {p : ν → Bool} {rows : List ν} {row : ν} (hin : row ∈ rows) (hp : p row = true) :
    rows.find? p ≠ none := by
  rw [Ne, List.find?_eq_none]
  intro hnone
  exact hnone row hin hp

theorem project_found {tables : AdminStore} {project : Project}
    (h : tables.projects.get? project.project_id = some project) :
    get_by_project_code tables project.tenant_id project.project_code ≠ none :=
  find_stored ((tables.projects.mem_values_iff project).2 h) (by simp)

theorem supplier_found {tables : AdminStore} {supplier : Supplier}
    (h : tables.suppliers.get? supplier.supplier_id = some supplier) :
    get_by_supplier_code tables supplier.tenant_id supplier.supplier_code ≠ none :=
  find_stored ((tables.suppliers.mem_values_iff supplier).2 h) (by simp)

theorem rule_pack_found {tables : AdminStore} {row : RulePackRow}
    (h : tables.rule_packs.get? row.rule_pack_version = some row) :
    get_rule_pack_for_tenant tables row.rule_pack_version row.tenant_id ≠ none := by
  unfold get_rule_pack_for_tenant Table.getOwned
  simp [h, rule_pack_tenant]

/-! ## One call -/

section answers

variable {key : ν → String} {reply : ν → Reply} {tables memory : AdminStore}
  (put put' : Table key → AdminStore) {x y : Except PyErr (Table key × ν)} {P : Prop}

theorem answers_iff (h : finish tables put reply x = finish tables put reply y ↔ P) :
    answer tables (do let (t, saved) ← x; pure (put t, saved)) reply =
      answer tables (do let (t, saved) ← y; pure (put t, saved)) reply ↔ P := by
  rw [answer_finish, answer_finish]
  exact h

theorem memory_answers_iff
    (h : (tables, (finish memory put' reply x).2) = finish tables put reply y ↔ P) :
    (tables, (answer memory (do let (t, saved) ← x; pure (put' t, saved)) reply).2) =
      answer tables (do let (t, saved) ← y; pure (put t, saved)) reply ↔ P := by
  rw [answer_finish, answer_finish]
  exact h

theorem memory_deletes_iff {x y : Except PyErr (Table key)} {id : String}
    (h : (tables, (finish_delete memory put' id x).2) = finish_delete tables put id y ↔ P) :
    (tables, (answer memory
        ((do let t ← x; pure (put' t) : Except PyErr AdminStore).map (·, id)) .deleted).2) =
      answer tables ((do let t ← y; pure (put t) : Except PyErr AdminStore).map (·, id)) .deleted ↔
        P := by
  rw [answer_delete, answer_delete]
  exact h

end answers

/-- On the repositories of the tables, a call answers as the one store exactly
when it is harmless. -/
theorem perform_on_tables_iff (tables : AdminStore) (op : Operation)
    (hop : lists op.request = false) :
    perform_on_tables tables op = perform tables op ↔ HarmlessOnTables tables op := by
  obtain ⟨tenant_id, request⟩ := op
  cases request with
  | create_project uuid_hex now payload =>
    exact answers_iff (put_projects tables) create_on_tables_iff
  | update_project now project_id payload =>
    exact answers_iff (put_projects tables) update_on_tables_iff
  | create_supplier uuid_hex now payload =>
    exact answers_iff (put_suppliers tables) create_on_tables_iff
  | update_supplier now supplier_id payload =>
    exact answers_iff (put_suppliers tables) update_on_tables_iff
  | create_rule_pack now payload =>
    exact answers_iff (put_rule_packs tables) create_on_tables_iff
  | update_rule_pack now version payload =>
    exact answers_iff (put_rule_packs tables) update_on_tables_iff
  | get_project _ => exact ⟨fun _ => trivial, fun _ => rfl⟩
  | get_supplier _ => exact ⟨fun _ => trivial, fun _ => rfl⟩
  | get_rule_pack _ => exact ⟨fun _ => trivial, fun _ => rfl⟩
  | delete_project _ => exact ⟨fun _ => trivial, fun _ => rfl⟩
  | delete_supplier _ => exact ⟨fun _ => trivial, fun _ => rfl⟩
  | delete_rule_pack _ => exact ⟨fun _ => trivial, fun _ => rfl⟩
  | list_projects => cases hop
  | list_suppliers => cases hop
  | list_rule_packs => cases hop

/-- On the repositories of the memory, a call answers as the one store, with
the tables as they are, exactly when it is harmless. -/
theorem perform_in_memory_iff (memory tables : AdminStore) (op : Operation)
    (hop : lists op.request = false) :
    (tables, (perform memory op).2) = perform tables op ↔ HarmlessInMemory memory tables op := by
  obtain ⟨tenant_id, request⟩ := op
  cases request with
  | create_project uuid_hex now payload =>
    exact memory_answers_iff (put_projects tables) (put_projects memory)
      (create_in_memory_iff (project_family tables) project_found)
  | update_project now project_id payload =>
    exact memory_answers_iff (put_projects tables) (put_projects memory)
      (update_in_memory_iff (project_family tables) fun _ => rfl)
  | delete_project project_id =>
    exact memory_deletes_iff (put_projects tables) (put_projects memory)
      (delete_in_memory_iff rfl (project_family tables).put_injective)
  | create_supplier uuid_hex now payload =>
    exact memory_answers_iff (put_suppliers tables) (put_suppliers memory)
      (create_in_memory_iff (supplier_family tables) supplier_found)
  | update_supplier now supplier_id payload =>
    exact memory_answers_iff (put_suppliers tables) (put_suppliers memory)
      (update_in_memory_iff (supplier_family tables) fun _ => rfl)
  | delete_supplier supplier_id =>
    exact memory_deletes_iff (put_suppliers tables) (put_suppliers memory)
      (delete_in_memory_iff rfl (supplier_family tables).put_injective)
  | create_rule_pack now payload =>
    exact memory_answers_iff (put_rule_packs tables) (put_rule_packs memory)
      (create_in_memory_iff (rule_pack_family tables) rule_pack_found)
  | update_rule_pack now version payload =>
    exact memory_answers_iff (put_rule_packs tables) (put_rule_packs memory)
      (update_in_memory_iff (rule_pack_family tables) fun _ => rfl)
  | delete_rule_pack version =>
    exact memory_deletes_iff (put_rule_packs tables) (put_rule_packs memory)
      (delete_in_memory_iff rfl (rule_pack_family tables).put_injective)
  | get_project project_id => simp [perform, HarmlessInMemory]
  | get_supplier supplier_id => simp [perform, HarmlessInMemory]
  | get_rule_pack version => simp [perform, HarmlessInMemory]
  | list_projects => cases hop
  | list_suppliers => cases hop
  | list_rule_packs => cases hop

/-- A call of any process answers as the one store exactly when it is
harmless. -/
theorem call_iff (s : State π) (p : π) (op : Operation) (hop : lists op.request = false) :
    ((s.call p op).1.database.tables, some (s.call p op).2) =
        ((perform s.database.tables op).1, some (perform s.database.tables op).2) ↔
      Harmless s (.call p op) := by
  have hsome : ∀ {a b : AdminStore × Except PyErr Reply},
      (a.1, some a.2) = (b.1, some b.2) ↔ a = b := by
    rintro ⟨a, r⟩ ⟨b, r'⟩
    simp
  unfold State.call Harmless
  dsimp only
  rcases hbound : (s.process p).repositories with _ | _
  · exact hsome.trans (perform_on_tables_iff s.database.tables op hop)
  · exact hsome.trans (perform_in_memory_iff (s.process p).memory s.database.tables op hop)

/-! ## Runs -/

/-- In every run, from any contents of the database, the processes that share
it are one store, which is the tables: every call replies as that store, and
the tables are as it is. That is so exactly when each move is harmless in the
state in which it is made. -/
theorem tables_are_the_store_iff (database : Database) (moves : List (Move π))
    (hmoves : ∀ p op, .call p op ∈ moves → lists op.request = false) :
    Alike (admin_tables.machine π database) (one_store π database.tables) moves ↔
      Throughout (admin_tables.machine π database) Harmless moves := by
  refine alike_iff (fun _ s tables => s.database.tables = tables) Harmless rfl ?_ ?_
  · intro before move hpart hsame
    unfold Machine.answer
    rw [← hsame]
    generalize (admin_tables.machine π database).after before = s
    have hin : move ∈ moves := hpart.subset (by simp)
    cases move with
    | start p => exact ⟨fun _ => trivial, fun _ => rfl⟩
    | save p => exact ⟨fun _ => trivial, fun _ => rfl⟩
    | call p op =>
      exact call_iff s p op (hmoves p op hin)
  · intro before move hpart hsame hharmless
    rw [Machine.after_concat, Machine.after_concat, ← hsame]
    generalize (admin_tables.machine π database).after before = s at hharmless ⊢
    have hin : move ∈ moves := hpart.subset (by simp)
    cases move with
    | start p => rfl
    | save p => rfl
    | call p op => exact congrArg Prod.fst ((call_iff s p op (hmoves p op hin)).2 hharmless)

/-! Two processes, and a project of the tenant that is in the table. -/

def bridge : Operation :=
  ⟨"tenant", .create_project "a" 1 ⟨"P-1", "Bridge", "", ""⟩⟩

def with_bridge : AdminStore :=
  { AdminStore.empty with
    projects := Table.empty.put (new_project "0" 0 "tenant" ⟨"P-1", "Bridge", "", ""⟩) }

theorem known_project_is_shared :
    Alike (admin_tables.machine Bool ⟨none, with_bridge⟩) (one_store Bool with_bridge)
      [.call true bridge, .call false ⟨"tenant", .get_project "prj_0"⟩] := by
  refine (tables_are_the_store_iff ⟨none, with_bridge⟩ _ ?_).2 ?_
  · intro p op hin
    simp only [List.mem_cons, Move.call.injEq, List.not_mem_nil, or_false] at hin
    rcases hin with ⟨-, rfl⟩ | ⟨-, rfl⟩ <;> rfl
  · refine throughout_concat [_] (throughout_concat [] (throughout_nil _ _) ?_) trivial
    exact .inr (by decide)

def replied : Option (Except PyErr Reply) → Bool
  | some (.ok _) => true
  | _ => false

/-- On the empty database a create raises a `TypeError`. On a process that
restored a snapshot it returns, and the other process does not find the row. -/
theorem new_project_reaches_no_table :
    ¬ Alike (admin_tables.machine Bool ⟨none, AdminStore.empty⟩) (one_store Bool AdminStore.empty)
        [.call true bridge] ∧
      ((admin_tables.machine Bool ⟨none, AdminStore.empty⟩).answer [] (.call true bridge)).2 =
        some (.error (missing_tenant_id "PostgresProjectsRepository")) ∧
      (let restored := admin_tables.machine Bool ⟨some AdminStore.empty, AdminStore.empty⟩
       replied (restored.answer [] (.call true bridge)).2 = true ∧
        (restored.after [.call true bridge]).database.tables = AdminStore.empty ∧
        (restored.answer [.call true bridge] (.call false ⟨"tenant", .get_project "prj_a"⟩)).2 =
          some (.ok (.project none))) := by
  refine ⟨fun halike => ?_, rfl, rfl, rfl, rfl⟩
  have hsame := congrArg (fun a => replied a.2) (halike [] _ (List.prefix_refl _))
  have hfailed : replied ((admin_tables.machine Bool ⟨none, AdminStore.empty⟩).answer []
      (.call true bridge)).2 = false := rfl
  have hstored : replied ((one_store Bool AdminStore.empty).answer [] (.call true bridge)).2 =
      true := rfl
  exact Bool.false_ne_true (hfailed.symm.trans (hsame.trans hstored))

end bid_evaluation.table_laws
