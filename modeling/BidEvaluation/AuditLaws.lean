-- The laws of the audit log: the rows of all tenants are one chain, so the
-- rows of one tenant are a chain of their own only when they are the first.
import BidEvaluation.AuditLogs
import BidEvaluation.Lib.HashChain
import BidEvaluation.Operations

open dict_lib hash_chain hash_chain.Reading bid_evaluation.values bid_evaluation.audit_logs
open bid_evaluation.core (Env)
open bid_evaluation.operations (calm_env)

namespace bid_evaluation.audit_laws

variable {env : Env} {sha256 : String → String} {row : PyDict} {rows : List PyDict}

/-! ## How a row is read -/

mutual

/-- A value with the keys of its dictionaries sorted. Two values are the same
JSON exactly when these are. -/
def canon : PyVal → PyVal
  | .list items => .list (canonItems items)
  | .dict entries => .dict ((canonEntries entries).insertionSort (fun a b => a.1 ≤ b.1))
  | x => x

def canonItems : List PyVal → List PyVal
  | [] => []
  | item :: rest => canon item :: canonItems rest

def canonEntries : List (String × PyVal) → List (String × PyVal)
  | [] => []
  | (key, value) :: rest => (key, canon value) :: canonEntries rest

end

/-- What the hash of a row covers, field by field. -/
def covered (env : Env) (row : PyDict) (key : String) : Option PyVal :=
  if key = "audit_hash" then none
  else if key = "prev_hash" then some (.str (read_text env row "prev_hash"))
  else (lookupEntry row key).map canon

def reading (env : Env) (sha256 : String → String) :
    Reading PyDict (String → Option PyVal) String where
  link row := read_text env row "prev_hash"
  hash row := read_text env row "audit_hash"
  expected row := compute_audit_hash env sha256 row (read_text env row "prev_hash")
  material row := covered env row
  covered h := by
    have := congrFun h "prev_hash"
    simpa [covered] using this

theorem read_text_str {key text : String} (h : lookupEntry row key = some (.str text)) :
    read_text env row key = text := by
  unfold read_text PyDict.get PyDict.getD PyVal.or
  rw [h]
  by_cases htext : text = ""
  · simp [PyVal.truthy, PyVal.toStr, htext]
  · simp [PyVal.truthy, PyVal.toStr, htext]

theorem read_text_congr {row' : PyDict} {key : String}
    (h : lookupEntry row' key = lookupEntry row key) :
    read_text env row' key = read_text env row key := by
  unfold read_text PyDict.get PyDict.getD
  rw [h]

/-- The stored hash is no part of what a hash covers. -/
theorem audit_material_congr {row' : PyDict} (prev_hash : String)
    (h : eraseEntry row' "audit_hash" = eraseEntry row "audit_hash") :
    audit_material row' prev_hash = audit_material row prev_hash := by
  have hsplit : ∀ d : PyDict, d.filter (fun e => e.1 ≠ "audit_hash" ∧ e.1 ≠ "prev_hash") =
      (eraseEntry d "audit_hash").filter (fun e => e.1 ≠ "prev_hash") := by
    intro d
    unfold eraseEntry
    rw [List.filter_filter]
    apply List.filter_congr
    intro e _
    simp [Bool.and_comm]
  unfold audit_material
  rw [hsplit, hsplit, h]

/-! ## The chain -/

/-- A log verifies exactly when its rows are a chain. -/
theorem verify_rows_iff (idx : Nat) (prev_hash : String) (rows : List PyDict) (n : Nat)
    (hash : String) :
    verify_rows env sha256 idx prev_hash rows = .valid n hash ↔
      (reading env sha256).Chained prev_hash rows ∧ n = idx + rows.length ∧
        hash = (reading env sha256).tip prev_hash rows := by
  induction rows generalizing idx prev_hash with
  | nil =>
    simp only [verify_rows, Integrity.valid.injEq, Chained, tip_nil, List.length_nil, true_and,
      Nat.add_zero]
    exact and_congr eq_comm eq_comm
  | cons row rest ih =>
    rw [verify_rows, tip_cons]
    show _ ↔ (read_text env row "prev_hash" = prev_hash ∧ read_text env row "audit_hash" =
      compute_audit_hash env sha256 row (read_text env row "prev_hash") ∧ _) ∧ _
    dsimp only
    by_cases hlink : read_text env row "prev_hash" = prev_hash
    · rw [if_neg (not_not.2 hlink)]
      by_cases hhash : read_text env row "audit_hash" =
          compute_audit_hash env sha256 row (read_text env row "prev_hash")
      · have hlength : idx + 1 + rest.length = idx + (row :: rest).length := by
          rw [List.length_cons]
          omega
        rw [if_neg (not_not.2 hhash), ih, hlength]
        exact and_congr_left' ⟨fun h => ⟨hlink, hhash, h⟩, fun h => h.2.2⟩
      · rw [if_pos hhash]
        simp [hhash]
    · rw [if_pos hlink]
      simp [hlink]

theorem isValid_iff {integrity : Integrity} :
    integrity.isValid = true ↔ ∃ n hash, integrity = .valid n hash := by
  cases integrity with
  | valid n hash => simp [Integrity.isValid]
  | broken n reason audit_id => simp [Integrity.isValid]

theorem verifies_iff (audit_logs : List PyDict) (tenant_id : Option String) :
    (verify_audit_integrity env sha256 audit_logs tenant_id).isValid = true ↔
      (reading env sha256).Chained "" (rows_of env audit_logs tenant_id) := by
  unfold verify_audit_integrity
  rw [isValid_iff]
  simp [verify_rows_iff]

theorem last_hash_eq (audit_logs : List PyDict) :
    last_hash env audit_logs = (reading env sha256).tip "" audit_logs := by
  unfold last_hash tip
  cases audit_logs.getLast? <;> rfl

/-- An append puts one more entry on the chain. -/
theorem chained_append_audit_log {audit_logs : List PyDict}
    (h : (reading env sha256).Chained "" audit_logs) (hex now : String) (log : PyDict) :
    (reading env sha256).Chained "" (append_audit_log env sha256 audit_logs hex now log) := by
  unfold append_audit_log
  dsimp only
  generalize default_field (default_field log "audit_id" ("audit_" ++ hex)) "occurred_at" now =
    entry
  generalize hprev : last_hash env audit_logs = prev_hash
  generalize hsealed : compute_audit_hash env sha256 (entry.set "prev_hash" (.str prev_hash))
    prev_hash = audit_hash
  rw [chained_concat]
  have hlink : read_text env ((entry.set "prev_hash" (.str prev_hash)).set "audit_hash"
      (.str audit_hash)) "prev_hash" = prev_hash := by
    apply read_text_str
    unfold PyDict.set
    rw [lookupEntry_setEntry, if_neg (by decide), lookupEntry_setEntry, if_pos rfl]
  have hhash : read_text env ((entry.set "prev_hash" (.str prev_hash)).set "audit_hash"
      (.str audit_hash)) "audit_hash" = audit_hash := by
    apply read_text_str
    unfold PyDict.set
    rw [lookupEntry_setEntry, if_pos rfl]
  refine ⟨h, ?_, ?_⟩
  · rw [← last_hash_eq, hprev]
    exact hlink
  · show read_text env _ "audit_hash" = compute_audit_hash env sha256 _ (read_text env _ "prev_hash")
    have hmaterial : audit_material ((entry.set "prev_hash" (.str prev_hash)).set "audit_hash"
        (.str audit_hash)) prev_hash =
          audit_material (entry.set "prev_hash" (.str prev_hash)) prev_hash :=
      audit_material_congr prev_hash (eraseEntry_setEntry _ _ _)
    unfold compute_audit_hash at hsealed ⊢
    rw [hhash, hlink, hmaterial, hsealed]

theorem chained_logged (env : Env) (sha256 : String → String) (appends : List Append) :
    (reading env sha256).Chained "" (logged env sha256 appends) := by
  unfold logged
  induction appends using List.reverseRecOn with
  | nil => trivial
  | append_singleton before a ih =>
    rw [List.foldl_concat]
    exact chained_append_audit_log ih a.hex a.now a.log

/-! ## Every tenant -/

/-- The hash function tells these rows apart, and gives no empty text. -/
def CollisionFree (env : Env) (sha256 : String → String) (rows : List PyDict) : Prop :=
  (reading env sha256).CollisionFree "" rows

def tenant_of (env : Env) (row : PyDict) : String := read_text env row "tenant_id"

/-- No row of a tenant comes after a row that is not of that tenant. -/
def OneTenantFirst (env : Env) (logs : List PyDict) : Prop :=
  logs.Pairwise (fun a b => tenant_of env b = "" ∨ tenant_of env a = tenant_of env b)

def VerifiesFor (env : Env) (sha256 : String → String) (audit_logs : List PyDict)
    (tenant_id : Option String) : Prop :=
  (verify_audit_integrity env sha256 audit_logs tenant_id).isValid = true

theorem default_field_other {log : PyDict} {key other : String} (value : String)
    (h : other ≠ key) : lookupEntry (default_field log key value) other = lookupEntry log other := by
  unfold default_field PyDict.set
  split
  · rfl
  · rw [lookupEntry_setEntry, if_neg h]

/-- A row has the tenant of the log that was appended. -/
theorem tenants_logged (appends : List Append) :
    (logged env sha256 appends).map (tenant_of env) =
      (appends.map (fun a => a.log)).map (tenant_of env) := by
  unfold logged
  induction appends using List.reverseRecOn with
  | nil => rfl
  | append_singleton before a ih =>
    have hrow : ∀ (entry : PyDict) (prev_hash audit_hash : String),
        tenant_of env ((entry.set "prev_hash" (.str prev_hash)).set "audit_hash"
          (.str audit_hash)) = tenant_of env entry := by
      intro entry prev_hash audit_hash
      apply read_text_congr
      unfold PyDict.set
      rw [lookupEntry_setEntry, if_neg (by decide), lookupEntry_setEntry, if_neg (by decide)]
    have hentry : tenant_of env (default_field (default_field a.log "audit_id" ("audit_" ++ a.hex))
        "occurred_at" a.now) = tenant_of env a.log := by
      apply read_text_congr
      rw [default_field_other _ (by decide), default_field_other _ (by decide)]
    rw [List.foldl_concat, List.map_append, List.map_append, ← ih]
    generalize before.foldl _ [] = audit_logs
    unfold append_audit_log
    dsimp only
    rw [List.map_append]
    simp only [List.map_cons, List.map_nil, hrow, hentry]

theorem one_tenant_first_iff (logs : List PyDict) :
    OneTenantFirst env logs ↔ ∀ tenant_id, tenant_id ≠ "" →
      logs.Pairwise (fun a b => decide (tenant_of env b = tenant_id) = true →
        decide (tenant_of env a = tenant_id) = true) := by
  unfold OneTenantFirst
  constructor
  · intro h tenant_id hne
    refine h.imp ?_
    intro a b hab hb
    rcases hab with hempty | hsame
    · exact absurd ((of_decide_eq_true hb).symm.trans hempty) hne
    · rw [hsame]
      exact hb
  · intro h
    rw [List.pairwise_iff_forall_sublist]
    intro a b hsub
    by_cases hempty : tenant_of env b = ""
    · exact .inl hempty
    · have hpair := List.pairwise_iff_forall_sublist.1 (h _ hempty) hsub
      exact .inr (of_decide_eq_true (hpair (decide_eq_true rfl)))

/-- Only the tenants of the rows matter. -/
theorem one_tenant_first_logged (appends : List Append) :
    OneTenantFirst env (logged env sha256 appends) ↔
      OneTenantFirst env (appends.map (fun a => a.log)) := by
  have hmap : ∀ logs : List PyDict, OneTenantFirst env logs ↔
      (logs.map (tenant_of env)).Pairwise (fun a b => b = "" ∨ a = b) := by
    intro logs
    rw [List.pairwise_map]
    exact Iff.rfl
  rw [hmap, hmap, tenants_logged]

/-- The log verifies as a whole, always. It verifies for every tenant when
the rows of one tenant come before all others, which have none, and, unless
hashes collide, only then. -/
theorem verifies_for_all_iff (env : Env) (sha256 : String → String) (appends : List Append) :
    VerifiesFor env sha256 (logged env sha256 appends) none ∧
    (OneTenantFirst env (appends.map (fun a => a.log)) →
      ∀ tenant_id, VerifiesFor env sha256 (logged env sha256 appends) (some tenant_id)) ∧
    (CollisionFree env sha256 (logged env sha256 appends) →
      (∀ tenant_id, VerifiesFor env sha256 (logged env sha256 appends) (some tenant_id)) →
      OneTenantFirst env (appends.map (fun a => a.log))) := by
  have hchained := chained_logged env sha256 appends
  unfold VerifiesFor
  have hiff : OneTenantFirst env (logged env sha256 appends) ↔ _ := one_tenant_first_logged appends
  rw [← hiff]
  refine ⟨(verifies_iff _ _).2 hchained, ?_, ?_⟩
  · intro hfirst tenant_id
    rw [verifies_iff]
    unfold rows_of
    dsimp only
    split
    · exact hchained
    · rename_i hne
      exact hchained.initial ((filter_initial_iff _ _).2
        ((one_tenant_first_iff _).1 hfirst tenant_id hne))
  · intro hfree hall
    rw [one_tenant_first_iff]
    intro tenant_id hne
    have hvalid := (verifies_iff _ _).1 (hall tenant_id)
    unfold rows_of at hvalid
    dsimp only at hvalid
    rw [if_neg hne] at hvalid
    exact (chained_filter_iff hfree hchained _).1 hvalid

/-- A hash function without collisions. -/
def marked (text : String) : String := "#" ++ text

def action_of (tenant_id action : String) : Append :=
  ⟨"hex", "now", [("tenant_id", .str tenant_id), ("action", .str action)]⟩

def one_tenant : List PyDict :=
  logged calm_env marked [action_of "a" "submit", action_of "a" "approve"]

def two_tenants : List PyDict :=
  logged calm_env marked [action_of "a" "submit", action_of "b" "submit"]

theorem one_tenant_verifies : VerifiesFor calm_env marked one_tenant (some "a") := by
  have hfirst : OneTenantFirst calm_env ([action_of "a" "submit", action_of "a" "approve"].map
      (fun a => a.log)) := by
    unfold OneTenantFirst
    decide +kernel
  exact (verifies_for_all_iff calm_env marked _).2.1 hfirst "a"

/-- The first row of the second tenant names the hash of a row of the first. -/
theorem second_tenant_does_not_verify : ¬ VerifiesFor calm_env marked two_tenants (some "b") := by
  unfold VerifiesFor
  decide +kernel

/-! ## Tampering -/

/-- Two rows with the same fields, where the two hash fields count as the
verification reads them. -/
structure SameRow (env : Env) (row row' : PyDict) : Prop where
  fields : ∀ key, key ≠ "audit_hash" → key ≠ "prev_hash" →
    (lookupEntry row' key).map canon = (lookupEntry row key).map canon
  prev_hash : read_text env row' "prev_hash" = read_text env row "prev_hash"
  audit_hash : read_text env row' "audit_hash" = read_text env row "audit_hash"

/-- One field is set or dropped. -/
inductive Changed (row row' : PyDict) : Prop where
  | set (key : String) (value : PyVal) (h : row' = row.set key value)
  | dropped (key : String) (h : row' = eraseEntry row key)

theorem same_row_of_covered {row' : PyDict} (h : covered env row' = covered env row)
    (hhash : read_text env row' "audit_hash" = read_text env row "audit_hash") :
    SameRow env row row' where
  fields key hne hne' := by
    have hkey := congrFun h key
    simpa [covered, hne, hne'] using hkey
  prev_hash := (reading env id).covered h
  audit_hash := hhash

theorem Changed.elsewhere {row' : PyDict} (h : Changed row row') :
    ∃ key, (∀ other, other ≠ key → lookupEntry row' other = lookupEntry row other) ∧
      eraseEntry row' key = eraseEntry row key := by
  cases h with
  | set key value h =>
    subst h
    refine ⟨key, fun other hne => ?_, eraseEntry_setEntry _ _ _⟩
    unfold PyDict.set
    rw [lookupEntry_setEntry, if_neg hne]
  | dropped key h =>
    subst h
    refine ⟨key, fun other hne => ?_, ?_⟩
    · rw [lookupEntry_eraseEntry, if_neg hne]
    · unfold eraseEntry
      rw [List.filter_filter]
      simp

/-- A change of one field keeps the stored hash or the expected one. -/
theorem Changed.keeps_a_hash {row' : PyDict} (h : Changed row row') :
    (reading env sha256).hash row' = (reading env sha256).hash row ∨
      (reading env sha256).expected row' = (reading env sha256).expected row := by
  obtain ⟨key, helsewhere, herased⟩ := h.elsewhere
  by_cases hkey : key = "audit_hash"
  · subst hkey
    right
    have hprev : read_text env row' "prev_hash" = read_text env row "prev_hash" :=
      read_text_congr (helsewhere _ (by decide))
    show compute_audit_hash env sha256 row' (read_text env row' "prev_hash") =
      compute_audit_hash env sha256 row (read_text env row "prev_hash")
    unfold compute_audit_hash
    rw [hprev, audit_material_congr _ herased]
  · exact .inl (read_text_congr (helsewhere _ (Ne.symm hkey)))

/-- A log that was built by appends, against any other list of rows. -/
theorem tampering_is_detected (env : Env) (sha256 : String → String) (appends : List Append) :
    (∀ first row rest row', logged env sha256 appends = first ++ row :: rest →
      CollisionFree env sha256 (first ++ row :: rest ++ [row']) → Changed row row' →
      ¬ SameRow env row row' → ¬ VerifiesFor env sha256 (first ++ row' :: rest) none) ∧
    (∀ rows, CollisionFree env sha256 rows → (logged env sha256 appends).Sublist rows →
      rows.getLast? = (logged env sha256 appends).getLast? →
      rows ≠ logged env sha256 appends → ¬ VerifiesFor env sha256 rows none) ∧
    (∀ rows, CollisionFree env sha256 (logged env sha256 appends) →
      rows ⊆ logged env sha256 appends → ¬ rows <+: logged env sha256 appends →
      ¬ VerifiesFor env sha256 rows none) ∧
    (∀ rows rows' n hash, CollisionFree env sha256 (rows ++ rows') →
      verify_audit_integrity env sha256 rows none = .valid n hash →
      verify_audit_integrity env sha256 rows' none = .valid n hash →
      List.Forall₂ (SameRow env) rows rows') := by
  have hchained := chained_logged env sha256 appends
  unfold VerifiesFor
  refine ⟨?_, ?_, ?_, ?_⟩
  · intro first row rest row' hlogged hfree hchanged hdiffers hvalid
    rw [hlogged] at hchained
    rw [verifies_iff] at hvalid
    obtain ⟨hcovered, hhash⟩ := same_entry hfree hchained hvalid (.inr hchanged.keeps_a_hash)
    exact hdiffers (same_row_of_covered hcovered hhash)
  · intro rows hfree hsub hlast hne hvalid
    rw [verifies_iff] at hvalid
    exact hne (eq_of_inserted hfree hchained hvalid hsub hlast)
  · intro rows hfree hsub hinit hvalid
    rw [verifies_iff] at hvalid
    exact hinit (initial_of_entries hfree hchained hvalid hsub)
  · intro rows rows' n hash hfree hvalid hvalid'
    obtain ⟨hrows, -, htip⟩ := (verify_rows_iff _ _ _ _ _).1 hvalid
    obtain ⟨hrows', -, htip'⟩ := (verify_rows_iff _ _ _ _ _).1 hvalid'
    have hsame := same_entries hfree hrows hrows' (htip.symm.trans htip')
    exact hsame.imp fun row row' hboth => same_row_of_covered hboth.1 hboth.2

def first_row : PyDict := one_tenant.headD []

def second_row : PyDict := one_tenant.tail.headD []

theorem changed_action_is_detected : ¬ VerifiesFor calm_env marked
    [first_row.set "action" (.str "reject"), second_row] none := by
  have hfree : CollisionFree calm_env marked
      [first_row, second_row, first_row.set "action" (.str "reject")] := by
    apply CollisionFree.of_nodup
    · decide +kernel
    · decide +kernel
  refine (tampering_is_detected calm_env marked [action_of "a" "submit", action_of "a" "approve"]).1
    [] first_row [second_row] _ rfl hfree (.set "action" _ rfl) ?_
  intro hsame
  have hfield := hsame.fields "action" (by decide) (by decide)
  revert hfield
  unfold first_row one_tenant
  simp [logged, append_audit_log, action_of, default_field, lookupEntry, PyDict.set, setEntry,
    PyDict.get, PyDict.getD, PyVal.truthy, canon]

/-- The empty hash before the first row reads the same as no value. -/
theorem changed_prev_hash_is_not_detected :
    VerifiesFor calm_env marked [first_row.set "prev_hash" .none, second_row] none ∧
      (first_row.set "prev_hash" .none).get "prev_hash" ≠ first_row.get "prev_hash" := by
  refine ⟨?_, ?_⟩
  · unfold VerifiesFor
    decide +kernel
  · unfold first_row one_tenant
    simp [logged, append_audit_log, action_of, default_field, lookupEntry, PyDict.set, setEntry,
      PyDict.get, PyDict.getD, PyVal.truthy]

end bid_evaluation.audit_laws
