-- `SqliteQueueBackend` of `queue_backend.py`: the rows of `queue_messages`,
-- and one definition for each statement that its calls execute. The text
-- columns are the data that they hold: the payload comes out as the dictionary
-- that was written, and the ISO texts of two UTC instants order as the instants
-- do.
import BidEvaluation.QueueBackend

open bid_evaluation.values bid_evaluation.queue_backend

namespace bid_evaluation.sqlite_queue

/-! ## The table -/

inductive Status where
  | pending
  | inflight
  | discarded
deriving DecidableEq

structure Row where
  message_id : String
  tenant_id : String
  queue_name : String
  payload : PyDict
  attempt : Int
  status : Status
  available_at : Int
  created_at : Int
  updated_at : Int

/-- The rows in the order in which they were inserted. -/
abbrev Rows := List Row

/-- `_row_to_message`. -/
def Row.message (row : Row) : QueueMessage where
  message_id := row.message_id
  tenant_id := row.tenant_id
  queue_name := row.queue_name
  payload := row.payload
  attempt := row.attempt
  available_at := some row.available_at

/-- What an INTEGER column takes. -/
def Fits (n : Int) : Prop := -2 ^ 63 ≤ n ∧ n < 2 ^ 63

instance (n : Int) : Decidable (Fits n) := inferInstanceAs (Decidable (_ ∧ _))

def too_large : PyErr := .raised "OverflowError" "Python int too large to convert to SQLite INTEGER"

/-- `ORDER BY created_at ASC, message_id ASC`. -/
def row_le (a b : Row) : Bool :=
  a.created_at < b.created_at || (a.created_at = b.created_at && a.message_id ≤ b.message_id)

/-- The `WHERE` of the `SELECT` of `dequeue`. -/
def is_next (now : Int) (tenant_id queue_name : String) (row : Row) : Bool :=
  row.tenant_id = tenant_id && row.queue_name = queue_name && row.status = .pending &&
    row.available_at ≤ now

def select_next (rows : Rows) (now : Int) (tenant_id queue_name : String) : Option Row :=
  ((rows.filter (is_next now tenant_id queue_name)).insertionSort (row_le · ·)).head?

def select_inflight (rows : Rows) (message_id : String) : Option Row :=
  rows.find? (fun row => row.message_id = message_id && row.status = .inflight)

/-- `UPDATE queue_messages SET .. WHERE message_id = ?`. -/
def update_row (rows : Rows) (message_id : String) (change : Row → Row) : Rows :=
  rows.map (fun row => if row.message_id = message_id then change row else row)

def delete_row (rows : Rows) (message_id : String) : Rows :=
  rows.filter (fun row => row.message_id ≠ message_id)

/-! ## The calls -/

def enqueue (rows : Rows) (now : Int) (uuid_hex tenant_id queue_name : String)
    (payload : PyDict) (available_at : Option Int) : Rows × Except PyErr QueueMessage :=
  match (PyDict.getD payload "attempt" (.int 0)).toInt with
  | .error e => (rows, .error e)
  | .ok attempt =>
    if Fits attempt then
      let row : Row := {
        message_id := "msg_" ++ uuid_hex
        tenant_id := tenant_id
        queue_name := queue_name
        payload := payload
        attempt := attempt
        status := .pending
        available_at := available_at.getD now
        created_at := now
        updated_at := now }
      (rows ++ [row], .ok row.message)
    else (rows, .error too_large)

def dequeue (rows : Rows) (now : Int) (tenant_id queue_name : String) :
    Rows × Option QueueMessage :=
  match select_next rows now tenant_id queue_name with
  | none => (rows, none)
  | some row =>
    (update_row rows row.message_id (fun row => { row with status := .inflight, updated_at := now }),
      some row.message)

def ack (rows : Rows) (tenant_id message_id : String) : Rows × Except PyErr Unit :=
  match select_inflight rows message_id with
  | none => (rows, .ok ())
  | some row =>
    if row.tenant_id ≠ tenant_id then (rows, .error tenant_mismatch)
    else (delete_row rows message_id, .ok ())

/-- A message that is not put back stays in the table, as `discarded`. -/
def nack (rows : Rows) (now : Int) (tenant_id message_id : String) (requeue : Bool)
    (delay_ms : Int) : Rows × Except PyErr (Option QueueMessage) :=
  match select_inflight rows message_id with
  | none => (rows, .ok none)
  | some row =>
    if row.tenant_id ≠ tenant_id then (rows, .error tenant_mismatch)
    else
      let next_attempt := row.attempt + 1
      let status := if requeue then .pending else .discarded
      let available_at := if requeue then now + 1000 * max 0 delay_ms else row.available_at
      if Fits next_attempt then
        (update_row rows message_id (fun row => { row with
            attempt := next_attempt
            status := status
            available_at := available_at
            updated_at := now }),
          .ok (some { row.message with
            attempt := next_attempt
            available_at := some available_at }))
      else (rows, .error too_large)

def pending_count (rows : Rows) (tenant_id queue_name : String) : Nat :=
  (rows.filter (fun row => row.tenant_id = tenant_id && row.queue_name = queue_name &&
    row.status = .pending)).length

/-! ## One row -/

/-- The columns of a row that no statement sets. -/
structure Stamp where
  message_id : String
  tenant_id : String
  queue_name : String
  created_at : Int

def Row.stamp (row : Row) : Stamp :=
  ⟨row.message_id, row.tenant_id, row.queue_name, row.created_at⟩

/-- With names that are unique, an update changes the row of the name and no
other one. -/
theorem update_row_split {pre post : Rows} {row : Row} {change : Row → Row}
    (hpre : ∀ r ∈ pre, r.message_id ≠ row.message_id)
    (hpost : ∀ r ∈ post, r.message_id ≠ row.message_id) :
    update_row (pre ++ row :: post) row.message_id change = pre ++ change row :: post := by
  have hsame : ∀ rows : Rows, (∀ r ∈ rows, r.message_id ≠ row.message_id) →
      update_row rows row.message_id change = rows := by
    intro rows hne
    have hid : update_row rows row.message_id change = rows.map id :=
      List.map_congr_left fun r hr => if_neg (hne r hr)
    rw [hid, List.map_id]
  have hsplit : update_row (pre ++ row :: post) row.message_id change =
      update_row pre row.message_id change ++ change row ::
        update_row post row.message_id change := by
    simp [update_row]
  rw [hsplit, hsame pre hpre, hsame post hpost]

theorem delete_row_split {pre post : Rows} {row : Row}
    (hpre : ∀ r ∈ pre, r.message_id ≠ row.message_id)
    (hpost : ∀ r ∈ post, r.message_id ≠ row.message_id) :
    delete_row (pre ++ row :: post) row.message_id = pre ++ post := by
  have hsame : ∀ rows : Rows, (∀ r ∈ rows, r.message_id ≠ row.message_id) →
      delete_row rows row.message_id = rows := by
    intro rows hne
    exact List.filter_eq_self.2 fun r hr => decide_eq_true (hne r hr)
  have hsplit : delete_row (pre ++ row :: post) row.message_id =
      delete_row pre row.message_id ++ delete_row post row.message_id := by
    simp [delete_row]
  rw [hsplit, hsame pre hpre, hsame post hpost]

end bid_evaluation.sqlite_queue
