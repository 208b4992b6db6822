-- The two texts of a report. Its name comes from the text without blanks, and
-- its file has the text with them. The first decides the second.
import BidEvaluation.Lib.JsonSpaces
import BidEvaluation.Routes

open json_text bid_evaluation.values bid_evaluation.routes
open bid_evaluation.core (Env)

namespace bid_evaluation.report_json

/-! ## `json.dumps` with its own separators -/

def commaSpaceJoin : List String → String
  | [] => ""
  | [text] => text
  | text :: rest => text ++ ", " ++ commaSpaceJoin rest

def spacedMemberText (m : String × String) : String := stringText m.1 ++ ": " ++ m.2

mutual

/-- `json.dumps` with sorted keys and ASCII only. -/
def dumps_spaced (env : Env) : PyVal → String
  | .none => "null"
  | .bool b => if b then "true" else "false"
  | .int n => toString n
  | .float x => env.repr (.float x)
  | .str s => stringText s
  | .list items => "[" ++ commaSpaceJoin (spacedItems env items) ++ "]"
  | .dict entries =>
    "\x7b" ++ commaSpaceJoin ((sort_keys (spacedMembers env entries)).map spacedMemberText) ++ "\x7d"

def spacedItems (env : Env) : List PyVal → List String
  | [] => []
  | item :: rest => dumps_spaced env item :: spacedItems env rest

def spacedMembers (env : Env) : List (String × PyVal) → List (String × String)
  | [] => []
  | (key, value) :: rest => (key, dumps_spaced env value) :: spacedMembers env rest

end

/-! ## Texts and their blanks -/

/-- A scan of the first text gives the second, whatever follows. -/
def Spaces (text text' : String) : Prop :=
  ∀ rest, spaced .outside (text.toList ++ rest) = text'.toList ++ spaced .outside rest

theorem Spaces.append {a a' b b' : String} (h : Spaces a a') (h' : Spaces b b') :
    Spaces (a ++ b) (a' ++ b') := by
  intro rest
  rw [String.toList_append, String.toList_append, List.append_assoc, h, h', List.append_assoc]

theorem spaces_plain {text : String} (h : ∀ c ∈ text.toList, Plain c) : Spaces text text :=
  fun rest => spaced_outside h rest

theorem spaces_string (s : String) : Spaces (stringText s) (stringText s) :=
  fun rest => spaced_string s rest

theorem spaces_comma : Spaces "," ", " := fun _ => rfl

theorem spaces_colon : Spaces ":" ": " := fun _ => rfl

def respaced (text : String) : String := String.ofList (spaced .outside text.toList)

theorem Spaces.eq_respaced {text text' : String} (h : Spaces text text') : text' = respaced text := by
  have hall := h []
  rw [List.append_nil, spaced, List.append_nil] at hall
  unfold respaced
  rw [hall, String.ofList_toList]

theorem spaces_join {texts texts' : List String} (h : List.Forall₂ Spaces texts texts') :
    Spaces (commaJoin texts) (commaSpaceJoin texts') := by
  induction h with
  | nil => exact fun rest => rfl
  | cons hfirst hrest ih =>
    cases hrest with
    | nil => exact hfirst
    | cons hnext hrest => exact (hfirst.append spaces_comma).append ih

theorem plain_digits (n : Nat) : ∀ c ∈ (Nat.repr n).toList, Plain c := by
  intro c hc
  unfold Nat.repr at hc
  rw [String.toList_ofList] at hc
  have hdigit := Nat.isDigit_of_mem_toDigits (by decide) (by decide) hc
  refine ⟨?_, ?_, ?_, ?_⟩
  all_goals
    rintro rfl
    revert hdigit
    decide

theorem spaces_int (n : Int) : Spaces (toString n) (toString n) := by
  cases n with
  | ofNat n => exact spaces_plain (plain_digits n)
  | negSucc n =>
    have hminus : Spaces "-" "-" := fun _ => rfl
    exact hminus.append (spaces_plain (plain_digits (n + 1)))

/-- The text of a float is digits, a sign, a point and letters. -/
def FloatsPlain (env : Env) : Prop := ∀ x, ∀ c ∈ (env.repr (.float x)).toList, Plain c

/-! ## The law -/

variable {env : Env}

theorem sort_respaced (members : List (String × String)) :
    sort_keys (members.map fun m => (m.1, respaced m.2)) =
      (sort_keys members).map fun m => (m.1, respaced m.2) := by
  symm
  apply List.map_insertionSort
  exact fun _ _ _ _ => Iff.rfl

theorem spaces_members {members : List (String × String)}
    (h : ∀ m ∈ members, Spaces m.2 (respaced m.2)) :
    Spaces (commaJoin ((sort_keys members).map memberText))
      (commaSpaceJoin ((sort_keys (members.map fun m => (m.1, respaced m.2))).map spacedMemberText)) := by
  rw [sort_respaced, List.map_map]
  apply spaces_join
  rw [List.forall₂_map_left_iff, List.forall₂_map_right_iff, List.forall₂_same]
  intro m hm
  have hin : m ∈ members := (List.mem_insertionSort _).1 hm
  exact ((spaces_string m.1).append spaces_colon).append (h m hin)

mutual

theorem dumps_spaces (h : FloatsPlain env) : ∀ v, Spaces (dumps env v) (dumps_spaced env v)
  | .none => by
    rw [dumps, dumps_spaced]
    exact fun _ => rfl
  | .bool b => by
    rw [dumps, dumps_spaced]
    cases b <;> exact fun _ => rfl
  | .int n => by
    rw [dumps, dumps_spaced]
    exact spaces_int n
  | .float x => by
    rw [dumps, dumps_spaced]
    exact spaces_plain (h x)
  | .str s => by
    rw [dumps, dumps_spaced]
    exact spaces_string s
  | .list items => by
    have hopen : Spaces "[" "[" := fun _ => rfl
    have hclose : Spaces "]" "]" := fun _ => rfl
    rw [dumps, dumps_spaced]
    exact (hopen.append (spaces_join (items_space h items))).append hclose
  | .dict entries => by
    have hopen : Spaces "\x7b" "\x7b" := fun _ => rfl
    have hclose : Spaces "\x7d" "\x7d" := fun _ => rfl
    obtain ⟨hmembers, hall⟩ := members_space h entries
    rw [dumps, dumps_spaced, hmembers]
    exact (hopen.append (spaces_members hall)).append hclose

theorem items_space (h : FloatsPlain env) :
    ∀ items, List.Forall₂ Spaces (dumpsItems env items) (spacedItems env items)
  | [] => by
    rw [dumpsItems, spacedItems]
    exact .nil
  | item :: rest => by
    rw [dumpsItems, spacedItems]
    exact .cons (dumps_spaces h item) (items_space h rest)

theorem members_space (h : FloatsPlain env) : ∀ entries,
    spacedMembers env entries = (dumpsMembers env entries).map (fun m => (m.1, respaced m.2)) ∧
      ∀ m ∈ dumpsMembers env entries, Spaces m.2 (respaced m.2)
  | [] => by
    rw [dumpsMembers, spacedMembers]
    exact ⟨rfl, fun m hm => absurd hm List.not_mem_nil⟩
  | (key, value) :: rest => by
    have hvalue := dumps_spaces h value
    obtain ⟨hmembers, hall⟩ := members_space h rest
    rw [dumpsMembers, spacedMembers, List.map_cons, hmembers, ← hvalue.eq_respaced]
    refine ⟨rfl, fun m hm => ?_⟩
    rcases List.mem_cons.1 hm with rfl | hin
    · dsimp only
      rw [← hvalue.eq_respaced]
      exact hvalue
    · exact hall m hin

end

/-- Two values with one text without blanks have one text with them. -/
theorem dumps_decides (h : FloatsPlain env) {v v' : PyVal} (hsame : dumps env v = dumps env v') :
    dumps_spaced env v = dumps_spaced env v' := by
  rw [(dumps_spaces h v).eq_respaced, (dumps_spaces h v').eq_respaced, hsame]

end bid_evaluation.report_json
