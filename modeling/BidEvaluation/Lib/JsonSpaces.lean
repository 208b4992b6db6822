-- The blanks of a JSON text. A text without blanks decides the text with one
-- blank after each comma and colon: a scan that knows whether a string is open
-- puts them in.
import BidEvaluation.Lib.JsonText

namespace json_text

/-- Where a scan of a text stands. -/
inductive Scan where
  | outside
  | inside
  | escaped

/-- A blank after each comma and colon that is outside the strings. -/
def spaced : Scan → List Char → List Char
  | _, [] => []
  | .outside, c :: rest =>
    if c = quotation then c :: spaced .inside rest
    else if c = ',' ∨ c = ':' then c :: ' ' :: spaced .outside rest
    else c :: spaced .outside rest
  | .inside, c :: rest =>
    if c = quotation then c :: spaced .outside rest
    else if c = backslash then c :: spaced .escaped rest
    else c :: spaced .inside rest
  | .escaped, c :: rest => c :: spaced .inside rest

/-- A character that is no part of the layout. -/
def Plain (c : Char) : Prop := c ≠ quotation ∧ c ≠ backslash ∧ c ≠ ',' ∧ c ≠ ':'

theorem spaced_outside {l : List Char} (h : ∀ c ∈ l, Plain c) (rest : List Char) :
    spaced .outside (l ++ rest) = l ++ spaced .outside rest := by
  induction l with
  | nil => rfl
  | cons c l ih =>
    obtain ⟨hquotation, -, hcomma, hcolon⟩ := h c List.mem_cons_self
    rw [List.cons_append, spaced, if_neg hquotation, if_neg (not_or.2 ⟨hcomma, hcolon⟩),
      ih fun d hd => h d (List.mem_cons_of_mem c hd), List.cons_append]

theorem spaced_inside {c : Char} (hquotation : c ≠ quotation) (hbackslash : c ≠ backslash)
    (rest : List Char) : spaced .inside (c :: rest) = c :: spaced .inside rest := by
  rw [spaced, if_neg hquotation, if_neg hbackslash]

theorem spaced_escape (letter : Char) (rest : List Char) :
    spaced .inside (backslash :: letter :: rest) = backslash :: letter :: spaced .inside rest := by
  rw [spaced, if_neg (by decide), if_pos rfl, spaced]

theorem hexDigit_plain (n : Nat) : hexDigit (n % 16) ≠ quotation ∧ hexDigit (n % 16) ≠ backslash := by
  have hall : ∀ m < 16, hexDigit m ≠ quotation ∧ hexDigit m ≠ backslash := by decide
  exact hall _ (Nat.mod_lt n (by decide))

theorem spaced_unit (n : Nat) (rest : List Char) :
    spaced .inside (unitText n ++ rest) = unitText n ++ spaced .inside rest := by
  have hdigit : ∀ m rest, spaced .inside (hexDigit (m % 16) :: rest) =
      hexDigit (m % 16) :: spaced .inside rest :=
    fun m rest => spaced_inside (hexDigit_plain m).1 (hexDigit_plain m).2 rest
  unfold unitText
  simp only [List.cons_append, List.nil_append]
  rw [spaced_escape, hdigit, hdigit, hdigit, hdigit]

theorem spaced_char (c : Char) (rest : List Char) :
    spaced .inside (charText c ++ rest) = charText c ++ spaced .inside rest := by
  have hshort : ∀ d, shortEscape d.toNat ≠ none → c ≠ d ∨ shortEscape c.toNat ≠ none := by
    intro d hd
    by_cases h : c = d
    · exact .inr (h ▸ hd)
    · exact .inl h
  unfold charText
  split
  · exact spaced_escape _ rest
  · rename_i hnone
    split
    · rw [List.singleton_append, List.singleton_append]
      apply spaced_inside
      · exact (hshort quotation (by decide)).resolve_right (not_not.2 hnone)
      · exact (hshort backslash (by decide)).resolve_right (not_not.2 hnone)
    · split
      · exact spaced_unit _ rest
      · rw [List.append_assoc, List.append_assoc, spaced_unit, spaced_unit]

/-- Nothing is put into a string. -/
theorem spaced_string (s : String) (rest : List Char) :
    spaced .outside ((stringText s).toList ++ rest) =
      (stringText s).toList ++ spaced .outside rest := by
  have hletters : ∀ l : List Char, spaced .inside (l.flatMap charText ++ [quotation] ++ rest) =
      l.flatMap charText ++ [quotation] ++ spaced .outside rest := by
    intro l
    induction l with
    | nil =>
      rw [List.flatMap_nil, List.nil_append, List.singleton_append, List.singleton_append, spaced,
        if_pos rfl]
    | cons c l ih =>
      rw [List.flatMap_cons, List.append_assoc, List.append_assoc, spaced_char, ← List.append_assoc, ih]
      simp only [List.append_assoc]
  unfold stringText
  rw [String.toList_ofList, List.singleton_append, List.cons_append, List.cons_append, spaced,
    if_pos rfl, hletters]
  rfl

end json_text
